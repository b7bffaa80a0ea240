import Tabeld.Shared.ByteOrder

set_option autoImplicit false

/-!
# ttypes.h and structures.h

Integers of fixed width are `UInt8`, `UInt16` and `UInt32`; a route index is a `BitVec 32` because
its bits are shifted and masked.
-/

namespace Tabeld

/-- `u128`: sixteen bytes, which the union also shows as words in the host's byte order. -/
structure Addr6 where
  b : List UInt8
  size : b.length = 16
  deriving DecidableEq

structure Addr4 where
  b : List UInt8
  size : b.length = 4
  deriving DecidableEq

namespace Addr6

def d (host : ByteOrder) (a : Addr6) (i : Nat) : Nat := host.load ((a.b.drop (8 * i)).take 8)

def f (host : ByteOrder) (a : Addr6) (i : Nat) : Nat := host.load ((a.b.drop (4 * i)).take 4)

def z (host : ByteOrder) (a : Addr6) : Nat := a.f host 2

def w (host : ByteOrder) (a : Addr6) : Nat := a.f host 3

def ofWords (host : ByteOrder) (x y z w : Nat) : Addr6 where
  b := host.store 4 x ++ host.store 4 y ++ host.store 4 z ++ host.store 4 w
  size := by simp

def zero : Addr6 := ⟨List.replicate 16 0, rfl⟩

end Addr6

namespace Addr4

def v (host : ByteOrder) (a : Addr4) : Nat := host.load a.b

def ofV (host : ByteOrder) (v : Nat) : Addr4 := ⟨host.store 4 v, by simp⟩

end Addr4

def htobe32 (host : ByteOrder) (word : Nat) : Nat := host.toBig 4 word

abbrev RteIdx := BitVec 32

def isV6 : RteIdx := 0
def isV4 : RteIdx := 1
def isSs : RteIdx := 2
def isMartian : RteIdx := 4
def isLl : RteIdx := 8
def isDefault : RteIdx := 16
def isFiltered : RteIdx := 32
def isEnabled : RteIdx := 64
def isV4ss : RteIdx := isV4 ||| isSs
def rteTagSize : Nat := 7

structure Rte where
  src : Addr6
  dst : Addr6
  srcPlen : UInt8
  dstPlen : UInt8
  deriving DecidableEq

structure Rte4 where
  dst : Addr4
  dstPlen : UInt8
  via : UInt16
  hh : UInt32
  deriving DecidableEq

structure Rte4s where
  src : Addr4
  dst : Addr4
  srcPlen : UInt8
  dstPlen : UInt8
  via : UInt16
  hh : UInt32
  deriving DecidableEq

structure Rte6 where
  dst : Addr6
  dstPlen : UInt8
  via : UInt16
  hh : UInt32
  deriving DecidableEq

structure Rte6s where
  src : Addr6
  dst : Addr6
  srcPlen : UInt8
  dstPlen : UInt8
  via : UInt16
  hh : UInt32
  deriving DecidableEq

end Tabeld
