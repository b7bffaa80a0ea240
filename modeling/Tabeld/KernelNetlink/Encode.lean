import Tabeld.KernelNetlink.Command
import Tabeld.KernelNetlink.Decode
import Tabeld.Shared.AttributeWriter

set_option autoImplicit false

/-!
# The messages of kernel_route and add_rule

A message is built in a zeroed buffer: the header is kept apart, the rest starts at address 16.
-/

namespace Tabeld.KernelNetlink

open Attributes Kdump

def nlmFExcl : BitVec 16 := 0x200
def nlmFCreate : BitVec 16 := 0x400

def rtScopeUniverse : UInt8 := 0
def rtnUnicast : UInt8 := 1
def rtnUnreachable : UInt8 := 7
def rtnhFOnlink : BitVec 32 := 4

structure Rtmsg where
  family : UInt8
  dstLen : UInt8
  srcLen : UInt8
  tos : UInt8
  table : UInt8
  protocol : UInt8
  scope : UInt8
  type : UInt8
  flags : BitVec 32
  deriving DecidableEq

def Rtmsg.image (host : ByteOrder) (r : Rtmsg) : List UInt8 :=
  [r.family, r.dstLen, r.srcLen, r.tos, r.table, r.protocol, r.scope, r.type] ++
    host.store 4 r.flags.toNat

structure RouteSpec where
  dest : Addr6
  plen : UInt16
  src : Addr6
  srcPlen : UInt16
  gate : Addr6
  ifindex : BitVec 32
  metric : BitVec 32
  deriving DecidableEq

namespace RouteSpec

def ipv4 (r : RouteSpec) : Bool := decide (V4Mapped r.gate)

def reachable (r : RouteSpec) : Bool := decide (r.metric.toNat < kernelInfinity)

def Consistent (r : RouteSpec) : Prop :=
  if 96 ≤ r.plen.toNat ∧ V4Mapped r.dest then V4Mapped r.gate ∧ V4Mapped r.src
  else ¬(V4Mapped r.gate ∨ V4Mapped r.src)

instance (r : RouteSpec) : Decidable r.Consistent :=
  inferInstanceAs (Decidable (if 96 ≤ r.plen.toNat ∧ V4Mapped r.dest then _ ∧ _ else ¬(_ ∨ _)))

def Ignored (r : RouteSpec) : Prop :=
  kernelInfinity ≤ r.metric.toNat ∧ (r.plen.toNat = 0 ∨ r.ipv4 ∧ r.plen.toNat = 96)

instance (r : RouteSpec) : Decidable r.Ignored :=
  inferInstanceAs (Decidable (_ ∧ (_ ∨ _ ∧ _)))

end RouteSpec

variable (host : ByteOrder)

section Routes

-- has_ipv6_subtrees
variable (subtrees : Bool)

def kernelDisambiguate (v4 : Bool) : Bool := !v4 && subtrees

def useSrc (r : RouteSpec) : Bool :=
  !Util.isDefault r.src r.srcPlen.toNat && kernelDisambiguate subtrees r.ipv4

theorem useSrc_iff (r : RouteSpec) : useSrc subtrees r = true ↔
    subtrees = true ∧ r.ipv4 = false ∧ Util.isDefault r.src r.srcPlen.toNat = false := by
  unfold useSrc kernelDisambiguate
  cases subtrees <;> cases r.ipv4 <;> simp

def routeRtm (table : BitVec 32) (r : RouteSpec) : Rtmsg where
  family := UInt8.ofNat (if r.ipv4 then afInet else afInet6)
  -- an assignment to a field of eight bits keeps the low ones
  dstLen := if r.ipv4 then UInt8.ofNat r.plen.toNat - 96 else UInt8.ofNat r.plen.toNat
  srcLen := if useSrc subtrees r then UInt8.ofNat r.srcPlen.toNat else 0
  tos := 0
  table := UInt8.ofNat table.toNat
  protocol := UInt8.ofNat rtprotBabel
  scope := rtScopeUniverse
  type := if r.reachable then rtnUnicast else rtnUnreachable
  flags := if r.reachable then rtnhFOnlink else 0

def putPrefixes (r : RouteSpec) (w : Writer) : Writer :=
  if r.ipv4 then w.put host rtaDst (r.dest.b.drop 12)
  else
    let w := w.put host rtaDst r.dest.b
    if useSrc subtrees r then w.put host rtaSrc r.src.b else w

def putNexthop (r : RouteSpec) (w : Writer) : Writer :=
  if r.reachable then
    let w := w.put host rtaPriority (host.store 4 r.metric.toNat)
    let w := w.put host rtaOif (host.store 4 r.ifindex.toNat)
    if r.ipv4 then w.put host rtaGateway (r.gate.b.drop 12) else w.put host rtaGateway r.gate.b
  else w.put host rtaPriority (host.store 4 (BitVec.ofInt 32 (-1)).toNat)

inductive Operation where
  | flush
  | add
  | modify
  deriving DecidableEq

def routeMessage (operation : Operation) (table : BitVec 32) (r : RouteSpec) : Message :=
  let w : Writer :=
    { mem := Memory.zeroed.write 16 ((routeRtm subtrees table r).image host), rta := 28 }
  let w := putNexthop host r (putPrefixes host subtrees r w)
  let len := w.stop host
  { hdr :=
      { len := BitVec.ofNat 32 len
        type := if operation = .add then rtmNewroute else rtmDelroute
        flags := if operation = .add then nlmFRequest ||| nlmFCreate ||| nlmFExcl else nlmFRequest
        seq := 0
        pid := 0 }
    data := w.mem.bytes 16 (len - 16) }

end Routes

section Contents

variable (subtrees : Bool)

def prefixAttrs (r : RouteSpec) : List (Nat × List UInt8) :=
  if r.ipv4 then [(rtaDst, r.dest.b.drop 12)]
  else (rtaDst, r.dest.b) :: if useSrc subtrees r then [(rtaSrc, r.src.b)] else []

def nexthopAttrs (r : RouteSpec) : List (Nat × List UInt8) :=
  if r.reachable then
    [(rtaPriority, host.store 4 r.metric.toNat), (rtaOif, host.store 4 r.ifindex.toNat),
      (rtaGateway, if r.ipv4 then r.gate.b.drop 12 else r.gate.b)]
  else [(rtaPriority, host.store 4 (BitVec.ofInt 32 (-1)).toNat)]

def routeAttrs (r : RouteSpec) : List (Nat × List UInt8) :=
  prefixAttrs subtrees r ++ nexthopAttrs host r

@[simp] theorem Rtmsg.length_image (r : Rtmsg) : (r.image host).length = 12 := by
  simp [Rtmsg.image]

theorem storable_address (type : Nat) (bound : type < 65536) (a : Addr6) : Storable type a.b := by
  have size := a.size
  exact ⟨bound, by omega⟩

theorem storable_address4 (type : Nat) (bound : type < 65536) (a : Addr6) :
    Storable type (a.b.drop 12) := by
  have size := a.size
  exact ⟨bound, by rw [List.length_drop]; omega⟩

theorem storable_int (type : Nat) (bound : type < 65536) (value : Nat) :
    Storable type (host.store 4 value) :=
  ⟨bound, by rw [ByteOrder.length_store]; omega⟩

theorem putPrefixes_correct {base : Memory} {start : Nat} {w : Writer} (r : RouteSpec)
    (written : Written host base start [] w) :
    Written host base start (prefixAttrs subtrees r) (putPrefixes host subtrees r w) := by
  unfold prefixAttrs putPrefixes
  cases r.ipv4
  · have first := written.put host (storable_address rtaDst (by decide) r.dest)
    cases useSrc subtrees r
    · exact first
    · exact first.put host (storable_address rtaSrc (by decide) r.src)
  · exact written.put host (storable_address4 rtaDst (by decide) r.dest)

theorem putNexthop_correct {base : Memory} {start : Nat} {w : Writer} (r : RouteSpec)
    {attrs : List (Nat × List UInt8)} (written : Written host base start attrs w) :
    Written host base start (attrs ++ nexthopAttrs host r) (putNexthop host r w) ∧
      (putNexthop host r w).stop host =
        start + (images host (attrs ++ nexthopAttrs host r)).length := by
  have size := r.gate.size
  unfold nexthopAttrs putNexthop
  cases r.reachable
  · have storable := storable_int host rtaPriority (by decide) (BitVec.ofInt 32 (-1)).toNat
    exact ⟨written.put host storable, written.stop_put host storable (by simp)⟩
  · have first := written.put host (storable_int host rtaPriority (by decide) r.metric.toNat)
    have second := first.put host (storable_int host rtaOif (by decide) r.ifindex.toNat)
    rw [List.append_assoc, List.singleton_append] at second
    cases r.ipv4
    · have storable := storable_address rtaGateway (by decide) r.gate
      have third := second.put host storable
      have stop := second.stop_put host storable (by omega)
      rw [List.append_assoc] at third stop
      exact ⟨third, stop⟩
    · have storable := storable_address4 rtaGateway (by decide) r.gate
      have third := second.put host storable
      have stop := second.stop_put host storable (by rw [List.length_drop]; omega)
      rw [List.append_assoc] at third stop
      exact ⟨third, stop⟩

theorem length_routeAttrs (r : RouteSpec) :
    (images host (routeAttrs host subtrees r)).length ≤ 76 := by
  have dest := r.dest.size
  have src := r.src.size
  have gate := r.gate.size
  unfold routeAttrs prefixAttrs nexthopAttrs
  cases r.ipv4 <;> cases useSrc subtrees r <;> cases r.reachable <;>
    simp [align, dest, src, gate]

theorem routeMessage_contents (operation : Operation) (table : BitVec 32) (r : RouteSpec) :
    (routeMessage host subtrees operation table r).data =
        (routeRtm subtrees table r).image host ++ images host (routeAttrs host subtrees r) ∧
      (routeMessage host subtrees operation table r).hdr.len.toNat =
        16 + (routeMessage host subtrees operation table r).data.length := by
  obtain ⟨image, same⟩ : ∃ image, image = (routeRtm subtrees table r).image host := ⟨_, rfl⟩
  have length : image.length = 12 := by rw [same, Rtmsg.length_image]
  have clear (address : Nat) (low : 28 ≤ address) : Memory.zeroed.write 16 image address = 0 := by
    rw [Memory.write_other _ (by omega)]
    rfl
  have prefixes := putPrefixes_correct host subtrees r (written_nil host clear)
  obtain ⟨written, stop⟩ := putNexthop_correct host r prefixes
  have header : Memory.Holds (putNexthop host r (putPrefixes host subtrees r
      { mem := Memory.zeroed.write 16 image, rta := 28 })).mem 16 image := by
    apply (Memory.holds_write Memory.zeroed 16 image).congr
    intro address low high
    exact (written.laid.before address (by omega)).symm
  have bound := length_routeAttrs host subtrees r
  rw [routeAttrs] at bound
  have contents := (Memory.holds_append _ 16 image _).mpr
    ⟨header, by rw [length]; exact written.laid.holds⟩
  simp only [routeMessage, ← same, stop, routeAttrs]
  rw [show 28 + (images host (prefixAttrs subtrees r ++ nexthopAttrs host r)).length - 16 =
    (image ++ images host (prefixAttrs subtrees r ++ nexthopAttrs host r)).length by
      rw [List.length_append, length]; omega]
  refine ⟨contents, ?_⟩
  rw [Memory.length_bytes, List.length_append, length, BitVec.toNat_ofNat]
  omega

end Contents

def ruleRtm (isV4 : Bool) (srcPlen : UInt8) (table : BitVec 32) : Rtmsg where
  family := UInt8.ofNat (if isV4 then afInet else afInet6)
  dstLen := 0
  srcLen := srcPlen
  tos := 0
  table := UInt8.ofNat table.toNat
  protocol := UInt8.ofNat rtprotBabel
  scope := rtScopeUniverse
  type := rtnUnicast
  flags := 0

def ruleBuffer (rtm : Rtmsg) (prio : BitVec 32) (address : List UInt8) : Option Message :=
  let mem := Memory.zeroed.write 16 (rtm.image host)
  -- the attributes are laid end to end
  let currentAttribute := 28
  let mem := putAt host mem currentAttribute fraPriority (host.store 4 prio.toNat)
  let currentAttribute := currentAttribute + 8
  let mem := putAt host mem currentAttribute fraSrc address
  let len := currentAttribute + (4 + address.length)
  if 64 < len then none
  else
    some
      { hdr :=
          { len := BitVec.ofNat 32 len
            type := rtmNewrule
            flags := nlmFRequest ||| nlmFCreate ||| nlmFExcl
            seq := 0
            pid := 0 }
        data := mem.bytes 16 (len - 16) }

/-- The message of `add_rule`, unless that fails before there is one. -/
def ruleMessage (prio : BitVec 32) (srcPrefix : Addr6) (srcPlen : BitVec 32)
    (table : BitVec 32) : Option Message :=
  let isV4 := decide (V4Mapped srcPrefix)
  let address := if isV4 then srcPrefix.b.drop 12 else srcPrefix.b
  let srcPlen := if isV4 then srcPlen.toInt - 96 else srcPlen.toInt
  if isV4 ∧ srcPlen < 0 then none
  else ruleBuffer host (ruleRtm isV4 (UInt8.ofInt srcPlen) table) prio address

end Tabeld.KernelNetlink
