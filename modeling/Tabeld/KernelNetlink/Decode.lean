import Tabeld.KernelNetlink.Read
import Tabeld.Shared.Attributes
import Tabeld.Util

set_option autoImplicit false

/-!
# filter_netlink and the decoders

Pointers are offsets from NLMSG_DATA. A decoder that fills a record through a pointer gets the
record's old content and returns the new one beside its result.
-/

namespace Tabeld.KernelNetlink

open Decoder Kdump

def rtmNewaddr : BitVec 16 := 20
def rtmDeladdr : BitVec 16 := 21
def rtmNewroute : BitVec 16 := 24
def rtmDelroute : BitVec 16 := 25
def rtmNewrule : BitVec 16 := 32
def rtmDelrule : BitVec 16 := 33

def rtaDst : Nat := 1
def rtaSrc : Nat := 2
def rtaOif : Nat := 4
def rtaGateway : Nat := 5
def rtaPriority : Nat := 6
def rtaTable : Nat := 15
def iflaIfname : Nat := 3
def ifaAddress : Nat := 1
def ifaLocal : Nat := 2
def fraUnspec : Nat := 0
def fraSrc : Nat := 2
def fraPriority : Nat := 6
def fraTable : Nat := 15

def afInet : Nat := 2
def afInet6 : Nat := 10
def rtprotBabel : Nat := 42
def rtmFCloned : Nat := 0x200
def kernelInfinity : Int := 0xFFFF

structure KernelRoute where
  dstPrefix : Addr6
  srcPrefix : Addr6
  plen : Nat
  srcPlen : Nat
  metric : Int
  ifindex : BitVec 32
  proto : Nat
  gw : Addr6
  deriving DecidableEq

structure KernelAddr where
  addr : Addr6
  ifindex : BitVec 32
  deriving DecidableEq

structure KernelLink where
  -- none is a null pointer
  ifname : Option Nat
  deriving DecidableEq

@[ext] structure KernelRule where
  priority : BitVec 32
  src : Addr6
  srcPlen : Nat
  table : BitVec 32
  deriving DecidableEq

def KernelRoute.cleared : KernelRoute where
  dstPrefix := .zero
  srcPrefix := .zero
  plen := 0
  srcPlen := 0
  metric := 0
  ifindex := 0
  proto := 0
  gw := .zero

variable {ρ : Type} (host : ByteOrder) (debug : Nat)

def int (start : Nat) : Decoder ρ (BitVec 32) := do
  let w ← word host start 4
  return BitVec.ofNat 32 w

def in4 (start : Nat) : Decoder ρ Addr6 := do
  -- v4tov6
  let b ← copy start 4
  return toV6 ⟨b.val, b.property⟩

def in6 (start : Nat) : Decoder ρ Addr6 := do
  let b ← copy start 16
  return ⟨b.val, b.property⟩

/-- What only the debugging output of `level` reads. -/
def debugging (level : Nat) (d : Decoder ρ Unit) : Decoder ρ Unit :=
  if level ≤ debug then d else return

def getPlen (p : Nat) (v4 : Bool) : Nat := if v4 then p + 96 else p

def copyAddr (rta : Attribute) (v4 : Bool) (truncated : ρ) : Decoder ρ Addr6 :=
  if rta.payload < (if v4 then 4 else 16) then stop truncated
  else if v4 then in4 rta.data
  else in6 rta.data

section Routes

variable (importTables : List (BitVec 32))

structure RouteParse where
  route : KernelRoute
  table : BitVec 32
  deriving DecidableEq

def routeRta (rtm : Nat) (isV4 : Bool) (rta : Attribute) (s : RouteParse) :
    Decoder (Int × KernelRoute) RouteParse :=
  if rta.type = rtaDst then do
    let dstLen ← word host (rtm + 1) 1
    let route := { s.route with plen := getPlen dstLen isV4 }
    let address ← copyAddr rta isV4 (-1, route)
    return { s with route := { route with dstPrefix := address } }
  else if rta.type = rtaSrc then do
    let srcLen ← word host (rtm + 2) 1
    let route := { s.route with srcPlen := getPlen srcLen isV4 }
    let address ← copyAddr rta isV4 (-1, route)
    return { s with route := { route with srcPrefix := address } }
  else if rta.type = rtaGateway then do
    let address ← copyAddr rta isV4 (-1, s.route)
    return { s with route := { s.route with gw := address } }
  else if rta.type = rtaOif then do
    let ifindex ← int host rta.data
    return { s with route := { s.route with ifindex := ifindex } }
  else if rta.type = rtaPriority then do
    let priority ← int host rta.data
    let metric := priority.toInt
    return { s with route := { s.route with
      metric := if metric < 0 ∨ kernelInfinity < metric then kernelInfinity else metric } }
  else if rta.type = rtaTable then do
    let table ← int host rta.data
    return { s with table := table }
  else return s

def clearedFor (isV4 : Bool) : KernelRoute :=
  let zeroes : Addr4 := ⟨List.replicate 4 0, rfl⟩
  if isV4 then
    { KernelRoute.cleared with dstPrefix := toV6 zeroes, srcPrefix := toV6 zeroes, plen := 96 }
  else .cleared

-- the instance is named here so that every module decides it the same way
instance decidableMemTables (table : BitVec 32) (tables : List (BitVec 32)) :
    Decidable (table ∈ tables) :=
  decidable_of_iff _ List.contains_iff_mem

def parseKernelRouteRta (rtm : Nat) (len : Int) : Decoder ρ (Int × KernelRoute) := call do
  let table ← word host (rtm + 4) 1
  let family ← word host rtm 1
  let isV4 := decide (family = afInet)
  let proto ← word host (rtm + 5) 1
  let s ← Attributes.each host (routeRta host rtm isV4) (rtm + 12) (len - 12)
    { route := { clearedFor isV4 with proto := proto }, table := BitVec.ofNat 32 table }
  return (if s.table ∈ importTables then 0 else -1, s.route)

def filterKernelRoutes (nh : Nlmsghdr) (route : KernelRoute) : Decoder ρ (Int × KernelRoute) :=
  if nh.type ≠ rtmNewroute ∧ nh.type ≠ rtmDelroute then return (0, route)
  else do
    let rtm := 0
    let len := nh.len.toInt - 16
    let protocol ← word host (rtm + 5) 1
    if protocol = rtprotBabel then return (0, route)
    else do
      let flags ← word host (rtm + 8) 4
      if flags &&& rtmFCloned ≠ 0 then return (0, route)
      else do
        let parsed ← parseKernelRouteRta host importTables rtm len
        let route := parsed.2
        if parsed.1 < 0 then return (0, route)
        else if route.plen = 0 ∧ kernelInfinity ≤ route.metric then return (0, route)
        else do
          -- print_kernel_route is also told rtm_type
          let _ ← debugging debug 2 do
            let _ ← word (ρ := ρ) host (rtm + 7) 1
            return
          return (1, route)

end Routes

def ifnameRta (rta : Attribute) (ifname : Option Nat) : Decoder ρ (Option Nat) :=
  if rta.type = iflaIfname then return some rta.data else return ifname

def parseIfnameRta (info : Nat) (len : Int) : Decoder ρ (Option Nat) :=
  Attributes.each host ifnameRta (info + 16) (len - 16) none

def filterLink (nh : Nlmsghdr) (link : KernelLink) : Decoder ρ (Int × KernelLink) :=
  if nh.type ≠ rtmNewlink ∧ nh.type ≠ rtmDellink then return (0, link)
  else do
    let info := 0
    let len := nh.len.toInt - 16
    let _ifindex ← int host (info + 4)
    let _ifflags ← int host (info + 8)
    let ifname ← parseIfnameRta host info len
    match ifname with
    | none => return (0, { link with ifname := none })
    | some name => do
      let _ ← debugging debug 3 (string name)
      return (1, { link with ifname := some name })

structure AddrParse where
  hasLocal : Bool
  res : Addr6
  deriving DecidableEq

def addrRta (addr : Nat) (rta : Attribute) (s : AddrParse) : Decoder (Int × Addr6) AddrParse :=
  if rta.type = ifaLocal ∨ rta.type = ifaAddress then do
    -- IFA_LOCAL falls through to IFA_ADDRESS
    let hasLocal := s.hasLocal || rta.type = ifaLocal
    let family ← word host addr 1
    if family = afInet ∨ family = afInet6 then do
      let res ← if family = afInet then in4 rta.data else in6 rta.data
      if hasLocal then stop (0, res) else return { hasLocal := hasLocal, res := res }
    else stop (-1, s.res)
  else return s

def parseAddrRta (addr : Nat) (len : Int) (res : Addr6) : Decoder ρ (Int × Addr6) := call do
  let s ← Attributes.each host (addrRta host addr) (addr + 8) (len - 8)
    { hasLocal := false, res := res }
  return (0, s.res)

def filterAddresses (nh : Nlmsghdr) (addr : KernelAddr) : Decoder ρ (Int × KernelAddr) :=
  if nh.type ≠ rtmNewaddr ∧ nh.type ≠ rtmDeladdr then return (0, addr)
  else do
    let ifa := 0
    let len := nh.len.toInt - 16
    let parsed ← parseAddrRta host ifa len addr.addr
    let addr := { addr with addr := parsed.2 }
    if parsed.1 < 0 then return (0, addr)
    else do
      let index ← int host (ifa + 4)
      return (1, { addr with ifindex := index })

structure RuleParse where
  rule : KernelRule
  hasPriority : Bool
  hasTable : Bool
  deriving DecidableEq

def ruleRta (rtm : Nat) (isV4 : Bool) (rta : Attribute) (s : RuleParse) :
    Decoder (Int × KernelRule) RuleParse :=
  if rta.type = fraUnspec then return s
  else if rta.type = fraSrc then do
    let srcLen ← word host (rtm + 2) 1
    let rule := { s.rule with srcPlen := getPlen srcLen isV4 }
    let address ← copyAddr rta isV4 (-1, rule)
    return { s with rule := { rule with src := address } }
  else if rta.type = fraPriority then do
    let priority ← int host rta.data
    return { s with rule := { s.rule with priority := priority }, hasPriority := true }
  else if rta.type = fraTable then do
    let table ← int host rta.data
    return { s with rule := { s.rule with table := table }, hasTable := true }
  else return s

def filterKernelRules (nh : Nlmsghdr) (rule : KernelRule) : Decoder ρ (Int × KernelRule) := call do
  let rtm := 0
  let len := nh.len.toInt - 16
  let srcLen ← word host (rtm + 2) 1
  let table ← word host (rtm + 4) 1
  let rule := { rule with srcPlen := srcLen, src := .zero, table := BitVec.ofNat 32 table }
  let family ← word host rtm 1
  if family ≠ afInet ∧ family ≠ afInet6 then return (-1, rule)
  else do
    let s ← Attributes.each host (ruleRta host rtm (family = afInet)) (rtm + 12) (len - 12)
      { rule := rule, hasPriority := false, hasTable := false }
    if !s.hasPriority || !s.hasTable then return (0, s.rule)
    else return (1, s.rule)

inductive Record where
  | route (r : KernelRoute)
  | link (r : KernelLink)
  | addr (r : KernelAddr)
  | rule (r : KernelRule)
  deriving DecidableEq

/-- The callbacks; `κ` is the state behind their closures. -/
structure KernelFilter (κ : Type) where
  route : Option (KernelRoute → κ → κ × Int)
  addr : Option (KernelAddr → κ → κ × Int)
  link : Option (KernelLink → κ → κ × Int)
  rule : Option (KernelRule → κ → κ × Int)

/-- What the union in `filter_netlink` shows of the stack before a decoder fills it. -/
structure Scratch where
  route : KernelRoute
  addr : KernelAddr
  link : KernelLink
  rule : KernelRule

def Scratch.cleared : Scratch where
  route := .cleared
  addr := { addr := .zero, ifindex := 0 }
  link := { ifname := none }
  rule := { priority := 0, src := .zero, srcPlen := 0, table := 0 }

structure Verdict (κ : Type) where
  closure : κ
  rc : Int
  -- the record that a callback was called with
  record : Option Record

variable {κ : Type}

def filterWith {R : Type} (callback : Option (R → κ → κ × Int)) (decode : Decoder ρ (Int × R))
    (wrap : R → Record) (closure : κ) : Decoder ρ (Verdict κ) :=
  match callback with
  | none => return { closure := closure, rc := 0, record := none }
  | some call => do
    let decoded ← decode
    if decoded.1 ≤ 0 then return { closure := closure, rc := 0, record := none }
    else
      let called := call decoded.2 closure
      return { closure := called.1, rc := called.2, record := some (wrap decoded.2) }

def filterNetlink (importTables : List (BitVec 32)) (u : Scratch) (filter : KernelFilter κ)
    (nh : Nlmsghdr) (closure : κ) : Decoder ρ (Verdict κ) :=
  if nh.type = rtmNewroute ∨ nh.type = rtmDelroute then
    filterWith filter.route (filterKernelRoutes host debug importTables nh u.route) .route closure
  else if nh.type = rtmNewlink ∨ nh.type = rtmDellink then
    filterWith filter.link (filterLink host debug nh u.link) .link closure
  else if nh.type = rtmNewaddr ∨ nh.type = rtmDeladdr then
    filterWith filter.addr (filterAddresses host nh u.addr) .addr closure
  else if nh.type = rtmNewrule ∨ nh.type = rtmDelrule then
    filterWith filter.rule (filterKernelRules host nh u.rule) .rule closure
  else return { closure := closure, rc := 0, record := none }

/-- What a call of `filter_netlink` finds that the message does not determine. -/
structure Surroundings where
  u : Scratch
  -- the bytes after the message
  beyond : Memory

structure Filtering (κ : Type) where
  closure : κ
  -- what the callbacks were called with, and what each call of the filter has read
  calls : List (Message × Record)
  reads : List (Message × List Access)

def asFilter (importTables : List (BitVec 32)) (filter : KernelFilter κ)
    (around : Nat → Surroundings) : Filter (Filtering κ) := fun s m =>
  let found := around s.reads.length
  let mem := Memory.ofBytes m.data found.beyond
  let body : Decoder (Verdict κ) (Verdict κ) :=
    filterNetlink host debug importTables found.u filter m.hdr s.closure
  let verdict := body.result mem
  ({ closure := verdict.closure
     calls := s.calls ++ (verdict.record.map fun record => (m, record)).toList
     reads := s.reads ++ [(m, body.accesses mem)] }, verdict.rc)

end Tabeld.KernelNetlink
