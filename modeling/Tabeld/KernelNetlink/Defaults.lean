import Tabeld.KernelNetlink.Import

set_option autoImplicit false

namespace Tabeld.KernelNetlink

open Attributes Decoder Kdump

variable (host : ByteOrder) (debug : Nat) (importTables : List (BitVec 32))

def UnreachableDefault (r : KernelRoute) : Prop :=
  Util.isDefault r.dstPrefix r.plen = true ∧ kernelInfinity ≤ r.metric

theorem unreachableDefault_decodedRoute (subtrees : Bool) {r : RouteSpec}
    (consistent : r.Consistent) (plen : r.plen.toNat ≤ 128) (srcPlen : r.srcPlen.toNat ≤ 128) :
    UnreachableDefault (decodedRoute subtrees r) ↔ r.Ignored := by
  have decoded := decodedRoute_roundTrip subtrees consistent plen srcPlen
  have infinite : kernelInfinity ≤ min (r.metric.toNat : Int) kernelInfinity ↔
      kernelInfinity ≤ r.metric.toNat := by omega
  have family : r.plen.toNat = 96 → (V4Mapped r.dest ↔ r.ipv4 = true) := fun long => by
    simp [consistent.ipv4_iff, long]
  rw [UnreachableDefault, RouteSpec.Ignored, decoded.dst.1, decoded.dst.2, decoded.metric, infinite,
    and_comm]
  apply and_congr_right
  intro _
  simp only [Util.isDefault, Bool.or_eq_true, beq_iff_eq, Bool.and_eq_true, decide_eq_true_iff]
  apply or_congr_right
  rw [and_comm]
  exact and_congr_left family

structure IgnoresUnreachable (nh : Nlmsghdr) (mem : Memory) : Prop where
  ignored : ∀ route decoded,
    (filterKernelRoutes host debug importTables nh route : Decoder Unit _).value mem =
      .ok decoded → UnreachableDefault decoded.2 → decoded.1 = 0
  only : ∀ route decoded,
    (filterKernelRoutes host debug importTables nh route : Decoder Unit _).value mem =
      .ok decoded → Accepted host importTables nh mem → ¬UnreachableDefault decoded.2 →
    decoded.1 = 1

def Missed (r : KernelRoute) : Prop :=
  r.plen = 96 ∧ V4Mapped r.dstPrefix ∧ kernelInfinity ≤ r.metric

theorem ignoresUnreachable_parsed (nh : Nlmsghdr) (mem : Memory) :
    IgnoresUnreachable host debug importTables nh mem ↔
      ¬(Accepted host importTables nh mem ∧ Missed (parsedRoute host nh mem)) := by
  have imports (accepted : Accepted host importTables nh mem) (route : KernelRoute) :=
    value_filterKernelRoutes_accepted (ρ := Unit) host debug importTables nh route mem accepted
  constructor
  · rintro ⟨ignored, -⟩ ⟨accepted, plen, mapped, metric⟩
    have default : UnreachableDefault (parsedRoute host nh mem) :=
      ⟨by simp [Util.isDefault, plen, mapped], metric⟩
    have rc := ignored .cleared _ (imports accepted .cleared) default
    simp [plen] at rc
  · intro noticed
    constructor
    · intro route decoded value default
      by_cases accepted : Accepted host importTables nh mem
      · cases value.symm.trans (imports accepted route)
        obtain ⟨test, metric⟩ := default
        simp only [Util.isDefault, Bool.or_eq_true, beq_iff_eq, Bool.and_eq_true,
          decide_eq_true_iff] at test
        rcases test with zero | ⟨plen, mapped⟩
        · exact if_pos ⟨zero, metric⟩
        · exact absurd ⟨accepted, plen, mapped, metric⟩ noticed
      · obtain ⟨partly, skipped⟩ := value_filterKernelRoutes_rejected (ρ := Unit) host debug
          importTables nh route mem accepted
        cases value.symm.trans skipped
        rfl
    · intro route decoded value accepted reachable
      cases value.symm.trans (imports accepted route)
      apply if_neg
      rintro ⟨zero, metric⟩
      exact reachable ⟨by simp [Util.isDefault, zero], metric⟩

section Raw

variable (nh : Nlmsghdr) (mem : Memory)

def routeAttributes : List Attribute := list host mem 12 (nh.len.toInt - 16 - 12)

def tableIn : BitVec 32 :=
  match lastOf rtaTable (routeAttributes host nh mem) with
  | some a => intAt host mem a.data
  | none => BitVec.ofNat 32 (mem 4).toNat

/-- ::ffff:0:0/96: an IPv4 message without a destination or with one of length zero, or another
message with a v4-mapped destination of length 96. -/
def MappedDefault : Prop :=
  match lastOf rtaDst (routeAttributes host nh mem) with
  | none => familyIsV4 mem 0 = true
  | some a =>
    if familyIsV4 mem 0 then (mem 1).toNat = 0
    else (mem 1).toNat = 96 ∧ V4Mapped (addr6At mem a.data)

def Unreachable : Prop :=
  match lastOf rtaPriority (routeAttributes host nh mem) with
  | none => False
  | some a =>
    (intAt host mem a.data).toInt < 0 ∨ kernelInfinity ≤ (intAt host mem a.data).toInt

structure Eligible : Prop where
  type : nh.type = rtmNewroute ∨ nh.type = rtmDelroute
  protocol : (mem 5).toNat ≠ rtprotBabel
  flags : mem.word host 8 4 &&& rtmFCloned = 0
  addresses : ∀ a ∈ routeAttributes host nh mem,
    IsRouteAddress a.type → ¬Truncated (familyIsV4 mem 0) a
  table : tableIn host nh mem ∈ importTables

theorem accepted_iff : Accepted host importTables nh mem ↔ Eligible host importTables nh mem := by
  have table : (routeParse host mem 0 (nh.len.toInt - 16)).table = tableIn host nh mem :=
    foldl_lastOf RouteParse.table
      (fun s a => table_routeStep host mem 0 (familyIsV4 mem 0) a s) _ _
  constructor
  · intro i
    exact ⟨i.type, i.protocol, i.flags, i.whole, table ▸ i.table⟩
  · intro i
    exact ⟨i.type, i.protocol, i.flags, i.addresses, table ▸ i.table⟩

theorem clampMetric_infinite (priority : BitVec 32) : kernelInfinity ≤ clampMetric priority ↔
    priority.toInt < 0 ∨ kernelInfinity ≤ priority.toInt := by
  unfold clampMetric
  split <;> omega

theorem metric_parsedRoute :
    kernelInfinity ≤ (parsedRoute host nh mem).metric ↔ Unreachable host nh mem := by
  have metric : (parsedRoute host nh mem).metric =
      match lastOf rtaPriority (routeAttributes host nh mem) with
      | some a => clampMetric (intAt host mem a.data)
      | none => (clearedFor (familyIsV4 mem 0)).metric :=
    foldl_lastOf (fun s : RouteParse => s.route.metric)
      (fun s a => metric_routeStep host mem 0 (familyIsV4 mem 0) a s) _ _
  rw [metric, Unreachable]
  cases lastOf rtaPriority (routeAttributes host nh mem) with
  | none =>
    have reachable (v4 : Bool) : ¬kernelInfinity ≤ (clearedFor v4).metric := by
      cases v4 <;> decide
    exact iff_of_false (reachable _) id
  | some a => exact clampMetric_infinite _

theorem destination_parsedRoute :
    (parsedRoute host nh mem).plen = 96 ∧ V4Mapped (parsedRoute host nh mem).dstPrefix ↔
      MappedDefault host nh mem := by
  have destination : ((parsedRoute host nh mem).plen, (parsedRoute host nh mem).dstPrefix) =
      match lastOf rtaDst (routeAttributes host nh mem) with
      | some a => (getPlen (mem 1).toNat (familyIsV4 mem 0),
        addressAt (familyIsV4 mem 0) mem a.data)
      | none => ((clearedFor (familyIsV4 mem 0)).plen, (clearedFor (familyIsV4 mem 0)).dstPrefix) :=
    foldl_lastOf (fun s : RouteParse => (s.route.plen, s.route.dstPrefix))
      (fun s a => destination_routeStep host mem 0 (familyIsV4 mem 0) a s) _ _
  rw [MappedDefault]
  cases found : lastOf rtaDst (routeAttributes host nh mem) with
  | none =>
    rw [found, Prod.mk.injEq] at destination
    rw [destination.1, destination.2]
    cases familyIsV4 mem 0
    · simp [clearedFor, KernelRoute.cleared]
    · simp [clearedFor]
  | some a =>
    rw [found, Prod.mk.injEq] at destination
    rw [destination.1, destination.2]
    cases familyIsV4 mem 0 <;> simp [getPlen, addressAt]

end Raw

theorem ignoresUnreachable_iff (nh : Nlmsghdr) (mem : Memory) :
    IgnoresUnreachable host debug importTables nh mem ↔
      ¬(Eligible host importTables nh mem ∧ MappedDefault host nh mem ∧
        Unreachable host nh mem) := by
  rw [ignoresUnreachable_parsed, accepted_iff, Missed, ← and_assoc (a := _ = 96),
    destination_parsedRoute, metric_parsedRoute]

def unreachableRoute : Message where
  hdr := { len := 36, type := rtmNewroute, flags := 0, seq := 0, pid := 0 }
  data := [2, 0, 0, 0, 254, 4, 0, 7, 0, 0, 0, 0] ++ [8, 0, 6, 0, 255, 255, 0, 0]

theorem not_ignoresUnreachable_ipv4 :
    ¬IgnoresUnreachable .little 0 [254] unreachableRoute.hdr (contents unreachableRoute) := by
  intro ignores
  have imported := ignores.ignored .cleared (1, importedRoute .little unreachableRoute) (by rfl)
  exact absurd (imported ⟨by decide, by decide⟩) (by decide)

end Tabeld.KernelNetlink
