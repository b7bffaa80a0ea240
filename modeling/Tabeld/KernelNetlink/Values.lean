import Tabeld.KernelNetlink.Decode

set_option autoImplicit false

namespace Tabeld.KernelNetlink

open Attributes Decoder Kdump

variable {ρ : Type} (host : ByteOrder) (debug : Nat)

@[simp] theorem value_int (start : Nat) (mem : Memory) :
    (int host start : Decoder ρ _).value mem = .ok (BitVec.ofNat 32 (mem.word host start 4)) :=
  rfl

def addr4At (mem : Memory) (start : Nat) : Addr4 := ⟨mem.bytes start 4, mem.length_bytes start 4⟩

def addr6At (mem : Memory) (start : Nat) : Addr6 := ⟨mem.bytes start 16, mem.length_bytes start 16⟩

@[simp] theorem value_in4 (start : Nat) (mem : Memory) :
    (in4 start : Decoder ρ _).value mem = .ok (toV6 (addr4At mem start)) := rfl

@[simp] theorem value_in6 (start : Nat) (mem : Memory) :
    (in6 start : Decoder ρ _).value mem = .ok (addr6At mem start) := rfl

@[simp] theorem value_debugging (level : Nat) (d : Decoder ρ Unit) (mem : Memory)
    (plain : d.value mem = .ok ()) : (debugging debug level d).value mem = .ok () := by
  unfold debugging
  split
  · exact plain
  · rfl

def addressAt (v4 : Bool) (mem : Memory) (start : Nat) : Addr6 :=
  if v4 then toV6 (addr4At mem start) else addr6At mem start

def addressSize (v4 : Bool) : Nat := if v4 then 4 else 16

def Truncated (v4 : Bool) (a : Attribute) : Prop := a.payload < addressSize v4

instance (v4 : Bool) (a : Attribute) : Decidable (Truncated v4 a) :=
  inferInstanceAs (Decidable (_ < _))

theorem value_copyAddr (rta : Attribute) (v4 : Bool) (truncated : ρ) (mem : Memory) :
    (copyAddr rta v4 truncated).value mem =
      if Truncated v4 rta then .error truncated else .ok (addressAt v4 mem rta.data) := by
  unfold copyAddr Truncated addressSize addressAt
  cases v4 <;> simp

def clampMetric (priority : BitVec 32) : Int :=
  if priority.toInt < 0 ∨ kernelInfinity < priority.toInt then kernelInfinity else priority.toInt

def intAt (mem : Memory) (start : Nat) : BitVec 32 := BitVec.ofNat 32 (mem.word host start 4)

def IsRouteAddress (type : Nat) : Prop := type = rtaDst ∨ type = rtaSrc ∨ type = rtaGateway

instance (type : Nat) : Decidable (IsRouteAddress type) :=
  inferInstanceAs (Decidable (_ ∨ _ ∨ _))

def routeStep (mem : Memory) (rtm : Nat) (isV4 : Bool) (a : Attribute) (s : RouteParse) :
    RouteParse :=
  if a.type = rtaDst then
    { s with route := { s.route with
      plen := getPlen (mem (rtm + 1)).toNat isV4, dstPrefix := addressAt isV4 mem a.data } }
  else if a.type = rtaSrc then
    { s with route := { s.route with
      srcPlen := getPlen (mem (rtm + 2)).toNat isV4, srcPrefix := addressAt isV4 mem a.data } }
  else if a.type = rtaGateway then
    { s with route := { s.route with gw := addressAt isV4 mem a.data } }
  else if a.type = rtaOif then { s with route := { s.route with ifindex := intAt host mem a.data } }
  else if a.type = rtaPriority then
    { s with route := { s.route with metric := clampMetric (intAt host mem a.data) } }
  else if a.type = rtaTable then { s with table := intAt host mem a.data }
  else s

theorem table_routeStep (mem : Memory) (rtm : Nat) (isV4 : Bool) (a : Attribute) (s : RouteParse) :
    (routeStep host mem rtm isV4 a s).table =
      if a.type = rtaTable then intAt host mem a.data else s.table := by
  unfold routeStep
  by_cases table : a.type = rtaTable
  · simp [table, rtaTable, rtaDst, rtaSrc, rtaGateway, rtaOif, rtaPriority]
  · simp only [table, if_false]
    -- every other attribute only changes the route
    repeat (first | rfl | split)

theorem destination_routeStep (mem : Memory) (rtm : Nat) (isV4 : Bool) (a : Attribute)
    (s : RouteParse) :
    ((routeStep host mem rtm isV4 a s).route.plen,
        (routeStep host mem rtm isV4 a s).route.dstPrefix) =
      if a.type = rtaDst then (getPlen (mem (rtm + 1)).toNat isV4, addressAt isV4 mem a.data)
      else (s.route.plen, s.route.dstPrefix) := by
  unfold routeStep
  by_cases dst : a.type = rtaDst
  · simp [dst]
  · simp only [dst, if_false]
    repeat (first | rfl | split)

theorem metric_routeStep (mem : Memory) (rtm : Nat) (isV4 : Bool) (a : Attribute)
    (s : RouteParse) : (routeStep host mem rtm isV4 a s).route.metric =
      if a.type = rtaPriority then clampMetric (intAt host mem a.data) else s.route.metric := by
  unfold routeStep
  by_cases priority : a.type = rtaPriority
  · simp [priority, rtaDst, rtaSrc, rtaGateway, rtaOif, rtaPriority]
  · simp only [priority, if_false]
    repeat (first | rfl | split)

theorem value_routeRta (mem : Memory) (rtm : Nat) (isV4 : Bool) (a : Attribute) (s : RouteParse)
    (whole : IsRouteAddress a.type → ¬Truncated isV4 a) :
    (routeRta host rtm isV4 a s).value mem = .ok (routeStep host mem rtm isV4 a s) := by
  unfold routeRta routeStep
  split
  next dst => simp [value_copyAddr, whole (Or.inl dst)]
  next =>
    split
    next src => simp [value_copyAddr, whole (Or.inr (Or.inl src))]
    next =>
      split
      next gateway => simp [value_copyAddr, whole (Or.inr (Or.inr gateway))]
      next =>
        split
        next => rfl
        next =>
          split
          next => rfl
          next => split <;> rfl

theorem stops_routeRta (mem : Memory) (rtm : Nat) (isV4 : Bool) (a : Attribute) (s : RouteParse) :
    (∀ t, (routeRta host rtm isV4 a s).value mem ≠ .ok t) ↔
      decide (IsRouteAddress a.type ∧ Truncated isV4 a) = true := by
  rw [decide_eq_true_iff]
  constructor
  · intro never
    by_contra fine
    exact never _ (value_routeRta host mem rtm isV4 a s fun address truncated =>
      fine ⟨address, truncated⟩)
  · rintro ⟨address, truncated⟩ t
    unfold routeRta
    rcases address with type | type | type <;>
      simp [type, value_copyAddr, truncated, rtaDst, rtaSrc, rtaGateway]

def familyIsV4 (mem : Memory) (rtm : Nat) : Bool := decide ((mem rtm).toNat = afInet)

def routeParse (mem : Memory) (rtm : Nat) (len : Int) : RouteParse :=
  (list host mem (rtm + 12) (len - 12)).foldl
    (fun s a => routeStep host mem rtm (familyIsV4 mem rtm) a s)
    { route := { clearedFor (familyIsV4 mem rtm) with proto := (mem (rtm + 5)).toNat }
      table := BitVec.ofNat 32 (mem (rtm + 4)).toNat }

theorem value_parseKernelRouteRta (importTables : List (BitVec 32)) (mem : Memory) (rtm : Nat)
    (len : Int)
    (whole : ∀ a ∈ list host mem (rtm + 12) (len - 12),
      IsRouteAddress a.type → ¬Truncated (familyIsV4 mem rtm) a) :
    (parseKernelRouteRta host importTables rtm len : Decoder ρ _).value mem =
      .ok (if (routeParse host mem rtm len).table ∈ importTables then 0 else -1,
        (routeParse host mem rtm len).route) := by
  have loop := value_each_ok host _
    (fun a member s => value_routeRta host mem rtm (familyIsV4 mem rtm) a s (whole a member))
    { route := { clearedFor (familyIsV4 mem rtm) with proto := (mem (rtm + 5)).toNat }
      table := BitVec.ofNat 32 (mem (rtm + 4)).toNat }
  have family : decide ((mem rtm).toNat = afInet) = familyIsV4 mem rtm := rfl
  simp only [parseKernelRouteRta, value_call, result, value_bind, value_word, ok_bind,
    Memory.word_one, family, loop, value_pure]
  rfl

theorem error_routeRta (mem : Memory) (rtm : Nat) (isV4 : Bool) (a : Attribute) (s : RouteParse)
    (early : Int × KernelRoute) (ended : (routeRta host rtm isV4 a s).value mem = .error early) :
    early.1 = -1 := by
  by_cases cut : IsRouteAddress a.type ∧ Truncated isV4 a
  · obtain ⟨address, truncated⟩ := cut
    unfold routeRta at ended
    rcases address with type | type | type <;>
      simp only [type, value_ite, value_bind, value_word, ok_bind, value_copyAddr, truncated,
        rtaDst, rtaSrc, rtaGateway, if_true, error_bind] at ended <;>
      exact (Except.error.inj ended) ▸ rfl
  · rw [value_routeRta host mem rtm isV4 a s fun address truncated => cut ⟨address, truncated⟩]
      at ended
    cases ended

theorem value_parseKernelRouteRta_truncated (importTables : List (BitVec 32)) (mem : Memory)
    (rtm : Nat) (len : Int)
    (cut : ∃ a ∈ list host mem (rtm + 12) (len - 12),
      IsRouteAddress a.type ∧ Truncated (familyIsV4 mem rtm) a) :
    ∃ route, (parseKernelRouteRta host importTables rtm len : Decoder ρ _).value mem =
      .ok (-1, route) := by
  have family : decide ((mem rtm).toNat = afInet) = familyIsV4 mem rtm := rfl
  have stops : ∃ a ∈ list host mem (rtm + 12) (len - 12), ∀ s t,
      (routeRta host rtm (familyIsV4 mem rtm) a s).value mem ≠ .ok t := by
    obtain ⟨a, member, both⟩ := cut
    refine ⟨a, member, fun s => ?_⟩
    rwa [stops_routeRta, decide_eq_true_iff]
  have stopped (s : RouteParse) : ∃ early : Int × KernelRoute,
      (list host mem (rtm + 12) (len - 12)).foldlM
        (fun s a => (routeRta host rtm (familyIsV4 mem rtm) a s).value mem) s = .error early ∧
      early.1 = -1 :=
    foldlM_error _ (fun a _ s early => error_routeRta host mem rtm _ a s early) stops s
  obtain ⟨⟨rc, route⟩, ended, failed⟩ := stopped
    { route := { clearedFor (familyIsV4 mem rtm) with proto := (mem (rtm + 5)).toNat }
      table := BitVec.ofNat 32 (mem (rtm + 4)).toNat }
  refine ⟨route, ?_⟩
  simp only [parseKernelRouteRta, value_call, result, value_bind, value_word, ok_bind,
    Memory.word_one, family, value_each, ended, error_bind]
  rw [show rc = -1 from failed]

/-- The message passes all tests of `filter_kernel_routes` but the last, for default routes. -/
structure Accepted (importTables : List (BitVec 32)) (nh : Nlmsghdr) (mem : Memory) : Prop where
  type : nh.type = rtmNewroute ∨ nh.type = rtmDelroute
  protocol : (mem 5).toNat ≠ rtprotBabel
  flags : mem.word host 8 4 &&& rtmFCloned = 0
  whole : ∀ a ∈ list host mem 12 (nh.len.toInt - 16 - 12),
    IsRouteAddress a.type → ¬Truncated (familyIsV4 mem 0) a
  table : (routeParse host mem 0 (nh.len.toInt - 16)).table ∈ importTables

def parsedRoute (nh : Nlmsghdr) (mem : Memory) : KernelRoute :=
  (routeParse host mem 0 (nh.len.toInt - 16)).route

section Filter

variable (importTables : List (BitVec 32)) (nh : Nlmsghdr) (route : KernelRoute) (mem : Memory)

theorem value_filterKernelRoutes_accepted (accepted : Accepted host importTables nh mem) :
    (filterKernelRoutes host debug importTables nh route : Decoder ρ _).value mem =
      .ok (if (parsedRoute host nh mem).plen = 0 ∧
          kernelInfinity ≤ (parsedRoute host nh mem).metric then 0 else 1,
        parsedRoute host nh mem) := by
  have typed : ¬(nh.type ≠ rtmNewroute ∧ nh.type ≠ rtmDelroute) := by
    rw [← Decidable.or_iff_not_not_and_not]
    exact accepted.type
  have parsed (τ : Type) := value_parseKernelRouteRta (ρ := τ) host importTables mem 0
    (nh.len.toInt - 16) accepted.whole
  rw [← parsedRoute] at parsed
  simp only [filterKernelRoutes, typed, if_false, value_bind, value_word, ok_bind, value_ite,
    value_pure, Nat.zero_add, Memory.word_one, parsed]
  by_cases default : (parsedRoute host nh mem).plen = 0 ∧
      kernelInfinity ≤ (parsedRoute host nh mem).metric
  · simp [accepted.protocol, accepted.flags, accepted.table, default]
  · simp [accepted.protocol, accepted.flags, accepted.table, default]

theorem value_filterKernelRoutes_rejected (rejected : ¬Accepted host importTables nh mem) :
    ∃ partly, (filterKernelRoutes host debug importTables nh route : Decoder ρ _).value mem =
      .ok (0, partly) := by
  by_cases type : nh.type = rtmNewroute ∨ nh.type = rtmDelroute
  swap
  · exact ⟨route, by simp [filterKernelRoutes, not_or.mp type]⟩
  have typed : ¬(nh.type ≠ rtmNewroute ∧ nh.type ≠ rtmDelroute) := by
    rwa [← Decidable.or_iff_not_not_and_not]
  simp only [filterKernelRoutes, typed, if_false, value_bind, value_word, ok_bind, value_ite,
    value_pure, Nat.zero_add, Memory.word_one]
  by_cases babel : (mem 5).toNat = rtprotBabel
  · exact ⟨route, by simp [babel]⟩
  by_cases cloned : mem.word host 8 4 &&& rtmFCloned = 0
  swap
  · exact ⟨route, by simp [babel, cloned]⟩
  by_cases cut : ∃ a ∈ list host mem (0 + 12) (nh.len.toInt - 16 - 12),
      IsRouteAddress a.type ∧ Truncated (familyIsV4 mem 0) a
  · obtain ⟨partly, parsed⟩ := value_parseKernelRouteRta_truncated (ρ := ρ) host importTables mem 0
      (nh.len.toInt - 16) cut
    exact ⟨partly, by simp [babel, cloned, parsed]⟩
  have whole : ∀ a ∈ list host mem (0 + 12) (nh.len.toInt - 16 - 12),
      IsRouteAddress a.type → ¬Truncated (familyIsV4 mem 0) a :=
    fun a member address truncated => cut ⟨a, member, address, truncated⟩
  -- only the table can have kept the route out
  have table : (routeParse host mem 0 (nh.len.toInt - 16)).table ∉ importTables :=
    fun imported => rejected ⟨type, babel, cloned, whole, imported⟩
  have parsed (τ : Type) := value_parseKernelRouteRta (ρ := τ) host importTables mem 0
    (nh.len.toInt - 16) whole
  exact ⟨parsedRoute host nh mem, by simp [babel, cloned, parsed, table, parsedRoute]⟩

end Filter

def ruleStep (mem : Memory) (rtm : Nat) (isV4 : Bool) (a : Attribute) (s : RuleParse) :
    RuleParse :=
  if a.type = fraUnspec then s
  else if a.type = fraSrc then
    { s with rule := { s.rule with
      srcPlen := getPlen (mem (rtm + 2)).toNat isV4, src := addressAt isV4 mem a.data } }
  else if a.type = fraPriority then
    { s with rule := { s.rule with priority := intAt host mem a.data }, hasPriority := true }
  else if a.type = fraTable then
    { s with rule := { s.rule with table := intAt host mem a.data }, hasTable := true }
  else s

theorem value_ruleRta (mem : Memory) (rtm : Nat) (isV4 : Bool) (a : Attribute) (s : RuleParse)
    (whole : a.type = fraSrc → ¬Truncated isV4 a) :
    (ruleRta host rtm isV4 a s).value mem = .ok (ruleStep host mem rtm isV4 a s) := by
  unfold ruleRta ruleStep
  split
  next => rfl
  next =>
    split
    next src => simp [value_copyAddr, whole src]
    next =>
      split
      next => rfl
      next => split <;> rfl

theorem stops_ruleRta (mem : Memory) (rtm : Nat) (isV4 : Bool) (a : Attribute) (s : RuleParse) :
    (∀ t, (ruleRta host rtm isV4 a s).value mem ≠ .ok t) ↔
      decide (a.type = fraSrc ∧ Truncated isV4 a) = true := by
  rw [decide_eq_true_iff]
  constructor
  · intro never
    by_contra fine
    exact never _ (value_ruleRta host mem rtm isV4 a s fun src truncated => fine ⟨src, truncated⟩)
  · rintro ⟨src, truncated⟩ t
    simp [ruleRta, src, value_copyAddr, truncated, fraUnspec, fraSrc]

def KnownFamily (family : Nat) : Prop := family = afInet ∨ family = afInet6

instance (family : Nat) : Decidable (KnownFamily family) := inferInstanceAs (Decidable (_ ∨ _))

def ruleStart (mem : Memory) (rule : KernelRule) : RuleParse where
  rule :=
    { rule with
      srcPlen := (mem 2).toNat, src := .zero, table := BitVec.ofNat 32 (mem 4).toNat }
  hasPriority := false
  hasTable := false

theorem value_filterKernelRules (nh : Nlmsghdr) (rule : KernelRule) (mem : Memory)
    (known : KnownFamily (mem 0).toNat)
    (whole : ∀ a ∈ list host mem 12 (nh.len.toInt - 16 - 12),
      a.type = fraSrc → ¬Truncated (familyIsV4 mem 0) a) :
    (filterKernelRules host nh rule : Decoder ρ _).value mem =
      let s := (list host mem 12 (nh.len.toInt - 16 - 12)).foldl
        (fun s a => ruleStep host mem 0 (familyIsV4 mem 0) a s) (ruleStart mem rule)
      .ok (if s.hasPriority && s.hasTable then 1 else 0, s.rule) := by
  have loop := value_each_ok host _
    (fun a member s => value_ruleRta host mem 0 (familyIsV4 mem 0) a s (whole a member))
    (ruleStart mem rule)
  have family : decide ((mem 0).toNat = afInet) = familyIsV4 mem 0 := rfl
  have tested : ¬((mem 0).toNat ≠ afInet ∧ (mem 0).toNat ≠ afInet6) := by
    unfold KnownFamily at known
    tauto
  simp only [filterKernelRules, value_call, result, value_bind, value_word, ok_bind,
    Memory.word_one, Nat.zero_add, tested, if_false, family]
  rw [show (RuleParse.mk _ false false : RuleParse) = ruleStart mem rule from rfl, loop]
  simp only [ok_bind]
  generalize (list host mem 12 (nh.len.toInt - 16 - 12)).foldl _ _ = s
  cases s.hasPriority <;> cases s.hasTable <;> rfl

def IsIfAddress (type : Nat) : Prop := type = ifaLocal ∨ type = ifaAddress

instance (type : Nat) : Decidable (IsIfAddress type) := inferInstanceAs (Decidable (_ ∨ _))

theorem value_addrRta (mem : Memory) (addr : Nat) (a : Attribute) (s : AddrParse) :
    (addrRta host addr a s).value mem =
      if ¬IsIfAddress a.type then .ok s
      else if ¬KnownFamily (mem addr).toNat then .error (-1, s.res)
      else if s.hasLocal ∨ a.type = ifaLocal then
        .error (0, addressAt (familyIsV4 mem addr) mem a.data)
      else .ok { s with res := addressAt (familyIsV4 mem addr) mem a.data } := by
  unfold addrRta
  by_cases address : a.type = ifaLocal ∨ a.type = ifaAddress
  · by_cases final : s.hasLocal = true ∨ a.type = ifaLocal
    · by_cases v4 : (mem addr).toNat = afInet <;>
        simp [IsIfAddress, KnownFamily, address, final, addressAt, familyIsV4, v4]
    · rw [not_or, Bool.not_eq_true] at final
      have peer : a.type = ifaAddress := address.resolve_left final.2
      by_cases v4 : (mem addr).toNat = afInet <;>
        simp [IsIfAddress, KnownFamily, final, peer, addressAt, familyIsV4, v4, ifaAddress,
          ifaLocal]
  · simp [IsIfAddress, address]

theorem stops_addrRta (mem : Memory) (addr : Nat) (a : Attribute) (s : AddrParse)
    (unset : s.hasLocal = false) :
    (∀ t, (addrRta host addr a s).value mem ≠ .ok t) ↔
      decide (IsIfAddress a.type ∧ (KnownFamily (mem addr).toNat → a.type = ifaLocal)) = true := by
  rw [value_addrRta, unset, decide_eq_true_iff]
  split
  next other => simp [other]
  next address =>
    rw [Decidable.not_not] at address
    split
    next unknown => simp [address, unknown]
    next known =>
      split
      next final =>
        have isLocal : a.type = ifaLocal := by simpa using final
        exact ⟨fun _ => ⟨address, fun _ => isLocal⟩, fun _ t => by simp⟩
      next final =>
        have peer : a.type ≠ ifaLocal := by simpa using final
        rw [Decidable.not_not] at known
        simp [known, peer]

theorem hasLocal_addrRta (mem : Memory) (addr : Nat) (a : Attribute) (s t : AddrParse)
    (reached : (addrRta host addr a s).value mem = .ok t) : t.hasLocal = s.hasLocal := by
  rw [value_addrRta] at reached
  split at reached
  next => cases reached; rfl
  next =>
    split at reached
    next => cases reached
    next =>
      split at reached
      next => cases reached
      next => cases reached; rfl

theorem value_filterWith {R κ : Type} (call : R → κ → κ × Int) {decode : Decoder ρ (Int × R)}
    (wrap : R → Record) (closure : κ) {mem : Memory} {decoded : Int × R}
    (reached : decode.value mem = .ok decoded) :
    (filterWith (some call) decode wrap closure).value mem =
      .ok (if decoded.1 ≤ 0 then { closure := closure, rc := 0, record := none }
        else
          { closure := (call decoded.2 closure).1
            rc := (call decoded.2 closure).2
            record := some (wrap decoded.2) }) := by
  simp only [filterWith, value_bind, reached, ok_bind, value_ite, value_pure]
  split <;> rfl

theorem record_filterWith {R κ : Type} {callback : Option (R → κ → κ × Int)}
    {decode : Decoder (Verdict κ) (Int × R)} {wrap : R → Record} {closure : κ} {mem : Memory}
    {record : Record} (completes : ∃ decoded, decode.value mem = .ok decoded)
    (called : ((filterWith callback decode wrap closure).result mem).record = some record) :
    ∃ r, record = wrap r := by
  obtain ⟨decoded, value⟩ := completes
  cases callback with
  | none => cases called
  | some call =>
    rw [result_of_value (value_filterWith call wrap closure value)] at called
    split at called
    next => cases called
    next => exact ⟨decoded.2, (Option.some.inj called).symm⟩

theorem completes_filterKernelRoutes (importTables : List (BitVec 32)) (nh : Nlmsghdr)
    (route : KernelRoute) (mem : Memory) :
    ∃ decoded, (filterKernelRoutes host debug importTables nh route : Decoder ρ _).value mem =
      .ok decoded := by
  unfold filterKernelRoutes
  simp only [value_ite, value_bind, value_word, ok_bind, value_pure]
  split
  next => exact ⟨_, rfl⟩
  next =>
    split
    next => exact ⟨_, rfl⟩
    next =>
      split
      next => exact ⟨_, rfl⟩
      next =>
        simp only [parseKernelRouteRta, value_call, ok_bind]
        split
        next => exact ⟨_, rfl⟩
        next =>
          split
          next => exact ⟨_, rfl⟩
          next => exact ⟨_, by rw [value_debugging] <;> rfl⟩

theorem completes_parseIfnameRta (info : Nat) (len : Int) (mem : Memory) :
    ∃ ifname, (parseIfnameRta host info len : Decoder ρ _).value mem = .ok ifname := by
  refine ⟨_, value_each_ok host
    (fun a ifname => if a.type = iflaIfname then some a.data else ifname) ?_ none⟩
  intro a _ s
  unfold ifnameRta
  split <;> rfl

theorem completes_filterLink (nh : Nlmsghdr) (link : KernelLink) (mem : Memory) :
    ∃ decoded, (filterLink host debug nh link : Decoder ρ _).value mem = .ok decoded := by
  obtain ⟨ifname, parsed⟩ := completes_parseIfnameRta (ρ := ρ) host 0 (nh.len.toInt - 16) mem
  unfold filterLink
  simp only [value_ite, value_bind, value_int, ok_bind, value_pure, parsed]
  split
  next => exact ⟨_, rfl⟩
  next =>
    split
    next => exact ⟨_, rfl⟩
    next => exact ⟨_, by simp only [value_bind]; rw [value_debugging] <;> rfl⟩

theorem completes_filterAddresses (nh : Nlmsghdr) (addr : KernelAddr) (mem : Memory) :
    ∃ decoded, (filterAddresses host nh addr : Decoder ρ _).value mem = .ok decoded := by
  unfold filterAddresses
  simp only [value_ite, value_bind, value_int, ok_bind, value_pure, parseAddrRta, value_call]
  split
  next => exact ⟨_, rfl⟩
  next => split <;> exact ⟨_, rfl⟩

theorem completes_filterKernelRules (nh : Nlmsghdr) (rule : KernelRule) (mem : Memory) :
    ∃ decoded, (filterKernelRules host nh rule : Decoder ρ _).value mem = .ok decoded :=
  ⟨_, rfl⟩

end Tabeld.KernelNetlink
