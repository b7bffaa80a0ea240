import Tabeld.KernelNetlink.Bounds
import Tabeld.KernelNetlink.RouteMessages

set_option autoImplicit false

namespace Tabeld.KernelNetlink

open Attributes Decoder

section Passing

variable {σ μ : Type} (host : ByteOrder) (view : μ → Message)
variable (nl : Netlink) (nlIgnore : Option Netlink) (answer : Bool)

def CutsOff (nh : Nlmsghdr) : Prop :=
  Examined nl nlIgnore answer nh ∧ (nh.type = nlmsgDone ∨ nh.type = nlmsgError)

instance (nh : Nlmsghdr) : Decidable (CutsOff nl nlIgnore answer nh) :=
  inferInstanceAs (Decidable (_ ∧ _))

def passingIn (msgs : List μ) : List μ :=
  (msgs.takeWhile fun m => decide (¬CutsOff nl nlIgnore answer (view m).hdr)).filter fun m =>
    decide (Examined nl nlIgnore answer (view m).hdr)

def GoesOn (msgs : List μ) : Prop :=
  (∀ m ∈ msgs, ¬CutsOff nl nlIgnore answer (view m).hdr) ∧ (answer = true ∨ msgs.isEmpty = true)

instance (msgs : List μ) : Decidable (GoesOn view nl nlIgnore answer msgs) :=
  inferInstanceAs (Decidable (_ ∧ _))

def passing : List (Attempt μ) → List μ
  | [] => []
  | attempt :: rest =>
    match attempt.outcome with
    | .received d =>
      if d.namelen = nl.socklen ∧ d.nlPid = 0 then
        passingIn view nl nlIgnore answer d.msgs ++
          if GoesOn view nl nlIgnore answer d.msgs then passing rest else []
      else []
    | _ => []

variable (call : Filter σ)

theorem closure_deliver (m : μ) (s : Reading σ μ) :
    (deliver view (some call) m s).closure = (call s.closure (view m)).1 := by
  unfold deliver
  simp only
  split <;> rfl

theorem handle_cutsOff {m : μ} (cuts : CutsOff nl nlIgnore answer (view m).hdr)
    (s : Reading σ μ) :
    let out := handle host view nl nlIgnore answer (some call) m s
    out.1 ≠ .next ∧ (out.1 = .stop → out.2.done = true) ∧ out.2.closure = s.closure := by
  obtain ⟨examined, type⟩ := cuts
  simp only [handle_examined host view nl nlIgnore answer _ examined]
  rcases type with done | error
  · rw [if_pos done]
    refine ⟨by simp, fun _ => rfl, ?_⟩
    cases answer <;> rfl
  · rw [if_neg (by rw [error]; decide), if_pos error]
    split
    next => cases answer <;> simp
    next => split <;> cases answer <;> simp [Reading.log]

theorem handle_passing {m : μ} (passes : ¬CutsOff nl nlIgnore answer (view m).hdr)
    (s : Reading σ μ) :
    let out := handle host view nl nlIgnore answer (some call) m s
    out.1 = .next ∧ out.2.done = (s.done || !answer) ∧
      out.2.closure = if Examined nl nlIgnore answer (view m).hdr then (call s.closure (view m)).1
        else s.closure := by
  by_cases examined : Examined nl nlIgnore answer (view m).hdr
  · rw [CutsOff, not_and, not_or] at passes
    obtain ⟨notDone, notError⟩ := passes examined
    simp only [handle_examined host view nl nlIgnore answer _ examined, notDone, notError, examined,
      if_false, if_true, closure_deliver, done_deliver, true_and]
    cases answer <;> simp
  · obtain ⟨flow, done, closure⟩ :=
      handle_unexamined host view nl nlIgnore answer (some call) examined s
    exact ⟨flow, done, by rw [closure, if_neg examined]⟩

theorem messages_closure (msgs : List μ) (s : Reading σ μ) :
    (messages host view nl nlIgnore answer (some call) msgs s).2.closure =
      (passingIn view nl nlIgnore answer msgs).foldl (fun closure m => (call closure (view m)).1)
        s.closure := by
  induction msgs generalizing s with
  | nil => rfl
  | cons m rest ih =>
    rw [messages]
    by_cases cuts : CutsOff nl nlIgnore answer (view m).hdr
    · obtain ⟨stops, -, closure⟩ := handle_cutsOff host view nl nlIgnore answer call cuts s
      generalize handle host view nl nlIgnore answer (some call) m s = out at stops closure
      obtain ⟨flow, t⟩ := out
      have none : passingIn view nl nlIgnore answer (m :: rest) = [] := by
        simp [passingIn, cuts]
      rw [none]
      cases flow with
      | next => exact absurd rfl stops
      | stop | returned | overread => exact closure
    · obtain ⟨flow, -, closure⟩ := handle_passing host view nl nlIgnore answer call cuts s
      generalize handle host view nl nlIgnore answer (some call) m s = out at flow closure
      obtain ⟨_, t⟩ := out
      cases flow
      simp only at closure
      rw [ih t, closure]
      by_cases examined : Examined nl nlIgnore answer (view m).hdr <;>
        simp [passingIn, cuts, examined]

theorem messages_cutsOff (msgs : List μ) (s : Reading σ μ)
    (cuts : ∃ m ∈ msgs, CutsOff nl nlIgnore answer (view m).hdr) :
    let out := messages host view nl nlIgnore answer (some call) msgs s
    out.1 ≠ .next ∧ (out.1 = .stop → out.2.done = true) := by
  induction msgs generalizing s with
  | nil => simp at cuts
  | cons m rest ih =>
    rw [messages]
    by_cases here : CutsOff nl nlIgnore answer (view m).hdr
    · obtain ⟨stops, done, -⟩ := handle_cutsOff host view nl nlIgnore answer call here s
      generalize handle host view nl nlIgnore answer (some call) m s = out at stops done
      obtain ⟨flow, t⟩ := out
      cases flow with
      | next => exact absurd rfl stops
      | stop | returned | overread => exact ⟨stops, done⟩
    · obtain ⟨flow, -, -⟩ := handle_passing host view nl nlIgnore answer call here s
      generalize handle host view nl nlIgnore answer (some call) m s = out at flow
      obtain ⟨_, t⟩ := out
      cases flow
      have later : ∃ m ∈ rest, CutsOff nl nlIgnore answer (view m).hdr := by simpa [here] using cuts
      exact ih t later

theorem messages_next (msgs : List μ) (s : Reading σ μ)
    (passes : ∀ m ∈ msgs, ¬CutsOff nl nlIgnore answer (view m).hdr) :
    let out := messages host view nl nlIgnore answer (some call) msgs s
    out.1 = .next ∧ out.2.done = (s.done || !answer && !msgs.isEmpty) := by
  induction msgs generalizing s with
  | nil => simp [messages]
  | cons m rest ih =>
    obtain ⟨flow, done, -⟩ :=
      handle_passing host view nl nlIgnore answer call (passes m (by simp)) s
    rw [messages]
    generalize handle host view nl nlIgnore answer (some call) m s = out at flow done
    obtain ⟨_, t⟩ := out
    cases flow
    obtain ⟨next, later⟩ := ih t fun m member => passes m (by simp [member])
    refine ⟨next, later.trans ?_⟩
    simp only at done
    rw [done]
    cases answer <;> simp

theorem messages_goesOn (msgs : List μ) (s : Reading σ μ) (unfinished : s.done = false)
    (goesOn : GoesOn view nl nlIgnore answer msgs) :
    let out := messages host view nl nlIgnore answer (some call) msgs s
    out.1 = .next ∧ out.2.done = false := by
  obtain ⟨flow, done⟩ := messages_next host view nl nlIgnore answer call msgs s goesOn.1
  refine ⟨flow, done.trans ?_⟩
  rcases goesOn.2 with same | same <;> simp [unfinished, same]

theorem messages_ended (msgs : List μ) (s : Reading σ μ) (unfinished : s.done = false)
    (ended : ¬GoesOn view nl nlIgnore answer msgs) :
    let out := messages host view nl nlIgnore answer (some call) msgs s
    out.1 = .next ∨ out.1 = .stop → out.2.done = true := by
  by_cases cuts : ∃ m ∈ msgs, CutsOff nl nlIgnore answer (view m).hdr
  · obtain ⟨stops, done⟩ := messages_cutsOff host view nl nlIgnore answer call msgs s cuts
    exact fun flow => done (flow.resolve_left stops)
  · have passes : ∀ m ∈ msgs, ¬CutsOff nl nlIgnore answer (view m).hdr := by simpa using cuts
    have finished : ¬(answer = true ∨ msgs.isEmpty = true) := fun again => ended ⟨passes, again⟩
    obtain ⟨-, done⟩ := messages_next host view nl nlIgnore answer call msgs s passes
    intro out _
    rw [done, unfinished]
    simpa using finished

theorem receive_closure (script : List (Attempt μ)) (s : Reading σ μ)
    (unfinished : s.done = false) :
    (receive host view nl nlIgnore answer (some call) script s).reading.closure =
      (passing view nl nlIgnore answer script).foldl (fun closure m => (call closure (view m)).1)
        s.closure := by
  induction script generalizing s with
  | nil => rfl
  | cons attempt rest ih =>
    rw [receive, passing]
    cases attempt.outcome with
    | failed | eof => rfl
    | received d =>
      by_cases length : d.namelen = nl.socklen
      swap
      · simp only [length, ne_eq, not_false_eq_true, if_true, false_and, if_false]
        rfl
      by_cases kernel : d.nlPid = 0
      swap
      · simp only [length, kernel, ne_eq, not_true_eq_false, not_false_eq_true, if_true, and_false,
          if_false]
        rfl
      simp only [length, kernel, ne_eq, not_true_eq_false, if_false, and_self, if_true]
      have closure := messages_closure host view nl nlIgnore answer call d.msgs s
      by_cases goesOn : GoesOn view nl nlIgnore answer d.msgs
      · obtain ⟨flow, unset⟩ :=
          messages_goesOn host view nl nlIgnore answer call d.msgs s unfinished goesOn
        generalize messages host view nl nlIgnore answer (some call) d.msgs s = out
          at closure flow unset
        obtain ⟨_, t⟩ := out
        cases flow
        simp only at closure unset
        simp only [unset, goesOn, Bool.false_eq_true, if_false, if_true, List.foldl_append]
        rw [ih t unset, closure]
      · have done := messages_ended host view nl nlIgnore answer call d.msgs s unfinished goesOn
        generalize messages host view nl nlIgnore answer (some call) d.msgs s = out at closure done
        obtain ⟨flow, t⟩ := out
        simp only [goesOn, if_false, List.append_nil]
        cases flow with
        | next | stop =>
          have set : t.done = true := done (by simp)
          simp only [set, if_true]
          exact closure
        | returned | overread => exact closure

theorem netlinkRead_closure (script : List (Attempt μ)) (errno : Int) (closure : σ) :
    (netlinkRead host view nl nlIgnore answer (some call) script errno closure).reading.closure =
      (passing view nl nlIgnore answer script).foldl (fun closure m => (call closure (view m)).1)
        closure :=
  receive_closure host view nl nlIgnore answer call script _ rfl

end Passing

section Routes

variable {κ : Type} (host : ByteOrder) (debug : Nat) (importTables : List (BitVec 32))

def IsRoute (type : BitVec 16) : Prop := type = rtmNewroute ∨ type = rtmDelroute

instance (type : BitVec 16) : Decidable (IsRoute type) := inferInstanceAs (Decidable (_ ∨ _))

def contents (m : Message) : Memory := Memory.ofBytes m.data Memory.zeroed

def attributes (m : Message) : List Attribute :=
  list host (contents m) 12 (m.data.length - 12)

/-- The length is that of the parts, and a route has its fixed part and no truncated attribute. -/
structure WellFormed (m : Message) : Prop where
  len : m.hdr.len.toInt = 16 + m.data.length
  fixed : IsRoute m.hdr.type → 12 ≤ m.data.length
  addresses : IsRoute m.hdr.type → ∀ a ∈ attributes host m, IsRouteAddress a.type →
    ¬Truncated (familyIsV4 (contents m) 0) a
  ints : IsRoute m.hdr.type → ∀ a ∈ attributes host m, IsRouteInt a.type → 4 ≤ a.payload

/-- The table in the last RTA_TABLE, if there is one, else `rtm_table`. -/
def effectiveTable (m : Message) : BitVec 32 :=
  match ((attributes host m).filter fun a => a.type = rtaTable).getLast? with
  | some a => intAt host (contents m) a.data
  | none => BitVec.ofNat 32 (contents m 4).toNat

def importedRoute (m : Message) : KernelRoute :=
  (routeParse host (contents m) 0 m.data.length).route

structure Imported (m : Message) : Prop where
  type : IsRoute m.hdr.type
  protocol : (contents m 5).toNat ≠ rtprotBabel
  flags : (contents m).word host 8 4 &&& rtmFCloned = 0
  table : effectiveTable host m ∈ importTables
  default : ¬((importedRoute host m).plen = 0 ∧ kernelInfinity ≤ (importedRoute host m).metric)

theorem imported_iff (m : Message) : Imported host importTables m ↔
    IsRoute m.hdr.type ∧ (contents m 5).toNat ≠ rtprotBabel ∧
      (contents m).word host 8 4 &&& rtmFCloned = 0 ∧ effectiveTable host m ∈ importTables ∧
      ¬((importedRoute host m).plen = 0 ∧ kernelInfinity ≤ (importedRoute host m).metric) :=
  ⟨fun i => ⟨i.type, i.protocol, i.flags, i.table, i.default⟩,
    fun i => ⟨i.1, i.2.1, i.2.2.1, i.2.2.2.1, i.2.2.2.2⟩⟩

instance (m : Message) : Decidable (Imported host importTables m) :=
  decidable_of_iff _ (imported_iff host importTables m).symm

theorem table_foldl (mem : Memory) (isV4 : Bool) (attrs : List Attribute) (s : RouteParse) :
    (attrs.foldl (fun s a => routeStep host mem 0 isV4 a s) s).table =
      match (attrs.filter fun a => a.type = rtaTable).getLast? with
      | some a => intAt host mem a.data
      | none => s.table := by
  exact foldl_lastOf RouteParse.table (fun s a => table_routeStep host mem 0 isV4 a s) attrs s

theorem table_routeParse (m : Message) :
    (routeParse host (contents m) 0 m.data.length).table = effectiveTable host m :=
  table_foldl host (contents m) (familyIsV4 (contents m) 0) (attributes host m) _

theorem routeFits {m : Message} (wellFormed : WellFormed host m) (isRoute : IsRoute m.hdr.type) :
    RouteFits host (contents m) m.data.length := by
  have fixed := wellFormed.fixed isRoute
  refine ⟨by omega, fun _ => fixed, ?_⟩
  intro _ _ a reached isInt
  have member : a ∈ attributes host m := mem_of_mem_upTo reached
  have whole := wellFormed.ints isRoute a member isInt
  obtain ⟨-, header, inside⟩ := mem_list host member
  rw [Attribute.payload] at whole
  rw [Attribute.data]
  omega

theorem dataLength {m : Message} (wellFormed : WellFormed host m) :
    m.hdr.len.toInt - 16 = m.data.length := by
  rw [wellFormed.len]
  omega

theorem parsedRoute_contents {m : Message} (wellFormed : WellFormed host m) :
    parsedRoute host m.hdr (contents m) = importedRoute host m := by
  rw [parsedRoute, dataLength host wellFormed, importedRoute]

theorem imported_iff_accepted {m : Message} (wellFormed : WellFormed host m) :
    Imported host importTables m ↔ Accepted host importTables m.hdr (contents m) ∧
      ¬((importedRoute host m).plen = 0 ∧ kernelInfinity ≤ (importedRoute host m).metric) := by
  have len := dataLength host wellFormed
  constructor
  · intro i
    refine ⟨⟨i.type, i.protocol, i.flags, ?_, ?_⟩, i.default⟩
    · rw [len]
      exact wellFormed.addresses i.type
    · rw [len, table_routeParse]
      exact i.table
  · rintro ⟨accepted, default⟩
    have table := accepted.table
    rw [len, table_routeParse] at table
    exact ⟨accepted.type, accepted.protocol, accepted.flags, table, default⟩

theorem value_filterKernelRoutes {ρ : Type} {m : Message} (wellFormed : WellFormed host m)
    (route : KernelRoute) :
    ∃ decoded, (filterKernelRoutes host debug importTables m.hdr route : Decoder ρ _).value
        (contents m) = .ok decoded ∧
      decoded.1 = (if Imported host importTables m then 1 else 0) ∧
      (Imported host importTables m → decoded.2 = importedRoute host m) := by
  have imported := imported_iff_accepted host importTables wellFormed
  by_cases accepted : Accepted host importTables m.hdr (contents m)
  · have value := value_filterKernelRoutes_accepted (ρ := ρ) host debug importTables m.hdr route
      (contents m) accepted
    rw [parsedRoute_contents host wellFormed] at value
    refine ⟨_, value, ?_, fun _ => rfl⟩
    simp only [imported, accepted, true_and, ite_not]
  · obtain ⟨partly, value⟩ := value_filterKernelRoutes_rejected (ρ := ρ) host debug importTables
      m.hdr route (contents m) accepted
    have kept : ¬Imported host importTables m := fun i => accepted (imported.mp i).1
    exact ⟨(0, partly), value, (if_neg kept).symm, fun i => absurd i kept⟩

def Record.asRoute : Record → Option KernelRoute
  | .route r => some r
  | _ => none

def routeCalls (calls : List (Message × Record)) : List (Message × KernelRoute) :=
  calls.filterMap fun call => call.2.asRoute.map fun r => (call.1, r)

variable {filter : KernelFilter κ} {route : KernelRoute → κ → κ × Int}

theorem record_route (callback : filter.route = some route) {m : Message}
    (wellFormed : WellFormed host m) (isRoute : IsRoute m.hdr.type) (found : Surroundings)
    (closure : κ) :
    ((filterNetlink host debug importTables found.u filter m.hdr closure :
        Decoder (Verdict κ) _).result (Memory.ofBytes m.data found.beyond)).record =
      if Imported host importTables m then some (.route (importedRoute host m)) else none := by
  have len := dataLength host wellFormed
  have fits : FilterFits host debug filter m.hdr.type (contents m) m.data.length := by
    refine ⟨fun _ _ => routeFits host wellFormed isRoute, ?_, ?_, ?_⟩ <;>
      rcases isRoute with type | type <;> rw [type] <;> exact fun other => absurd other (by decide)
  -- nothing after the message is read
  rw [result_congr _ ((within_filterNetlink host debug importTables found.u filter m.hdr closure
    (contents m) m.data.length len).mpr fits) fun address inside => by
      rw [contents, Memory.ofBytes, Memory.ofBytes, if_pos inside, if_pos inside]]
  obtain ⟨decoded, value, rc, record⟩ := value_filterKernelRoutes (ρ := Verdict κ) host debug
    importTables wellFormed found.u.route
  have type : m.hdr.type = rtmNewroute ∨ m.hdr.type = rtmDelroute := isRoute
  rw [filterNetlink, if_pos type, callback,
    result_of_value (value_filterWith route .route closure value), rc]
  by_cases imported : Imported host importTables m <;> simp [imported, record]

theorem record_other {nh : Nlmsghdr} (other : ¬IsRoute nh.type) {u : Scratch} {closure : κ}
    {mem : Memory} {record : Record}
    (called : ((filterNetlink host debug importTables u filter nh closure :
      Decoder (Verdict κ) _).result mem).record = some record) : record.asRoute = none := by
  have type : ¬(nh.type = rtmNewroute ∨ nh.type = rtmDelroute) := other
  rw [filterNetlink, if_neg type] at called
  split at called
  next =>
    obtain ⟨r, rfl⟩ := record_filterWith (completes_filterLink host debug nh u.link mem) called
    rfl
  next =>
    split at called
    next =>
      obtain ⟨r, rfl⟩ := record_filterWith (completes_filterAddresses host nh u.addr mem) called
      rfl
    next =>
      split at called
      next =>
        obtain ⟨r, rfl⟩ := record_filterWith (completes_filterKernelRules host nh u.rule mem) called
        rfl
      next => cases called

theorem routeCalls_asFilter (callback : filter.route = some route) (around : Nat → Surroundings)
    {m : Message} (wellFormed : WellFormed host m) (s : Filtering κ) :
    routeCalls (asFilter host debug importTables filter around s m).1.calls =
      routeCalls s.calls ++
        if Imported host importTables m then [(m, importedRoute host m)] else [] := by
  simp only [asFilter, routeCalls, List.filterMap_append]
  congr 1
  by_cases isRoute : IsRoute m.hdr.type
  · rw [record_route host debug importTables callback wellFormed isRoute]
    by_cases imported : Imported host importTables m <;> simp [imported, Record.asRoute]
  · have skipped : ¬Imported host importTables m := fun i => isRoute i.type
    rw [if_neg skipped]
    cases called : ((filterNetlink host debug importTables (around s.reads.length).u filter m.hdr
      s.closure : Decoder (Verdict κ) _).result
      (Memory.ofBytes m.data (around s.reads.length).beyond)).record with
    | none => rfl
    | some record => simp [record_other host debug importTables isRoute called]

def KernelFilter.call (filter : KernelFilter κ) (closure : κ) : Record → κ × Int
  | .route r => filter.route.elim (closure, 0) fun call => call r closure
  | .addr r => filter.addr.elim (closure, 0) fun call => call r closure
  | .link r => filter.link.elim (closure, 0) fun call => call r closure
  | .rule r => filter.rule.elim (closure, 0) fun call => call r closure

def Verdict.Follows (verdict : Verdict κ) (filter : KernelFilter κ) (closure : κ) : Prop :=
  (verdict.closure, verdict.rc) = verdict.record.elim (closure, 0) (filter.call closure)

theorem follows_filterWith {R : Type} {filter : KernelFilter κ}
    {callback : Option (R → κ → κ × Int)} {decode : Decoder (Verdict κ) (Int × R)}
    {wrap : R → Record} {closure : κ} {mem : Memory}
    (wrapped : ∀ r, filter.call closure (wrap r) =
      callback.elim (closure, 0) fun call => call r closure)
    (completes : ∃ decoded, decode.value mem = .ok decoded) :
    ((filterWith callback decode wrap closure).result mem).Follows filter closure := by
  obtain ⟨decoded, value⟩ := completes
  cases callback with
  | none => rfl
  | some call =>
    rw [result_of_value (value_filterWith call wrap closure value)]
    split
    next => rfl
    next =>
      rw [Verdict.Follows, Option.elim_some, wrapped]
      rfl

theorem follows_filterNetlink (filter : KernelFilter κ) (nh : Nlmsghdr) (u : Scratch) (closure : κ)
    (mem : Memory) :
    ((filterNetlink host debug importTables u filter nh closure :
      Decoder (Verdict κ) _).result mem).Follows filter closure := by
  unfold filterNetlink
  split
  next =>
    exact follows_filterWith (fun _ => rfl)
      (completes_filterKernelRoutes host debug importTables nh u.route mem)
  next =>
    split
    next => exact follows_filterWith (fun _ => rfl) (completes_filterLink host debug nh u.link mem)
    next =>
      split
      next => exact follows_filterWith (fun _ => rfl) (completes_filterAddresses host nh u.addr mem)
      next =>
        split
        next =>
          exact follows_filterWith (fun _ => rfl) (completes_filterKernelRules host nh u.rule mem)
        next => rfl

def calledWith (filter : KernelFilter κ) (closure : κ) (calls : List (Message × Record)) : κ :=
  calls.foldl (fun closure call => (filter.call closure call.2).1) closure

theorem closure_asFilter (filter : KernelFilter κ) (around : Nat → Surroundings) (start : κ)
    (m : Message) (s : Filtering κ) (applied : s.closure = calledWith filter start s.calls) :
    (asFilter host debug importTables filter around s m).1.closure =
      calledWith filter start (asFilter host debug importTables filter around s m).1.calls := by
  have follows := follows_filterNetlink host debug importTables filter m.hdr
    (around s.reads.length).u s.closure (Memory.ofBytes m.data (around s.reads.length).beyond)
  simp only [asFilter]
  generalize (filterNetlink host debug importTables (around s.reads.length).u filter m.hdr
    s.closure : Decoder (Verdict κ) _).result _ = verdict at follows ⊢
  have closure := congrArg Prod.fst follows
  rw [applied] at closure
  cases called : verdict.record <;> simpa [called, calledWith] using closure

/-- The calls that are recorded are all that has been done to the state behind the callbacks. -/
theorem closure_netlinkRead (filter : KernelFilter κ) (around : Nat → Surroundings) (nl : Netlink)
    (nlIgnore : Option Netlink) (answer : Bool) (script : List (Attempt Message)) (errno : Int)
    (closure : κ) :
    let read := netlinkRead host id nl nlIgnore answer
      (some (asFilter host debug importTables filter around)) script errno
      { closure := closure, calls := [], reads := [] }
    read.reading.closure.closure = calledWith filter closure read.reading.closure.calls := by
  intro read
  have handed := netlinkRead_closure host id nl nlIgnore answer
    (asFilter host debug importTables filter around) script errno
    { closure := closure, calls := [], reads := [] }
  rw [show read.reading.closure = _ from handed]
  apply List.foldlRecOn (motive := fun s : Filtering κ =>
    s.closure = calledWith filter closure s.calls)
  · rfl
  · intro s applied m _
    exact closure_asFilter host debug importTables filter around closure m s applied

theorem imports_foldl (callback : filter.route = some route) (around : Nat → Surroundings)
    (msgs : List Message) (wellFormed : ∀ m ∈ msgs, WellFormed host m) (s : Filtering κ) :
    routeCalls (msgs.foldl
        (fun s m => (asFilter host debug importTables filter around s m).1) s).calls =
      routeCalls s.calls ++
        (msgs.filter fun m => Imported host importTables m).map
          fun m => (m, importedRoute host m) := by
  induction msgs generalizing s with
  | nil => simp
  | cons m rest ih =>
    rw [List.foldl_cons, ih fun other member => wellFormed other (List.mem_cons_of_mem m member),
      routeCalls_asFilter host debug importTables callback around (wellFormed m (by simp))]
    by_cases imported : Imported host importTables m <;> simp [imported]

theorem mem_passing {nl : Netlink} {nlIgnore : Option Netlink} {answer : Bool}
    {script : List (Attempt Message)} {m : Message}
    (member : m ∈ passing id nl nlIgnore answer script) : Delivered script m := by
  induction script with
  | nil => cases member
  | cons attempt rest ih =>
    rw [passing] at member
    split at member
    next d outcome =>
      split at member
      next accepted =>
        rcases List.mem_append.mp member with here | later
        · have inside := List.mem_of_mem_filter here
          exact ⟨attempt, by simp, d, outcome, accepted.2, (List.takeWhile_subset _) inside⟩
        · split at later
          next => exact (ih later).later attempt
          next => cases later
      next => cases member
    next => cases member

def Echoed (m : Message) : Prop :=
  ∃ subtrees operation table r, m.data = (routeMessage host subtrees operation table r).data

theorem not_imported_of_echoed {m : Message} (echoed : Echoed host m) :
    ¬Imported host importTables m := by
  obtain ⟨subtrees, operation, table, r, same⟩ := echoed
  have fields := (routeMessage_carries host subtrees operation table r Memory.zeroed).fields
  rw [← same] at fields
  intro imported
  apply imported.protocol
  rw [contents, show 5 = 0 + 5 from rfl, fields.protocol]
  rfl

end Routes

def staticRoute : Message where
  hdr := { len := 36, type := rtmNewroute, flags := 0, seq := 0, pid := 0 }
  data := [10, 0, 0, 0, 254, 4, 0, 1, 0, 0, 0, 0] ++ [8, 0, 4, 0, 3, 0, 0, 0]

def listedRoute (protocol table : UInt8) (attributes : List UInt8) : Message where
  hdr := { len := BitVec.ofNat 32 (28 + attributes.length), type := rtmNewroute, flags := 2,
           seq := 1, pid := 1000 }
  data := [10, 0, 0, 0, table, protocol, 0, 1, 0, 0, 0, 0] ++ attributes

def tableAttribute (table : UInt8) : List UInt8 := [8, 0, 15, 0, table, 0, 0, 0]

def endOfDump : Message where
  hdr := { len := 20, type := nlmsgDone, flags := 2, seq := 1, pid := 1000 }
  data := [0, 0, 0, 0]

def mixedDump : List (Attempt Message) :=
  -- of table main, of Babel, of table 100; RTA_TABLE moves the fourth into main and the fifth out
  [⟨.received ⟨12, 0,
      [listedRoute 4 254 [], listedRoute 42 254 [], listedRoute 4 100 []]⟩, 0, 0, .eof⟩,
    ⟨.received ⟨12, 0,
      [listedRoute 4 0 (tableAttribute 254), listedRoute 4 254 (tableAttribute 100),
        staticRoute, endOfDump, listedRoute 4 254 []]⟩, 0, 0, .eof⟩]

example : (passing id listening none true mixedDump).map
    (fun m => decide (Imported .little [254] m)) = [true, false, false, true, false] := by decide

end Tabeld.KernelNetlink
