import Tabeld.KernelNetlink.Modify
import Tabeld.Shared.Effects

set_option autoImplicit false

namespace Tabeld.KernelNetlink

open Machine Effects WrappingCounter

variable {σ : Type} (host : ByteOrder) (subtrees : Bool)

structure Change where
  operation : Operation
  dealing : Dealing
  table : BitVec 32
  route : RouteSpec
  before : System

def Change.prepared (x : Change) : System × Int := prepare x.dealing x.route x.before

def Change.Asks (x : Change) : Prop := ¬x.prepared.2 < 0 ∧ ¬x.route.Ignored

instance (x : Change) : Decidable x.Asks := inferInstanceAs (Decidable (_ ∧ _))

def Change.request (x : Change) : Message :=
  stamped x.prepared.1.nl (routeMessage host subtrees x.operation x.table x.route)

structure RouteCall where
  operation : Operation
  dealings : Dealings
  table : BitVec 32
  route : RouteSpec
  -- looked at by ROUTE_MODIFY only
  new : Replacement

def RouteCall.run (c : RouteCall) (s : System) : System × Option Int :=
  kernelRoute host subtrees c.operation c.dealings c.table c.route c.new s

def RouteCall.changes (c : RouteCall) (s : System) : List Change :=
  match c.operation with
  | .modify =>
    let prepared := prepare c.dealings.first c.route s
    if prepared.2 < 0 ∨ SameRoute c.route c.new then []
    else
      ⟨.flush, c.dealings.flush, c.table, c.route, prepared.1⟩ ::
        match changeRoute host subtrees .flush c.dealings.flush c.table c.route prepared.1 with
        | (_, none) => []
        | (s, some _) => [⟨.add, c.dealings.add, c.new.table, c.route.replaced c.new, s⟩]
  | other => [⟨other, c.dealings.first, c.table, c.route, s⟩]

inductive Answer where
  -- it has not got the request
  | nothing
  | error (error : Int)
  -- the parts of a dump
  | parts

def Answer.Allows (m : Message) : Answer → Prop
  | .nothing => False
  | .error e => m.hdr.type = nlmsgError ∧ nlmsgerrError host m = some e
  | .parts => True

structure Draw where
  number : BitVec 16
  answer : Answer

/-- `m` answers one of the requests on the socket, and fewer than 65536 numbers were drawn since. -/
def ReplyAmong (draws : List Draw) (m : Message) : Prop :=
  ∃ k draw, draws[k]? = some draw ∧ draws.length - (k + 1) < 65536 ∧
    m.hdr.seq = draw.number.setWidth 32 ∧ draw.answer.Allows host m

def reopened (s : System) (draws : List Draw) : List Draw := if s.nl.sock < 0 then [] else draws

def Change.answer (x : Change) : Answer :=
  if Short x.dealing.send.outcome.rc (x.request host subtrees).hdr.len then .nothing
  else .error (-(x.dealing.refusal.getD 0))

theorem answer_sent (x : Change) (sent : ¬Short x.dealing.send.outcome.rc
      (routeMessage host subtrees x.operation x.table x.route).hdr.len) :
    x.answer host subtrees = .error (-(x.dealing.refusal.getD 0)) :=
  if_neg sent

def Change.draws (x : Change) (draws : List Draw) : List Draw :=
  if x.Asks then
    reopened x.before draws ++ [⟨x.prepared.1.nl.seqno + 1, x.answer host subtrees⟩]
  else reopened x.before draws

def drawsOf (changes : List Change) (draws : List Draw) : List Draw :=
  changes.foldl (fun draws x => x.draws host subtrees draws) draws

structure Change.Genuine (x : Change) (draws : List Draw) : Prop where
  replies : x.Asks → ∀ m, Delivered (x.dealing.script (x.request host subtrees)) m →
    ReplyAmong host (x.draws host subtrees draws) m
  refusal : x.dealing.refusal ≠ some 0

def GenuineChanges : List Change → List Draw → Prop
  | [], _ => True
  | x :: rest, draws => x.Genuine host subtrees draws ∧
    GenuineChanges rest (x.draws host subtrees draws)

structure Conversation where
  system : System
  -- since the command socket was opened
  draws : List Draw

inductive RouteEvent (σ : Type) where
  | call (c : RouteCall)
  -- a request about rules, and what the kernel answers
  | talk (nh : Message) (send : Send) (script : List (Attempt Message)) (answer : Answer)
  | dump (type : BitVec 16) (data : Option (List UInt8)) (send : Sendmsg)
      (filter : Option (Filter σ)) (script : List (Attempt Message)) (closure : σ)
  | reopen (opening : Opening)
  -- another program
  | elsewhere (e : Effect Installed)

def System.exchanged (s : System) (x : Exchange Message) : System :=
  { s with nl := x.nl, errno := x.errno, history := s.history ++ [x] }

/-- The output is what the call returns; a call that does not return ends the run. -/
def callStep (v : Conversation) : RouteEvent σ → Option (Int × Conversation)
  | .call c =>
    match c.run host subtrees v.system with
    | (_, none) => none
    | (s, some rc) =>
      let draws := drawsOf host subtrees (c.changes host subtrees v.system)
        (reopened v.system v.draws)
      some (rc, { system := s, draws := draws })
  | .talk nh send script answer =>
    let x := netlinkTalk host id v.system.nl nh send script
    let drawn : Draw :=
      { number := v.system.nl.seqno + 1
        answer := if Short send.outcome.rc nh.hdr.len then .nothing else answer }
    x.rc.map fun rc => (rc, { system := v.system.exchanged x, draws := v.draws ++ [drawn] })
  | .dump type data send filter script closure =>
    let x := (dump host id v.system.nl type data send filter script closure).1
    let drawn := x.nh.toList.map fun _ =>
      ({ number := v.system.nl.seqno + 1
         answer := if x.trace.isNone then .nothing else .parts } : Draw)
    x.rc.map fun rc => (rc, { system := v.system.exchanged x, draws := v.draws ++ drawn })
  | .reopen opening =>
    if v.system.nl.sock < 0 then
      let opened := netlinkSocket v.system.nl opening
      some (opened.1, { system := { v.system with nl := opened.2 }, draws := [] })
    else some (0, v)
  | .elsewhere e =>
    some (0, { v with system := { v.system with routes := e.apply v.system.routes } })

def OnlyReplies (v : Conversation) : RouteEvent σ → Prop
  | .call c => GenuineChanges host subtrees (c.changes host subtrees v.system)
      (reopened v.system v.draws)
  | .talk .. | .dump .. | .reopen .. | .elsewhere .. => True

def Counted (nl : Netlink) (draws : List Draw) : Prop := Issued nl.seqno (draws.map Draw.number)

theorem counted_nil (nl : Netlink) : Counted nl [] := issued_nil nl.seqno

theorem Counted.draw {nl next : Netlink} {draws : List Draw} (counted : Counted nl draws)
    (advanced : next.seqno = nl.seqno + 1) (answer : Answer) :
    Counted next (draws ++ [⟨nl.seqno + 1, answer⟩]) := by
  rw [Counted, advanced, List.map_append]
  exact Issued.draw counted

theorem counted_reopened {s : System} {draws : List Draw} (counted : Counted s.nl draws) :
    Counted s.nl (reopened s draws) := by
  unfold reopened
  split
  · exact counted_nil s.nl
  · exact counted

theorem counted_prepare (d : Dealing) (r : RouteSpec) {s : System} {draws : List Draw}
    (counted : Counted s.nl draws) : Counted (prepare d r s).1.nl (reopened s draws) := by
  by_cases closed : s.nl.sock < 0
  · rw [reopened, if_pos closed]
    exact counted_nil _
  · have same : (prepare d r s).1.nl = s.nl := by
      unfold prepare reopen
      simp only [if_neg closed]
      split
      next => rfl
      next => split <;> first | rfl | (split <;> rfl)
    rw [same]
    exact counted_reopened counted

theorem reopened_reopened (s : System) (draws : List Draw) :
    reopened s (reopened s draws) = reopened s draws := by
  unfold reopened
  split <;> rfl

theorem talk_seqno (d : Dealing) (nh : Message) (s : System) :
    (talk host d nh s).1.nl.seqno = s.nl.seqno + 1 := by
  obtain ⟨asked, -, spec⟩ := netlinkTalk_asked host id s.nl nh d.send (d.script (stamped s.nl nh))
  exact spec.seqno

theorem changeRoute_eq (x : Change) :
    changeRoute host subtrees x.operation x.dealing x.table x.route x.before =
      if x.Asks then
        talk host x.dealing (routeMessage host subtrees x.operation x.table x.route) x.prepared.1
      else (x.prepared.1, some (if x.prepared.2 < 0 then -1 else 0)) := by
  unfold changeRoute Change.Asks Change.prepared
  by_cases fails : (prepare x.dealing x.route x.before).2 < 0
  · simp [fails]
  · by_cases ignored : x.route.Ignored <;> simp [fails, ignored]

theorem counted_changeRoute (x : Change) {draws : List Draw}
    (counted : Counted x.before.nl draws) :
    Counted (changeRoute host subtrees x.operation x.dealing x.table x.route x.before).1.nl
      (x.draws host subtrees draws) := by
  have prepared : Counted x.prepared.1.nl (reopened x.before draws) := counted_prepare _ _ counted
  rw [changeRoute_eq, Change.draws]
  by_cases asks : x.Asks
  · rw [if_pos asks, if_pos asks]
    exact prepared.draw (talk_seqno host _ _ _) _
  · rw [if_neg asks, if_neg asks]
    exact prepared

theorem reply_last {draws : List Draw} {last : Draw} {m : Message}
    (counted : Issued last.number ((draws ++ [last]).map Draw.number))
    (reply : ReplyAmong host (draws ++ [last]) m) (seq : m.hdr.seq = last.number.setWidth 32) :
    last.answer.Allows host m := by
  obtain ⟨k, draw, found, near, copied, allows⟩ := reply
  have same : draw.number = last.number := setWidth_inj (by decide) (copied.symm.trans seq)
  have drawn : ((draws ++ [last]).map Draw.number)[k]? = some last.number := by
    rw [List.getElem?_map, found, Option.map_some, same]
  have position := counted.last drawn (by rwa [List.length_map])
  rw [List.length_map, List.length_append, List.length_singleton] at position
  have here : k = draws.length := by omega
  rw [here, List.getElem?_concat_length, Option.some.injEq] at found
  rw [found]
  exact allows

theorem talk_accepted_once {d : Dealing} {nh : Message} {s : System}
    (answers : ∀ m, Delivered (d.script (stamped s.nl nh)) m →
      m.hdr.seq = (stamped s.nl nh).hdr.seq →
      m.hdr.type = nlmsgError ∧ nlmsgerrError host m = some (-(d.refusal.getD 0)))
    (refusal : d.refusal ≠ some 0) (returned : (talk host d nh s).2 = some 0) : d.Accepts nh := by
  let once : Dealing :=
    { d with script := fun request => if request = stamped s.nl nh then d.script request else [] }
  have honest : once.Honest host := by
    refine ⟨?_, refusal⟩
    intro request m delivered seq
    by_cases same : request = stamped s.nl nh
    · rw [same] at seq
      simp only [once, same, if_true] at delivered
      exact answers m delivered seq
    · simp only [once, same, if_false] at delivered
      obtain ⟨attempt, member, -⟩ := delivered
      contradiction
  have same : (talk host once nh s).2 = (talk host d nh s).2 := by simp [talk, once]
  exact talk_accepted host honest (same ▸ returned)

theorem changeRoute_accepted {x : Change} {draws : List Draw} (counted : Counted x.before.nl draws)
    (genuine : x.Genuine host subtrees draws) (asks : x.Asks)
    (returned : (changeRoute host subtrees x.operation x.dealing x.table x.route x.before).2 =
      some 0) :
    x.dealing.Accepts (routeMessage host subtrees x.operation x.table x.route) := by
  rw [changeRoute_eq, if_pos asks] at returned
  refine talk_accepted_once host ?_ genuine.refusal returned
  intro m delivered seq
  have prepared : Counted x.prepared.1.nl (reopened x.before draws) := counted_prepare _ _ counted
  have reply := genuine.replies asks m delivered
  rw [Change.draws, if_pos asks] at reply
  let last : Draw := ⟨x.prepared.1.nl.seqno + 1, x.answer host subtrees⟩
  have drawn : Issued last.number ((reopened x.before draws ++ [last]).map Draw.number) := by
    rw [List.map_append]
    exact Issued.draw prepared
  have allows := reply_last host drawn reply seq
  simp only [last, Change.answer] at allows
  split at allows
  · exact absurd allows id
  · exact allows

def effect (operation : Operation) (table : BitVec 32) (r : RouteSpec) : Effect Installed :=
  if operation = .add then .insert (installed subtrees table r)
  else .erase (installed subtrees table r)

def RouteCall.intended (c : RouteCall) : List (Effect Installed) :=
  match c.operation with
  | .modify =>
    [effect subtrees .flush c.table c.route,
      effect subtrees .add c.new.table (c.route.replaced c.new)]
  | other => [effect subtrees other c.table c.route]

/-- What a call that returns 0 has certainly done last, if it has done something. -/
def RouteCall.acknowledged (c : RouteCall) : Option (Effect Installed) :=
  match c.operation with
  | .modify =>
    if SameRoute c.route c.new ∨ (c.route.replaced c.new).Ignored then none
    else some (effect subtrees .add c.new.table (c.route.replaced c.new))
  | other => if c.route.Ignored then none else some (effect subtrees other c.table c.route)

def RouteEvent.intended : RouteEvent σ → List (Effect Installed)
  | .call c => c.intended subtrees
  | .talk .. | .dump .. | .reopen .. => []
  | .elsewhere e => [e]

structure Explains (event : RouteEvent σ) (rc : Int) (es : List (Effect Installed)) : Prop where
  once : es.Sublist (event.intended subtrees)
  elsewhere : ∀ e, event = .elsewhere e → es = [e]
  acknowledged : ∀ c, event = .call c → rc = 0 →
    ∀ e ∈ c.acknowledged subtrees, es.getLast? = some e

theorem routes_changeRoute (x : Change) :
    (changeRoute host subtrees x.operation x.dealing x.table x.route x.before).1.routes =
      if x.Asks ∧ x.dealing.Accepts (routeMessage host subtrees x.operation x.table x.route) then
        (effect subtrees x.operation x.table x.route).apply x.before.routes
      else x.before.routes := by
  have same : x.prepared.1.routes = x.before.routes := (prepare_same _ _ _).1
  by_cases asks : x.Asks
  · have called := changeRoute_eq host subtrees x
    rw [if_pos asks] at called
    rw [called, routes_talk, same]
    by_cases accepts : x.dealing.Accepts (routeMessage host subtrees x.operation x.table x.route)
    · simp only [asks, accepts, if_true, and_self, effect]
      split <;> rfl
    · simp only [accepts, if_false, and_false]
  · have called := changeRoute_eq host subtrees x
    rw [if_neg asks] at called
    rw [called]
    simp only [asks, false_and, if_false]
    exact same

theorem changeRoute_effect {x : Change} {draws : List Draw} (counted : Counted x.before.nl draws)
    (genuine : x.Genuine host subtrees draws) {s : System} {returned : Option Int}
    (called : changeRoute host subtrees x.operation x.dealing x.table x.route x.before =
      (s, returned)) :
    s.routes = x.before.routes ∧ (returned = some 0 → x.route.Ignored) ∨
      s.routes = (effect subtrees x.operation x.table x.route).apply x.before.routes := by
  have routes := routes_changeRoute host subtrees x
  rw [called] at routes
  by_cases done :
      x.Asks ∧ x.dealing.Accepts (routeMessage host subtrees x.operation x.table x.route)
  · rw [if_pos done] at routes
    exact Or.inr routes
  · rw [if_neg done] at routes
    refine Or.inl ⟨routes, ?_⟩
    rintro rfl
    by_cases asks : x.Asks
    · have accepted := changeRoute_accepted host subtrees counted genuine asks (by rw [called])
      exact absurd ⟨asks, accepted⟩ done
    · rw [changeRoute_eq, if_neg asks, Prod.mk.injEq, Option.some.injEq] at called
      obtain ⟨-, zero⟩ := called
      split at zero
      · exact absurd zero (by decide)
      next passed =>
        by_contra wanted
        exact asks ⟨passed, wanted⟩

theorem counted_call (c : RouteCall) {s : System} {draws : List Draw}
    (counted : Counted s.nl draws) :
    Counted (c.run host subtrees s).1.nl
      (drawsOf host subtrees (c.changes host subtrees s) (reopened s draws)) := by
  obtain ⟨operation, d, table, r, new⟩ := c
  have here := counted_reopened counted
  cases operation with
  | add => exact counted_changeRoute host subtrees ⟨.add, d.first, table, r, s⟩ here
  | flush => exact counted_changeRoute host subtrees ⟨.flush, d.first, table, r, s⟩ here
  | modify =>
    have prepared : Counted (prepare d.first r s).1.nl (reopened s draws) :=
      counted_prepare d.first r counted
    simp only [RouteCall.run, kernelRoute, RouteCall.changes]
    by_cases fails : (prepare d.first r s).2 < 0
    · simpa only [fails, true_or, if_true, drawsOf, List.foldl_nil] using prepared
    by_cases shortcut : SameRoute r new
    · simpa only [fails, shortcut, or_true, if_false, if_true, drawsOf, List.foldl_nil] using
        prepared
    simp only [fails, shortcut, or_false, if_false]
    have flushed := counted_changeRoute host subtrees
      ⟨.flush, d.flush, table, r, (prepare d.first r s).1⟩ prepared
    simp only at flushed
    rcases called : changeRoute host subtrees .flush d.flush table r (prepare d.first r s).1
      with ⟨mid, flushRc⟩
    rw [called] at flushed
    cases flushRc with
    | none => exact flushed
    | some flushRc =>
      have added := counted_changeRoute host subtrees
        ⟨.add, d.add, new.table, r.replaced new, mid⟩ flushed
      simp only at added ⊢
      rcases last : changeRoute host subtrees .add d.add new.table (r.replaced new) mid
        with ⟨out, addRc⟩
      rw [last] at added
      cases addRc <;> exact added

theorem explains_call {c : RouteCall} {rc : Int} {es : List (Effect Installed)}
    (once : es.Sublist (c.intended subtrees))
    (acknowledged : rc = 0 → ∀ e ∈ c.acknowledged subtrees, es.getLast? = some e) :
    Explains (σ := σ) subtrees (.call c) rc es where
  once := once
  elsewhere := nofun
  acknowledged := by
    rintro _ ⟨⟩
    exact acknowledged

theorem explained_single {c : RouteCall} {rc : Int} {s out : System} {x : Change}
    {draws : List Draw} (counted : Counted x.before.nl draws)
    (genuine : x.Genuine host subtrees draws) (before : x.before = s)
    (called : changeRoute host subtrees x.operation x.dealing x.table x.route x.before =
      (out, some rc))
    (intended : c.intended subtrees = [effect subtrees x.operation x.table x.route])
    (acknowledged : c.acknowledged subtrees =
      if x.route.Ignored then none else some (effect subtrees x.operation x.table x.route)) :
    ∃ es, Explains (σ := σ) subtrees (.call c) rc es ∧ out.routes = applyAll s.routes es := by
  subst before
  rcases changeRoute_effect host subtrees counted genuine called with ⟨same, ignored⟩ | done
  · refine ⟨[], explains_call subtrees (List.nil_sublist _) ?_, same⟩
    intro zero e known
    rw [acknowledged, if_pos (ignored (congrArg some zero))] at known
    cases known
  · refine ⟨[effect subtrees x.operation x.table x.route], explains_call subtrees ?_ ?_, done⟩
    · rw [intended]
    · intro _ e known
      rw [acknowledged] at known
      split at known
      · cases known
      · cases known
        rfl

theorem acknowledged_modify {d : Dealings} {table : BitVec 32} {r : RouteSpec}
    {new : Replacement} {e : Effect Installed}
    (known : e ∈ RouteCall.acknowledged subtrees ⟨.modify, d, table, r, new⟩) :
    ¬(SameRoute r new ∨ (r.replaced new).Ignored) ∧
      e = effect subtrees .add new.table (r.replaced new) := by
  simp only [RouteCall.acknowledged] at known
  split at known
  next => cases known
  next wanted =>
    cases known
    exact ⟨wanted, rfl⟩

theorem explained_replacement {d : Dealings} {table : BitVec 32} {r : RouteSpec}
    {new : Replacement} {s mid out : System} {rc : Int} {addRc : Option Int}
    {flushed : List (Effect Installed)}
    (within : flushed.Sublist [effect subtrees .flush table r])
    (routes : mid.routes = applyAll s.routes flushed)
    (code : rc = 0 → addRc = some 0)
    (added : out.routes = mid.routes ∧ (addRc = some 0 → (r.replaced new).Ignored) ∨
      out.routes = (effect subtrees .add new.table (r.replaced new)).apply mid.routes) :
    ∃ es, Explains (σ := σ) subtrees (.call ⟨.modify, d, table, r, new⟩) rc es ∧
      out.routes = applyAll s.routes es := by
  rcases added with ⟨same, ignored⟩ | done
  · refine ⟨flushed, explains_call subtrees ?_ ?_, same.trans routes⟩
    · exact within.trans (by simp [RouteCall.intended])
    · intro zero e known
      exact absurd (Or.inr (ignored (code zero))) (acknowledged_modify subtrees known).1
  · refine ⟨flushed ++ [effect subtrees .add new.table (r.replaced new)],
      explains_call subtrees (within.append (List.Sublist.refl _)) ?_, ?_⟩
    · intro _ e known
      rw [(acknowledged_modify subtrees known).2]
      exact List.getLast?_concat
    · rw [done, applyAll_append, ← routes]
      rfl

theorem explained_modify {d : Dealings} {table : BitVec 32} {r : RouteSpec} {new : Replacement}
    {s out : System} {rc : Int} {draws : List Draw} (counted : Counted s.nl draws)
    (genuine : GenuineChanges host subtrees
      (RouteCall.changes host subtrees ⟨.modify, d, table, r, new⟩ s) (reopened s draws))
    (returned : kernelRoute host subtrees .modify d table r new s = (out, some rc)) :
    ∃ es, Explains (σ := σ) subtrees (.call ⟨.modify, d, table, r, new⟩) rc es ∧
      out.routes = applyAll s.routes es := by
  have nothing (zero : rc = 0 → SameRoute r new) (same : out.routes = s.routes) :
      ∃ es, Explains (σ := σ) subtrees (.call ⟨.modify, d, table, r, new⟩) rc es ∧
        out.routes = applyAll s.routes es := by
    refine ⟨[], explains_call subtrees (List.nil_sublist _) ?_, same⟩
    intro done e known
    exact absurd (Or.inl (zero done)) (acknowledged_modify subtrees known).1
  rcases kernelRoute_modify host subtrees returned with
    ⟨-, failed, same⟩ | ⟨-, shortcut, -, same⟩ | ⟨ready, different, calls⟩
  · exact nothing (by omega) same
  · exact nothing (fun _ => shortcut) same
  obtain ⟨mid, flushRc, addRc, flush, add, value⟩ := calls
  let flushing : Change := ⟨.flush, d.flush, table, r, (prepare d.first r s).1⟩
  let adding : Change := ⟨.add, d.add, new.table, r.replaced new, mid⟩
  have changes : RouteCall.changes host subtrees ⟨.modify, d, table, r, new⟩ s =
      [flushing, adding] := by
    have passes := mt (prepare_fails d.first r s).mp ready
    simp only [RouteCall.changes, passes, different, or_false, if_false, flush, flushing, adding]
  rw [changes] at genuine
  obtain ⟨genuineFlush, genuineAdd, -⟩ := genuine
  have before := (prepare_same d.first r s).1
  have prepared : Counted flushing.before.nl (reopened s draws) :=
    counted_prepare d.first r counted
  have middle := counted_changeRoute host subtrees flushing prepared
  simp only [flushing, flush] at middle
  obtain ⟨flushed, within, routes⟩ : ∃ es : List (Effect Installed),
      es.Sublist [effect subtrees .flush table r] ∧ mid.routes = applyAll s.routes es := by
    rcases changeRoute_effect host subtrees prepared genuineFlush flush with ⟨same, -⟩ | erased
    · exact ⟨[], List.nil_sublist _, same.trans before⟩
    · refine ⟨_, List.Sublist.refl _, erased.trans ?_⟩
      simp only [flushing, before]
      rfl
  have code : rc = 0 → some addRc = some 0 := by
    intro zero
    rw [zero] at value
    split at value <;> exact congrArg some (by omega)
  exact explained_replacement subtrees within routes code
    (changeRoute_effect host subtrees (x := adding) middle genuineAdd add)

theorem call_explained {c : RouteCall} {s out : System} {rc : Int} {draws : List Draw}
    (counted : Counted s.nl draws)
    (genuine : GenuineChanges host subtrees (c.changes host subtrees s) (reopened s draws))
    (returned : c.run host subtrees s = (out, some rc)) :
    ∃ es, Explains (σ := σ) subtrees (.call c) rc es ∧ out.routes = applyAll s.routes es := by
  obtain ⟨operation, d, table, r, new⟩ := c
  have here := counted_reopened counted
  cases operation with
  | add =>
    exact explained_single host subtrees (x := ⟨.add, d.first, table, r, s⟩) here genuine.1 rfl
      returned rfl rfl
  | flush =>
    exact explained_single host subtrees (x := ⟨.flush, d.first, table, r, s⟩) here genuine.1 rfl
      returned rfl rfl
  | modify => exact explained_modify host subtrees counted genuine returned

theorem explains_nothing {event : RouteEvent σ} (intended : event.intended subtrees = [])
    (quiet : ∀ c, event ≠ .call c) (rc : Int) : Explains subtrees event rc [] := by
  refine ⟨by rw [intended], ?_, fun c called => absurd called (quiet c)⟩
  rintro e rfl
  cases intended

@[simp] theorem routes_exchanged (s : System) (x : Exchange Message) :
    (s.exchanged x).routes = s.routes := rfl

@[simp] theorem nl_exchanged (s : System) (x : Exchange Message) : (s.exchanged x).nl = x.nl := rfl

theorem step_counted {v w : Conversation} {event : RouteEvent σ} {rc : Int}
    (counted : Counted v.system.nl v.draws)
    (stepped : callStep host subtrees v event = some (rc, w)) :
    Counted w.system.nl w.draws := by
  cases event with
  | call c =>
    simp only [callStep] at stepped
    split at stepped
    next => cases stepped
    next s code returned =>
      cases stepped
      have after := counted_call host subtrees c counted
      rwa [returned] at after
  | talk nh send script answer =>
    simp only [callStep, Option.map_eq_some_iff, Prod.mk.injEq] at stepped
    obtain ⟨code, -, -, rfl⟩ := stepped
    obtain ⟨asked, -, spec⟩ := netlinkTalk_asked host id v.system.nl nh send script
    exact counted.draw spec.seqno _
  | dump type data send filter script closure =>
    simp only [callStep, Option.map_eq_some_iff, Prod.mk.injEq] at stepped
    obtain ⟨code, -, -, rfl⟩ := stepped
    rcases dump_asked host id v.system.nl type data send filter script closure with
      ⟨same, nothing, -⟩ | ⟨asked, sent, spec⟩
    · simpa only [nothing, Option.toList_none, List.map_nil, List.append_nil, nl_exchanged, same]
        using counted
    · simp only [sent, Option.toList_some, List.map_cons, List.map_nil]
      exact counted.draw spec.seqno _
  | reopen opening =>
    simp only [callStep] at stepped
    split at stepped
    · cases stepped
      exact counted_nil _
    · cases stepped
      exact counted
  | elsewhere e =>
    cases stepped
    exact counted

theorem step_explained {v w : Conversation} {event : RouteEvent σ} {rc : Int}
    (counted : Counted v.system.nl v.draws) (genuine : OnlyReplies host subtrees v event)
    (stepped : callStep host subtrees v event = some (rc, w)) :
    ∃ es, Explains subtrees event rc es ∧ w.system.routes = applyAll v.system.routes es := by
  cases event with
  | call c =>
    simp only [callStep] at stepped
    split at stepped
    next => cases stepped
    next s code returned =>
      cases stepped
      exact call_explained host subtrees counted genuine returned
  | talk nh send script answer =>
    simp only [callStep, Option.map_eq_some_iff, Prod.mk.injEq] at stepped
    obtain ⟨code, -, -, rfl⟩ := stepped
    exact ⟨[], explains_nothing subtrees rfl (by simp) rc, routes_exchanged ..⟩
  | dump type data send filter script closure =>
    simp only [callStep, Option.map_eq_some_iff, Prod.mk.injEq] at stepped
    obtain ⟨code, -, -, rfl⟩ := stepped
    exact ⟨[], explains_nothing subtrees rfl (by simp) rc, routes_exchanged ..⟩
  | reopen opening =>
    refine ⟨[], explains_nothing subtrees rfl (by simp) rc, ?_⟩
    simp only [callStep] at stepped
    split at stepped <;> cases stepped <;> rfl
  | elsewhere e =>
    cases stepped
    refine ⟨[e], ⟨List.Sublist.refl _, ?_, by simp⟩, rfl⟩
    rintro other ⟨⟩
    rfl

theorem run_effects {v w : Conversation} {events : List (RouteEvent σ)} {os : List Int}
    (counted : Counted v.system.nl v.draws)
    (genuine : Along (callStep host subtrees) (OnlyReplies host subtrees) v events)
    (ran : run (callStep host subtrees) v events = some (os, w)) :
    Counted w.system.nl w.draws ∧ ∃ effects : List (List (Effect Installed)),
      List.Forall₂ (fun io es => Explains subtrees io.1 io.2 es) (events.zip os) effects ∧
        w.system.routes = applyAll v.system.routes effects.flatten :=
  run_explained (fun v => v.system.routes) (Explains subtrees)
    (fun v => Counted v.system.nl v.draws) (OnlyReplies host subtrees)
    (fun _ _ _ _ counted genuine stepped => ⟨step_counted host subtrees counted stepped,
      step_explained host subtrees counted genuine stepped⟩) counted genuine ran

/-- Over any run, and whatever fails on the way, the kernel's routes change by what the other
programs do and by what the calls ask for: each request once at most and in order, and certainly
where the call has returned 0. Late replies to earlier requests do no harm. -/
theorem calls_exactly_once {v w : Conversation} {events : List (RouteEvent σ)} {os : List Int}
    (fresh : v.draws = [])
    (genuine : Along (callStep host subtrees) (OnlyReplies host subtrees) v events)
    (ran : run (callStep host subtrees) v events = some (os, w)) :
    ∃ effects : List (List (Effect Installed)),
      List.Forall₂ (fun io es => Explains subtrees io.1 io.2 es) (events.zip os) effects ∧
        w.system.routes = applyAll v.system.routes effects.flatten :=
  (run_effects host subtrees (fresh ▸ counted_nil v.system.nl) genuine ran).2

theorem acknowledged_last {v w : Conversation} {before after : List (RouteEvent σ)} {c : RouteCall}
    {os : List Int} (fresh : v.draws = [])
    (genuine : Along (callStep host subtrees) (OnlyReplies host subtrees) v
      (before ++ .call c :: after))
    (ran : run (callStep host subtrees) v (before ++ .call c :: after) = some (os, w))
    (returned : os[before.length]? = some 0) {e : Effect Installed}
    (acknowledged : c.acknowledged subtrees = some e)
    (others : ∀ event ∈ after, ∀ other ∈ event.intended subtrees, other.target ≠ e.target) :
    e.Seen w.system.routes := by
  obtain ⟨first, mid, rest, early, later, rfl⟩ := run_append.mp ran
  obtain ⟨rc, next, last, called, remaining, rfl⟩ := run_cons.mp later
  rw [along_append _ early, along_cons _ called] at genuine
  obtain ⟨genuineBefore, genuineHere, genuineAfter⟩ := genuine
  have zero : rc = 0 := by
    rw [List.getElem?_append_right (by rw [run_length early]), run_length early, Nat.sub_self,
      List.getElem?_cons_zero, Option.some.injEq] at returned
    exact returned
  obtain ⟨counted, -⟩ :=
    run_effects host subtrees (fresh ▸ counted_nil v.system.nl) genuineBefore early
  obtain ⟨es, explained, routes⟩ := step_explained host subtrees counted genuineHere called
  have seen : e.Seen next.system.routes := by
    rw [routes]
    exact seen_applyAll_getLast (explained.acknowledged c rfl zero e acknowledged)
  obtain ⟨-, effects, each, final⟩ :=
    run_effects host subtrees (step_counted host subtrees counted called) genuineAfter remaining
  rw [final]
  refine seen_applyAll_others seen ?_
  intro other member
  obtain ⟨es, inEffects, inEs⟩ := List.mem_flatten.mp member
  obtain ⟨io, inRun, explains⟩ := exists_of_forall₂ each inEffects
  exact others io.1 (List.of_mem_zip inRun).1 other (explains.once.subset inEs)

def replyTo (seq : BitVec 32) (error : Int) : Message where
  hdr := { len := 36, type := nlmsgError, flags := 0, seq := seq, pid := 1000 }
  data := ByteOrder.little.store 4 (BitVec.ofInt 32 error).toNat ++ List.replicate 16 0

def lateAnswering : Dealing :=
  { answering none with
    script := fun request =>
      [{ first := .received
           { namelen := 12, nlPid := 0, msgs := [replyTo 7 (-17), replyTo request.hdr.seq 0] }
         wait := 0
         waitErrno := 0
         second := .eof }] }

def addSpecific : RouteCall where
  operation := .add
  dealings := { first := lateAnswering, flush := lateAnswering, add := lateAnswering }
  table := 254
  route := specificRoute
  new := viaOther

def lateReply : List (RouteEvent Unit) :=
  [.talk ⟨⟨16, 32, 1, 0, 0⟩, []⟩ ⟨⟨16, 0⟩, 0, 0, ⟨0, 0⟩⟩ [⟨.failed eagain, 0, 0, .eof⟩]
      (.error (-17)),
    .call addSpecific,
    .elsewhere (.insert foreign)]

def beginning : Conversation := { system := running ∅, draws := [] }

theorem run_lateReply :
    ∃ w, run (callStep .little true) beginning lateReply = some ([-1, 0, 0], w) := by
  have outputs : (run (callStep .little true) beginning lateReply).map Prod.fst =
      some [-1, 0, 0] := by
    decide +kernel
  obtain ⟨⟨os, w⟩, ran, rfl⟩ := Option.map_eq_some_iff.mp outputs
  exact ⟨w, ran⟩

theorem genuine_lateAnswering {s : System} {draws : List Draw}
    (refused : draws = [⟨7, .error (-17)⟩]) (opened : ¬s.nl.sock < 0) :
    Change.Genuine .little true ⟨.add, lateAnswering, 254, specificRoute, s⟩
      (reopened s draws) := by
  constructor
  case refusal => exact show (none : Option Int) ≠ some 0 by decide
  intro asks m delivered
  have long : ¬Short lateAnswering.send.outcome.rc
      (routeMessage .little true .add 254 specificRoute).hdr.len := by
    decide +kernel
  have sent := answer_sent .little true ⟨.add, lateAnswering, 254, specificRoute, s⟩ long
  have zero (seq : BitVec 32) : nlmsgerrError .little (replyTo seq 0) = some 0 := rfl
  rw [Change.draws, if_pos asks, sent, reopened_reopened, reopened, if_neg opened, refused]
  obtain ⟨attempt, member, datagram, received, -, found⟩ := delivered
  rw [List.mem_singleton.mp member] at received
  cases received
  simp only [List.mem_cons, List.not_mem_nil, or_false] at found
  rcases found with rfl | rfl
  · exact ⟨0, _, rfl, by simp, rfl, rfl, by decide⟩
  · exact ⟨1, _, rfl, by simp, rfl, rfl, zero _⟩

theorem genuine_lateReply :
    Along (callStep .little true) (OnlyReplies .little true) beginning lateReply := by
  refine ⟨trivial, ?_⟩
  intro rc v stepped
  have draws : v.draws = [⟨7, .error (-17)⟩] := by
    cases stepped
    rfl
  have sock : ¬v.system.nl.sock < 0 := by
    cases stepped
    decide
  refine ⟨⟨genuine_lateAnswering draws sock, trivial⟩, fun _ _ _ => ⟨trivial, fun _ _ _ => trivial⟩⟩

theorem calls_exactly_once_lateReply :
    ∃ w, run (callStep .little true) beginning lateReply = some ([-1, 0, 0], w) ∧
      ∃ effects : List (List (Effect Installed)),
        List.Forall₂ (fun io es => Explains true io.1 io.2 es) (lateReply.zip [-1, 0, 0]) effects ∧
          w.system.routes = applyAll beginning.system.routes effects.flatten := by
  obtain ⟨w, ran⟩ := run_lateReply
  exact ⟨w, ran, calls_exactly_once .little true rfl genuine_lateReply ran⟩

theorem acknowledged_last_lateReply :
    ∃ w, run (callStep .little true) beginning lateReply = some ([-1, 0, 0], w) ∧
      (Effect.insert (installed true 254 specificRoute)).Seen w.system.routes := by
  obtain ⟨w, ran⟩ := run_lateReply
  have others : ∀ event ∈ [RouteEvent.elsewhere (σ := Unit) (.insert foreign)],
      ∀ other ∈ event.intended true, other.target ≠ installed true 254 specificRoute := by
    simp only [List.mem_cons, List.not_mem_nil, or_false, forall_eq, RouteEvent.intended,
      Effect.target]
    decide +kernel
  have split : lateReply = lateReply.take 1 ++ .call addSpecific ::
      [RouteEvent.elsewhere (.insert foreign)] := rfl
  have genuine := genuine_lateReply
  rw [split] at ran genuine
  exact ⟨w, split ▸ ran, acknowledged_last .little true rfl genuine ran rfl rfl others⟩

end Tabeld.KernelNetlink
