import Tabeld.KernelNetlink.Import

set_option autoImplicit false

namespace Tabeld.KernelNetlink

variable {σ τ μ : Type} (host : ByteOrder) (view : μ → Message)
variable (nl : Netlink) (nlIgnore : Option Netlink) (answer : Bool)

structure InStep (s : Reading σ μ) (t : Reading τ μ) : Prop where
  done : s.done = t.done
  errno : s.errno = t.errno
  trace : s.trace = t.trace

theorem InStep.log {s : Reading σ μ} {t : Reading τ μ} (inStep : InStep s t) (e : Event μ) :
    InStep (s.log e) (t.log e) :=
  ⟨inStep.done, inStep.errno, by simp only [Reading.log, inStep.trace]⟩

theorem deliver_alike (call : Filter σ) (other : Filter τ) (m : μ) {s : Reading σ μ}
    {t : Reading τ μ} (inStep : InStep s t) :
    InStep (deliver view (some call) m s) (deliver view (some other) m t) := by
  have filtered {s : Reading σ μ} {t : Reading τ μ} (inStep : InStep s t) (closure : σ)
      (closure' : τ) (skip skip' : Bool) :
      InStep { s.log (.filtered m) with closure := closure, skip := skip }
        { t.log (.filtered m) with closure := closure', skip := skip' } :=
    let logged := inStep.log (.filtered m)
    ⟨logged.done, logged.errno, logged.trace⟩
  unfold deliver
  by_cases link : (view m).hdr.type = rtmNewlink ∨ (view m).hdr.type = rtmDellink
  · simp only [link, if_true]
    exact filtered (inStep.log _) _ _ _ _
  · simp only [link, if_false]
    exact filtered inStep _ _ _ _

theorem handle_alike (call : Filter σ) (other : Filter τ) (m : μ) {s : Reading σ μ}
    {t : Reading τ μ} (inStep : InStep s t) :
    let out := handle host view nl nlIgnore answer (some call) m s
    let out' := handle host view nl nlIgnore answer (some other) m t
    out.1 = out'.1 ∧ InStep out.2 out'.2 := by
  have begun : InStep (if answer then s else { s with done := true })
      (if answer then t else { t with done := true }) := by
    cases answer
    · exact ⟨rfl, inStep.errno, inStep.trace⟩
    · exact inStep
  unfold handle
  generalize (if answer then s else { s with done := true }) = s at begun
  generalize (if answer then t else { t with done := true }) = t at begun
  simp only
  split
  next => exact ⟨rfl, begun.log _⟩
  next =>
    split
    next => exact ⟨rfl, begun.log _⟩
    next =>
      split
      next =>
        have ended := begun.log (.done m)
        exact ⟨rfl, rfl, ended.errno, ended.trace⟩
      next =>
        split
        next =>
          split
          next => exact ⟨rfl, begun⟩
          next =>
            split
            next => exact ⟨rfl, begun.log _⟩
            next =>
              have refused := begun.log (.refused m)
              exact ⟨rfl, refused.done, rfl, refused.trace⟩
        next => exact ⟨rfl, deliver_alike view call other m begun⟩

theorem messages_alike (call : Filter σ) (other : Filter τ) (msgs : List μ) {s : Reading σ μ}
    {t : Reading τ μ} (inStep : InStep s t) :
    let out := messages host view nl nlIgnore answer (some call) msgs s
    let out' := messages host view nl nlIgnore answer (some other) msgs t
    out.1 = out'.1 ∧ InStep out.2 out'.2 := by
  induction msgs generalizing s t with
  | nil => exact ⟨rfl, inStep⟩
  | cons m rest ih =>
    obtain ⟨flow, next⟩ := handle_alike host view nl nlIgnore answer call other m inStep
    simp only [messages]
    generalize handle host view nl nlIgnore answer (some call) m s = out at flow next
    generalize handle host view nl nlIgnore answer (some other) m t = out' at flow next
    obtain ⟨first, s⟩ := out
    obtain ⟨_, t⟩ := out'
    cases flow
    cases first with
    | next => exact ih next
    | stop | returned | overread => exact ⟨rfl, next⟩

structure SameRead (read : ReadResult σ μ) (other : ReadResult τ μ) : Prop where
  nl : read.nl = other.nl
  rc : read.rc = other.rc
  reading : InStep read.reading other.reading

theorem receive_same (call : Filter σ) (other : Filter τ) (script : List (Attempt μ))
    {s : Reading σ μ} {t : Reading τ μ} (inStep : InStep s t) :
    SameRead (receive host view nl nlIgnore answer (some call) script s)
      (receive host view nl nlIgnore answer (some other) script t) := by
  have failed {s : Reading σ μ} {t : Reading τ μ} (inStep : InStep s t) :
      SameRead (socketError nl s) (socketError nl t) :=
    ⟨rfl, rfl, inStep.done, rfl, inStep.trace⟩
  induction script generalizing s t with
  | nil => exact ⟨rfl, rfl, inStep⟩
  | cons attempt rest ih =>
    simp only [receive]
    split
    next => exact ⟨rfl, rfl, inStep.done, rfl, inStep.trace⟩
    next => exact failed inStep
    next d _ =>
      split
      next => exact failed inStep
      next =>
        split
        next => exact ⟨rfl, rfl, inStep⟩
        next =>
          obtain ⟨flow, next⟩ :=
            messages_alike host view nl nlIgnore answer call other d.msgs inStep
          generalize messages host view nl nlIgnore answer (some call) d.msgs s = out
            at flow next
          generalize messages host view nl nlIgnore answer (some other) d.msgs t = out'
            at flow next
          obtain ⟨first, s⟩ := out
          obtain ⟨_, t⟩ := out'
          cases flow
          cases first with
          | returned | overread => exact ⟨rfl, rfl, next⟩
          | next | stop =>
            simp only at next ⊢
            rw [next.done]
            split
            next => exact ⟨rfl, rfl, next⟩
            next => exact ih next

def recording (call : Filter σ) : Filter (σ × List (Message × Int)) := fun s m =>
  let (closure, err) := call s.1 m
  ((closure, s.2 ++ [(m, err)]), err)

def verdicts (call : Filter σ) : σ → List Message → List (Message × Int)
  | _, [] => []
  | closure, m :: rest =>
    let (closure, err) := call closure m
    (m, err) :: verdicts call closure rest

theorem recording_foldl (call : Filter σ) (msgs : List μ) (closure : σ)
    (before : List (Message × Int)) :
    (msgs.foldl (fun s m => (recording call s (view m)).1) (closure, before)).2 =
      before ++ verdicts call closure (msgs.map view) := by
  induction msgs generalizing closure before with
  | nil => simp [verdicts]
  | cons m rest ih =>
    rw [List.foldl_cons, recording, ih, List.map_cons, verdicts]
    simp

def delivered (call : Filter σ) (script : List (Attempt μ)) (errno : Int) (closure : σ) :
    List (Message × Int) :=
  (netlinkRead host view nl nlIgnore answer (some (recording call)) script errno
    (closure, [])).reading.closure.2

theorem delivered_eq (call : Filter σ) (script : List (Attempt μ)) (errno : Int) (closure : σ) :
    delivered host view nl nlIgnore answer call script errno closure =
      verdicts call closure ((passing view nl nlIgnore answer script).map view) := by
  rw [delivered, netlinkRead_closure, recording_foldl, List.nil_append]

def Event.isFiltered : Event μ → Bool
  | .filtered _ => true
  | _ => false

structure SameEnd (read other : ReadResult σ μ) : Prop where
  nl : read.nl = other.nl
  rc : read.rc = other.rc
  errno : read.reading.errno = other.reading.errno
  consumed : read.reading.trace.filter (!·.isFiltered) = other.reading.trace.filter (!·.isFiltered)

structure StopsDelivery (call : Filter σ) (script : List (Attempt μ)) (errno : Int)
    (closure : σ) : Prop where
  stops : (delivered host view nl nlIgnore answer call script errno closure).Pairwise
    fun earlier _ => 0 ≤ earlier.2
  ends : ∀ (other : Filter σ) (closure' : σ),
    SameEnd (netlinkRead host view nl nlIgnore answer (some call) script errno closure)
      (netlinkRead host view nl nlIgnore answer (some other) script errno closure')

theorem netlinkRead_ends (call other : Filter σ) (script : List (Attempt μ)) (errno : Int)
    (closure closure' : σ) :
    SameEnd (netlinkRead host view nl nlIgnore answer (some call) script errno closure)
      (netlinkRead host view nl nlIgnore answer (some other) script errno closure') := by
  have same := receive_same host view nl nlIgnore answer call other script
    (s := { done := false, skip := false, errno := errno, closure := closure, trace := [] })
    (t := { done := false, skip := false, errno := errno, closure := closure', trace := [] })
    ⟨rfl, rfl, rfl⟩
  exact ⟨same.nl, same.rc, same.reading.errno, congrArg _ same.reading.trace⟩

theorem pairwise_earlier {α : Type} (accepted : α → Prop) (verdicts : List α) :
    (verdicts.Pairwise fun earlier _ => accepted earlier) ↔
      ∀ verdict ∈ verdicts.dropLast, accepted verdict := by
  induction verdicts with
  | nil => simp
  | cons verdict rest ih =>
    cases rest with
    | nil => simp
    | cons next rest =>
      have here : (∀ later ∈ next :: rest, accepted verdict) ↔ accepted verdict :=
        ⟨fun all => all next (by simp), fun yes _ _ => yes⟩
      rw [List.pairwise_cons, here, ih, List.dropLast_cons_cons, List.forall_mem_cons]

theorem stopsDelivery_iff (call : Filter σ) (script : List (Attempt μ)) (errno : Int)
    (closure : σ) :
    StopsDelivery host view nl nlIgnore answer call script errno closure ↔
      ∀ verdict ∈
        (verdicts call closure ((passing view nl nlIgnore answer script).map view)).dropLast,
        0 ≤ verdict.2 := by
  rw [← pairwise_earlier fun verdict : Message × Int => 0 ≤ verdict.2,
    ← delivered_eq host view nl nlIgnore answer call script errno closure]
  constructor
  · exact fun stops => stops.stops
  · exact fun stops => ⟨stops, fun other closure' =>
      netlinkRead_ends host view nl nlIgnore answer call other script errno closure closure'⟩

def rejecting : KernelFilter Unit where
  route := some fun _ closure => (closure, -1)
  addr := none
  link := none
  rule := none

def twoRoutes : List (Attempt Message) :=
  [{ first := .received { namelen := 12, nlPid := 0, msgs := [staticRoute, staticRoute] }
     wait := 0
     waitErrno := 0
     second := .eof }]

theorem not_stopsDelivery_twoRoutes :
    ¬StopsDelivery .little id listening none false
      (asFilter .little 0 [254] rejecting fun _ => ⟨.cleared, Memory.zeroed⟩) twoRoutes 0
      { closure := (), calls := [], reads := [] } := by
  intro stops
  have accepted := stops.stops
  rw [delivered_eq, pairwise_earlier fun verdict : Message × Int => 0 ≤ verdict.2] at accepted
  revert accepted
  decide

end Tabeld.KernelNetlink
