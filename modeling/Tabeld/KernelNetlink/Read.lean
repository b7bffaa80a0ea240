import Mathlib.Data.List.Basic
import Tabeld.Shared.ByteOrder

set_option autoImplicit false

/-!
# netlink_read

What the system calls return comes in as a script. The trace records what the message loop did
with each message.
-/

namespace Tabeld.KernelNetlink

structure Nlmsghdr where
  len : BitVec 32
  type : BitVec 16
  flags : BitVec 16
  seq : BitVec 32
  pid : BitVec 32
  deriving DecidableEq

structure Message where
  hdr : Nlmsghdr
  -- what NLMSG_DATA points at
  data : List UInt8
  deriving DecidableEq

structure Netlink where
  seqno : BitVec 16
  sock : Int
  nlPid : BitVec 32
  socklen : Nat
  deriving DecidableEq

def nlmsgError : BitVec 16 := 2
def nlmsgDone : BitVec 16 := 3
def rtmNewlink : BitVec 16 := 16
def rtmDellink : BitVec 16 := 17

def eintr : Int := 4
def eio : Int := 5
def eagain : Int := 11

/-- `filter_netlink` with the callbacks and closures of a `struct kernel_filter`. -/
abbrev Filter (σ : Type) : Type := σ → Message → σ × Int

structure Datagram (μ : Type) where
  namelen : Nat
  nlPid : BitVec 32
  msgs : List μ

inductive Recvmsg (μ : Type) where
  | failed (errno : Int)
  | eof
  | received (d : Datagram μ)

structure Attempt (μ : Type) where
  first : Recvmsg μ
  -- wait_for_fd and recvmsg again, for the case that there is nothing to read yet
  wait : Int
  waitErrno : Int
  second : Recvmsg μ

def Attempt.outcome {μ : Type} (a : Attempt μ) : Recvmsg μ :=
  match a.first with
  | .failed errno =>
    if errno = eagain ∨ errno = eintr then
      if a.wait < 0 then .failed a.waitErrno
      else if a.wait = 0 then .failed eagain
      else a.second
    else .failed errno
  | first => first

inductive Event (μ : Type) where
  | ignored (m : μ)
  | unrelated (m : μ)
  | done (m : μ)
  | ack (m : μ)
  | refused (m : μ)
  | checkInterfaces (m : μ)
  | filtered (m : μ)

structure Reading (σ μ : Type) where
  -- the local variables of netlink_read that outlive a message
  done : Bool
  skip : Bool
  errno : Int
  -- the state behind the callbacks of the filter
  closure : σ
  trace : List (Event μ)

inductive Flow where
  -- continue or the end of the body, break, return, and a read past the end of the message
  | next
  | stop
  | returned (rc : Int)
  | overread
  deriving DecidableEq

variable {σ μ : Type}

def Reading.log (s : Reading σ μ) (e : Event μ) : Reading σ μ := { s with trace := s.trace ++ [e] }

def Matches (nl : Netlink) (nh : Nlmsghdr) : Prop :=
  nh.pid = nl.nlPid ∧ nh.seq = nl.seqno.setWidth 32

instance (nl : Netlink) (nh : Nlmsghdr) : Decidable (Matches nl nh) :=
  inferInstanceAs (Decidable (_ ∧ _))

variable (host : ByteOrder) (view : μ → Message)

def nlmsgerrError (m : Message) : Option Int :=
  -- a message too short for a struct nlmsgerr has no such field
  if 4 ≤ m.data.length then some (BitVec.ofNat 32 (host.load (m.data.take 4))).toInt else none

section Loop

variable (nl : Netlink) (nlIgnore : Option Netlink) (answer : Bool) (filter : Option (Filter σ))

def deliver (m : μ) (s : Reading σ μ) : Reading σ μ :=
  let nh := (view m).hdr
  -- check_interfaces is not part of this repository: an event that leaves the socket alone
  let s := if nh.type = rtmNewlink ∨ nh.type = rtmDellink then s.log (.checkInterfaces m) else s
  -- `skip` only changes the debugging output: there is no `else` before the test of `filter`
  match filter with
  | none => s
  | some call =>
    let (closure, err) := call s.closure (view m)
    { s.log (.filtered m) with closure := closure, skip := s.skip || decide (err < 0) }

def handle (m : μ) (s : Reading σ μ) : Flow × Reading σ μ :=
  let nh := (view m).hdr
  let s := if answer then s else { s with done := true }
  if nlIgnore.map Netlink.nlPid = some nh.pid then (.next, s.log (.ignored m))
  else if answer ∧ ¬Matches nl nh then (.next, s.log (.unrelated m))
  else if nh.type = nlmsgDone then (.stop, { s.log (.done m) with done := true })
  else if nh.type = nlmsgError then
    match nlmsgerrError host (view m) with
    | none => (.overread, s)
    | some error =>
      if error = 0 then (.returned 0, s.log (.ack m))
      else (.returned (-1), { s.log (.refused m) with errno := -error })
  else (.next, deliver view filter m s)

def messages : List μ → Reading σ μ → Flow × Reading σ μ
  | [], s => (.next, s)
  | m :: rest, s =>
    match handle host view nl nlIgnore answer filter m s with
    | (.next, s) => messages rest s
    | result => result

def Examined (nh : Nlmsghdr) : Prop :=
  nlIgnore.map Netlink.nlPid ≠ some nh.pid ∧ (answer = true → Matches nl nh)

instance (nh : Nlmsghdr) : Decidable (Examined nl nlIgnore answer nh) :=
  inferInstanceAs (Decidable (_ ∧ _))

theorem handle_unexamined {m : μ} (passed : ¬Examined nl nlIgnore answer (view m).hdr)
    (s : Reading σ μ) :
    (handle host view nl nlIgnore answer filter m s).1 = .next ∧
      (handle host view nl nlIgnore answer filter m s).2.done = (s.done || !answer) ∧
      (handle host view nl nlIgnore answer filter m s).2.closure = s.closure := by
  rw [handle]
  by_cases ignored : nlIgnore.map Netlink.nlPid = some (view m).hdr.pid
  · cases answer <;> simp [ignored, Reading.log]
  · have unrelated : answer = true ∧ ¬Matches nl (view m).hdr := by
      by_contra related
      rw [not_and, Decidable.not_not] at related
      exact passed ⟨ignored, related⟩
    simp [ignored, unrelated.1, unrelated.2, Reading.log]

theorem handle_examined {m : μ} (examined : Examined nl nlIgnore answer (view m).hdr)
    (s : Reading σ μ) :
    handle host view nl nlIgnore answer filter m s =
      let s := if answer then s else { s with done := true }
      if (view m).hdr.type = nlmsgDone then (.stop, { s.log (.done m) with done := true })
      else if (view m).hdr.type = nlmsgError then
        match nlmsgerrError host (view m) with
        | none => (.overread, s)
        | some error =>
          if error = 0 then (.returned 0, s.log (.ack m))
          else (.returned (-1), { s.log (.refused m) with errno := -error })
      else (.next, deliver view filter m s) := by
  have related : ¬(answer = true ∧ ¬Matches nl (view m).hdr) := by
    rw [not_and, Decidable.not_not]
    exact examined.2
  rw [handle, if_neg examined.1, if_neg related]

structure ReadResult (σ μ : Type) where
  nl : Netlink
  -- none if the script ends before the call returns, or if it reads past the end of a message
  rc : Option Int
  reading : Reading σ μ

def socketError (s : Reading σ μ) : ReadResult σ μ where
  nl := { nl with sock := -1 }
  rc := some (-1)
  reading := { s with errno := eio }

def receive : List (Attempt μ) → Reading σ μ → ReadResult σ μ
  | [], s => ⟨nl, none, s⟩
  | attempt :: rest, s =>
    match attempt.outcome with
    | .failed errno => ⟨nl, some (-1), { s with errno := errno }⟩
    | .eof => socketError nl s
    | .received d =>
      if d.namelen ≠ nl.socklen then socketError nl s
      else if d.nlPid ≠ 0 then ⟨nl, some (-1), s⟩
      else
        match messages host view nl nlIgnore answer filter d.msgs s with
        | (.returned rc, s) => ⟨nl, some rc, s⟩
        | (.overread, s) => ⟨nl, none, s⟩
        | (_, s) => if s.done then ⟨nl, some 0, s⟩ else receive rest s

def netlinkRead (script : List (Attempt μ)) (errno : Int) (closure : σ) : ReadResult σ μ :=
  receive host view nl nlIgnore answer filter script
    { done := false, skip := false, errno := errno, closure := closure, trace := [] }

end Loop

def Concludes (m : Message) : Prop :=
  m.hdr.type = nlmsgDone ∨ m.hdr.type = nlmsgError ∧ nlmsgerrError host m = some 0

def ConcludedBy (trace : List (Event μ)) (m : μ) : Prop :=
  (trace.getLast? = some (.done m) ∨ trace.getLast? = some (.ack m)) ∧ Concludes host (view m)

def Filtered (trace : List (Event μ)) (m : μ) : Prop := Event.filtered m ∈ trace

structure Handled (nl : Netlink) (m : μ) (s t : Reading σ μ) (flow : Flow) : Prop where
  filtered : ∀ x, Filtered t.trace x → Filtered s.trace x ∨ x = m ∧ Matches nl (view m).hdr
  done : t.done = true → s.done = true ∨ flow = .stop
  concluded : flow = .stop ∨ flow = .returned 0 →
    ConcludedBy host view t.trace m ∧ Matches nl (view m).hdr

@[simp] theorem Reading.done_log (s : Reading σ μ) (e : Event μ) : (s.log e).done = s.done := rfl

@[simp] theorem Reading.getLast?_log (s : Reading σ μ) (e : Event μ) :
    (s.log e).trace.getLast? = some e := by
  simp [Reading.log]

@[simp] theorem Reading.filtered_log (s : Reading σ μ) (e : Event μ) (x : μ) :
    Filtered (s.log e).trace x ↔ Filtered s.trace x ∨ e = .filtered x := by
  simp [Filtered, Reading.log, eq_comm]

theorem done_deliver (filter : Option (Filter σ)) (m : μ) (s : Reading σ μ) :
    (deliver view filter m s).done = s.done := by
  unfold deliver
  cases filter <;> simp only <;> split <;> rfl

theorem filtered_deliver (filter : Option (Filter σ)) (m : μ) (s : Reading σ μ) (x : μ) :
    Filtered (deliver view filter m s).trace x ↔
      Filtered s.trace x ∨ filter.isSome ∧ x = m := by
  unfold deliver
  cases filter <;> simp only <;> split <;> simp [eq_comm]

theorem handle_answer (nl : Netlink) (filter : Option (Filter σ)) (m : μ) (s : Reading σ μ) :
    Handled host view nl m s (handle host view nl none true filter m s).2
      (handle host view nl none true filter m s).1 := by
  simp only [handle, if_true, Option.map_none, reduceCtorEq, if_false, true_and]
  split
  next => exact ⟨by simp +contextual, by simp +contextual, by simp⟩
  next matching =>
    rw [Decidable.not_not] at matching
    split
    next isDone =>
      have concluded : ConcludedBy host view (s.log (.done m)).trace m := ⟨by simp, Or.inl isDone⟩
      exact ⟨by simp +contextual, by simp, fun _ => ⟨concluded, matching⟩⟩
    next =>
      split
      next isError =>
        split
        next => exact ⟨by simp +contextual, by simp +contextual, by simp⟩
        next error found =>
          split
          next zero =>
            have concluded : ConcludedBy host view (s.log (.ack m)).trace m :=
              ⟨by simp, Or.inr ⟨isError, zero ▸ found⟩⟩
            exact ⟨by simp +contextual, by simp +contextual, fun _ => ⟨concluded, matching⟩⟩
          next => exact ⟨by simp +contextual, by simp +contextual, by simp⟩
      next =>
        -- every other type: the message ends nothing and goes to the filter
        refine ⟨?_, by simp +contextual [done_deliver], by simp⟩
        intro x filtered
        rw [filtered_deliver] at filtered
        exact filtered.imp_right fun passed => ⟨passed.2, matching⟩

def OnlyMatching (nl : Netlink) (among : μ → Prop) (trace : List (Event μ)) : Prop :=
  ∀ m, Filtered trace m → among m ∧ Matches nl (view m).hdr

def Concluded (nl : Netlink) (among : μ → Prop) (trace : List (Event μ)) : Prop :=
  ∃ m, among m ∧ ConcludedBy host view trace m ∧ Matches nl (view m).hdr

theorem messages_answer (nl : Netlink) (filter : Option (Filter σ)) (among : μ → Prop)
    (msgs : List μ) (members : ∀ m ∈ msgs, among m) (s t : Reading σ μ) (flow : Flow)
    (only : OnlyMatching view nl among s.trace) (unfinished : s.done = false)
    (read : messages host view nl none true filter msgs s = (flow, t)) :
    OnlyMatching view nl among t.trace ∧
      (t.done = true ∨ flow = .returned 0 → Concluded host view nl among t.trace) := by
  induction msgs generalizing s with
  | nil =>
    simp only [messages, Prod.mk.injEq] at read
    obtain ⟨rfl, rfl⟩ := read
    exact ⟨only, by simp [unfinished]⟩
  | cons m rest ih =>
    have handled := handle_answer host view nl filter m s
    rw [messages] at read
    generalize handle host view nl none true filter m s = result at handled read
    obtain ⟨first, u⟩ := result
    have still : OnlyMatching view nl among u.trace := by
      intro x filtered
      rcases handled.filtered x filtered with old | ⟨rfl, matching⟩
      · exact only x old
      · exact ⟨members x (by simp), matching⟩
    have concluded (ends : first = .stop ∨ first = .returned 0) :
        Concluded host view nl among u.trace :=
      ⟨m, members m (by simp), handled.concluded ends⟩
    have done (set : u.done = true) : first = .stop :=
      (handled.done set).resolve_left (by simp [unfinished])
    cases first with
    | next =>
      -- only a break sets `done`, so the loop goes on with it unset
      have unset : u.done = false := by
        rw [← Bool.not_eq_true]
        intro set
        cases done set
      exact ih (fun x member => members x (List.mem_cons_of_mem m member)) u still unset read
    | stop | returned | overread =>
      simp only [Prod.mk.injEq] at read
      obtain ⟨rfl, rfl⟩ := read
      refine ⟨still, ?_⟩
      rintro (set | zero)
      · exact concluded (Or.inl (done set))
      · exact concluded (Or.inr zero)

def Delivered (script : List (Attempt μ)) (m : μ) : Prop :=
  ∃ attempt ∈ script, ∃ d, attempt.outcome = .received d ∧ d.nlPid = 0 ∧ m ∈ d.msgs

theorem Delivered.later {rest : List (Attempt μ)} {m : μ} (delivered : Delivered rest m)
    (attempt : Attempt μ) : Delivered (attempt :: rest) m := by
  obtain ⟨other, member, received⟩ := delivered
  exact ⟨other, List.mem_cons_of_mem attempt member, received⟩

theorem receive_cons {nl : Netlink} {nlIgnore : Option Netlink} {answer : Bool}
    {filter : Option (Filter σ)} {attempt : Attempt μ} {rest : List (Attempt μ)} {s : Reading σ μ}
    {P : ReadResult σ μ → Prop}
    (failed : ∀ errno, attempt.outcome = .failed errno →
      P ⟨nl, some (-1), { s with errno := errno }⟩)
    (broken : P (socketError nl s))
    (stranger : ∀ d, attempt.outcome = .received d → d.nlPid ≠ 0 → P ⟨nl, some (-1), s⟩)
    (returned : ∀ d rc t, attempt.outcome = .received d → d.nlPid = 0 →
      messages host view nl nlIgnore answer filter d.msgs s = (.returned rc, t) →
      P ⟨nl, some rc, t⟩)
    (overread : ∀ d t, attempt.outcome = .received d → d.nlPid = 0 →
      messages host view nl nlIgnore answer filter d.msgs s = (.overread, t) → P ⟨nl, none, t⟩)
    (finished : ∀ d flow t, attempt.outcome = .received d → d.nlPid = 0 →
      messages host view nl nlIgnore answer filter d.msgs s = (flow, t) → t.done = true →
      P ⟨nl, some 0, t⟩)
    (again : ∀ d flow t, attempt.outcome = .received d → d.nlPid = 0 → flow = .next ∨ flow = .stop →
      messages host view nl nlIgnore answer filter d.msgs s = (flow, t) → t.done = false →
      P (receive host view nl nlIgnore answer filter rest t)) :
    P (receive host view nl nlIgnore answer filter (attempt :: rest) s) := by
  rw [receive]
  split
  next errno outcome => exact failed errno outcome
  next => exact broken
  next d outcome =>
    split
    next => exact broken
    next =>
      split
      next foreign => exact stranger d outcome foreign
      next kernel =>
        rw [Decidable.not_not] at kernel
        cases read : messages host view nl nlIgnore answer filter d.msgs s with
        | mk flow t =>
          cases flow with
          | returned rc => exact returned d rc t outcome kernel read
          | overread => exact overread d t outcome kernel read
          | next | stop =>
            simp only
            split
            next done => exact finished d _ t outcome kernel read done
            next unset => exact again d _ t outcome kernel (by simp) read (by simpa using unset)

theorem receive_answer (nl : Netlink) (filter : Option (Filter σ)) (among : μ → Prop)
    (script : List (Attempt μ)) (members : ∀ m, Delivered script m → among m)
    (s : Reading σ μ) (only : OnlyMatching view nl among s.trace) (unfinished : s.done = false) :
    OnlyMatching view nl among (receive host view nl none true filter script s).reading.trace ∧
      ((receive host view nl none true filter script s).rc = some 0 →
        Concluded host view nl among
          (receive host view nl none true filter script s).reading.trace) := by
  induction script generalizing s with
  | nil => exact ⟨only, by simp [receive]⟩
  | cons attempt rest ih =>
    -- what the inner loop does with the messages of a datagram from the kernel
    have spec (d : Datagram μ) (received : attempt.outcome = .received d) (kernel : d.nlPid = 0) :=
      messages_answer host view nl filter among d.msgs
        (fun m member => members m ⟨attempt, by simp, d, received, kernel, member⟩) s
    apply receive_cons host view (P := fun read => OnlyMatching view nl among read.reading.trace ∧
      (read.rc = some 0 → Concluded host view nl among read.reading.trace))
    case failed => exact fun _ _ => ⟨only, by simp⟩
    case broken => exact ⟨only, by simp [socketError]⟩
    case stranger => exact fun _ _ _ => ⟨only, by simp⟩
    case returned =>
      intro d rc t received kernel read
      obtain ⟨still, concluded⟩ := spec d received kernel t _ only unfinished read
      refine ⟨still, ?_⟩
      intro zero
      simp only [Option.some.injEq] at zero
      exact concluded (Or.inr (by rw [zero]))
    case overread =>
      intro d t received kernel read
      exact ⟨(spec d received kernel t _ only unfinished read).1, by simp⟩
    case finished =>
      intro d flow t received kernel read done
      obtain ⟨still, concluded⟩ := spec d received kernel t flow only unfinished read
      exact ⟨still, fun _ => concluded (Or.inl done)⟩
    case again =>
      intro d flow t received kernel _ read unset
      have later (m : μ) (delivered : Delivered rest m) : among m :=
        members m (delivered.later attempt)
      exact ih later t (spec d received kernel t flow only unfinished read).1 unset

theorem netlinkRead_answer (nl : Netlink) (filter : Option (Filter σ))
    (script : List (Attempt μ)) (errno : Int) (closure : σ) :
    OnlyMatching view nl (Delivered script)
        (netlinkRead host view nl none true filter script errno closure).reading.trace ∧
      ((netlinkRead host view nl none true filter script errno closure).rc = some 0 →
        Concluded host view nl (Delivered script)
          (netlinkRead host view nl none true filter script errno closure).reading.trace) := by
  apply receive_answer host view nl filter (Delivered script) script (fun _ delivered => delivered)
  · intro m filtered
    simp [Filtered] at filtered
  · rfl

theorem receive_nl (nl : Netlink) (nlIgnore : Option Netlink) (answer : Bool)
    (filter : Option (Filter σ)) (script : List (Attempt μ)) (s : Reading σ μ) :
    (receive host view nl nlIgnore answer filter script s).nl = nl ∨
      (receive host view nl nlIgnore answer filter script s).nl = { nl with sock := -1 } := by
  induction script generalizing s with
  | nil => exact Or.inl rfl
  | cons attempt rest ih =>
    apply receive_cons host view (P := fun read => read.nl = nl ∨ read.nl = { nl with sock := -1 })
    case broken => exact Or.inr rfl
    case again => exact fun _ _ _ _ _ _ _ _ => ih _
    all_goals
      intros
      exact Or.inl rfl

end Tabeld.KernelNetlink
