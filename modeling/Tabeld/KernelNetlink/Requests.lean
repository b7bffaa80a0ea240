import Mathlib.Data.Finset.Insert
import Mathlib.Data.Finset.Erase
import Tabeld.KernelNetlink.RouteMessages

set_option autoImplicit false

/-!
# Requests to the kernel

What netlink_talk reports of a request, and what the kernel does with it. The kernel's routes are a
set; a request says which of them to add or to delete.
-/

namespace Tabeld.KernelNetlink

section Reports

variable {σ μ : Type} (host : ByteOrder) (view : μ → Message)

def RefusedWith (nl : Netlink) (among : μ → Prop) (errno : Int) : Prop :=
  ∃ m, among m ∧ Matches nl (view m).hdr ∧ (view m).hdr.type = nlmsgError ∧
    ∃ error, nlmsgerrError host (view m) = some error ∧ error ≠ 0 ∧ errno = -error

structure Reported (nl : Netlink) (among : μ → Prop) (s t : Reading σ μ) (flow : Flow) : Prop where
  ack : ∀ m, .ack m ∈ t.trace → .ack m ∈ s.trace ∨ flow = .returned 0
  refused : ∀ rc, flow = .returned rc → rc = 0 ∨
    rc = -1 ∧ RefusedWith host view nl among t.errno

theorem ack_deliver (filter : Option (Filter σ)) (m x : μ) (s : Reading σ μ) :
    .ack x ∈ (deliver view filter m s).trace ↔ .ack x ∈ s.trace := by
  unfold deliver
  cases filter <;> simp only <;> split <;> simp [Reading.log]

theorem handle_reported (nl : Netlink) (filter : Option (Filter σ)) (among : μ → Prop) {m : μ}
    (member : among m) (s : Reading σ μ) :
    Reported host view nl among s (handle host view nl none true filter m s).2
      (handle host view nl none true filter m s).1 := by
  simp only [handle, if_true, Option.map_none, reduceCtorEq, if_false, true_and]
  split
  next => exact ⟨by simp [Reading.log], by simp⟩
  next matching =>
    rw [Decidable.not_not] at matching
    split
    next => exact ⟨by simp [Reading.log], by simp⟩
    next =>
      split
      next isError =>
        split
        next => exact ⟨by simp +contextual, by simp⟩
        next error found =>
          split
          next => exact ⟨by simp, by simp +contextual⟩
          next failed =>
            refine ⟨by simp +contextual [Reading.log], fun rc same => Or.inr ⟨?_, ?_⟩⟩
            · simpa using same.symm
            · exact ⟨m, member, matching, isError, error, found, failed, rfl⟩
      next => exact ⟨by simp +contextual [ack_deliver], by simp⟩

theorem messages_reported (nl : Netlink) (filter : Option (Filter σ)) (among : μ → Prop)
    (msgs : List μ) (members : ∀ m ∈ msgs, among m) (s : Reading σ μ) :
    Reported host view nl among s (messages host view nl none true filter msgs s).2
      (messages host view nl none true filter msgs s).1 := by
  induction msgs generalizing s with
  | nil => exact ⟨fun m acked => Or.inl acked, by simp [messages]⟩
  | cons m rest ih =>
    have here := handle_reported host view nl filter among (members m (by simp)) s
    rw [messages]
    generalize handle host view nl none true filter m s = out at here
    obtain ⟨flow, t⟩ := out
    cases flow with
    | next =>
      have later := ih (fun x member => members x (List.mem_cons_of_mem m member)) t
      refine ⟨fun x acked => ?_, later.refused⟩
      rcases later.ack x acked with before | zero
      · exact (here.ack x before).imp_right fun contra => by cases contra
      · exact Or.inr zero
    | stop | returned | overread => exact here

/-- The call fails for a reason of its own: the system calls or the sender of a datagram. -/
def Interrupted (script : List (Attempt μ)) (errno : Int) : Prop :=
  errno = eio ∨ (∃ attempt ∈ script, attempt.outcome = .failed errno) ∨
    ∃ attempt ∈ script, ∃ d, attempt.outcome = .received d ∧ d.nlPid ≠ 0

theorem Interrupted.later {script : List (Attempt μ)} {errno : Int}
    (interrupted : Interrupted script errno) (attempt : Attempt μ) :
    Interrupted (attempt :: script) errno := by
  rcases interrupted with io | ⟨other, member, failing⟩ | ⟨other, member, stranger⟩
  · exact Or.inl io
  · exact Or.inr (Or.inl ⟨other, List.mem_cons_of_mem attempt member, failing⟩)
  · exact Or.inr (Or.inr ⟨other, List.mem_cons_of_mem attempt member, stranger⟩)

structure ReadReported (nl : Netlink) (among : μ → Prop) (script : List (Attempt μ))
    (s : Reading σ μ) (read : ReadResult σ μ) : Prop where
  ack : ∀ m, .ack m ∈ read.reading.trace → .ack m ∈ s.trace ∨ read.rc = some 0
  refused : ∀ rc, read.rc = some rc → rc = 0 ∨ rc = -1 ∧
    (Interrupted script read.reading.errno ∨ RefusedWith host view nl among read.reading.errno)

theorem interrupted_reported (nl : Netlink) (among : μ → Prop) {script : List (Attempt μ)}
    {s : Reading σ μ} {read : ReadResult σ μ} (rc : read.rc = some (-1))
    (unread : read.reading.trace = s.trace) (reason : Interrupted script read.reading.errno) :
    ReadReported host view nl among script s read := by
  constructor
  · intro m acked
    exact Or.inl (unread ▸ acked)
  · intro other same
    rw [rc, Option.some.injEq] at same
    exact Or.inr ⟨same.symm, Or.inl reason⟩

theorem receive_reported (nl : Netlink) (filter : Option (Filter σ)) (among : μ → Prop)
    (script : List (Attempt μ)) (members : ∀ m, Delivered script m → among m) (s : Reading σ μ) :
    ReadReported host view nl among script s (receive host view nl none true filter script s) := by
  induction script generalizing s with
  | nil => exact ⟨fun m acked => Or.inl acked, by simp [receive]⟩
  | cons attempt rest ih =>
    have reported (d : Datagram μ) (received : attempt.outcome = .received d)
        (kernel : d.nlPid = 0) :=
      messages_reported host view nl filter among d.msgs
        (fun m member => members m ⟨attempt, by simp, d, received, kernel, member⟩) s
    apply receive_cons host view (P := ReadReported host view nl among (attempt :: rest) s)
    case failed =>
      exact fun errno outcome => interrupted_reported host view nl among rfl rfl
        (Or.inr (Or.inl ⟨attempt, by simp, outcome⟩))
    case broken => exact interrupted_reported host view nl among rfl rfl (Or.inl rfl)
    case stranger =>
      exact fun d outcome foreign => interrupted_reported host view nl among rfl rfl
        (Or.inr (Or.inr ⟨attempt, by simp, d, outcome, foreign⟩))
    case returned =>
      intro d rc t received kernel read
      have here := reported d received kernel
      rw [read] at here
      constructor
      · intro m acked
        refine (here.ack m acked).imp_right fun same => ?_
        cases same
        rfl
      · intro other same
        cases same
        exact (here.refused rc rfl).imp_right fun failed => ⟨failed.1, Or.inr failed.2⟩
    case overread =>
      intro d t received kernel read
      have here := reported d received kernel
      rw [read] at here
      exact ⟨fun m acked => Or.inl ((here.ack m acked).resolve_right (by simp)), by simp⟩
    case finished =>
      intros
      exact ⟨fun m acked => Or.inr rfl, fun rc same => Or.inl (by simpa using same.symm)⟩
    case again =>
      intro d flow t received kernel goesOn read unset
      have here := reported d received kernel
      rw [read] at here
      have later := ih (fun m delivered => members m (delivered.later attempt)) t
      constructor
      · intro m acked
        refine (later.ack m acked).imp_left fun before => ?_
        exact (here.ack m before).resolve_right (by rcases goesOn with rfl | rfl <;> simp)
      · intro rc same
        refine (later.refused rc same).imp_right fun failed => ⟨failed.1, ?_⟩
        exact failed.2.imp_left fun interrupted => interrupted.later attempt

theorem netlinkTalk_reported (nl : Netlink) (nh : Message) (send : Send)
    (script : List (Attempt μ)) :
    let x := netlinkTalk host view nl nh send script
    (∀ trace, x.trace = some trace → ∀ m, .ack m ∈ trace → x.rc = some 0) ∧
      ∀ rc, x.rc = some rc →
        rc = 0 ∧ ¬Short send.outcome.rc nh.hdr.len ∨
        rc = -1 ∧ (Short send.outcome.rc nh.hdr.len ∧ x.errno = send.outcome.errno ∨
          Interrupted script x.errno ∨
          RefusedWith host view { nl with seqno := nl.seqno + 1 } (Delivered script) x.errno) := by
  simp only [netlinkTalk]
  split
  next short =>
    exact ⟨by simp, fun rc same => Or.inr ⟨by simpa using same.symm, Or.inl ⟨short, rfl⟩⟩⟩
  next whole =>
    have reported := receive_reported host view { nl with seqno := nl.seqno + 1 }
      (none : Option (Filter Unit)) (Delivered script) script (fun _ delivered => delivered)
      { done := false, skip := false, errno := send.outcome.errno, closure := (), trace := [] }
    constructor
    · intro trace same m acked
      cases same
      exact (reported.ack m acked).resolve_left (by simp)
    · intro rc same
      exact (reported.refused rc same).imp (fun zero => ⟨zero, whole⟩)
        fun failed => ⟨failed.1, Or.inr failed.2⟩

end Reports

structure Installed where
  table : BitVec 32
  route : KernelRoute
  deriving DecidableEq

/-- The kernel tells routes apart by table, prefixes and metric. -/
def SameKey (left right : Installed) : Prop :=
  left.table = right.table ∧
    left.route.dstPrefix = right.route.dstPrefix ∧ left.route.plen = right.route.plen ∧
    left.route.srcPrefix = right.route.srcPrefix ∧ left.route.srcPlen = right.route.srcPlen ∧
    left.route.metric = right.route.metric

instance (left right : Installed) : Decidable (SameKey left right) :=
  inferInstanceAs (Decidable (_ ∧ _))

/-- What the environment does with one request. -/
structure Dealing where
  -- the socket, if it has to be opened again
  opening : Opening
  openErrno : Int
  send : Send
  -- the errno that the kernel refuses the request with, if it does
  refusal : Option Int
  -- what there is to read after the request
  script : Message → List (Attempt Message)

structure System where
  nlSetup : Bool
  nl : Netlink
  errno : Int
  routes : Finset Installed
  -- the requests so far
  history : List (Exchange Message)

def eexist : Int := 17

section Kernel

variable (host : ByteOrder)

def requested (m : Message) : Installed :=
  let parsed := routeParse host (Memory.ofBytes m.data Memory.zeroed) 0 (m.hdr.len.toInt - 16)
  { table := parsed.table, route := parsed.route }

def serve (m : Message) (routes : Finset Installed) : Finset Installed :=
  if m.hdr.type = rtmNewroute then insert (requested host m) routes
  else routes.erase (requested host m)

/-- The kernel gets the request and carries it out. -/
def Dealing.Accepts (d : Dealing) (m : Message) : Prop :=
  -- a send that fails with -1 is not short: letting the kernel have it only adds behaviours
  ¬Short d.send.outcome.rc m.hdr.len ∧ d.refusal = none

instance (d : Dealing) (m : Message) : Decidable (d.Accepts m) :=
  inferInstanceAs (Decidable (_ ∧ _))

def stamped (nl : Netlink) (nh : Message) : Message :=
  { nh with hdr := { nh.hdr with
    flags := nh.hdr.flags ||| nlmFAck, seq := (nl.seqno + 1).setWidth 32 } }

theorem nh_netlinkTalk {μ : Type} (view : μ → Message) (nl : Netlink) (nh : Message) (send : Send)
    (script : List (Attempt μ)) :
    (netlinkTalk host view nl nh send script).nh = some (stamped nl nh) := by
  rw [netlinkTalk]
  split <;> rfl

def talk (d : Dealing) (nh : Message) (s : System) : System × Option Int :=
  let sent := stamped s.nl nh
  let x := netlinkTalk host id s.nl nh d.send (d.script sent)
  ({ s with
      nl := x.nl
      errno := x.errno
      routes := if d.Accepts sent then serve host sent s.routes else s.routes
      history := s.history ++ [x] }, x.rc)

theorem requested_routeMessage (subtrees : Bool) (operation : Operation) (table : BitVec 32)
    (r : RouteSpec) (nl : Netlink) :
    requested host (stamped nl (routeMessage host subtrees operation table r)) =
      { table := lowTable table, route := decodedRoute subtrees r } := by
  have carries := routeMessage_carries host subtrees operation table r Memory.zeroed
  simp only [requested, stamped, carries.routeParse]

def installed (subtrees : Bool) (table : BitVec 32) (r : RouteSpec) : Installed :=
  { table := lowTable table, route := decodedRoute subtrees r }

theorem routes_talk (subtrees : Bool) (operation : Operation) (d : Dealing) (table : BitVec 32)
    (r : RouteSpec) (s : System) :
    (talk host d (routeMessage host subtrees operation table r) s).1.routes =
      if d.Accepts (routeMessage host subtrees operation table r) then
        if operation = .add then insert (installed subtrees table r) s.routes
        else s.routes.erase (installed subtrees table r)
      else s.routes := by
  have same := requested_routeMessage host subtrees operation table r s.nl
  have accepts : d.Accepts (stamped s.nl (routeMessage host subtrees operation table r)) ↔
      d.Accepts (routeMessage host subtrees operation table r) := Iff.rfl
  simp only [talk, accepts, serve, same, installed]
  cases operation <;> rfl

/-- The answers to a request say what the kernel has done with it. -/
structure Dealing.Honest (d : Dealing) : Prop where
  answers : ∀ request m, Delivered (d.script request) m → m.hdr.seq = request.hdr.seq →
    m.hdr.type = nlmsgError ∧ nlmsgerrError host m = some (-(d.refusal.getD 0))
  refusal : d.refusal ≠ some 0

/-- Only the kernel says EEXIST. -/
structure Dealing.Undisturbed (d : Dealing) : Prop where
  opening : d.openErrno ≠ eexist
  send : d.send.outcome.errno ≠ eexist
  received : ∀ request, ∀ attempt ∈ d.script request, attempt.outcome ≠ .failed eexist
  sender : ∀ request, ∀ attempt ∈ d.script request, ∀ datagram,
    attempt.outcome = .received datagram → datagram.nlPid = 0

theorem talk_rc {d : Dealing} {nh : Message} {s : System} {rc : Int}
    (returned : (talk host d nh s).2 = some rc) : rc = 0 ∨ rc = -1 :=
  ((netlinkTalk_reported host id s.nl nh d.send (d.script (stamped s.nl nh))).2 rc returned).imp
    And.left And.left

theorem talk_accepted {d : Dealing} (honest : d.Honest host) {nh : Message} {s : System}
    (returned : (talk host d nh s).2 = some 0) : d.Accepts nh := by
  have reported := (netlinkTalk_reported host id s.nl nh d.send
    (d.script (stamped s.nl nh))).2 0 returned
  obtain ⟨-, whole⟩ := reported.resolve_right (by simp)
  refine ⟨whole, ?_⟩
  obtain ⟨asked, -, spec⟩ := netlinkTalk_asked host id s.nl nh d.send (d.script (stamped s.nl nh))
  obtain ⟨trace, read⟩ : ∃ trace, (netlinkTalk host id s.nl nh d.send
      (d.script (stamped s.nl nh))).trace = some trace := by
    rw [netlinkTalk, if_neg whole]
    exact ⟨_, rfl⟩
  obtain ⟨m, delivered, ⟨-, concludes⟩, -, seq⟩ := spec.concluded trace read returned
  obtain ⟨type, answer⟩ := honest.answers _ m delivered seq
  rcases concludes with done | ⟨-, zero⟩
  · rw [id_eq, type] at done
    exact absurd done (by decide)
  · rw [id_eq, answer, Option.some.injEq] at zero
    cases refusal : d.refusal with
    | none => rfl
    | some errno =>
      rw [refusal, Option.getD_some] at zero
      exact absurd (by rw [refusal]; congr; omega) honest.refusal

theorem talk_exists {d : Dealing} (honest : d.Honest host) (undisturbed : d.Undisturbed)
    {nh : Message} {s : System} {rc : Int} (returned : (talk host d nh s).2 = some rc)
    (failed : rc < 0) (errno : (talk host d nh s).1.errno = eexist) :
    d.refusal = some eexist := by
  have reported := (netlinkTalk_reported host id s.nl nh d.send
    (d.script (stamped s.nl nh))).2 rc returned
  obtain ⟨-, reason⟩ := reported.resolve_left (by omega)
  simp only [talk] at errno
  rw [errno] at reason
  rcases reason with
    ⟨-, sent⟩ | interrupted | ⟨m, delivered, matching, -, error, found, nonzero, same⟩
  · exact absurd sent.symm undisturbed.send
  · rcases interrupted with io | ⟨attempt, member, failing⟩ | ⟨attempt, member, g, got, stranger⟩
    · exact absurd io (by decide)
    · exact absurd failing (undisturbed.received _ attempt member)
    · exact absurd (undisturbed.sender _ attempt member g got) stranger
  · obtain ⟨-, answer⟩ := honest.answers _ m delivered matching.2
    rw [id_eq, answer, Option.some.injEq] at found
    cases refusal : d.refusal with
    | none =>
      rw [refusal, Option.getD_none] at found
      omega
    | some code =>
      rw [refusal, Option.getD_some] at found
      congr
      omega

def Unacknowledged (x : Exchange Message) : Prop :=
  ∀ trace, x.trace = some trace → ∀ m, .ack m ∉ trace

theorem talk_unacknowledged {d : Dealing} {nh : Message} {s : System} {rc : Int}
    (returned : (talk host d nh s).2 = some rc) (failed : rc < 0) :
    ∃ x, (talk host d nh s).1.history = s.history ++ [x] ∧ x.nh = some (stamped s.nl nh) ∧
      Unacknowledged x := by
  refine ⟨_, rfl, nh_netlinkTalk host id s.nl nh d.send _, ?_⟩
  intro trace read m acked
  have zero := (netlinkTalk_reported host id s.nl nh d.send
    (d.script (stamped s.nl nh))).1 trace read m acked
  simp only [talk] at returned
  rw [zero, Option.some.injEq] at returned
  omega

end Kernel

end Tabeld.KernelNetlink
