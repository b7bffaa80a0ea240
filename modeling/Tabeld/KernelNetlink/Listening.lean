import Mathlib.Data.List.TakeWhile
import Tabeld.KernelNetlink.Import
import Tabeld.KernelNetlink.Command
import Tabeld.Shared.Queueing

set_option autoImplicit false

/-!
# kernel_setup_socket and kernel_callback

The kernel puts its notifications into a queue of the listening socket, and `kernel_callback`
reads one datagram of them. Those that are about a request of this process carry the pid of the
command socket.
-/

namespace Tabeld.KernelNetlink

open Machine

def rtnlgrpLink : Nat := 1
def rtnlgrpIpv4Ifaddr : Nat := 5
def rtnlgrpIpv4Route : Nat := 7
def rtnlgrpIpv4Rule : Nat := 8
def rtnlgrpIpv6Ifaddr : Nat := 9
def rtnlgrpIpv6Route : Nat := 11
def rtnlgrpIpv6Rule : Nat := 19

def rtnlgrpToMask (grp : Nat) : BitVec 32 :=
  if grp ≠ 0 then 1#32 <<< (grp - 1) else 0

def listenedGroups : List Nat :=
  [rtnlgrpIpv6Route, rtnlgrpIpv4Route, rtnlgrpLink, rtnlgrpIpv4Ifaddr, rtnlgrpIpv6Ifaddr,
    rtnlgrpIpv4Rule, rtnlgrpIpv6Rule]

def listenMask : BitVec 32 :=
  rtnlgrpToMask rtnlgrpIpv6Route ||| rtnlgrpToMask rtnlgrpIpv4Route |||
    rtnlgrpToMask rtnlgrpLink ||| rtnlgrpToMask rtnlgrpIpv4Ifaddr |||
    rtnlgrpToMask rtnlgrpIpv6Ifaddr ||| rtnlgrpToMask rtnlgrpIpv4Rule |||
    rtnlgrpToMask rtnlgrpIpv6Rule

def Subscribed (mask : BitVec 32) (grp : Nat) : Prop := grp ≠ 0 ∧ mask.getLsbD (grp - 1) = true

instance (mask : BitVec 32) (grp : Nat) : Decidable (Subscribed mask grp) :=
  inferInstanceAs (Decidable (_ ∧ _))

theorem subscribed_rtnlgrpToMask (grp other : Nat) (small : grp ≤ 32) :
    Subscribed (rtnlgrpToMask grp) other ↔ other ≠ 0 ∧ other = grp := by
  unfold Subscribed rtnlgrpToMask
  by_cases zero : grp = 0
  · simp [zero]
  · simp only [ne_eq, zero, not_false_eq_true, if_true, BitVec.getLsbD_shiftLeft,
      BitVec.getLsbD_one,
      Bool.and_eq_true, Bool.not_eq_true', decide_eq_true_eq, decide_eq_false_iff_not]
    omega

theorem subscribed_or (left right : BitVec 32) (grp : Nat) :
    Subscribed (left ||| right) grp ↔ Subscribed left grp ∨ Subscribed right grp := by
  simp only [Subscribed, BitVec.getLsbD_or, Bool.or_eq_true]
  exact and_or_left

theorem subscribed_listenMask (grp : Nat) : Subscribed listenMask grp ↔ grp ∈ listenedGroups := by
  simp only [listenMask, listenedGroups, subscribed_or, List.mem_cons, List.not_mem_nil, or_false]
  repeat rw [subscribed_rtnlgrpToMask _ _ (by decide)]
  grind [rtnlgrpLink, rtnlgrpIpv4Ifaddr, rtnlgrpIpv4Route, rtnlgrpIpv4Rule, rtnlgrpIpv6Ifaddr,
    rtnlgrpIpv6Route, rtnlgrpIpv6Rule]

/-- What the kernel sends to the sockets that have joined a group, as one datagram. -/
structure Notification where
  group : Nat
  -- 0 is the kernel
  sender : BitVec 32
  msgs : List Message
  nonempty : msgs ≠ []

structure Monitor (σ : Type) where
  -- nl_command, nl_listen and kernel_socket
  command : Netlink
  listen : Netlink
  kernelSocket : Int
  closure : σ
  errno : Int
  -- the groups that the listening socket has joined, and the datagrams that wait there
  groups : BitVec 32
  queue : List Notification

variable {σ : Type} (host : ByteOrder)

def kernelSetupSocket (setup : Bool) (opening : Opening) (s : Monitor σ) : Int × Monitor σ :=
  if setup then
    let opened := netlinkSocket s.listen opening
    let s := { s with listen := opened.2, queue := [] }
    if opened.1 < 0 then (-1, { s with kernelSocket := -1, groups := 0 })
    else (1, { s with kernelSocket := s.listen.sock, groups := listenMask })
  else
    (1, { s with
      listen := { s.listen with sock := -1 }, kernelSocket := -1, groups := 0, queue := [] })

def reopenListen (before : Opening) (s : Monitor σ) : Int × Monitor σ :=
  if s.listen.sock < 0 then kernelSetupSocket true before s else (1, s)

def readListen (filter : Option (Filter σ)) (script : List (Attempt Message)) (after : Opening)
    (s : Monitor σ) : Monitor σ × Option Int :=
  let read := netlinkRead host id s.listen (some s.command) false filter script s.errno s.closure
  let s := { s with
    listen := read.nl, closure := read.reading.closure, errno := read.reading.errno }
  match read.rc with
  | none => (s, none)
  | some rc =>
    if rc < 0 ∧ s.listen.sock < 0 then ((kernelSetupSocket true after s).2, some 0)
    else (s, some 0)

/-- The second component is `none` if `netlink_read` does not come back. -/
def kernelCallback (filter : Option (Filter σ)) (script : List (Attempt Message))
    (before after : Opening) (s : Monitor σ) : Monitor σ × Option Int :=
  let ready := reopenListen before s
  if ready.1 < 0 then (ready.2, some (-1)) else readListen host filter script after ready.2

inductive Receiving where
  -- recvmsg gets the datagram that has waited longest, or finds none
  | head
  | failed (errno : Int)
  | eof
  deriving DecidableEq

def Notification.datagram (n : Notification) : Datagram Message := ⟨12, n.sender, n.msgs⟩

def Receiving.script (queue : List Notification) : Receiving → List (Attempt Message)
  | .head =>
    match queue with
    | [] => [⟨.failed eagain, 0, 0, .eof⟩]
    | n :: _ => [⟨.received n.datagram, 0, 0, .eof⟩]
  | .failed errno => [⟨.failed errno, 0, 0, .eof⟩]
  | .eof => [⟨.eof, 0, 0, .eof⟩]

inductive Happening where
  | notify (n : Notification)
  | callback (recv : Receiving) (before after : Opening)
  | setupSocket (setup : Bool) (opening : Opening)
  -- nl_command after kernel_setup, kernel_route or kernel_dump has opened or closed it
  | command (nl : Netlink)

namespace Monitor

variable (call : Filter σ)

def step (s : Monitor σ) :
    Happening → Option (Option (Notification × BitVec 32) × Monitor σ)
  | .notify n =>
    some (none, if Subscribed s.groups n.group then { s with queue := s.queue ++ [n] } else s)
  | .callback recv before after =>
    let queue := if s.listen.sock < 0 then [] else s.queue
    match kernelCallback host (some call) (recv.script queue) before after s with
    | (_, none) => none
    | (t, some _) =>
      if recv = .head then
        some (queue.head?.map fun n => (n, s.command.nlPid), { t with queue := t.queue.tail })
      else some (none, t)
  | .setupSocket setup opening => some (none, (kernelSetupSocket setup opening s).2)
  | .command nl => some (none, { s with command := nl })

/-- What the main loop waits for is the socket that `kernel_callback` reads. -/
def Shared (s : Monitor σ) : Prop := s.kernelSocket = s.listen.sock

theorem shared_kernelSetupSocket (setup : Bool) (opening : Opening) (s : Monitor σ) :
    Shared (kernelSetupSocket setup opening s).2 := by
  cases setup with
  | false => rfl
  | true => cases opening <;> simp [kernelSetupSocket, netlinkSocket, Shared]

theorem receive_closed (nl : Netlink) (nlIgnore : Option Netlink) (answer : Bool)
    (filter : Option (Filter σ)) (script : List (Attempt Message)) (r : Reading σ Message) :
    let read := receive host id nl nlIgnore answer filter script r
    read.nl = nl ∨ read.nl = { nl with sock := -1 } ∧ read.rc = some (-1) := by
  induction script generalizing r with
  | nil => exact Or.inl rfl
  | cons attempt rest ih =>
    apply receive_cons host id (P := fun read : ReadResult σ Message => read.nl = nl ∨
      read.nl = { nl with sock := -1 } ∧ read.rc = some (-1))
    case broken => exact Or.inr ⟨rfl, rfl⟩
    case again => exact fun _ _ _ _ _ _ _ _ => ih _
    all_goals
      intros
      exact Or.inl rfl

theorem shared_kernelCallback (filter : Option (Filter σ)) (script : List (Attempt Message))
    (before after : Opening) {s : Monitor σ} (shared : Shared s) :
    Shared (kernelCallback host filter script before after s).1 := by
  have ready : Shared (reopenListen before s).2 := by
    unfold reopenListen
    split
    · exact shared_kernelSetupSocket true before s
    · exact shared
  unfold kernelCallback
  simp only
  generalize (reopenListen before s) = opened at ready
  split
  · exact ready
  have kept := receive_closed host opened.2.listen (some opened.2.command) false filter script
    { done := false, skip := false, errno := opened.2.errno, closure := opened.2.closure,
      trace := [] }
  rw [← netlinkRead] at kept
  unfold readListen
  generalize netlinkRead host id opened.2.listen (some opened.2.command) false filter script
    opened.2.errno opened.2.closure = read at kept
  simp only
  split
  next unread =>
    rcases kept with same | ⟨-, failed⟩
    · rw [Shared, same]
      exact ready
    · rw [failed] at unread
      cases unread
  next rc code =>
    split
    · exact shared_kernelSetupSocket true after _
    next unbroken =>
      rcases kept with same | ⟨closed, failed⟩
      · rw [Shared, same]
        exact ready
      · rw [failed, Option.some.injEq] at code
        exact absurd ⟨by omega, by rw [closed]; exact show (-1 : Int) < 0 by decide⟩ unbroken

theorem step_shared {s t : Monitor σ} {happening : Happening}
    {o : Option (Notification × BitVec 32)} (shared : Shared s)
    (stepped : step host call s happening = some (o, t)) : Shared t := by
  cases happening with
  | notify n =>
    cases stepped
    split <;> exact shared
  | callback recv before after =>
    simp only [step] at stepped
    split at stepped
    next => cases stepped
    next u rc returned =>
      have kept := shared_kernelCallback host (some call)
        (recv.script (if s.listen.sock < 0 then [] else s.queue)) before after shared
      rw [returned] at kept
      split at stepped <;> cases stepped <;> exact kept
  | setupSocket setup opening =>
    cases stepped
    exact shared_kernelSetupSocket setup opening s
  | command nl =>
    cases stepped
    exact shared

theorem run_shared {s u : Monitor σ} {happenings : List Happening}
    {os : List (Option (Notification × BitVec 32))} (shared : Shared s)
    (ran : run (step host call) s happenings = some (os, u)) : Shared u :=
  run_invariant Shared (fun _ _ _ _ kept stepped => step_shared host call kept stepped) shared ran

def handed (pid : BitVec 32) (n : Notification) : List Message :=
  if n.sender = 0 then
    (n.msgs.takeWhile fun m => decide
      ¬(m.hdr.pid ≠ pid ∧ (m.hdr.type = nlmsgDone ∨ m.hdr.type = nlmsgError))).filter
        fun m => decide (m.hdr.pid ≠ pid)
  else []

theorem examined_ignoring (listen command : Netlink) (nh : Nlmsghdr) :
    Examined listen (some command) false nh ↔ nh.pid ≠ command.nlPid := by
  simp [Examined, eq_comm]

theorem passing_datagram {listen : Netlink} (command : Netlink) (size : listen.socklen = 12)
    (n : Notification) :
    passing id listen (some command) false [⟨.received n.datagram, 0, 0, .eof⟩] =
      handed command.nlPid n := by
  have first : passing id listen (some command) false ([] : List (Attempt Message)) = [] := rfl
  simp only [passing, Attempt.outcome, Notification.datagram, size, true_and, handed, passingIn,
    CutsOff, examined_ignoring, id_eq, ite_self, List.append_nil]

theorem netlinkRead_datagram {listen : Netlink} (command : Netlink) (size : listen.socklen = 12)
    (n : Notification) (errno : Int) (closure : σ) :
    let read := netlinkRead host id listen (some command) false (some call)
      [⟨.received n.datagram, 0, 0, .eof⟩] errno closure
    read.nl = listen ∧ read.reading.closure =
      (handed command.nlPid n).foldl (fun closure m => (call closure m).1) closure := by
  refine ⟨?_, ?_⟩
  · simp only [netlinkRead, receive, Attempt.outcome, Notification.datagram, size, ne_eq,
      not_true_eq_false, if_false]
    split
    next => rfl
    next => split <;> first | rfl | (split <;> rfl)
  · rw [netlinkRead_closure, passing_datagram command size]
    rfl

structure Listening (s : Monitor σ) : Prop where
  sock : 0 ≤ s.listen.sock
  socklen : s.listen.socklen = 12
  groups : s.groups = listenMask

/-- Nothing closes the listening socket, and so nothing loses what waits there. -/
def Keeps : Happening → Prop
  | .callback recv _ _ => recv ≠ .eof
  | .setupSocket _ _ => False
  | _ => True

def arrived : Happening → List Notification
  | .notify n => if n.group ∈ listenedGroups then [n] else []
  | _ => []

theorem kernelCallback_open (filter : Option (Filter σ)) (script : List (Attempt Message))
    (before after : Opening) {s t : Monitor σ} {rc : Int} (listening : Listening s)
    (kept : (netlinkRead host id s.listen (some s.command) false filter script s.errno
      s.closure).nl = s.listen)
    (returned : kernelCallback host filter script before after s = (t, some rc)) :
    let read := netlinkRead host id s.listen (some s.command) false filter script s.errno s.closure
    t = { s with closure := read.reading.closure, errno := read.reading.errno } := by
  have opened : ¬s.listen.sock < 0 := by
    have sock := listening.sock
    omega
  simp only [kernelCallback, reopenListen, readListen, opened, if_false, kept, and_false,
    show ¬(1 : Int) < 0 by decide] at returned
  split at returned <;> cases returned
  rfl

theorem netlinkRead_failed {listen : Netlink} (nlIgnore : Option Netlink) (errno : Int)
    (before : Int) (closure : σ) :
    let read := netlinkRead host id listen nlIgnore false (some call)
      [⟨.failed errno, 0, 0, .eof⟩] before closure
    read.nl = listen ∧ read.reading.closure = closure := by
  simp only [netlinkRead, receive, Attempt.outcome]
  split
  next => exact ⟨rfl, rfl⟩
  next failing =>
    split at failing
    next => cases failing
    next => cases failing
  next failing => split at failing <;> cases failing

theorem step_listening {s t : Monitor σ} {happening : Happening}
    {o : Option (Notification × BitVec 32)} (listening : Listening s) (keeps : Keeps happening)
    (stepped : step host call s happening = some (o, t)) :
    Listening t ∧ o.toList.map Prod.fst ++ t.queue = s.queue ++ arrived happening ∧
      t.closure = (o.toList.flatMap fun taken => handed taken.2 taken.1).foldl
        (fun closure m => (call closure m).1) s.closure := by
  cases happening with
  | notify n =>
    cases stepped
    simp only [listening.groups, subscribed_listenMask, arrived]
    split
    next => exact ⟨⟨listening.sock, listening.socklen, rfl⟩, rfl, rfl⟩
    next => exact ⟨listening, by simp, rfl⟩
  | setupSocket setup opening => cases keeps
  | command nl =>
    cases stepped
    exact ⟨⟨listening.sock, listening.socklen, listening.groups⟩, by simp [arrived], rfl⟩
  | callback recv before after =>
    have opened : ¬s.listen.sock < 0 := by
      have sock := listening.sock
      omega
    simp only [step, opened, if_false] at stepped
    split at stepped
    next => cases stepped
    next u rc returned =>
      have unread (errno : Int) (same : recv.script s.queue = [⟨.failed errno, 0, 0, .eof⟩]) :
          Listening u ∧ u.queue = s.queue ∧ u.closure = s.closure := by
        rw [same] at returned
        obtain ⟨kept, closure⟩ :=
          netlinkRead_failed host call (some s.command) errno s.errno s.closure
        rw [kernelCallback_open host (some call) _ before after listening kept returned]
        exact ⟨⟨listening.sock, listening.socklen, listening.groups⟩, rfl, closure⟩
      cases recv with
      | eof => exact absurd rfl keeps
      | failed errno =>
        rw [if_neg (by simp)] at stepped
        cases stepped
        obtain ⟨still, queue, closure⟩ := unread errno rfl
        exact ⟨still, by simp [queue, arrived], closure⟩
      | head =>
        rw [if_pos rfl] at stepped
        cases stepped
        cases waiting : s.queue with
        | nil =>
          obtain ⟨still, queue, closure⟩ := unread eagain (by rw [waiting]; rfl)
          exact ⟨⟨still.sock, still.socklen, still.groups⟩, by simp [queue, waiting, arrived],
            closure⟩
        | cons n rest =>
          obtain ⟨kept, closure⟩ :=
            netlinkRead_datagram host call s.command listening.socklen n s.errno s.closure
          rw [waiting] at returned
          have after := kernelCallback_open host (some call) _ before after listening kept returned
          subst after
          refine ⟨⟨listening.sock, listening.socklen, listening.groups⟩, ?_, ?_⟩
          · simp [waiting, arrived]
          · simpa using closure

theorem queues : Queues (step host call) Listening Keeps Monitor.queue arrived
    (fun o => o.toList.map Prod.fst) where
  kept _ _ _ _ listening keeps stepped := (step_listening host call listening keeps stepped).1
  conserved _ _ _ _ listening keeps stepped :=
    (step_listening host call listening keeps stepped).2.1

theorem run_closure {s u : Monitor σ} {happenings : List Happening}
    {os : List (Option (Notification × BitVec 32))} (listening : Listening s)
    (keeps : ∀ happening ∈ happenings, Keeps happening)
    (ran : run (step host call) s happenings = some (os, u)) :
    u.closure = ((os.flatMap Option.toList).flatMap fun taken => handed taken.2 taken.1).foldl
      (fun closure m => (call closure m).1) s.closure := by
  rw [List.flatMap_assoc]
  exact run_foldl Monitor.closure _ _ (fun s happening o t still keep stepped =>
    ⟨(step_listening host call still keep stepped).1,
      (step_listening host call still keep stepped).2.2⟩) listening keeps ran

theorem run_queue {s u : Monitor σ} {happenings : List Happening}
    {os : List (Option (Notification × BitVec 32))} (listening : Listening s)
    (keeps : ∀ happening ∈ happenings, Keeps happening)
    (ran : run (step host call) s happenings = some (os, u)) :
    (os.flatMap Option.toList).map Prod.fst ++ u.queue =
      s.queue ++ happenings.flatMap arrived := by
  have conserved := (queues host call).run_conserved listening keeps ran
  rwa [← List.map_flatMap] at conserved

/-- A notification as the kernel makes them: none of its messages ends an answer. -/
def Plain (n : Notification) : Prop :=
  n.sender = 0 ∧ ∀ m ∈ n.msgs, m.hdr.type ≠ nlmsgDone ∧ m.hdr.type ≠ nlmsgError

theorem handed_plain {n : Notification} (plain : Plain n) (pid : BitVec 32) :
    handed pid n = n.msgs.filter fun m => decide (m.hdr.pid ≠ pid) := by
  rw [handed, if_pos plain.1, List.takeWhile_eq_self_iff.mpr]
  intro m member
  have type := plain.2 m member
  simp [type.1, type.2]

def KeepsPid (pid : BitVec 32) : Happening → Prop
  | .command nl => nl.nlPid = pid
  | _ => True

theorem command_kernelSetupSocket (setup : Bool) (opening : Opening) (s : Monitor σ) :
    (kernelSetupSocket setup opening s).2.command = s.command := by
  cases setup with
  | false => rfl
  | true => cases opening <;> simp [kernelSetupSocket, netlinkSocket]

theorem command_kernelCallback (filter : Option (Filter σ)) (script : List (Attempt Message))
    (before after : Opening) (s : Monitor σ) :
    (kernelCallback host filter script before after s).1.command = s.command := by
  have ready : (reopenListen before s).2.command = s.command := by
    unfold reopenListen
    split
    · exact command_kernelSetupSocket true before s
    · rfl
  unfold kernelCallback
  simp only
  rw [← ready]
  generalize (reopenListen before s) = opened
  split
  · rfl
  unfold readListen
  simp only
  split
  next => rfl
  next =>
    split
    · rw [command_kernelSetupSocket]
    · rfl

theorem step_pid {pid : BitVec 32} {s t : Monitor σ} {happening : Happening}
    {o : Option (Notification × BitVec 32)} (same : s.command.nlPid = pid)
    (keeps : KeepsPid pid happening) (stepped : step host call s happening = some (o, t)) :
    t.command.nlPid = pid ∧ ∀ read ∈ o, read.2 = pid := by
  cases happening with
  | notify n =>
    cases stepped
    refine ⟨?_, by simp⟩
    split <;> exact same
  | setupSocket setup opening =>
    cases stepped
    exact ⟨by rw [command_kernelSetupSocket, same], by simp⟩
  | command nl =>
    cases stepped
    exact ⟨keeps, by simp⟩
  | callback recv before after =>
    simp only [step] at stepped
    have kept := command_kernelCallback host (some call)
      (recv.script (if s.listen.sock < 0 then [] else s.queue)) before after s
    split at stepped
    next => cases stepped
    next u rc returned =>
      rw [returned] at kept
      split at stepped <;> cases stepped
      · refine ⟨(congrArg Netlink.nlPid kept).trans same, ?_⟩
        intro read member
        obtain ⟨n, -, rfl⟩ := Option.map_eq_some_iff.mp member
        exact same
      · exact ⟨(congrArg Netlink.nlPid kept).trans same, by simp⟩

theorem closure_kernelSetupSocket (setup : Bool) (opening : Opening) (s : Monitor σ) :
    (kernelSetupSocket setup opening s).2.closure = s.closure := by
  cases setup with
  | false => rfl
  | true => cases opening <;> simp [kernelSetupSocket, netlinkSocket]

theorem closure_kernelCallback (script : List (Attempt Message)) (before after : Opening)
    (s : Monitor σ) :
    ∃ msgs : List Message, (∀ m ∈ msgs, Delivered script m) ∧
      (kernelCallback host (some call) script before after s).1.closure =
        msgs.foldl (fun closure m => (call closure m).1) s.closure := by
  have ready : (reopenListen before s).2.closure = s.closure := by
    unfold reopenListen
    split
    · exact closure_kernelSetupSocket true before s
    · rfl
  unfold kernelCallback
  simp only
  rw [← ready]
  generalize (reopenListen before s) = opened
  split
  · exact ⟨[], by simp, rfl⟩
  have closure := netlinkRead_closure host id opened.2.listen (some opened.2.command) false call
    script opened.2.errno opened.2.closure
  refine ⟨passing id opened.2.listen (some opened.2.command) false script,
    fun m member => mem_passing member, ?_⟩
  unfold readListen
  simp only
  split
  next => exact closure
  next =>
    split
    · rw [closure_kernelSetupSocket]
      exact closure
    · exact closure

section Routes

variable {κ : Type} (debug : Nat) (importTables : List (BitVec 32))

structure NotOwn (before : List (Message × KernelRoute)) (s : Monitor (Filtering κ)) : Prop where
  waiting : ∀ n ∈ s.queue, ∀ m ∈ n.msgs, WellFormed host m
  reported : ∀ reported ∈ routeCalls s.closure.calls,
    reported ∈ before ∨ Imported host importTables reported.1 ∧ ¬Echoed host reported.1

def NotifiesWellFormed : Happening → Prop
  | .notify n => ∀ m ∈ n.msgs, WellFormed host m
  | _ => True

theorem queue_kernelSetupSocket (setup : Bool) (opening : Opening) (s : Monitor σ) :
    (kernelSetupSocket setup opening s).2.queue = [] := by
  cases setup with
  | false => rfl
  | true => cases opening <;> simp [kernelSetupSocket, netlinkSocket]

theorem queue_kernelCallback (filter : Option (Filter σ)) (script : List (Attempt Message))
    (before after : Opening) (s : Monitor σ) :
    (kernelCallback host filter script before after s).1.queue = s.queue ∨
      (kernelCallback host filter script before after s).1.queue = [] := by
  have ready :
      (reopenListen before s).2.queue = s.queue ∨ (reopenListen before s).2.queue = [] := by
    unfold reopenListen
    split
    · exact Or.inr (queue_kernelSetupSocket true before s)
    · exact Or.inl rfl
  unfold kernelCallback
  simp only
  generalize (reopenListen before s) = opened at ready
  split
  · exact ready
  unfold readListen
  simp only
  split
  next => exact ready
  next =>
    split
    · exact Or.inr (queue_kernelSetupSocket true after _)
    · exact ready

theorem delivered_script {recv : Receiving} {queue : List Notification} {m : Message}
    (delivered : Delivered (recv.script queue) m) : ∃ n ∈ queue, m ∈ n.msgs := by
  obtain ⟨attempt, member, d, outcome, -, inside⟩ := delivered
  cases recv with
  | failed errno =>
    rw [List.mem_singleton.mp member] at outcome
    simp only [Attempt.outcome] at outcome
    split at outcome <;> cases outcome
  | eof =>
    rw [List.mem_singleton.mp member] at outcome
    cases outcome
  | head =>
    cases queue with
    | nil =>
      rw [List.mem_singleton.mp member] at outcome
      cases outcome
    | cons n rest =>
      rw [List.mem_singleton.mp member] at outcome
      cases outcome
      exact ⟨n, by simp, inside⟩

theorem notOwn_callback {filter : KernelFilter κ} {route : KernelRoute → κ → κ × Int}
    (callback : filter.route = some route) (around : Nat → Surroundings)
    {before : List (Message × KernelRoute)} {s t : Monitor (Filtering κ)}
    {recv : Receiving} {first after : Opening} {o : Option (Notification × BitVec 32)}
    (notOwn : NotOwn host importTables before s)
    (stepped : step host (asFilter host debug importTables filter around) s
      (.callback recv first after) = some (o, t)) : NotOwn host importTables before t := by
  simp only [step] at stepped
  obtain ⟨msgs, delivered, closure⟩ := closure_kernelCallback host
    (asFilter host debug importTables filter around)
    (recv.script (if s.listen.sock < 0 then [] else s.queue)) first after s
  have queue := queue_kernelCallback host (some (asFilter host debug importTables filter around))
    (recv.script (if s.listen.sock < 0 then [] else s.queue)) first after s
  have formed (m : Message) (member : m ∈ msgs) : WellFormed host m := by
    obtain ⟨n, waits, inside⟩ := delivered_script (delivered m member)
    split at waits
    · cases waits
    · exact notOwn.waiting n waits m inside
  have exactly := imports_foldl host debug importTables callback around msgs formed s.closure
  split at stepped
  next => cases stepped
  next u rc returned =>
    rw [returned] at closure queue
    have waiting (n : Notification) (member : n ∈ u.queue) : n ∈ s.queue := by
      rcases queue with same | none
      · exact same ▸ member
      · exact absurd (none ▸ member) List.not_mem_nil
    have reported : ∀ reported ∈ routeCalls u.closure.calls, reported ∈ before ∨
        Imported host importTables reported.1 ∧ ¬Echoed host reported.1 := by
      intro reported member
      rw [closure, exactly] at member
      rcases List.mem_append.mp member with old | new
      · exact notOwn.reported reported old
      · obtain ⟨m, found, rfl⟩ := List.mem_map.mp new
        have imported : Imported host importTables m := by
          simpa using (List.mem_filter.mp found).2
        exact Or.inr ⟨imported, fun echoed =>
          not_imported_of_echoed host importTables echoed imported⟩
    split at stepped <;> cases stepped
    · exact ⟨fun n member => notOwn.waiting n (waiting n (List.mem_of_mem_tail member)), reported⟩
    · exact ⟨fun n member => notOwn.waiting n (waiting n member), reported⟩

theorem step_notOwn {filter : KernelFilter κ} {route : KernelRoute → κ → κ × Int}
    (callback : filter.route = some route) (around : Nat → Surroundings)
    {before : List (Message × KernelRoute)} {s t : Monitor (Filtering κ)} {happening : Happening}
    {o : Option (Notification × BitVec 32)} (notOwn : NotOwn host importTables before s)
    (formed : NotifiesWellFormed host happening)
    (stepped : step host (asFilter host debug importTables filter around) s happening =
      some (o, t)) : NotOwn host importTables before t := by
  cases happening with
  | notify n =>
    cases stepped
    split
    · refine ⟨?_, notOwn.reported⟩
      intro other member
      rcases List.mem_append.mp member with old | new
      · exact notOwn.waiting other old
      · exact List.mem_singleton.mp new ▸ formed
    · exact notOwn
  | setupSocket setup opening =>
    cases stepped
    refine ⟨by simp [queue_kernelSetupSocket], ?_⟩
    rw [closure_kernelSetupSocket]
    exact notOwn.reported
  | command nl =>
    cases stepped
    exact ⟨notOwn.waiting, notOwn.reported⟩
  | callback recv first after =>
    exact notOwn_callback host debug importTables callback around notOwn stepped

/-- A callback never reports a route that `kernel_route` has installed, not even when the command
socket has got another pid in the meantime or the listening socket was lost. -/
theorem run_notOwn {filter : KernelFilter κ} {route : KernelRoute → κ → κ × Int}
    (callback : filter.route = some route) (around : Nat → Surroundings)
    {s u : Monitor (Filtering κ)} {happenings : List Happening}
    {os : List (Option (Notification × BitVec 32))}
    (waiting : ∀ n ∈ s.queue, ∀ m ∈ n.msgs, WellFormed host m)
    (formed : ∀ happening ∈ happenings, NotifiesWellFormed host happening)
    (ran : run (step host (asFilter host debug importTables filter around)) s happenings =
      some (os, u)) :
    ∀ reported ∈ routeCalls u.closure.calls, reported ∈ routeCalls s.closure.calls ∨
      Imported host importTables reported.1 ∧ ¬Echoed host reported.1 := by
  have initial : NotOwn host importTables (routeCalls s.closure.calls) s :=
    ⟨waiting, fun reported member => Or.inl member⟩
  exact (run_along (NotOwn host importTables (routeCalls s.closure.calls))
    (fun _ => NotifiesWellFormed host) (fun _ => True)
    (fun _ _ _ _ notOwn formed stepped =>
      ⟨step_notOwn host debug importTables callback around notOwn formed stepped, trivial⟩)
    initial (along_of_inputs formed) ran).1.reported

end Routes

def idle : Monitor (Filtering Unit) where
  command := { seqno := 0, sock := 3, nlPid := 77, socklen := 12 }
  listen := listening
  kernelSocket := 5
  closure := { closure := (), calls := [], reads := [] }
  errno := 0
  groups := listenMask
  queue := []

def routeChange (pid : BitVec 32) : Notification where
  group := rtnlgrpIpv4Route
  sender := 0
  msgs := [{ staticRoute with hdr := { staticRoute.hdr with pid := pid } }]
  nonempty := by simp

def twoChanges : List Happening :=
  [.notify (routeChange 77), .notify (routeChange 4242), .callback .head .refused .refused,
    .callback .head .refused .refused]

def reporting : Filter (Filtering Unit) :=
  asFilter .little 0 [254] routesOnly fun _ => ⟨.cleared, Memory.zeroed⟩

theorem listening_idle : Listening idle := ⟨by decide, rfl, rfl⟩

theorem keeps_twoChanges : ∀ happening ∈ twoChanges, Keeps happening ∧ KeepsPid 77 happening := by
  simp [twoChanges, Keeps, KeepsPid]

theorem plain_routeChange (pid : BitVec 32) : Plain (routeChange pid) := by
  refine ⟨rfl, ?_⟩
  intro m member
  rw [List.mem_singleton.mp member]
  exact ⟨show rtmNewroute ≠ nlmsgDone by decide, show rtmNewroute ≠ nlmsgError by decide⟩

theorem wellFormed_routeChange (pid : BitVec 32) :
    ∀ m ∈ (routeChange pid).msgs, WellFormed .little m := by
  intro m member
  rw [List.mem_singleton.mp member]
  refine ⟨show (36 : BitVec 32).toInt = 16 + staticRoute.data.length by decide, ?_, ?_, ?_⟩
  · exact fun _ => show 12 ≤ staticRoute.data.length by decide
  · exact fun _ => show ∀ a ∈ attributes .little staticRoute, IsRouteAddress a.type →
      ¬Truncated (familyIsV4 (contents staticRoute) 0) a by decide
  · exact fun _ => show ∀ a ∈ attributes .little staticRoute, IsRouteInt a.type → 4 ≤ a.payload
      by decide

theorem run_twoChanges : ∃ os u, run (step .little reporting) idle twoChanges = some (os, u) :=
  ⟨_, _, rfl⟩

theorem run_shared_idle :
    ∃ os u, run (step .little reporting) idle twoChanges = some (os, u) ∧ Shared u := by
  obtain ⟨os, u, ran⟩ := run_twoChanges
  exact ⟨os, u, ran, run_shared .little reporting (show Shared idle from rfl) ran⟩

theorem run_notOwn_idle :
    ∃ os u, run (step .little reporting) idle twoChanges = some (os, u) ∧
      ∀ reported ∈ routeCalls u.closure.calls, reported ∈ routeCalls idle.closure.calls ∨
        Imported .little [254] reported.1 ∧ ¬Echoed .little reported.1 := by
  have formed : ∀ happening ∈ twoChanges, NotifiesWellFormed .little happening := by
    simp only [twoChanges, List.mem_cons, List.not_mem_nil, or_false, forall_eq_or_imp, forall_eq]
    exact ⟨wellFormed_routeChange 77, wellFormed_routeChange 4242, trivial, trivial⟩
  have present : routesOnly.route = some _ := rfl
  obtain ⟨os, u, ran⟩ := run_twoChanges
  exact ⟨os, u, ran, run_notOwn .little 0 [254] present _ (by simp [idle]) formed ran⟩

end Monitor

end Tabeld.KernelNetlink
