import Tabeld.KernelNetlink.Command

set_option autoImplicit false

namespace Tabeld.KernelNetlink

open Machine WrappingCounter

variable {σ : Type} (host : ByteOrder)

structure Incoming where
  msg : Message
  -- the request on this socket that the kernel answers with it; netlink_read never looks at this
  answers : Option Nat

structure Request where
  seq : BitVec 32
  pid : BitVec 32
  -- whether sendmsg took it
  sent : Bool
  deriving DecidableEq

structure Read where
  request : Nat
  seq : BitVec 32
  pid : BitVec 32
  rc : Option Int
  trace : List (Event Incoming)

structure Command (σ : Type) where
  nl : Netlink
  closure : σ
  -- those that drew a number since the socket was opened
  requests : List Request
  -- the last call has not returned
  running : Bool

inductive Call (σ : Type) where
  | talk (nh : Message) (send : Send) (script : List (Attempt Incoming))
  | dump (type : BitVec 16) (data : Option (List UInt8)) (send : Sendmsg)
      (filter : Option (Filter σ)) (script : List (Attempt Incoming))
  | reopen (opening : Opening)

def Call.script : Call σ → List (Attempt Incoming)
  | .talk _ _ script => script
  | .dump _ _ _ _ script => script
  | .reopen _ => []

def Command.exchanged (c : Command σ) (x : Exchange Incoming) (sent : Bool) (closure : σ) :
    Option Read × Command σ :=
  let after := { c with nl := x.nl, closure := closure, running := x.rc.isNone }
  match x.nh with
  | none => (none, after)
  | some nh =>
    let request := { seq := nh.hdr.seq, pid := c.nl.nlPid, sent := sent }
    (x.trace.map fun trace =>
      { request := c.requests.length, seq := request.seq, pid := request.pid, rc := x.rc,
        trace := trace },
      { after with requests := c.requests ++ [request] })

def step (c : Command σ) (call : Call σ) : Option (Option Read × Command σ) :=
  if c.running then none
  else
    match call with
    | .talk nh send script =>
      let x := netlinkTalk host Incoming.msg c.nl nh send script
      some (c.exchanged x (decide (0 ≤ send.outcome.rc)) c.closure)
    | .dump type data send filter script =>
      let (x, closure) :=
        KernelNetlink.dump host Incoming.msg c.nl type data send filter script c.closure
      some (c.exchanged x (decide (0 ≤ send.rc)) closure)
    | .reopen opening =>
      -- kernel_route and kernel_dump open the socket again if an error has closed it
      if c.nl.sock < 0 then
        some (none, { c with nl := (netlinkSocket c.nl opening).2, requests := [] })
      else some (none, c)

inductive Stepped (c : Command σ) (call : Call σ) : Option Read × Command σ → Prop
  | asked (x : Exchange Incoming) (nh : Message) (sent : Bool) (closure : σ)
      (sending : x.nh = some nh) (spec : Asked host Incoming.msg c.nl call.script x nh) :
      Stepped c call (c.exchanged x sent closure)
  | unasked (closure : σ) (running : Bool) :
      Stepped c call (none, { c with closure := closure, running := running })
  | reopened (nl : Netlink) : Stepped c call (none, { c with nl := nl, requests := [] })

theorem step_stepped {c : Command σ} {call : Call σ} {result : Option Read × Command σ}
    (stepped : step host c call = some result) : Stepped host c call result := by
  unfold step at stepped
  by_cases running : c.running
  · simp [running] at stepped
  · rw [if_neg running] at stepped
    cases call with
    | talk nh send script =>
      simp only [Option.some.injEq] at stepped
      obtain ⟨asked, sending, spec⟩ := netlinkTalk_asked host Incoming.msg c.nl nh send script
      exact stepped ▸ .asked _ asked _ _ sending spec
    | dump type data send filter script =>
      simp only [Option.some.injEq] at stepped
      rcases dump_asked host Incoming.msg c.nl type data send filter script c.closure with
        ⟨same, nothing, -⟩ | ⟨asked, sending, spec⟩
      · simp only [Command.exchanged, nothing, same] at stepped
        exact stepped ▸ .unasked _ _
      · exact stepped ▸ .asked _ asked _ _ sending spec
    | reopen opening =>
      by_cases closed : c.nl.sock < 0
      · simp only [closed, if_true, Option.some.injEq] at stepped
        exact stepped ▸ .reopened _
      · simp only [closed, if_false, Option.some.injEq] at stepped
        exact stepped ▸ .unasked c.closure c.running

def everyRequest : Request → Bool := fun _ => true

/-- A reply carries the number and the pid of the request that it answers, and fewer than 65536
requests were counted since that one; any other message carries another pid. -/
def Genuine (counted : Request → Bool) (requests : List Request) (pid : BitVec 32)
    (m : Incoming) : Prop :=
  match m.answers with
  | none => m.msg.hdr.pid ≠ pid
  | some k => ∃ request, requests[k]? = some request ∧
      m.msg.hdr.seq = request.seq ∧ m.msg.hdr.pid = request.pid ∧
      (requests.drop (k + 1)).countP counted < 65536

def KernelReplies (counted : Request → Bool) (c : Command σ) (call : Call σ) : Prop :=
  ∀ read after, step host c call = some (read, after) →
    ∀ m, Delivered call.script m → Genuine counted after.requests after.nl.nlPid m

def Replies (r : Read) (m : Incoming) : Prop :=
  m.answers = some r.request ∧ m.msg.hdr.seq = r.seq ∧ m.msg.hdr.pid = r.pid

/-- The call returns 0 only after a message that answers its request has ended the answer, and
passes only messages to the filter that answer its request. -/
structure Attributed (r : Read) : Prop where
  returned : r.rc = some 0 →
    ∃ m, ConcludedBy host Incoming.msg r.trace m ∧ Replies r m
  filtered : ∀ m, Filtered r.trace m → Replies r m

def Numbered (c : Command σ) : Prop :=
  ∃ start : BitVec 16, c.nl.seqno = drawn start c.requests.length ∧
    ∀ k request, c.requests[k]? = some request →
      request.seq = (drawn start (k + 1)).setWidth 32 ∧ request.pid = c.nl.nlPid

theorem numbered_nil {c : Command σ} (none : c.requests = []) : Numbered c :=
  ⟨c.nl.seqno, by simp [none], by simp [none]⟩

theorem numbered_asked {c : Command σ} {script : List (Attempt Incoming)}
    {x : Exchange Incoming} {nh : Message} (numbered : Numbered c)
    (asked : Asked host Incoming.msg c.nl script x nh) (sent : Bool) (closure : σ)
    (sending : x.nh = some nh) : Numbered (c.exchanged x sent closure).2 := by
  obtain ⟨start, seqno, requests⟩ := numbered
  simp only [Command.exchanged, sending]
  refine ⟨start, ?_, ?_⟩
  · simp only [List.length_append, List.length_singleton]
    rw [asked.seqno, seqno, drawn_succ]
  · intro k request found
    simp only at found ⊢
    rw [asked.nlPid]
    rcases Nat.lt_trichotomy k c.requests.length with old | rfl | beyond
    · rw [List.getElem?_append_left old] at found
      exact requests k request found
    · simp only [List.getElem?_concat_length, Option.some.injEq] at found
      subst found
      simp only [asked.seq, seqno, drawn_succ, and_self]
    · rw [List.getElem?_eq_none (by simp; omega)] at found
      contradiction

theorem answers_last {c : Command σ} {m : Incoming} (numbered : Numbered c)
    (genuine : Genuine everyRequest c.requests c.nl.nlPid m)
    (matching : Matches c.nl m.msg.hdr) :
    ∃ k, m.answers = some k ∧ k + 1 = c.requests.length := by
  obtain ⟨start, seqno, requests⟩ := numbered
  obtain ⟨pid, seq⟩ := matching
  unfold Genuine at genuine
  -- equal numbers mean equal draws, because the window is shorter than a turn of the counter
  cases answers : m.answers with
  | none =>
    simp only [answers] at genuine
    exact absurd pid genuine
  | some k =>
    simp only [answers] at genuine
    obtain ⟨request, found, copied, -, window⟩ := genuine
    refine ⟨k, rfl, ?_⟩
    have bound : k < c.requests.length := (List.getElem?_eq_some_iff.mp found).1
    have near : c.requests.length - (k + 1) < 2 ^ 16 := by
      have all : (c.requests.drop (k + 1)).countP everyRequest = (c.requests.drop (k + 1)).length :=
        List.countP_eq_length.mpr fun _ _ => rfl
      rwa [all, List.length_drop] at window
    have same : drawn start (k + 1) = drawn start c.requests.length := by
      apply setWidth_inj (by decide : 16 ≤ 32)
      rw [← seqno, ← seq, copied, (requests k request found).1]
    exact drawn_inj start bound near same

theorem exchanged_attributed {c : Command σ} {script : List (Attempt Incoming)}
    {x : Exchange Incoming} {nh : Message} {r : Read} (numbered : Numbered c)
    (asked : Asked host Incoming.msg c.nl script x nh) (sent : Bool) (closure : σ)
    (sending : x.nh = some nh) (read : (c.exchanged x sent closure).1 = some r)
    (genuine : ∀ m, Delivered script m → Genuine everyRequest
      (c.exchanged x sent closure).2.requests (c.exchanged x sent closure).2.nl.nlPid m) :
    Attributed host r := by
  have after := numbered_asked host numbered asked sent closure sending
  simp only [Command.exchanged, sending, Option.map_eq_some_iff] at read genuine after
  obtain ⟨trace, traced, rfl⟩ := read
  have replies (m : Incoming) (delivered : Delivered script m)
      (matching : Matches { c.nl with seqno := c.nl.seqno + 1 } m.msg.hdr) :
      m.answers = some c.requests.length ∧ m.msg.hdr.seq = nh.hdr.seq ∧
        m.msg.hdr.pid = c.nl.nlPid := by
    obtain ⟨pid, seq⟩ := matching
    have current : Matches x.nl m.msg.hdr := ⟨by rw [pid, asked.nlPid], by rw [seq, asked.seqno]⟩
    obtain ⟨k, answers, last⟩ := answers_last after (genuine m delivered) current
    simp only [List.length_append, List.length_singleton, Nat.add_right_cancel_iff] at last
    exact ⟨last ▸ answers, seq.trans asked.seq.symm, pid⟩
  constructor
  · intro zero
    obtain ⟨m, delivered, concluded, matching⟩ := asked.concluded trace traced zero
    exact ⟨m, concluded, replies m delivered matching⟩
  · intro m filtered
    obtain ⟨delivered, matching⟩ := asked.only trace traced m filtered
    exact replies m delivered matching

theorem stepped_attributed {c : Command σ} {call : Call σ} {result : Option Read × Command σ}
    (numbered : Numbered c) (stepped : Stepped host c call result)
    (genuine : ∀ m, Delivered call.script m →
      Genuine everyRequest result.2.requests result.2.nl.nlPid m) :
    Numbered result.2 ∧ ∀ r, result.1 = some r → Attributed host r := by
  cases stepped with
  | asked x nh sent closure sending spec =>
    exact ⟨numbered_asked host numbered spec sent closure sending, fun r read =>
      exchanged_attributed host numbered spec sent closure sending read genuine⟩
  | unasked => exact ⟨numbered, by simp⟩
  | reopened => exact ⟨numbered_nil rfl, by simp⟩

theorem replies_attributed (c : Command σ) (fresh : c.requests = []) (calls : List (Call σ))
    (assumed : Along (step host) (KernelReplies host everyRequest) c calls)
    (os : List (Option Read)) (last : Command σ) (ran : run (step host) c calls = some (os, last)) :
    ∀ r, some r ∈ os → Attributed host r := by
  intro r member
  have outputs := (run_along Numbered (KernelReplies host everyRequest)
    (fun o => ∀ r, o = some r → Attributed host r)
    (fun _ _ o after numbered assumed stepped =>
      stepped_attributed host numbered (step_stepped host stepped) (assumed o after stepped))
    (numbered_nil fresh) assumed ran).2
  exact outputs (some r) member r rfl

def commandSocket : Command Unit where
  nl := { seqno := 0, sock := 3, nlPid := 77, socklen := 12 }
  closure := ()
  requests := []
  running := false

def silence : Attempt Incoming := ⟨.failed eagain, 0, 0, .eof⟩

def delivery (msgs : List Incoming) : Attempt Incoming := ⟨.received ⟨12, 0, msgs⟩, 0, 0, .eof⟩

def dumpRoutes (script : List (Attempt Incoming)) : Call Unit :=
  -- RTM_GETROUTE for AF_INET6
  .dump 26 (some [10]) ⟨17, 0⟩ (some fun closure _ => (closure, 0)) script

def dumped : List Incoming :=
  -- a route and the end of the dump, in answer to request 0 with number 1
  [⟨⟨⟨16, 24, 2, 1, 77⟩, []⟩, some 0⟩, ⟨⟨⟨16, nlmsgDone, 2, 1, 77⟩, []⟩, some 0⟩]

theorem dumped_genuine (counted : Request → Bool) (requests : List Request)
    (few : requests.countP counted < 65536) (m : Incoming) (member : m ∈ dumped) :
    Genuine counted (⟨1, 77, true⟩ :: requests) 77 m := by
  simp only [dumped, List.mem_cons, List.not_mem_nil, or_false] at member
  rcases member with rfl | rfl <;> exact ⟨⟨1, 77, true⟩, rfl, rfl, rfl, few⟩

theorem delivered_delivery {msgs : List Incoming} {m : Incoming}
    (delivered : Delivered [delivery msgs] m) : m ∈ msgs := by
  obtain ⟨attempt, member, d, received, -, inside⟩ := delivered
  rw [List.mem_singleton.mp member] at received
  cases received
  exact inside

theorem not_delivered_silence (m : Incoming) : ¬Delivered [silence] m := by
  rintro ⟨attempt, member, d, received, -⟩
  rw [List.mem_singleton.mp member] at received
  cases received

def lateAndOwn : List Incoming :=
  dumped ++ [⟨⟨⟨16, 24, 2, 2, 77⟩, []⟩, some 1⟩, ⟨⟨⟨16, nlmsgDone, 2, 2, 77⟩, []⟩, some 1⟩]

def dumpedTwice : List (Call Unit) :=
  -- the answer to the first dump arrives with the one to the second
  [dumpRoutes [silence], dumpRoutes [delivery lateAndOwn]]

theorem replies_dumpedTwice :
    ∃ os last, run (step .little) commandSocket dumpedTwice = some (os, last) ∧
      ∀ r, some r ∈ os → Attributed .little r := by
  have assumed : Along (step .little) (KernelReplies .little everyRequest) commandSocket
      dumpedTwice := by
    refine ⟨fun _ _ _ m delivered => absurd delivered (not_delivered_silence m), ?_⟩
    intro _ between first
    cases first
    refine ⟨?_, fun _ _ _ => trivial⟩
    intro read after stepped m delivered
    cases stepped
    have member := delivered_delivery delivered
    simp only [lateAndOwn, List.mem_append, List.mem_cons, List.not_mem_nil, or_false] at member
    rcases member with late | rfl | rfl
    · exact dumped_genuine everyRequest [⟨2, 77, true⟩] (by decide) m late
    · exact ⟨⟨2, 77, true⟩, rfl, rfl, rfl, by decide⟩
    · exact ⟨⟨2, 77, true⟩, rfl, rfl, rfl, by decide⟩
  exact ⟨_, _, rfl, replies_attributed .little commandSocket rfl _ assumed _ _ rfl⟩

def unsendable : Call Unit :=
  -- sendmsg fails with ENOBUFS; netlink_talk waits for an acknowledgement all the same
  .talk ⟨⟨16, 24, 1, 0, 0⟩, []⟩ ⟨⟨-1, 105⟩, 0, 0, ⟨0, 0⟩⟩ [silence]

def Command.advanced (c : Command σ) (lost : List Request) : Command σ :=
  { c with
    nl := { c.nl with seqno := drawn c.nl.seqno lost.length }
    requests := c.requests ++ lost }

theorem advanced_advanced (c : Command σ) (first later : List Request) :
    (c.advanced first).advanced later = c.advanced (first ++ later) := by
  simp [Command.advanced, drawn_drawn]

theorem step_unsendable (c : Command Unit) (idle : c.running = false) :
    ∃ o request, step .little c unsendable = some (o, c.advanced [request]) ∧
      request.sent = false := by
  obtain ⟨nl, closure, requests, running⟩ := c
  subst idle
  exact ⟨_, ⟨(nl.seqno + 1).setWidth 32, nl.nlPid, false⟩, rfl, rfl⟩

theorem run_unsendable (c : Command Unit) (idle : c.running = false) (n : Nat) :
    ∃ os lost, run (step .little) c (List.replicate n unsendable) = some (os, c.advanced lost) ∧
      lost.length = n ∧ lost.countP Request.sent = 0 := by
  induction n generalizing c with
  | zero => exact ⟨[], [], by simp [Command.advanced], rfl, rfl⟩
  | succ n ih =>
    obtain ⟨o, request, first, unsent⟩ := step_unsendable c idle
    obtain ⟨os, lost, later, length, others⟩ := ih (c.advanced [request]) idle
    refine ⟨o :: os, request :: lost, ?_, by rw [List.length_cons, length],
      by simp [unsent, others]⟩
    rw [advanced_advanced] at later
    exact run_cons.mpr ⟨o, c.advanced [request], os, first, later, rfl⟩

def firstRequest : Request := ⟨1, 77, true⟩

theorem step_silent :
    ∃ o, step .little commandSocket (dumpRoutes [silence]) =
      some (o, commandSocket.advanced [firstRequest]) :=
  ⟨_, rfl⟩

theorem step_dumped (c : Command Unit) (socket : c.nl = commandSocket.nl)
    (idle : c.running = false) :
    ∃ r, step .little c (dumpRoutes [delivery dumped]) =
        some (some r, c.advanced [firstRequest]) ∧
      r.request = c.requests.length ∧ ∀ m ∈ dumped.head?, Filtered r.trace m := by
  obtain ⟨nl, closure, requests, running⟩ := c
  subst socket idle
  refine ⟨_, rfl, rfl, ?_⟩
  intro m head
  cases head
  exact List.mem_cons_self

theorem stale_reply_accepted :
    ∃ calls os last, Along (step .little) (KernelReplies .little Request.sent) commandSocket calls ∧
      run (step .little) commandSocket calls = some (os, last) ∧
      ∃ r, some r ∈ os ∧ ¬Attributed .little r := by
  have silent (call : Call Unit) (script : call.script = [silence]) (c : Command Unit) :
      KernelReplies .little Request.sent c call := by
    intro _ _ _ m delivered
    rw [script] at delivered
    exact absurd delivered (not_delivered_silence m)
  -- the first dump is sent and times out, and then no request gets through
  obtain ⟨o, first⟩ := step_silent
  obtain ⟨os, lost, middle, length, unsent⟩ :=
    run_unsendable (commandSocket.advanced [firstRequest]) rfl 65535
  rw [advanced_advanced] at middle
  -- 65536 draws are a full turn of the counter
  have socket : (commandSocket.advanced ([firstRequest] ++ lost)).nl = commandSocket.nl := by
    simp only [Command.advanced, List.length_append, length, List.length_singleton]
    rfl
  obtain ⟨r, final, request, passed⟩ := step_dumped _ socket rfl
  have few : (lost ++ [firstRequest]).countP Request.sent < 65536 := by
    rw [List.countP_append, unsent]
    decide
  refine ⟨dumpRoutes [silence] :: (List.replicate 65535 unsendable ++
    [dumpRoutes [delivery dumped]]), o :: (os ++ [some r]),
    (commandSocket.advanced ([firstRequest] ++ lost)).advanced [firstRequest], ?_, ?_, r, ?_, ?_⟩
  · rw [along_cons _ first, along_append _ middle]
    refine ⟨silent _ rfl _, ?_, ?_, fun _ _ _ => trivial⟩
    · have inputs : ∀ call ∈ List.replicate 65535 unsendable, call.script = [silence] := by
        intro call member
        rw [List.eq_of_mem_replicate member]
        rfl
      exact (along_of_inputs inputs).mono fun c call script => silent call script c
    · intro read after stepped m delivered
      rw [final, Option.some.injEq, Prod.mk.injEq] at stepped
      obtain ⟨-, rfl⟩ := stepped
      exact dumped_genuine Request.sent (lost ++ [firstRequest]) few m
        (delivered_delivery delivered)
  · exact run_cons.mpr ⟨o, _, _, first, run_append.mpr ⟨os, _, _, middle,
      run_cons.mpr ⟨_, _, _, final, rfl, rfl⟩, rfl⟩, rfl⟩
  · simp
  · intro attributed
    have answers := (attributed.filtered _ (passed _ rfl)).1
    rw [request] at answers
    simp [Command.advanced, length] at answers

end Tabeld.KernelNetlink
