import Tabeld.KernelNetlink.Import
import Tabeld.KernelNetlink.Replies
import Tabeld.KernelNetlink.Requests

set_option autoImplicit false

namespace Tabeld.KernelNetlink

open Machine WrappingCounter

def rtmGetaddr : BitVec 16 := 22
def rtmGetroute : BitVec 16 := 26
def rtmGetrule : BitVec 16 := 34
def afUnspec : Nat := 0

/-- The bits that `operation` is tested for; kernel.h is not part of this repository. -/
structure Changes where
  route : Bool
  rule : Bool
  addr : Bool

structure DumpIo (μ : Type) where
  send : Sendmsg
  script : List (Attempt μ)

structure Dumping (σ μ : Type) where
  nl : Netlink
  closure : σ
  errno : Int
  -- what the call returns; none if netlink_read does not come back
  rc : Option Int
  exchanges : List (Exchange μ)

variable {σ μ : Type} (host : ByteOrder) (view : μ → Message)

section Definitions

variable (filter : Option (Filter σ)) (io : Nat → DumpIo μ)

/-- One of the blocks of `kernel_dump`; after a `return` the later ones do nothing. -/
def dumpIf (wanted : Bool) (type : BitVec 16) (family : Nat) (s : Dumping σ μ) : Dumping σ μ :=
  if wanted ∧ s.rc = some 0 then
    let env := io s.exchanges.length
    let out := dump host view s.nl type (some [UInt8.ofNat family]) env.send filter env.script
      s.closure
    { nl := out.1.nl
      closure := out.2
      errno := out.1.errno
      rc := out.1.rc.map fun rc => if rc < 0 then -1 else 0
      exchanges := s.exchanges ++ [out.1] }
  else s

def kernelDump (nlSetup : Bool) (opening : Opening) (openErrno : Int) (operation : Changes)
    (s : Dumping σ μ) : Dumping σ μ :=
  let s := { s with rc := some 0, exchanges := [] }
  if !nlSetup then { s with errno := eio, rc := some (-1) }
  else
    let opened := if s.nl.sock < 0 then netlinkSocket s.nl opening else (0, s.nl)
    let s := { s with nl := opened.2 }
    if opened.1 < 0 then { s with errno := openErrno, rc := some (-1) }
    else
      let families := [afInet6, afInet]
      let s := families.foldl (fun s family =>
        dumpIf host view filter io operation.rule rtmGetrule family
          (dumpIf host view filter io operation.route rtmGetroute family s)) s
      dumpIf host view filter io operation.addr rtmGetaddr afUnspec s

end Definitions

def Changes.requests (operation : Changes) : List (BitVec 16 × Nat) :=
  let perFamily (family : Nat) :=
    (if operation.route then [(rtmGetroute, family)] else []) ++
      if operation.rule then [(rtmGetrule, family)] else []
  perFamily afInet6 ++ perFamily afInet ++
    if operation.addr then [(rtmGetaddr, afUnspec)] else []

def dumpRequest (seqno : BitVec 16) (k : Nat) (request : BitVec 16 × Nat) : Message where
  hdr :=
    { len := 17
      type := request.1
      flags := nlmFDump ||| nlmFRequest
      seq := (drawn seqno (k + 1)).setWidth 32
      pid := 0 }
  data := [UInt8.ofNat request.2]

section Runs

variable (filter : Option (Filter σ)) (io : Nat → DumpIo μ)

def dumps (requests : List (BitVec 16 × Nat)) (s : Dumping σ μ) : Dumping σ μ :=
  requests.foldl (fun s request => dumpIf host view filter io true request.1 request.2 s) s

theorem dumpIf_eq_dumps (wanted : Bool) (type : BitVec 16) (family : Nat) (s : Dumping σ μ) :
    dumpIf host view filter io wanted type family s =
      dumps host view filter io (if wanted then [(type, family)] else []) s := by
  cases wanted
  · simp [dumpIf, dumps]
  · rfl

theorem dumps_append (first second : List (BitVec 16 × Nat)) (s : Dumping σ μ) :
    dumps host view filter io (first ++ second) s =
      dumps host view filter io second (dumps host view filter io first s) :=
  List.foldl_append

theorem kernelDump_eq_dumps {nlSetup : Bool} {opening : Opening} (openErrno : Int)
    (operation : Changes) {s : Dumping σ μ} {nl : Netlink} (setup : nlSetup = true)
    (opened : (if s.nl.sock < 0 then netlinkSocket s.nl opening else (0, s.nl)) = (0, nl)) :
    kernelDump host view filter io nlSetup opening openErrno operation s =
      dumps host view filter io operation.requests
        { s with nl := nl, rc := some 0, exchanges := [] } := by
  simp only [kernelDump, setup, opened, Bool.not_true, Bool.false_eq_true, if_false, Int.lt_irrefl,
    List.foldl_cons, List.foldl_nil, dumpIf_eq_dumps, ← dumps_append, Changes.requests]

end Runs

section Exchanges

variable (filter : Option (Filter σ))

structure Answered (nl : Netlink) (k : Nat) (request : BitVec 16 × Nat) (env : DumpIo μ)
    (x : Exchange μ) : Prop where
  request : x.nh = some (dumpRequest nl.seqno k request)
  concluded : x.rc = some 0 → ∃ trace, x.trace = some trace ∧
    Concluded host view { nl with seqno := drawn nl.seqno (k + 1) } (Delivered env.script) trace

theorem nh_dump (nl : Netlink) (type : BitVec 16) (family : Nat) (send : Sendmsg)
    (script : List (Attempt μ)) (closure : σ) :
    (dump host view nl type (some [UInt8.ofNat family]) send filter script closure).1.nh =
      some (dumpRequest nl.seqno 0 (type, family)) := by
  simp only [dump, netlinkSendDump, List.length_singleton, Nat.one_ne_zero, if_false, dumpRequest,
    drawn_succ, drawn_zero]
  split <;> split <;> rfl

theorem trace_dump {nl : Netlink} {type : BitVec 16} {data : Option (List UInt8)} {send : Sendmsg}
    {script : List (Attempt μ)} {closure : σ}
    (zero : (dump host view nl type data send filter script closure).1.rc = some 0) :
    ∃ trace, (dump host view nl type data send filter script closure).1.trace = some trace := by
  unfold dump at zero ⊢
  simp only at zero ⊢
  split at zero
  next => cases zero
  next sent =>
    rw [if_neg sent]
    exact ⟨_, rfl⟩

theorem rc_dump (nl : Netlink) (type : BitVec 16) (data : Option (List UInt8)) (send : Sendmsg)
    (script : List (Attempt μ)) (closure : σ) (rc : Int)
    (returned : (dump host view nl type data send filter script closure).1.rc = some rc) :
    rc = 0 ∨ rc = -1 := by
  unfold dump at returned
  simp only at returned
  split at returned
  next => exact Or.inr (by simpa using returned.symm)
  next =>
    have reported := receive_reported host view (netlinkSendDump nl type data send).nl filter
      (Delivered script) script (fun _ delivered => delivered)
      { done := false, skip := false, errno := (netlinkSendDump nl type data send).errno,
        closure := closure, trace := [] }
    exact (reported.refused rc returned).imp_right And.left

theorem Concluded.congr {nl other : Netlink} {among : μ → Prop} {trace : List (Event μ)}
    (concluded : Concluded host view nl among trace) (seqno : nl.seqno = other.seqno)
    (nlPid : nl.nlPid = other.nlPid) : Concluded host view other among trace := by
  obtain ⟨m, member, ending, pid, seq⟩ := concluded
  exact ⟨m, member, ending, by rw [pid, nlPid], by rw [seq, seqno]⟩

theorem dumpRequest_drawn (seqno : BitVec 16) (k : Nat) (request : BitVec 16 × Nat) :
    dumpRequest (drawn seqno k) 0 request = dumpRequest seqno k request := by
  simp only [dumpRequest, drawn_drawn, Nat.zero_add]

theorem dump_answered {nl socket : Netlink} {k : Nat} (seqno : socket.seqno = drawn nl.seqno k)
    (nlPid : socket.nlPid = nl.nlPid) (request : BitVec 16 × Nat) (env : DumpIo μ) (closure : σ) :
    let x := (dump host view socket request.1 (some [UInt8.ofNat request.2]) env.send filter
      env.script closure).1
    Answered host view nl k request env x ∧
      x.nl.seqno = drawn nl.seqno (k + 1) ∧ x.nl.nlPid = nl.nlPid := by
  have nh := nh_dump host view filter socket request.1 request.2 env.send env.script closure
  rw [seqno, dumpRequest_drawn] at nh
  rcases dump_asked host view socket request.1 (some [UInt8.ofNat request.2]) env.send filter
    env.script closure with ⟨-, nothing, -⟩ | ⟨asked, -, spec⟩
  · rw [nh] at nothing
    cases nothing
  refine ⟨⟨nh, ?_⟩, by rw [spec.seqno, seqno, drawn_succ], spec.nlPid.trans nlPid⟩
  intro zero
  obtain ⟨trace, traced⟩ := trace_dump host view filter zero
  have advanced : socket.seqno + 1 = drawn nl.seqno (k + 1) := by rw [seqno, drawn_succ]
  exact ⟨trace, traced, Concluded.congr host view (spec.concluded trace traced zero) advanced nlPid⟩

end Exchanges

section Order

variable (filter : Option (Filter σ)) (io : Nat → DumpIo μ)

/-- The first requests have been sent, in order and with consecutive numbers, and every one but
the last has been answered. -/
structure InOrder (nl : Netlink) (requests : List (BitVec 16 × Nat)) (s : Dumping σ μ) : Prop where
  sent : ∀ k x, s.exchanges[k]? = some x → ∃ request, requests[k]? = some request ∧
    Answered host view nl k request (io k) x ∧ (k + 1 < s.exchanges.length → x.rc = some 0)
  succeeds : s.rc = some 0 ↔
    s.exchanges.length = requests.length ∧ ∀ x ∈ s.exchanges, x.rc = some 0

theorem InOrder.length_le {nl : Netlink} {requests : List (BitVec 16 × Nat)} {s : Dumping σ μ}
    (inOrder : InOrder host view io nl requests s) : s.exchanges.length ≤ requests.length := by
  by_contra more
  obtain ⟨x, found⟩ : ∃ x, s.exchanges[requests.length]? = some x :=
    ⟨_, List.getElem?_eq_getElem (by omega)⟩
  obtain ⟨request, inside, -⟩ := inOrder.sent _ x found
  simp at inside

def CountsFrom (nl : Netlink) (s : Dumping σ μ) : Prop :=
  s.nl.seqno = drawn nl.seqno s.exchanges.length ∧ s.nl.nlPid = nl.nlPid

theorem dumpIf_inOrder {nl : Netlink} {requests : List (BitVec 16 × Nat)} {s : Dumping σ μ}
    (inOrder : InOrder host view io nl requests s) (counts : CountsFrom nl s)
    (request : BitVec 16 × Nat) :
    let t := dumpIf host view filter io true request.1 request.2 s
    InOrder host view io nl (requests ++ [request]) t ∧ CountsFrom nl t := by
  have short := inOrder.length_le
  unfold dumpIf
  by_cases running : s.rc = some 0
  swap
  · simp only [running, and_false, if_false]
    refine ⟨⟨?_, ?_⟩, counts⟩
    · intro k x found
      obtain ⟨other, inside, spec⟩ := inOrder.sent k x found
      have bound := (List.getElem?_eq_some_iff.mp inside).1
      exact ⟨other, by rw [List.getElem?_append_left bound, inside], spec⟩
    · simp only [running, List.length_append, List.length_singleton, false_iff]
      omega
  · obtain ⟨length, answered⟩ := inOrder.succeeds.mp running
    simp only [running, and_self, if_true]
    obtain ⟨spec, seqno, nlPid⟩ := dump_answered host view filter counts.1 counts.2 request
      (io s.exchanges.length) s.closure
    have rc := rc_dump host view filter s.nl request.1 (some [UInt8.ofNat request.2])
      (io s.exchanges.length).send (io s.exchanges.length).script s.closure
    generalize dump host view s.nl request.1 (some [UInt8.ofNat request.2])
      (io s.exchanges.length).send filter (io s.exchanges.length).script s.closure = out
      at spec seqno nlPid rc
    obtain ⟨x, closure⟩ := out
    simp only at spec seqno nlPid rc
    refine ⟨⟨?_, ?_⟩, by simpa using seqno, nlPid⟩
    · intro k y found
      simp only [List.length_append, List.length_singleton] at found ⊢
      rcases Nat.lt_or_ge k s.exchanges.length with earlier | last
      · rw [List.getElem?_append_left earlier] at found
        obtain ⟨other, inside, answer, -⟩ := inOrder.sent k y found
        refine ⟨other, ?_, answer, fun _ => answered y (List.mem_of_getElem? found)⟩
        rw [List.getElem?_append_left (by omega), inside]
      · have position : k = s.exchanges.length := by
          have inside := (List.getElem?_eq_some_iff.mp found).1
          simp only [List.length_append, List.length_singleton] at inside
          omega
        subst position
        rw [List.getElem?_concat_length, Option.some.injEq] at found
        subst found
        refine ⟨request, ?_, spec, fun more => by omega⟩
        rw [length, List.getElem?_concat_length]
    · have all : (∀ y ∈ s.exchanges ++ [x], y.rc = some 0) ↔ x.rc = some 0 := by
        simp only [List.mem_append, List.mem_singleton, or_imp, forall_and, forall_eq]
        exact and_iff_right answered
      simp only [List.length_append, length, all]
      cases returned : x.rc with
      | none => simp
      | some value => rcases rc value returned with rfl | rfl <;> simp

theorem dumps_inOrder {nl : Netlink} {s : Dumping σ μ} (requests : List (BitVec 16 × Nat))
    (running : s.rc = some 0) (fresh : s.exchanges = []) (socket : s.nl = nl) :
    let t := dumps host view filter io requests s
    InOrder host view io nl requests t ∧ CountsFrom nl t := by
  induction requests using List.reverseRecOn with
  | nil => exact ⟨⟨by simp [dumps, fresh], by simp [dumps, running, fresh]⟩,
      by simp [dumps, fresh, socket], by simp [dumps, socket]⟩
  | append_singleton requests request ih =>
    rw [dumps_append]
    exact dumpIf_inOrder host view filter io ih.1 ih.2 request

theorem rc_reopened (nl : Netlink) (opening : Opening) :
    (if nl.sock < 0 then netlinkSocket nl opening else (0, nl)).1 = 0 ∨
      (if nl.sock < 0 then netlinkSocket nl opening else (0, nl)).1 = -1 := by
  split
  · cases opening <;> simp [netlinkSocket]
  · exact Or.inl rfl

end Order

section Answers

/-- The script delivers `replies` in answer to the request that drew `nl.seqno`: datagrams in which
other messages may stand between the replies, up to the one with the end of the answer. -/
inductive Answers (nl : Netlink) : List μ → List (Attempt μ) → Prop
  | more (attempt : Attempt μ) (d : Datagram μ) (replies : List μ) (script : List (Attempt μ))
      (received : attempt.outcome = .received d) (sender : d.namelen = nl.socklen ∧ d.nlPid = 0)
      (within : ∀ m ∈ d.msgs, ¬CutsOff nl none true (view m).hdr)
      (later : Answers nl replies script) :
      Answers nl ((d.msgs.filter fun m => decide (Matches nl (view m).hdr)) ++ replies)
        (attempt :: script)
  | last (attempt : Attempt μ) (d : Datagram μ) (before after : List μ) (done : μ)
      (script : List (Attempt μ)) (received : attempt.outcome = .received d)
      (sender : d.namelen = nl.socklen ∧ d.nlPid = 0) (msgs : d.msgs = before ++ done :: after)
      (within : ∀ m ∈ before, ¬CutsOff nl none true (view m).hdr)
      (ends : Matches nl (view done).hdr ∧ (view done).hdr.type = nlmsgDone) :
      Answers nl (before.filter fun m => decide (Matches nl (view m).hdr)) (attempt :: script)

theorem examined_answer (nl : Netlink) (nh : Nlmsghdr) :
    Examined nl none true nh ↔ Matches nl nh := by
  simp [Examined]

theorem passingIn_within {nl : Netlink} {msgs : List μ} (after : List μ)
    (within : ∀ m ∈ msgs, ¬CutsOff nl none true (view m).hdr)
    (ends : ∀ m ∈ after.head?, CutsOff nl none true (view m).hdr) :
    passingIn view nl none true (msgs ++ after) =
      msgs.filter fun m => decide (Matches nl (view m).hdr) := by
  have stops : after.takeWhile (fun m => decide (¬CutsOff nl none true (view m).hdr)) = [] := by
    cases after with
    | nil => rfl
    | cons m rest => simp [ends m (by simp)]
  rw [passingIn, List.takeWhile_append_of_pos (by simpa using within), stops, List.append_nil]
  simp only [examined_answer]

theorem answers_passing {nl : Netlink} {replies : List μ} {script : List (Attempt μ)}
    (answers : Answers view nl replies script) :
    passing view nl none true script = replies := by
  induction answers with
  | more attempt d replies script received sender within later ih =>
    have goesOn : GoesOn view nl none true d.msgs := ⟨within, Or.inl rfl⟩
    have here := passingIn_within view [] within (by simp)
    rw [List.append_nil] at here
    simp only [passing, received, sender, and_self, if_true, goesOn, ih, here]
  | last attempt d before after done script received sender msgs within ends =>
    have cuts : CutsOff nl none true (view done).hdr :=
      ⟨(examined_answer nl _).mpr ends.1, Or.inl ends.2⟩
    have stops : ¬GoesOn view nl none true d.msgs := fun goesOn =>
      goesOn.1 done (by simp [msgs]) cuts
    have here := passingIn_within view (done :: after) within (by simpa using cuts)
    rw [← msgs] at here
    simp only [passing, received, sender, and_self, if_true, stops, if_false, List.append_nil, here]

variable (call : Filter σ)

theorem messages_append (nl : Netlink) (nlIgnore : Option Netlink) (answer : Bool)
    (filter : Option (Filter σ)) (first second : List μ) (s : Reading σ μ) :
    messages host view nl nlIgnore answer filter (first ++ second) s =
      match messages host view nl nlIgnore answer filter first s with
      | (.next, s) => messages host view nl nlIgnore answer filter second s
      | result => result := by
  induction first generalizing s with
  | nil => rfl
  | cons m rest ih =>
    simp only [List.cons_append, messages]
    cases handle host view nl nlIgnore answer filter m s with
    | mk flow t =>
      cases flow with
      | next => exact ih t
      | stop | returned | overread => rfl

theorem answers_receive {nl : Netlink} {replies : List μ} {script : List (Attempt μ)}
    (answers : Answers view nl replies script) (s : Reading σ μ) (unfinished : s.done = false) :
    let read := receive host view nl none true (some call) script s
    read.rc = some 0 ∧ read.nl = nl := by
  induction answers generalizing s with
  | more attempt d replies script received sender within later ih =>
    obtain ⟨flow, unset⟩ := messages_goesOn host view nl none true call d.msgs s unfinished
      ⟨within, Or.inl rfl⟩
    have rest := ih (messages host view nl none true (some call) d.msgs s).2 unset
    simp only [receive, received, sender, ne_eq, not_true_eq_false, if_false]
    generalize messages host view nl none true (some call) d.msgs s = out at flow unset rest
    obtain ⟨_, t⟩ := out
    cases flow
    simp only at unset rest
    simp only [unset, Bool.false_eq_true, if_false, rest, and_self]
  | last attempt d before after done script received sender msgs within ends =>
    obtain ⟨flow, unset⟩ := messages_goesOn host view nl none true call before s unfinished
      ⟨within, Or.inl rfl⟩
    simp only [receive, received, sender, ne_eq, not_true_eq_false, if_false, msgs, messages_append]
    generalize messages host view nl none true (some call) before s = out at flow unset
    obtain ⟨_, t⟩ := out
    cases flow
    have examined := (examined_answer nl (view done).hdr).mpr ends.1
    simp only [messages, handle_examined host view nl none true (some call) examined, ends.2,
      if_true, and_self]

end Answers

section Served

variable (call : Filter σ) (io : Nat → DumpIo μ) (table : BitVec 16 × Nat → List μ)

/-- The kernel gets each request and answers it with what `table` has for it. -/
def Served (nl : Netlink) (requests : List (BitVec 16 × Nat)) : Prop :=
  ∀ k request, requests[k]? = some request → ¬Short (io k).send.rc 17 ∧
    Answers view { nl with seqno := drawn nl.seqno (k + 1) } (table request) (io k).script

theorem dump_served (nl : Netlink) {replies : List μ} {env : DumpIo μ}
    (taken : ¬Short env.send.rc 17)
    (answers : Answers view { nl with seqno := nl.seqno + 1 } replies env.script)
    (type : BitVec 16) (family : Nat) (closure : σ) :
    let out := dump host view nl type (some [UInt8.ofNat family]) env.send (some call) env.script
      closure
    out.1.rc = some 0 ∧ out.1.nl = { nl with seqno := nl.seqno + 1 } ∧
      out.2 = replies.foldl (fun closure m => (call closure (view m)).1) closure := by
  have whole : ¬Short env.send.rc (BitVec.ofNat 32 (16 + 1)) := taken
  simp only [dump, netlinkSendDump, List.length_singleton, Nat.one_ne_zero, if_false, whole,
    Int.lt_irrefl, netlinkRead_closure, answers_passing view answers, and_true]
  exact answers_receive host view call answers _ rfl

theorem dumps_served {nl : Netlink} {s : Dumping σ μ} (requests : List (BitVec 16 × Nat))
    (running : s.rc = some 0) (fresh : s.exchanges = []) (socket : s.nl = nl)
    (served : Served view io table nl requests) :
    let t := dumps host view (some call) io requests s
    t.rc = some 0 ∧ t.exchanges.length = requests.length ∧
      t.nl = { nl with seqno := drawn nl.seqno requests.length } ∧
      t.closure = (requests.flatMap table).foldl (fun closure m => (call closure (view m)).1)
        s.closure := by
  induction requests using List.reverseRecOn with
  | nil => simp [dumps, running, fresh, socket]
  | append_singleton requests request ih =>
    have before : Served view io table nl requests := fun k other found =>
      served k other (by
        rw [List.getElem?_append_left (List.getElem?_eq_some_iff.mp found).1, found])
    obtain ⟨rc, length, socket, closure⟩ := ih before
    obtain ⟨taken, answers⟩ := served requests.length request (by simp)
    rw [dumps_append]
    generalize dumps host view (some call) io requests s = t at rc length socket closure
    have next := dump_served host view call t.nl taken
      (by rw [socket]; simpa [drawn_succ] using answers) request.1 request.2 t.closure
    simp only [dumps, List.foldl_cons, List.foldl_nil, dumpIf, rc, and_self, if_true, length, next]
    simp [socket, closure, length, drawn_succ]

end Served

section Routes

variable {κ : Type} (debug : Nat) (importTables : List (BitVec 32))

end Routes

def dumpedRoutes : BitVec 16 × Nat → List Message
  | (_, 2) => [{ staticRoute with hdr := { staticRoute.hdr with seq := 2, pid := 77 } }]
  | _ => []

def dumpEnd (seq : BitVec 32) : Message := ⟨⟨20, nlmsgDone, 2, seq, 77⟩, [0, 0, 0, 0]⟩

def dumpEnv (k : Nat) : DumpIo Message where
  send := ⟨17, 0⟩
  script :=
    let reply := if k = 0 then dumpedRoutes (rtmGetroute, afInet6) else
      dumpedRoutes (rtmGetroute, afInet)
    [⟨.received ⟨12, 0, reply ++ [dumpEnd (BitVec.ofNat 32 (k + 1))]⟩, 0, 0, .eof⟩]

def routesDumping : Dumping (Filtering Unit) Message where
  nl := commandSocket.nl
  closure := ⟨(), [], []⟩
  errno := 0
  rc := none
  exchanges := []

theorem served_dumpEnv :
    Served id dumpEnv dumpedRoutes commandSocket.nl (Changes.requests ⟨true, false, false⟩) := by
  intro k request found
  have cases :
      k = 0 ∧ request = (rtmGetroute, afInet6) ∨ k = 1 ∧ request = (rtmGetroute, afInet) := by
    match k with
    | 0 | 1 => simpa [Changes.requests, eq_comm] using found
    | _ + 2 => simp [Changes.requests] at found
  refine ⟨show ¬Short 17 17 by decide, ?_⟩
  rcases cases with ⟨rfl, rfl⟩ | ⟨rfl, rfl⟩
  · exact .last _ _ [] [] (dumpEnd 1) [] rfl (by decide) rfl (by simp) (by decide)
  · exact .last _ _ (dumpedRoutes (rtmGetroute, afInet)) [] (dumpEnd 2) [] rfl (by decide) rfl
      (by decide) (by decide)

end Tabeld.KernelNetlink
