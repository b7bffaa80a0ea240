import Tabeld.KernelNetlink.Read
import Tabeld.Shared.Machine
import Tabeld.Shared.WrappingCounter

set_option autoImplicit false

/-!
# The command socket

Requests are numbered by a counter of 16 bits. A call may end before its answer is complete; the
rest of the answer is then read by later calls.
-/

namespace Tabeld.KernelNetlink

open Machine WrappingCounter

def nlmFRequest : BitVec 16 := 1
def nlmFAck : BitVec 16 := 4
def nlmFDump : BitVec 16 := 0x300

variable {σ μ : Type} (host : ByteOrder) (view : μ → Message)

inductive Opening where
  -- socket fails
  | refused
  -- fcntl, bind or getsockname fails; `now` is what time returned
  | failed (now : Nat)
  | opened (now : Nat) (sock : Int) (nlPid : BitVec 32) (socklen : Nat)

def netlinkSocket (nl : Netlink) : Opening → Int × Netlink
  | .refused => (-1, { nl with sock := -1 })
  | .failed now => (-1, { seqno := BitVec.ofNat 16 now, sock := -1, nlPid := 0, socklen := 12 })
  | .opened now sock nlPid socklen =>
    (0, { seqno := BitVec.ofNat 16 now, sock := sock, nlPid := nlPid, socklen := socklen })

structure Sendmsg where
  rc : Int
  errno : Int

structure Send where
  first : Sendmsg
  -- wait_for_fd and sendmsg again, for the case that the first would block
  wait : Int
  waitErrno : Int
  second : Sendmsg

def Send.outcome (s : Send) : Sendmsg :=
  if s.first.rc < 0 ∧ (s.first.errno = eagain ∨ s.first.errno = eintr) then
    -- a result of wait_for_fd that is not positive stays in rc
    if s.wait < 0 then ⟨s.wait, s.waitErrno⟩
    else if s.wait = 0 then ⟨s.wait, eagain⟩
    else s.second
  else s.first

def Short (rc : Int) (len : BitVec 32) : Prop :=
  -- the comparison converts rc to the unsigned type of nlmsg_len
  BitVec.ofInt 32 rc < len

instance (rc : Int) (len : BitVec 32) : Decidable (Short rc len) :=
  inferInstanceAs (Decidable (_ < _))

structure Exchange (μ : Type) where
  nl : Netlink
  rc : Option Int
  errno : Int
  -- the request as it went to sendmsg, if it did
  nh : Option Message
  -- what netlink_read did, if it was called
  trace : Option (List (Event μ))

def netlinkTalk (nl : Netlink) (nh : Message) (send : Send) (script : List (Attempt μ)) :
    Exchange μ :=
  -- the number is drawn before the request is sent, and a failed send does not give it back
  let nl := { nl with seqno := nl.seqno + 1 }
  let nh := { nh with hdr := { nh.hdr with
    flags := nh.hdr.flags ||| nlmFAck, seq := nl.seqno.setWidth 32 } }
  let sent := send.outcome
  if Short sent.rc nh.hdr.len then
    { nl := nl, rc := some (-1), errno := sent.errno, nh := some nh, trace := none }
  else
    let read := netlinkRead host view nl none true none script sent.errno ()
    { nl := read.nl, rc := read.rc, errno := read.reading.errno, nh := some nh,
      trace := some read.reading.trace }

structure SendDump where
  nl : Netlink
  rc : Int
  errno : Int
  nh : Option Message

def netlinkSendDump (nl : Netlink) (type : BitVec 16) (data : Option (List UInt8))
    (send : Sendmsg) : SendDump :=
  let refused := { nl := nl, rc := -1, errno := eio, nh := none }
  match data with
  | none => refused
  | some data =>
    if data.length = 0 then refused
    else
      let nl := { nl with seqno := nl.seqno + 1 }
      let hdr : Nlmsghdr :=
        { len := BitVec.ofNat 32 (16 + data.length)
          type := type
          flags := nlmFDump ||| nlmFRequest
          seq := nl.seqno.setWidth 32
          pid := 0 }
      if Short send.rc hdr.len then
        { nl := nl, rc := -1, errno := send.errno, nh := some ⟨hdr, data⟩ }
      else { nl := nl, rc := 0, errno := send.errno, nh := some ⟨hdr, data⟩ }

/-- One of the dumps of `kernel_dump`: the request and, unless that failed, its answer. -/
def dump (nl : Netlink) (type : BitVec 16) (data : Option (List UInt8)) (send : Sendmsg)
    (filter : Option (Filter σ)) (script : List (Attempt μ)) (closure : σ) : Exchange μ × σ :=
  let sent := netlinkSendDump nl type data send
  if sent.rc < 0 then
    ({ nl := sent.nl, rc := some (-1), errno := sent.errno, nh := sent.nh, trace := none },
      closure)
  else
    let read := netlinkRead host view sent.nl none true filter script sent.errno closure
    ({ nl := read.nl, rc := read.rc, errno := read.reading.errno, nh := sent.nh,
       trace := some read.reading.trace }, read.reading.closure)

structure Asked (nl : Netlink) (script : List (Attempt μ)) (x : Exchange μ) (nh : Message) :
    Prop where
  seq : nh.hdr.seq = (nl.seqno + 1).setWidth 32
  seqno : x.nl.seqno = nl.seqno + 1
  nlPid : x.nl.nlPid = nl.nlPid
  only : ∀ trace, x.trace = some trace →
    OnlyMatching view { nl with seqno := nl.seqno + 1 } (Delivered script) trace
  concluded : ∀ trace, x.trace = some trace → x.rc = some 0 →
    Concluded host view { nl with seqno := nl.seqno + 1 } (Delivered script) trace

theorem asked_unread {nl : Netlink} (script : List (Attempt μ)) {x : Exchange μ} {nh : Message}
    (seq : nh.hdr.seq = (nl.seqno + 1).setWidth 32)
    (advanced : x.nl = { nl with seqno := nl.seqno + 1 }) (unread : x.trace = none) :
    Asked host view nl script x nh := by
  refine ⟨seq, by rw [advanced], by rw [advanced], ?_, ?_⟩ <;> simp [unread]

theorem asked_read {nl : Netlink} {filter : Option (Filter σ)} {script : List (Attempt μ)}
    {errno : Int} {closure : σ} {x : Exchange μ} {nh : Message} {read : ReadResult σ μ}
    (seq : nh.hdr.seq = (nl.seqno + 1).setWidth 32)
    (called : read = netlinkRead host view { nl with seqno := nl.seqno + 1 } none true filter
      script errno closure)
    (result : x.nl = read.nl ∧ x.rc = read.rc ∧ x.trace = some read.reading.trace) :
    Asked host view nl script x nh := by
  obtain ⟨socket, rc, trace⟩ := result
  obtain ⟨only, concluded⟩ := netlinkRead_answer host view { nl with seqno := nl.seqno + 1 }
    filter script errno closure
  rw [← called] at only concluded
  have kept : read.nl.seqno = nl.seqno + 1 ∧ read.nl.nlPid = nl.nlPid := by
    rw [called, netlinkRead]
    rcases receive_nl host view { nl with seqno := nl.seqno + 1 } none true filter script _
      with same | closed
    · rw [same]
      exact ⟨rfl, rfl⟩
    · rw [closed]
      exact ⟨rfl, rfl⟩
  refine ⟨seq, socket ▸ kept.1, socket ▸ kept.2, ?_, ?_⟩
  · intro other same
    rw [trace, Option.some.injEq] at same
    exact same ▸ only
  · intro other same zero
    rw [trace, Option.some.injEq] at same
    exact same ▸ concluded (rc ▸ zero)

theorem netlinkTalk_asked (nl : Netlink) (nh : Message) (send : Send)
    (script : List (Attempt μ)) :
    ∃ asked, (netlinkTalk host view nl nh send script).nh = some asked ∧
      Asked host view nl script (netlinkTalk host view nl nh send script) asked := by
  simp only [netlinkTalk]
  split
  · exact ⟨_, rfl, asked_unread host view script rfl rfl rfl⟩
  · exact ⟨_, rfl, asked_read host view rfl rfl ⟨rfl, rfl, rfl⟩⟩

theorem dump_asked (nl : Netlink) (type : BitVec 16) (data : Option (List UInt8)) (send : Sendmsg)
    (filter : Option (Filter σ)) (script : List (Attempt μ)) (closure : σ) :
    let x := (dump host view nl type data send filter script closure).1
    (x.nl = nl ∧ x.nh = none ∧ x.trace = none) ∨
      ∃ asked, x.nh = some asked ∧ Asked host view nl script x asked := by
  simp only [dump, netlinkSendDump]
  cases data with
  | none => exact Or.inl ⟨rfl, rfl, rfl⟩
  | some data =>
    simp only
    by_cases empty : data.length = 0
    · simp only [empty, if_true]
      exact Or.inl ⟨rfl, rfl, rfl⟩
    · simp only [empty, if_false]
      split
      next => exact Or.inr ⟨_, rfl, asked_unread host view script rfl rfl rfl⟩
      next => exact Or.inr ⟨_, rfl, asked_read host view rfl rfl ⟨rfl, rfl, rfl⟩⟩

end Tabeld.KernelNetlink
