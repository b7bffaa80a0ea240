import Tabeld.KernelNetlink.Command

set_option autoImplicit false

namespace Tabeld.KernelNetlink

variable {σ μ : Type} (host : ByteOrder) (view : μ → Message)

def Sendmsg.Documented (send : Sendmsg) : Prop := -1 ≤ send.rc ∧ send.rc < 2 ^ 31

structure Send.Documented (send : Send) : Prop where
  first : send.first.Documented
  wait : -1 ≤ send.wait
  second : send.second.Documented

def Send.Blocked (send : Send) : Prop :=
  send.first.rc < 0 ∧ (send.first.errno = eagain ∨ send.first.errno = eintr)

instance decidableBlocked (send : Send) : Decidable send.Blocked :=
  inferInstanceAs (Decidable (_ ∧ _))

theorem outcome_of_blocked {send : Send} (blocked : send.Blocked) : send.outcome =
    if send.wait < 0 then ⟨send.wait, send.waitErrno⟩
    else if send.wait = 0 then ⟨send.wait, eagain⟩
    else send.second :=
  if_pos blocked

def Send.last (send : Send) : Sendmsg :=
  if send.Blocked ∧ 0 < send.wait then send.second else send.first

def Sendmsg.Complete (send : Sendmsg) (len : BitVec 32) : Prop := (len.toNat : Int) ≤ send.rc

theorem short_iff (rc : Int) (len : BitVec 32) (nonnegative : 0 ≤ rc) (int : rc < 2 ^ 31) :
    Short rc len ↔ rc < len.toNat := by
  have value : ((BitVec.ofInt 32 rc).toNat : Int) = rc := by
    rw [BitVec.toNat_ofInt]
    omega
  rw [Short, BitVec.lt_def]
  omega

theorem not_short_failed (len : BitVec 32) : ¬Short (-1) len := by
  have bound := len.isLt
  have largest : (BitVec.ofInt 32 (-1)).toNat = 2 ^ 32 - 1 := by decide
  rw [Short, BitVec.lt_def, largest]
  omega

theorem incomplete_of_failed {send : Sendmsg} (failed : send.rc < 0) (len : BitVec 32) :
    ¬send.Complete len := by
  rw [Sendmsg.Complete]
  omega

theorem noticed_iff {send : Sendmsg} (documented : send.Documented) (len : BitVec 32) :
    (¬send.Complete len → Short send.rc len) ↔ 0 ≤ send.rc := by
  constructor
  · intro noticed
    by_contra negative
    have failed : send.rc = -1 := by
      have least := documented.1
      omega
    have short := noticed (incomplete_of_failed (by omega) len)
    rw [failed] at short
    exact not_short_failed len short
  · intro sent incomplete
    rw [Sendmsg.Complete, Int.not_le] at incomplete
    exact (short_iff send.rc len sent documented.2).mpr incomplete

section Talk

variable (nl : Netlink) (nh : Message) (send : Send) (script : List (Attempt μ))

def TalkReports : Prop :=
  ¬send.last.Complete nh.hdr.len →
    (netlinkTalk host view nl nh send script).rc = some (-1) ∧
      (netlinkTalk host view nl nh send script).trace = none

/-- The result that is left in `rc` is no -1, and no timeout looks like a complete send. -/
structure Unfailing (send : Send) (len : BitVec 32) : Prop where
  first : ¬send.Blocked → 0 ≤ send.first.rc
  wait : send.Blocked → 0 ≤ send.wait
  timeout : send.Blocked → send.wait = 0 → len ≠ 0
  second : send.Blocked → 0 < send.wait → 0 ≤ send.second.rc

theorem talkReports_short : TalkReports host view nl nh send script ↔
    (¬send.last.Complete nh.hdr.len → Short send.outcome.rc nh.hdr.len) := by
  rw [TalkReports, netlinkTalk]
  by_cases short : Short send.outcome.rc nh.hdr.len <;> simp [short]

theorem talkReports_iff (documented : send.Documented) :
    TalkReports host view nl nh send script ↔ Unfailing send nh.hdr.len := by
  rw [talkReports_short]
  by_cases blocked : send.Blocked
  swap
  · have outcome : send.outcome = send.first := if_neg blocked
    have last : send.last = send.first := if_neg fun retried => blocked retried.1
    rw [outcome, last, noticed_iff documented.first]
    exact ⟨fun sent => ⟨fun _ => sent, by simp [blocked], by simp [blocked], by simp [blocked]⟩,
      fun unfailing => unfailing.first blocked⟩
  have incomplete := incomplete_of_failed blocked.1 nh.hdr.len
  rcases Int.lt_trichotomy send.wait 0 with negative | zero | positive
  · -- the result of wait_for_fd is taken for that of sendmsg
    have failed : send.wait = -1 := by
      have least := documented.wait
      omega
    have outcome : send.outcome.rc = -1 := by
      rw [outcome_of_blocked blocked, if_pos negative, failed]
    have last : send.last = send.first := if_neg fun retried => by omega
    rw [outcome, last]
    refine iff_of_false (fun noticed => not_short_failed _ (noticed incomplete)) ?_
    intro unfailing
    exact absurd (unfailing.wait blocked) (by omega)
  · have outcome : send.outcome.rc = 0 := by
      rw [outcome_of_blocked blocked, if_neg (by omega), if_pos zero, zero]
    have last : send.last = send.first := if_neg fun retried => by omega
    have empty : Short 0 nh.hdr.len ↔ nh.hdr.len ≠ 0 := by
      rw [short_iff 0 _ (by omega) (by omega), Ne, ← BitVec.toNat_inj]
      simp
      omega
    rw [outcome, last, imp_iff_right incomplete, empty]
    exact ⟨fun some => ⟨by simp [blocked], by omega, fun _ _ => some, by omega⟩,
      fun unfailing => unfailing.timeout blocked zero⟩
  · have outcome : send.outcome = send.second := by
      rw [outcome_of_blocked blocked, if_neg (by omega), if_neg (by omega)]
    have last : send.last = send.second := if_pos ⟨blocked, positive⟩
    rw [outcome, last, noticed_iff documented.second]
    exact ⟨fun sent => ⟨by simp [blocked], by omega, by omega, fun _ _ => sent⟩,
      fun unfailing => unfailing.second blocked positive⟩

end Talk

section Dump

variable (nl : Netlink) (type : BitVec 16) (data : Option (List UInt8)) (send : Sendmsg)

def DumpReports (filter : Option (Filter σ)) (script : List (Attempt μ)) (closure : σ) : Prop :=
  (¬∃ nh, (netlinkSendDump nl type data send).nh = some nh ∧ send.Complete nh.hdr.len) →
    (netlinkSendDump nl type data send).rc = -1 ∧
      (dump host view nl type data send filter script closure).1.trace = none

theorem dumpReports_iff (documented : send.Documented) (filter : Option (Filter σ))
    (script : List (Attempt μ)) (closure : σ) :
    DumpReports host view nl type data send filter script closure ↔
      ∀ bytes, data = some bytes → bytes ≠ [] → 0 ≤ send.rc := by
  cases data with
  | none => simp [DumpReports, dump, netlinkSendDump]
  | some bytes =>
    by_cases empty : bytes = []
    · simp [DumpReports, dump, netlinkSendDump, empty]
    · have settled := noticed_iff documented (BitVec.ofNat 32 (16 + bytes.length))
      by_cases short : Short send.rc (BitVec.ofNat 32 (16 + bytes.length))
      · simpa [DumpReports, dump, netlinkSendDump, empty, short] using settled
      · simpa [DumpReports, dump, netlinkSendDump, empty, short] using settled

end Dump

theorem sends_reported_iff (nl : Netlink) (nh : Message) (send : Send)
    (documented : send.Documented) (script : List (Attempt μ)) (type : BitVec 16)
    (data : Option (List UInt8)) (send' : Sendmsg) (documented' : send'.Documented)
    (filter : Option (Filter σ)) (closure : σ) :
    (TalkReports host view nl nh send script ↔ Unfailing send nh.hdr.len) ∧
      (DumpReports host view nl type data send' filter script closure ↔
        ∀ bytes, data = some bytes → bytes ≠ [] → 0 ≤ send'.rc) :=
  ⟨talkReports_iff host view nl nh send script documented,
    dumpReports_iff host view nl type data send' documented' filter script closure⟩

def refusedSend : Sendmsg := { rc := -1, errno := 111 }

def refusedOnce : Send :=
  { first := refusedSend, wait := -1, waitErrno := 0, second := refusedSend }

def routeRequest : Message where
  -- RTM_NEWROUTE with nothing but its fixed part
  hdr := { len := 28, type := 24, flags := nlmFRequest, seq := 0, pid := 0 }
  data := List.replicate 12 0

def talking : Netlink := { seqno := 0, sock := 4, nlPid := 0, socklen := 12 }

theorem refusedSend_documented : refusedSend.Documented := by
  unfold Sendmsg.Documented
  decide

theorem sends_reported_refused :
    (TalkReports .little id talking routeRequest refusedOnce [] ↔
        Unfailing refusedOnce routeRequest.hdr.len) ∧
      (DumpReports .little id talking 26 (some [0]) refusedSend none [] () ↔
        ∀ bytes : List UInt8, some [0] = some bytes → bytes ≠ [] → 0 ≤ refusedSend.rc) :=
  sends_reported_iff .little id talking routeRequest refusedOnce
    ⟨refusedSend_documented, by decide, refusedSend_documented⟩ [] 26 (some [0]) refusedSend
    refusedSend_documented none ()

theorem not_sends_reported_refused :
    ¬TalkReports .little id talking routeRequest refusedOnce [] ∧
      ¬DumpReports .little id talking 26 (some [0]) refusedSend none [] () := by
  constructor
  · rw [talkReports_iff .little id talking routeRequest refusedOnce []
      ⟨refusedSend_documented, by decide, refusedSend_documented⟩]
    intro unfailing
    exact absurd (unfailing.first (by decide)) (by decide)
  · rw [dumpReports_iff .little id talking 26 (some [0]) refusedSend refusedSend_documented]
    intro sent
    exact absurd (sent [0] rfl (by decide)) (by decide)

end Tabeld.KernelNetlink
