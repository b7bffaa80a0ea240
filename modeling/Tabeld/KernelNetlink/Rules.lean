import Tabeld.KernelNetlink.Import
import Tabeld.KernelNetlink.Modify
import Tabeld.Shared.Replacing

set_option autoImplicit false

/-!
# add_rule, flush_rule and change_rule

The kernel keeps its rules by priority. A request to delete says what it knows of the rule, and the
first rule that agrees with all of it goes.
-/

namespace Tabeld.KernelNetlink

open Attributes Kdump

def rtnUnspec : UInt8 := 0

variable (host : ByteOrder)

def flushRtm (family : Nat) : Rtmsg where
  family := UInt8.ofNat family
  dstLen := 0
  srcLen := 0
  tos := 0
  table := 0
  protocol := UInt8.ofNat rtprotBabel
  scope := rtScopeUniverse
  type := rtnUnspec
  flags := 0

def flushMessage (prio : BitVec 32) (family : Nat) : Option Message :=
  let mem := Memory.zeroed.write 16 ((flushRtm family).image host)
  let currentAttribute := 28
  let mem := putAt host mem currentAttribute fraPriority (host.store 4 prio.toNat)
  let len := currentAttribute + 8
  if 64 < len then none
  else
    some
      { hdr :=
          { len := BitVec.ofNat 32 len
            type := rtmDelrule
            flags := nlmFRequest
            seq := 0
            pid := 0 }
        data := mem.bytes 16 (len - 16) }

structure RuleRequest where
  family : UInt8
  action : UInt8
  table : BitVec 32
  srcLen : UInt8
  src : Option (List UInt8)
  priority : Option (BitVec 32)
  deriving DecidableEq

def ruleRequest (m : Message) : RuleRequest :=
  let mem := contents m
  let attrs := list host mem 12 (m.hdr.len.toInt - 16 - 12)
  { family := mem 0
    action := mem 7
    table :=
      match lastOf fraTable attrs with
      | some a => intAt host mem a.data
      | none => BitVec.ofNat 32 (mem 4).toNat
    srcLen := mem 2
    src := (lastOf fraSrc attrs).map fun a => mem.bytes a.data a.payload
    priority := (lastOf fraPriority attrs).map fun a => intAt host mem a.data }

theorem laid_rtm (rtm : Rtmsg) :
    Laid host (Memory.zeroed.write 16 (rtm.image host)) 28 []
      (Memory.zeroed.write 16 (rtm.image host)) := by
  apply laid_nil
  intro address low
  rw [Memory.write_other _ (by rw [Rtmsg.length_image]; omega)]
  rfl

theorem bytes_laid {rtm : Rtmsg} {attrs : List (Nat × List UInt8)} {mem : Memory}
    (laid : Laid host (Memory.zeroed.write 16 (rtm.image host)) 28 attrs mem) :
    mem.bytes 16 (12 + (images host attrs).length) = rtm.image host ++ images host attrs := by
  have header := (Memory.holds_write Memory.zeroed 16 (rtm.image host)).congr fun at_ low high =>
    (laid.before at_ (by rw [Rtmsg.length_image] at high; omega)).symm
  have contents := (Memory.holds_append _ 16 (rtm.image host) _).mpr
    ⟨header, by rw [Rtmsg.length_image]; exact laid.holds⟩
  rwa [Memory.Holds, List.length_append, Rtmsg.length_image] at contents

structure Consists (rtm : Rtmsg) (attrs : List (Nat × List UInt8)) (m : Message) : Prop where
  data : m.data = rtm.image host ++ images host attrs
  len : m.hdr.len.toNat = 16 + m.data.length
  small : m.data.length < 1000

theorem ruleRequest_of_consists {rtm : Rtmsg} {attrs : List (Nat × List UInt8)} {m : Message}
    (consists : Consists host rtm attrs m) (storable : ∀ a ∈ attrs, Storable a.1 a.2) :
    (contents m).Holds 12 (images host attrs) ∧
    ruleRequest host m =
      { family := rtm.family
        action := rtm.type
        table :=
          match lastOf fraTable (place 12 attrs) with
          | some a => intAt host (contents m) a.data
          | none => BitVec.ofNat 32 rtm.table.toNat
        srcLen := rtm.srcLen
        src := (lastOf fraSrc (place 12 attrs)).map fun a => (contents m).bytes a.data a.payload
        priority := (lastOf fraPriority (place 12 attrs)).map fun a =>
          intAt host (contents m) a.data } := by
  have holds := Memory.holds_ofBytes (rtm.image host ++ images host attrs) Memory.zeroed
  rw [Memory.holds_append, Rtmsg.length_image, ← consists.data] at holds
  obtain ⟨fixed, laid⟩ := holds
  refine ⟨laid, ?_⟩
  have size : m.hdr.len.toInt - 16 - 12 = (images host attrs).length := by
    have small := consists.small
    have len := consists.len
    have length : m.data.length = 12 + (images host attrs).length := by
      rw [consists.data, List.length_append, Rtmsg.length_image]
    rw [BitVec.toInt_eq_toNat_cond, if_pos] <;> omega
  simp only [Rtmsg.image, List.cons_append, List.nil_append, Memory.holds_cons,
    Nat.reduceAdd] at fixed
  obtain ⟨family, -, srcLen, -, table, -, -, action, -⟩ := fixed
  have listed := list_images host laid storable
  rw [← size] at listed
  simp only [ruleRequest, contents, listed, family, srcLen, table, action]

def addRequest (prio : BitVec 32) (srcPrefix : Addr6) (srcPlen table : BitVec 32) : RuleRequest :=
  let isV4 := decide (V4Mapped srcPrefix)
  { family := UInt8.ofNat (if isV4 then afInet else afInet6)
    action := rtnUnicast
    table := lowTable table
    srcLen := UInt8.ofInt (if isV4 then srcPlen.toInt - 96 else srcPlen.toInt)
    src := some (if isV4 then srcPrefix.b.drop 12 else srcPrefix.b)
    priority := some prio }

def flushRequest (prio : BitVec 32) (family : Nat) : RuleRequest where
  family := UInt8.ofNat family
  action := rtnUnspec
  table := 0
  srcLen := 0
  src := none
  priority := some prio

theorem flushMessage_consists (prio : BitVec 32) (family : Nat) :
    ∃ m, flushMessage host prio family = some m ∧
      Consists host (flushRtm family) [(fraPriority, host.store 4 prio.toNat)] m ∧
      m.hdr.len = 36 ∧ m.hdr.type = rtmDelrule := by
  have laid := (laid_rtm host (flushRtm family)).putAt host (show 28 = _ from rfl) fraPriority
    (host.store 4 prio.toNat)
  have bytes := bytes_laid host laid
  have size : (images host [(fraPriority, host.store 4 prio.toNat)]).length = 8 := by simp [align]
  rw [List.nil_append, size] at bytes
  refine ⟨_, rfl, ⟨bytes, ?_, ?_⟩, rfl, rfl⟩
  · exact show (36 : Nat) = 16 + (Memory.bytes _ 16 20).length by rw [Memory.length_bytes]
  · exact show (Memory.bytes _ 16 20).length < 1000 by rw [Memory.length_bytes]; decide

theorem ruleRequest_flushMessage {prio : BitVec 32} {family : Nat} {m : Message}
    (built : flushMessage host prio family = some m) :
    ruleRequest host m = flushRequest prio family := by
  obtain ⟨other, same, consists, -⟩ := flushMessage_consists host prio family
  rw [built, Option.some.injEq] at same
  subst same
  have storable := storable_int host fraPriority (by decide) prio.toNat
  obtain ⟨laid, request⟩ := ruleRequest_of_consists host consists (by simpa using storable)
  rw [images_cons, Memory.holds_append] at laid
  have priority := intAt_of_holds host (holds_payload host laid.1)
  rw [request]
  simp [place, lastOf, fraPriority, fraTable, fraSrc, flushRtm, flushRequest, Attribute.data,
    priority]

theorem ruleBuffer_consists (rtm : Rtmsg) (prio : BitVec 32) (address : List UInt8)
    (whole : address.length % 4 = 0) (fits : address.length ≤ 16) :
    ∃ m, ruleBuffer host rtm prio address = some m ∧
      Consists host rtm (ruleAttrs host prio address) m ∧
      m.hdr.len.toNat = 40 + address.length ∧ m.hdr.type = rtmNewrule := by
  have laid := ((laid_rtm host rtm).putAt host (show 28 = _ from rfl) fraPriority
    (host.store 4 prio.toNat)).putAt host (show 36 = _ by simp [align]) fraSrc address
  have bytes := bytes_laid host laid
  have unpadded : (4 + address.length + 3) / 4 * 4 = 4 + address.length := by omega
  have size : (images host (ruleAttrs host prio address)).length = 12 + address.length := by
    simp only [ruleAttrs, images_cons, images_nil, List.length_append, length_image, align,
      ByteOrder.length_store, unpadded, List.length_nil]
    omega
  have short : ¬64 < 36 + (4 + address.length) := by omega
  have total : 36 + (4 + address.length) - 16 = 24 + address.length := by omega
  rw [show 12 + (images host ([] ++ [(fraPriority, host.store 4 prio.toNat)] ++
    [(fraSrc, address)])).length = 24 + address.length by
      rw [show [] ++ [(fraPriority, host.store 4 prio.toNat)] ++ [(fraSrc, address)] =
        ruleAttrs host prio address from rfl, size]; omega] at bytes
  simp only [ruleBuffer, Nat.reduceAdd, short, if_false, total, Option.some.injEq, exists_eq_left']
  refine ⟨⟨bytes, ?_, ?_⟩, ?_, trivial⟩
  · rw [Memory.length_bytes, BitVec.toNat_ofNat]
    omega
  · rw [Memory.length_bytes]
    omega
  · rw [BitVec.toNat_ofNat]
    omega

theorem ruleMessage_consists (prio : BitVec 32) (srcPrefix : Addr6) (srcPlen table : BitVec 32)
    (inside : V4Mapped srcPrefix → 96 ≤ srcPlen.toInt) :
    ∃ m, ruleMessage host prio srcPrefix srcPlen table = some m ∧ m.hdr.type = rtmNewrule ∧
      m.hdr.len.toNat ≤ 56 ∧
      ruleRequest host m = addRequest prio srcPrefix srcPlen table := by
  have size := srcPrefix.size
  obtain ⟨address, address_, length⟩ : ∃ address, address =
      (if decide (V4Mapped srcPrefix) = true then srcPrefix.b.drop 12 else srcPrefix.b) ∧
      (address.length = 4 ∨ address.length = 16) := by
    refine ⟨_, rfl, ?_⟩
    split
    · exact Or.inl (by rw [List.length_drop]; omega)
    · exact Or.inr size
  have accepted : ¬(decide (V4Mapped srcPrefix) = true ∧
      (if decide (V4Mapped srcPrefix) = true then srcPlen.toInt - 96 else srcPlen.toInt) < 0) := by
    rintro ⟨mapped, negative⟩
    rw [if_pos mapped] at negative
    have bound := inside (by simpa using mapped)
    omega
  obtain ⟨m, built, consists, len, type⟩ := ruleBuffer_consists host
    (ruleRtm (decide (V4Mapped srcPrefix)) (UInt8.ofInt
      (if decide (V4Mapped srcPrefix) = true then srcPlen.toInt - 96 else srcPlen.toInt)) table)
    prio address (by omega) (by omega)
  refine ⟨m, ?_, type, by omega, ?_⟩
  · simp only [ruleMessage, ← address_, accepted, if_false]
    exact built
  have storable : ∀ a ∈ ruleAttrs host prio address, Storable a.1 a.2 := by
    simp only [ruleAttrs, List.mem_cons, List.not_mem_nil, or_false, forall_eq_or_imp, forall_eq,
      Storable, ByteOrder.length_store]
    exact ⟨by decide, by decide, by omega⟩
  obtain ⟨laid, request⟩ := ruleRequest_of_consists host consists storable
  simp only [ruleAttrs, images_cons, Memory.holds_append, length_image] at laid
  have priority := intAt_of_holds host (holds_payload host laid.1)
  have src := holds_payload host laid.2.1
  rw [Memory.Holds, ByteOrder.length_store] at src
  rw [request]
  simp [place, lastOf, ruleAttrs, fraPriority, fraTable, fraSrc, ruleRtm, addRequest,
    Attribute.data, Attribute.payload, priority, lowTable]
  exact src.trans (by simpa using address_)

theorem ruleMessage_refused (prio : BitVec 32) {srcPrefix : Addr6} {srcPlen : BitVec 32}
    (table : BitVec 32) (outside : V4Mapped srcPrefix ∧ srcPlen.toInt < 96) :
    ruleMessage host prio srcPrefix srcPlen table = none := by
  have mapped : decide (V4Mapped srcPrefix) = true := by simpa using outside.1
  simp only [ruleMessage, mapped, if_true, true_and]
  rw [if_pos (by omega)]

/-- What `add_rule` and `flush_rule` are asked for is what their messages say: both fit into the
buffer, and the only request that is not made is one for a v4-mapped source shorter than 96. -/
theorem ruleMessages_read (prio : BitVec 32) (srcPrefix : Addr6) (srcPlen table : BitVec 32)
    (family : Nat) :
    (match ruleMessage host prio srcPrefix srcPlen table with
      | none => V4Mapped srcPrefix ∧ srcPlen.toInt < 96
      | some m => m.hdr.type = rtmNewrule ∧ m.hdr.len.toNat ≤ 56 ∧
          ruleRequest host m = addRequest prio srcPrefix srcPlen table) ∧
      match flushMessage host prio family with
      | none => False
      | some m => m.hdr.type = rtmDelrule ∧ m.hdr.len.toNat = 36 ∧
          ruleRequest host m = flushRequest prio family := by
  constructor
  · by_cases outside : V4Mapped srcPrefix ∧ srcPlen.toInt < 96
    · simp only [ruleMessage_refused host prio table outside]
      exact outside
    · have inside (mapped : V4Mapped srcPrefix) : 96 ≤ srcPlen.toInt := by
        by_contra short
        exact outside ⟨mapped, by omega⟩
      obtain ⟨m, built, spec⟩ := ruleMessage_consists host prio srcPrefix srcPlen table inside
      simp only [built]
      exact spec
  · obtain ⟨m, built, -, len, type⟩ := flushMessage_consists host prio family
    have request := ruleRequest_flushMessage host built
    simp only [built]
    exact ⟨type, by rw [len]; rfl, request⟩

structure InstalledRule where
  family : UInt8
  action : UInt8
  table : BitVec 32
  srcLen : UInt8
  src : List UInt8
  priority : BitVec 32
  deriving DecidableEq

def RuleRequest.rule (q : RuleRequest) : InstalledRule where
  family := q.family
  action := q.action
  table := q.table
  srcLen := q.srcLen
  src := q.src.getD []
  priority := q.priority.getD 0

/-- What a request leaves out or unspecified is not compared. -/
structure RuleRequest.Selects (q : RuleRequest) (r : InstalledRule) : Prop where
  family : r.family = q.family
  action : q.action = rtnUnspec ∨ r.action = q.action
  table : q.table = 0 ∨ r.table = q.table
  src : q.srcLen = 0 ∨ r.srcLen = q.srcLen ∧ q.src = some r.src
  priority : q.priority = none ∨ q.priority = some r.priority

theorem RuleRequest.selects_iff (q : RuleRequest) (r : InstalledRule) : q.Selects r ↔
    r.family = q.family ∧ (q.action = rtnUnspec ∨ r.action = q.action) ∧
      (q.table = 0 ∨ r.table = q.table) ∧
      (q.srcLen = 0 ∨ r.srcLen = q.srcLen ∧ q.src = some r.src) ∧
      (q.priority = none ∨ q.priority = some r.priority) :=
  ⟨fun s => ⟨s.family, s.action, s.table, s.src, s.priority⟩,
    fun s => ⟨s.1, s.2.1, s.2.2.1, s.2.2.2.1, s.2.2.2.2⟩⟩

instance (q : RuleRequest) (r : InstalledRule) : Decidable (q.Selects r) :=
  decidable_of_iff _ (q.selects_iff r).symm

/-- A new rule comes after those of its family that have its priority already. -/
def Precedes (left right : InstalledRule) : Prop :=
  left.family = right.family ∧ left.priority < right.priority

instance : DecidableRel Precedes := fun _ _ => inferInstanceAs (Decidable (_ ∧ _))

def serveRule (m : Message) (rules : List InstalledRule) : List InstalledRule :=
  let q := ruleRequest host m
  if m.hdr.type = rtmNewrule then rules.orderedInsert Precedes q.rule
  else rules.eraseP fun r => decide (q.Selects r)

structure RuleSystem where
  nl : Netlink
  errno : Int
  rules : List InstalledRule
  -- the rules after each request so far
  seen : List (List InstalledRule)

def ruleTalk (d : Dealing) (nh : Message) (s : RuleSystem) : RuleSystem × Option Int :=
  let sent := stamped s.nl nh
  let x := netlinkTalk host id s.nl nh d.send (d.script sent)
  let rules := if d.Accepts sent then serveRule host sent s.rules else s.rules
  ({ nl := x.nl, errno := x.errno, rules := rules, seen := s.seen ++ [rules] }, x.rc)

def addRule (d : Dealing) (prio : BitVec 32) (srcPrefix : Addr6) (srcPlen table : BitVec 32)
    (s : RuleSystem) : RuleSystem × Option Int :=
  match ruleMessage host prio srcPrefix srcPlen table with
  | none => ({ s with errno := einval }, some (-1))
  | some nh => ruleTalk host d nh s

def flushRule (d : Dealing) (prio : BitVec 32) (family : Nat) (s : RuleSystem) :
    RuleSystem × Option Int :=
  match flushMessage host prio family with
  | none => ({ s with errno := einval }, some (-1))
  | some nh => ruleTalk host d nh s

structure RuleDealings where
  add : Dealing
  flush : Dealing

def changeRule (d : RuleDealings) (newPrio oldPrio : BitVec 32) (src : Addr6)
    (plen table : BitVec 32) (s : RuleSystem) : RuleSystem × Option Int :=
  match addRule host d.add newPrio src plen table s with
  | (s, none) => (s, none)
  | (s, some rc) =>
    if rc < 0 then (s, some rc)
    else flushRule host d.flush oldPrio (if V4Mapped src then afInet else afInet6) s

def withoutRoutes (s : RuleSystem) : System where
  nlSetup := true
  nl := s.nl
  errno := s.errno
  routes := ∅
  history := []

theorem ruleTalk_accepted {d : Dealing} (honest : d.Honest host) {nh : Message} {s : RuleSystem}
    (returned : (ruleTalk host d nh s).2 = some 0) : d.Accepts nh :=
  talk_accepted host honest (s := withoutRoutes s) returned

theorem ruleTalk_rc {d : Dealing} {nh : Message} {s : RuleSystem} {rc : Int}
    (returned : (ruleTalk host d nh s).2 = some rc) : rc = 0 ∨ rc = -1 :=
  talk_rc host (s := withoutRoutes s) returned

def addedRule (prio : BitVec 32) (srcPrefix : Addr6) (srcPlen table : BitVec 32) : InstalledRule :=
  (addRequest prio srcPrefix srcPlen table).rule

def IsFlushed (prio : BitVec 32) (family : Nat) (r : InstalledRule) : Prop :=
  r.family = UInt8.ofNat family ∧ r.priority = prio

instance (prio : BitVec 32) (family : Nat) (r : InstalledRule) :
    Decidable (IsFlushed prio family r) :=
  inferInstanceAs (Decidable (_ ∧ _))

theorem selects_flushRequest (prio : BitVec 32) (family : Nat) (r : InstalledRule) :
    (flushRequest prio family).Selects r ↔ IsFlushed prio family r := by
  simp [RuleRequest.selects_iff, flushRequest, IsFlushed, eq_comm (a := prio)]

/-- A call has left the kernel with `rules`, and the kernel had no others on the way. -/
def Leaves (s t : RuleSystem) (rules : List InstalledRule) : Prop :=
  t.rules = rules ∧ (t.seen = s.seen ++ [rules] ∨ rules = s.rules ∧ t.seen = s.seen)

def inserted (prio : BitVec 32) (srcPrefix : Addr6) (srcPlen table : BitVec 32)
    (rules : List InstalledRule) : List InstalledRule :=
  rules.orderedInsert Precedes (addedRule prio srcPrefix srcPlen table)

def flushed (prio : BitVec 32) (family : Nat) (rules : List InstalledRule) : List InstalledRule :=
  rules.eraseP fun r => decide (IsFlushed prio family r)

theorem ruleTalk_leaves {d : Dealing} (honest : d.Honest host) (nh : Message) (s : RuleSystem) :
    Leaves s (ruleTalk host d nh s).1 s.rules ∧ (ruleTalk host d nh s).2 ≠ some 0 ∨
      Leaves s (ruleTalk host d nh s).1 (serveRule host nh s.rules) := by
  by_cases accepts : d.Accepts nh
  · have same : d.Accepts (stamped s.nl nh) := accepts
    refine Or.inr ⟨?_, Or.inl ?_⟩ <;> simp only [ruleTalk, if_pos same] <;> rfl
  · have same : ¬d.Accepts (stamped s.nl nh) := accepts
    refine Or.inl ⟨⟨?_, Or.inl ?_⟩, fun zero => accepts (ruleTalk_accepted host honest zero)⟩ <;>
      simp only [ruleTalk, if_neg same]

theorem addRule_leaves {d : Dealing} (honest : d.Honest host) (prio : BitVec 32)
    (srcPrefix : Addr6) (srcPlen table : BitVec 32) (s : RuleSystem) :
    let out := addRule host d prio srcPrefix srcPlen table s
    Leaves s out.1 s.rules ∧ out.2 ≠ some 0 ∨
      Leaves s out.1 (inserted prio srcPrefix srcPlen table s.rules) := by
  by_cases outside : V4Mapped srcPrefix ∧ srcPlen.toInt < 96
  · simp only [addRule, ruleMessage_refused host prio table outside]
    exact Or.inl ⟨⟨rfl, Or.inr ⟨rfl, rfl⟩⟩, by simp⟩
  · have inside (mapped : V4Mapped srcPrefix) : 96 ≤ srcPlen.toInt := by
      by_contra short
      exact outside ⟨mapped, by omega⟩
    obtain ⟨m, built, type, -, request⟩ :=
      ruleMessage_consists host prio srcPrefix srcPlen table inside
    have served : serveRule host m s.rules = inserted prio srcPrefix srcPlen table s.rules := by
      simp only [serveRule, type, if_true, request]
      rfl
    simp only [addRule, built, ← served]
    exact ruleTalk_leaves host honest m s

theorem flushRule_leaves {d : Dealing} (honest : d.Honest host) (prio : BitVec 32) (family : Nat)
    (s : RuleSystem) :
    let out := flushRule host d prio family s
    Leaves s out.1 s.rules ∧ out.2 ≠ some 0 ∨ Leaves s out.1 (flushed prio family s.rules) := by
  obtain ⟨m, built, -, -, type⟩ := flushMessage_consists host prio family
  have request := ruleRequest_flushMessage host built
  have served : serveRule host m s.rules = flushed prio family s.rules := by
    simp only [serveRule, type, request, selects_flushRequest,
      show ¬rtmDelrule = rtmNewrule by decide, if_false]
    rfl
  simp only [flushRule, built, ← served]
  exact ruleTalk_leaves host honest m s

theorem rc_addRule {d : Dealing} {prio : BitVec 32} {srcPrefix : Addr6} {srcPlen table : BitVec 32}
    {s : RuleSystem} {rc : Int}
    (returned : (addRule host d prio srcPrefix srcPlen table s).2 = some rc) :
    rc = 0 ∨ rc = -1 := by
  unfold addRule at returned
  split at returned
  · exact Or.inr (by simpa using returned.symm)
  · exact ruleTalk_rc host returned

section Change

variable {d : RuleDealings} (newPrio oldPrio : BitVec 32) (src : Addr6) (plen table : BitVec 32)

/-- Some rule sends what comes from `src` to `table`, whatever its priority. -/
def Covered (rules : List InstalledRule) : Prop :=
  ∃ r ∈ rules, { r with priority := 0 } = addedRule 0 src plen table

theorem Leaves.refl (s : RuleSystem) : Leaves s s s.rules :=
  ⟨rfl, Or.inr ⟨rfl, rfl⟩⟩

theorem Leaves.seen_append {s t : RuleSystem} {rules : List InstalledRule}
    (leaves : Leaves s t rules) :
    ∃ new, t.seen = s.seen ++ new ∧ ∀ seen ∈ new ++ [t.rules], seen = rules := by
  rcases leaves with ⟨last, seen | ⟨-, same⟩⟩
  · exact ⟨[rules], seen, by simp [last]⟩
  · exact ⟨[], by rw [same, List.append_nil], by simp [last]⟩

theorem Leaves.throughout {s mid t : RuleSystem} {between last : List InstalledRule}
    (first : Leaves s mid between) (second : Leaves mid t last) {P : List InstalledRule → Prop}
    (during : P between) (after : P last) :
    ∃ new, t.seen = s.seen ++ new ∧ ∀ rules ∈ new ++ [t.rules], P rules := by
  obtain ⟨early, seenFirst, allFirst⟩ := first.seen_append
  obtain ⟨late, seenSecond, allSecond⟩ := second.seen_append
  refine ⟨early ++ late, by rw [seenSecond, seenFirst, List.append_assoc], ?_⟩
  intro rules member
  rw [List.append_assoc, List.mem_append] at member
  rcases member with member | member
  · exact allFirst rules (List.mem_append_left _ member) ▸ during
  · exact allSecond rules member ▸ after

theorem changeRule_stages (honest : d.add.Honest host ∧ d.flush.Honest host) (s : RuleSystem) :
    let out := changeRule host d newPrio oldPrio src plen table s
    let family := if V4Mapped src then afInet else afInet6
    let added := inserted newPrio src plen table s.rules
    Leaves s out.1 s.rules ∧ out.2 ≠ some 0 ∨
      ∃ mid, Leaves s mid added ∧ (Leaves mid out.1 added ∧ out.2 ≠ some 0 ∨
        Leaves mid out.1 (flushed oldPrio family added)) := by
  have first := addRule_leaves host honest.1 newPrio src plen table s
  simp only [changeRule]
  split
  next mid called =>
    simp only [called] at first
    rcases first with ⟨unchanged, -⟩ | added
    · exact Or.inl ⟨unchanged, by simp⟩
    · exact Or.inr ⟨mid, added, Or.inl ⟨added.1 ▸ Leaves.refl mid, by simp⟩⟩
  next mid rc called =>
    simp only [called] at first
    split
    next failed =>
      have nonzero : some rc ≠ some 0 := by
        rw [Ne, Option.some.injEq]
        omega
      rcases first with ⟨unchanged, -⟩ | added
      · exact Or.inl ⟨unchanged, nonzero⟩
      · exact Or.inr ⟨mid, added, Or.inl ⟨added.1 ▸ Leaves.refl mid, nonzero⟩⟩
    next succeeded =>
      have zero : rc = 0 := by
        have codes := rc_addRule host (congrArg Prod.snd called)
        omega
      rcases first with ⟨-, nonzero⟩ | added
      · exact absurd (by rw [zero]) nonzero
      · have second := flushRule_leaves host honest.2 oldPrio
          (if V4Mapped src then afInet else afInet6) mid
        rw [added.1] at second
        exact Or.inr ⟨mid, added, second⟩

def documentation : Addr6 := ⟨[0, 0, 0, 0, 0, 0, 0, 0, 0, 0, 0xFF, 0xFF, 192, 0, 2, 0], rfl⟩

def ruling (prio : BitVec 32) : RuleSystem where
  nl := { seqno := 6, sock := 4, nlPid := 1000, socklen := 12 }
  errno := 0
  rules := [addedRule prio documentation 120 10]
  seen := []

def answeredRules : RuleDealings where
  add := answering none
  flush := answering none

theorem honest_answeredRules :
    answeredRules.add.Honest .little ∧ answeredRules.flush.Honest .little :=
  ⟨honest_answering (by decide), honest_answering (by decide)⟩

/-- Only a rule of the old priority is lost, and it is one; a failed change has stopped after one
of the steps. The new rule itself is the one that is lost when it has the old priority and there is
no other. -/
theorem changeRule_done (honest : d.add.Honest host ∧ d.flush.Honest host) (s : RuleSystem) :
    let out := changeRule host d newPrio oldPrio src plen table s
    let new := addedRule newPrio src plen table
    let family := if V4Mapped src then afInet else afInet6
    let added := inserted newPrio src plen table s.rules
    let count := List.countP fun r => decide (IsFlushed oldPrio family r)
    out.1.rules ∈ [s.rules, added, flushed oldPrio family added] ∧
    (out.2 = some 0 →
      (∀ r, ¬IsFlushed oldPrio family r → (r ∈ out.1.rules ↔ r = new ∨ r ∈ s.rules)) ∧
      count out.1.rules = if newPrio = oldPrio then count s.rules else count s.rules - 1) := by
  intro out new family added count
  have stages := changeRule_stages host newPrio oldPrio src plen table honest s
  simp only at stages
  change Leaves s out.1 s.rules ∧ out.2 ≠ some 0 ∨ ∃ mid, Leaves s mid added ∧
    (Leaves mid out.1 added ∧ out.2 ≠ some 0 ∨
      Leaves mid out.1 (flushed oldPrio family added)) at stages
  have last (zero : out.2 = some 0) : out.1.rules = flushed oldPrio family added := by
    rcases stages with ⟨-, other⟩ | ⟨mid, -, ⟨-, other⟩ | deleted⟩
    · exact absurd zero other
    · exact absurd zero other
    · exact deleted.1
  constructor
  · simp only [List.mem_cons, List.not_mem_nil, or_false]
    rcases stages with ⟨unchanged, -⟩ | ⟨mid, -, ⟨same, -⟩ | deleted⟩
    · exact Or.inl unchanged.1
    · exact Or.inr (Or.inl same.1)
    · exact Or.inr (Or.inr deleted.1)
  · intro zero
    rw [last zero]
    refine ⟨fun r kept => Replacing.mem_replaced Precedes new (by simpa using kept), ?_⟩
    have selected : decide (IsFlushed oldPrio family new) = decide (newPrio = oldPrio) := by
      simp [new, addedRule, addRequest, RuleRequest.rule, IsFlushed, family]
    exact (Replacing.countP_replaced Precedes _ new s.rules).trans (by simp [selected, count])

theorem changeRule_done_documentation :
    let out := changeRule .little answeredRules 200 100 documentation 120 10 (ruling 100)
    let new := addedRule 200 documentation 120 10
    let family := if V4Mapped documentation then afInet else afInet6
    let added := inserted 200 documentation 120 10 (ruling 100).rules
    let count := List.countP fun r => decide (IsFlushed 100 family r)
    out.1.rules ∈ [(ruling 100).rules, added, flushed 100 family added] ∧
    (out.2 = some 0 →
      (∀ r, ¬IsFlushed 100 family r → (r ∈ out.1.rules ↔ r = new ∨ r ∈ (ruling 100).rules)) ∧
      count out.1.rules =
        if (200 : BitVec 32) = 100 then count (ruling 100).rules
        else count (ruling 100).rules - 1) :=
  changeRule_done .little 200 100 documentation 120 10 honest_answeredRules (ruling 100)

example : (changeRule .little answeredRules 200 100 documentation 120 10 (ruling 100)).1.seen =
    [[addedRule 100 documentation 120 10, addedRule 200 documentation 120 10],
      [addedRule 200 documentation 120 10]] := by
  decide +kernel

end Change

end Tabeld.KernelNetlink
