import Tabeld.KernelNetlink.Values

set_option autoImplicit false

namespace Tabeld.KernelNetlink

open Attributes Decoder Kdump

variable {ρ κ : Type} (host : ByteOrder) (debug : Nat) (importTables : List (BitVec 32))

def SameCall {R : Type} (left right : Int × R) : Prop :=
  left.1 = right.1 ∧ (0 < left.1 → left.2 = right.2)

def Fills {R : Type} (decode : R → Decoder ρ (Int × R)) (mem : Memory) : Prop :=
  ∀ old other, ∃ left right, (decode old).value mem = .ok left ∧
    (decode other).value mem = .ok right ∧ SameCall left right

theorem fills_filterKernelRoutes (nh : Nlmsghdr) (mem : Memory) :
    Fills (filterKernelRoutes host debug importTables nh : KernelRoute → Decoder ρ _) mem := by
  intro old other
  have ignored : SameCall ((0, old) : Int × KernelRoute) (0, other) :=
    ⟨rfl, fun called => absurd called (Int.lt_irrefl 0)⟩
  unfold filterKernelRoutes
  simp only [value_ite, value_bind, value_word, ok_bind, value_pure]
  split
  next => exact ⟨_, _, rfl, rfl, ignored⟩
  next =>
    split
    next => exact ⟨_, _, rfl, rfl, ignored⟩
    next =>
      split
      next => exact ⟨_, _, rfl, rfl, ignored⟩
      next =>
        -- the record is cleared from here on
        simp only [parseKernelRouteRta, value_call, ok_bind]
        split
        next => exact ⟨_, _, rfl, rfl, rfl, fun _ => rfl⟩
        next =>
          split
          next => exact ⟨_, _, rfl, rfl, rfl, fun _ => rfl⟩
          next =>
            rw [value_debugging]
            · exact ⟨_, _, rfl, rfl, rfl, fun _ => rfl⟩
            · rfl

theorem fills_filterLink (nh : Nlmsghdr) (mem : Memory) :
    Fills (filterLink host debug nh : KernelLink → Decoder ρ _) mem := by
  intro old other
  have ignored : SameCall ((0, old) : Int × KernelLink) (0, other) :=
    ⟨rfl, fun called => absurd called (Int.lt_irrefl 0)⟩
  obtain ⟨ifname, parsed⟩ := completes_parseIfnameRta (ρ := ρ) host 0 (nh.len.toInt - 16) mem
  unfold filterLink
  simp only [value_ite, value_bind, value_int, ok_bind, value_pure, parsed]
  split
  next => exact ⟨_, _, rfl, rfl, ignored⟩
  next =>
    cases ifname with
    | none => exact ⟨_, _, rfl, rfl, rfl, fun _ => rfl⟩
    | some name =>
      simp only [value_bind]
      rw [value_debugging]
      · exact ⟨_, _, rfl, rfl, rfl, fun _ => rfl⟩
      · rfl

/-- Only a priority that no attribute has set may differ. -/
structure Alike (s t : RuleParse) : Prop where
  rest : { s.rule with priority := 0 } = { t.rule with priority := 0 }
  hasPriority : s.hasPriority = t.hasPriority
  hasTable : s.hasTable = t.hasTable
  priority : s.hasPriority = true → s.rule.priority = t.rule.priority

theorem alike_ruleStep (mem : Memory) (isV4 : Bool) (a : Attribute) {s t : RuleParse}
    (alike : Alike s t) : Alike (ruleStep host mem 0 isV4 a s) (ruleStep host mem 0 isV4 a t) := by
  obtain ⟨⟨p, src, srcPlen, table⟩, hasPriority, hasTable⟩ := s
  obtain ⟨⟨q, src', srcPlen', table'⟩, hasPriority', hasTable'⟩ := t
  obtain ⟨rest, samePriority, sameTable, priority⟩ := alike
  simp only [KernelRule.mk.injEq, true_and] at rest samePriority sameTable priority
  obtain ⟨rfl, rfl, rfl⟩ := rest
  subst samePriority sameTable
  unfold ruleStep
  split
  next => exact ⟨rfl, rfl, rfl, priority⟩
  next =>
    split
    next => exact ⟨rfl, rfl, rfl, priority⟩
    next =>
      split
      next => exact ⟨rfl, rfl, rfl, fun _ => rfl⟩
      next => split <;> exact ⟨rfl, rfl, rfl, priority⟩

theorem alike_ruleRta (mem : Memory) (isV4 : Bool) (a : Attribute) {s t : RuleParse}
    (alike : Alike s t) :
    Related (fun left right => left.1 = -1 ∧ right.1 = -1) Alike
      ((ruleRta host 0 isV4 a s).value mem) ((ruleRta host 0 isV4 a t).value mem) := by
  by_cases cut : a.type = fraSrc ∧ Truncated isV4 a
  · obtain ⟨src, truncated⟩ := cut
    simp [ruleRta, src, value_copyAddr, truncated, fraUnspec, fraSrc, Related]
  · have whole : a.type = fraSrc → ¬Truncated isV4 a := fun src truncated => cut ⟨src, truncated⟩
    rw [value_ruleRta host mem 0 isV4 a s whole, value_ruleRta host mem 0 isV4 a t whole]
    exact alike_ruleStep host mem isV4 a alike

def ruleLoop (nh : Nlmsghdr) (rule : KernelRule) (mem : Memory) :
    Except (Int × KernelRule) RuleParse :=
  (list host mem 12 (nh.len.toInt - 16 - 12)).foldlM
    (fun s a => (ruleRta host 0 (familyIsV4 mem 0) a s).value mem) (ruleStart mem rule)

theorem value_filterKernelRules_loop (nh : Nlmsghdr) (rule : KernelRule) (mem : Memory) :
    (filterKernelRules host nh rule : Decoder ρ _).value mem =
      .ok (if KnownFamily (mem 0).toNat then
          match ruleLoop host nh rule mem with
          | .ok s => (if s.hasPriority && s.hasTable then 1 else 0, s.rule)
          | .error early => early
        else (-1, (ruleStart mem rule).rule)) := by
  have family : decide ((mem 0).toNat = afInet) = familyIsV4 mem 0 := rfl
  have unknown : ((mem 0).toNat ≠ afInet ∧ (mem 0).toNat ≠ afInet6) ↔
      ¬KnownFamily (mem 0).toNat := by
    rw [KnownFamily, not_or]
  simp only [filterKernelRules, value_call, result, value_bind, value_word, ok_bind, value_ite,
    value_pure, Memory.word_one, Nat.zero_add, family, value_each, unknown]
  rw [show (RuleParse.mk _ false false : RuleParse) = ruleStart mem rule from rfl]
  by_cases known : KnownFamily (mem 0).toNat
  · simp only [known, not_true_eq_false, if_false, if_true]
    rw [← ruleLoop]
    cases ruleLoop host nh rule mem with
    | error early => rfl
    | ok s =>
      obtain ⟨rule, hasPriority, hasTable⟩ := s
      cases hasPriority <;> cases hasTable <;> rfl
  · simp [known, ruleStart]

theorem fills_filterKernelRules (nh : Nlmsghdr) (mem : Memory) :
    Fills (filterKernelRules host nh : KernelRule → Decoder ρ _) mem := by
  intro old other
  refine ⟨_, _, value_filterKernelRules_loop host nh old mem,
    value_filterKernelRules_loop host nh other mem, ?_⟩
  have start : Alike (ruleStart mem old) (ruleStart mem other) :=
    ⟨rfl, rfl, rfl, fun set => absurd set Bool.false_ne_true⟩
  have loop : Related (fun left right => left.1 = -1 ∧ right.1 = -1) Alike
      (ruleLoop host nh old mem) (ruleLoop host nh other mem) :=
    related_foldlM _ (fun a _ s t alike => alike_ruleRta host mem (familyIsV4 mem 0) a alike) start
  by_cases known : KnownFamily (mem 0).toNat
  swap
  · simp [known, SameCall]
  simp only [known, if_true]
  generalize ruleLoop host nh old mem = left at loop
  generalize ruleLoop host nh other mem = right at loop
  cases left with
  | error early =>
    cases right with
    | error => exact ⟨loop.1.trans loop.2.symm, fun called => by simp [loop.1] at called⟩
    | ok => cases loop
  | ok s =>
    cases right with
    | error => cases loop
    | ok t =>
      have rest := loop.rest
      simp only [KernelRule.mk.injEq, true_and] at rest
      refine ⟨by simp only [loop.hasPriority, loop.hasTable], ?_⟩
      intro called
      have set : s.hasPriority = true := by
        by_contra unset
        simp [unset] at called
      exact KernelRule.ext (loop.priority set) rest.1 rest.2.1 rest.2.2

/-- The attribute that an address is taken from: the first IFA_LOCAL, else the last IFA_ADDRESS. -/
def addressAttribute (attrs : List Attribute) : Option Attribute :=
  match attrs.find? fun a => a.type = ifaLocal with
  | some a => some a
  | none => (attrs.filter fun a => a.type = ifaAddress).getLast?

theorem addressAttribute_other {a : Attribute} (other : ¬IsIfAddress a.type)
    (rest : List Attribute) : addressAttribute (a :: rest) = addressAttribute rest := by
  rw [IsIfAddress, not_or] at other
  simp [addressAttribute, other.1, other.2]

theorem addressAttribute_local {a : Attribute} (isLocal : a.type = ifaLocal)
    (rest : List Attribute) : addressAttribute (a :: rest) = some a := by
  simp [addressAttribute, isLocal]

theorem addressAttribute_address {a : Attribute} (peer : a.type = ifaAddress)
    (rest : List Attribute) :
    addressAttribute (a :: rest) = some ((addressAttribute rest).getD a) := by
  have notLocal : ¬a.type = ifaLocal := by rw [peer]; decide
  have skipped : (a :: rest).find? (fun b => b.type = ifaLocal) =
      rest.find? fun b => b.type = ifaLocal :=
    List.find?_cons_of_neg (by simp [notLocal])
  simp only [addressAttribute, skipped, List.filter_cons, peer, decide_true, if_true,
    List.getLast?_cons]
  cases rest.find? fun b => decide (b.type = ifaLocal) <;> rfl

theorem addressAttribute_spec (attrs : List Attribute) :
    (∀ a, addressAttribute attrs = some a → a ∈ attrs ∧ IsIfAddress a.type) ∧
      (addressAttribute attrs = none → ∀ a ∈ attrs, ¬IsIfAddress a.type) := by
  induction attrs with
  | nil => exact ⟨by simp [addressAttribute], by simp⟩
  | cons a rest ih =>
    by_cases address : IsIfAddress a.type
    · have found : ∃ b, addressAttribute (a :: rest) = some b ∧
          (b = a ∨ addressAttribute rest = some b) := by
        rcases address with isLocal | peer
        · exact ⟨a, addressAttribute_local isLocal rest, Or.inl rfl⟩
        · refine ⟨_, addressAttribute_address peer rest, ?_⟩
          cases addressAttribute rest <;> simp
      obtain ⟨b, same, origin⟩ := found
      rw [same]
      refine ⟨?_, by simp⟩
      rintro _ ⟨rfl⟩
      rcases origin with rfl | later
      · exact ⟨by simp, address⟩
      · exact ⟨List.mem_cons_of_mem a (ih.1 b later).1, (ih.1 b later).2⟩
    · rw [addressAttribute_other address]
      refine ⟨fun b found => ⟨List.mem_cons_of_mem a (ih.1 b found).1, (ih.1 b found).2⟩, ?_⟩
      intro none b member
      rcases List.mem_cons.mp member with rfl | later
      · exact address
      · exact ih.2 none b later

theorem value_parseAddrRta (mem : Memory) (len : Int) (res : Addr6) :
    (parseAddrRta host 0 len res : Decoder ρ _).value mem =
      .ok (match addressAttribute (list host mem 8 (len - 8)) with
        | none => (0, res)
        | some a =>
          if KnownFamily (mem 0).toNat then (0, addressAt (familyIsV4 mem 0) mem a.data)
          else (-1, res)) := by
  simp only [parseAddrRta, value_call, result, value_bind, value_each, Nat.zero_add, value_pure]
  generalize list host mem 8 (len - 8) = attrs
  induction attrs generalizing res with
  | nil => rfl
  | cons a rest ih =>
    rw [List.foldlM_cons, value_addrRta]
    by_cases address : IsIfAddress a.type
    swap
    · rw [addressAttribute_other address, if_pos address]
      exact ih res
    rw [if_neg (not_not_intro address)]
    by_cases known : KnownFamily (mem 0).toNat
    swap
    · obtain ⟨b, found⟩ : ∃ b, addressAttribute (a :: rest) = some b := by
        rcases address with isLocal | peer
        · exact ⟨_, addressAttribute_local isLocal rest⟩
        · exact ⟨_, addressAttribute_address peer rest⟩
      simp only [found, if_pos known, if_neg known, error_bind]
    rw [if_neg (not_not_intro known)]
    simp only [if_pos known] at ih ⊢
    by_cases isLocal : a.type = ifaLocal
    · rw [addressAttribute_local isLocal, if_pos (Or.inr isLocal)]
      rfl
    · -- the loop goes on with this address in the place of the old one
      rw [addressAttribute_address (address.resolve_left isLocal), if_neg (by simp [isLocal])]
      have later := ih (addressAt (familyIsV4 mem 0) mem a.data)
      simp only [ok_bind] at later ⊢
      rw [later]
      cases addressAttribute rest <;> rfl

theorem value_filterAddresses {nh : Nlmsghdr} (type : nh.type = rtmNewaddr ∨ nh.type = rtmDeladdr)
    (addr : KernelAddr) (mem : Memory) :
    (filterAddresses host nh addr : Decoder ρ _).value mem =
      .ok (match addressAttribute (list host mem 8 (nh.len.toInt - 16 - 8)) with
        | none => (1, { addr with ifindex := intAt host mem 4 })
        | some a =>
          if KnownFamily (mem 0).toNat then
            (1, { addr := addressAt (familyIsV4 mem 0) mem a.data, ifindex := intAt host mem 4 })
          else (0, addr)) := by
  have typed : ¬(nh.type ≠ rtmNewaddr ∧ nh.type ≠ rtmDeladdr) := by
    rwa [← Decidable.or_iff_not_not_and_not]
  simp only [filterAddresses, typed, if_false, value_bind, value_parseAddrRta, ok_bind, value_ite,
    value_pure, value_int, Nat.zero_add]
  cases addressAttribute (list host mem 8 (nh.len.toInt - 16 - 8)) with
  | none => rfl
  | some a => by_cases known : KnownFamily (mem 0).toNat <;> simp [known, intAt]

def handedOver (u : Scratch) (filter : KernelFilter κ) (nh : Nlmsghdr) (closure : κ)
    (mem : Memory) : Option Record :=
  ((filterNetlink host debug importTables u filter nh closure : Decoder (Verdict κ) _).result
    mem).record

theorem same_filterWith {R : Type} (callback : Option (R → κ → κ × Int))
    {decode : R → Decoder (Verdict κ) (Int × R)} {mem : Memory} (fills : Fills decode mem)
    (wrap : R → Record) (old other : R) (closure : κ) :
    ((filterWith callback (decode old) wrap closure).result mem).record =
      ((filterWith callback (decode other) wrap closure).result mem).record := by
  obtain ⟨left, right, reached, also, rc, record⟩ := fills old other
  cases callback with
  | none => rfl
  | some call =>
    rw [result_of_value (value_filterWith call wrap closure reached),
      result_of_value (value_filterWith call wrap closure also), ← rc]
    split
    next => rfl
    next called => simp only [record (by omega)]

def IsAddr (type : BitVec 16) : Prop := type = rtmNewaddr ∨ type = rtmDeladdr

instance (type : BitVec 16) : Decidable (IsAddr type) := inferInstanceAs (Decidable (_ ∨ _))

theorem handedOver_other {nh : Nlmsghdr} (other : ¬IsAddr nh.type) (filter : KernelFilter κ)
    (closure : κ) (mem : Memory) (u v : Scratch) :
    handedOver host debug importTables u filter nh closure mem =
      handedOver host debug importTables v filter nh closure mem := by
  have type : ¬(nh.type = rtmNewaddr ∨ nh.type = rtmDeladdr) := other
  unfold handedOver filterNetlink
  split
  next =>
    exact same_filterWith filter.route (fills_filterKernelRoutes host debug importTables nh mem)
      .route u.route v.route closure
  next =>
    split
    next =>
      exact same_filterWith filter.link (fills_filterLink host debug nh mem) .link u.link v.link
        closure
    next =>
      split
      next =>
        exact same_filterWith filter.rule (fills_filterKernelRules host nh mem) .rule u.rule v.rule
          closure
      next => rfl

theorem handedOver_addr {nh : Nlmsghdr} (type : IsAddr nh.type) (filter : KernelFilter κ)
    (closure : κ) (mem : Memory) (u : Scratch) :
    handedOver host debug importTables u filter nh closure mem =
      if filter.addr.isSome then
        match addressAttribute (list host mem 8 (nh.len.toInt - 16 - 8)) with
        | none => some (.addr { u.addr with ifindex := intAt host mem 4 })
        | some a =>
          if KnownFamily (mem 0).toNat then
            some (.addr
              { addr := addressAt (familyIsV4 mem 0) mem a.data, ifindex := intAt host mem 4 })
          else none
      else none := by
  have earlier : ¬(nh.type = rtmNewroute ∨ nh.type = rtmDelroute) ∧
      ¬(nh.type = rtmNewlink ∨ nh.type = rtmDellink) := by
    rcases type with same | same <;> rw [same] <;> decide
  have here : nh.type = rtmNewaddr ∨ nh.type = rtmDeladdr := type
  rw [handedOver, filterNetlink, if_neg earlier.1, if_neg earlier.2, if_pos here]
  cases filter.addr with
  | none => rfl
  | some call =>
    rw [result_of_value (value_filterWith call .addr closure
      (value_filterAddresses host here u.addr mem))]
    simp only [Option.isSome_some, if_true]
    cases addressAttribute (list host mem 8 (nh.len.toInt - 16 - 8)) with
    | none => rfl
    | some a => by_cases known : KnownFamily (mem 0).toNat <;> simp [known]

def MessageAlone (filter : KernelFilter κ) (nh : Nlmsghdr) (closure : κ) (mem : Memory) : Prop :=
  ∀ u v, handedOver host debug importTables u filter nh closure mem =
    handedOver host debug importTables v filter nh closure mem

/-- The address that a callback gets is in the payload of the attribute that it is taken from. -/
def AddressSupplied (filter : KernelFilter κ) (nh : Nlmsghdr) (closure : κ) (mem : Memory) : Prop :=
  ∀ u addr, handedOver host debug importTables u filter nh closure mem = some (.addr addr) →
    ∃ a, addressAttribute (list host mem 8 (nh.len.toInt - 16 - 8)) = some a ∧
      ¬Truncated (familyIsV4 mem 0) a ∧ addr.addr = addressAt (familyIsV4 mem 0) mem a.data

def MentionsAddress (filter : KernelFilter κ) (nh : Nlmsghdr) (mem : Memory) : Prop :=
  IsAddr nh.type → filter.addr.isSome →
    ∃ a ∈ list host mem 8 (nh.len.toInt - 16 - 8), IsIfAddress a.type

/-- There is an attribute to take an address from, and it is long enough for the family. -/
def NamesAddress (filter : KernelFilter κ) (nh : Nlmsghdr) (mem : Memory) : Prop :=
  IsAddr nh.type → filter.addr.isSome →
    ∃ a, addressAttribute (list host mem 8 (nh.len.toInt - 16 - 8)) = some a ∧
      (KnownFamily (mem 0).toNat → ¬Truncated (familyIsV4 mem 0) a)

theorem handedOver_ne_addr {nh : Nlmsghdr} (other : ¬IsAddr nh.type) (filter : KernelFilter κ)
    (closure : κ) (mem : Memory) (u : Scratch) (addr : KernelAddr) :
    handedOver host debug importTables u filter nh closure mem ≠ some (.addr addr) := by
  intro called
  have type : ¬(nh.type = rtmNewaddr ∨ nh.type = rtmDeladdr) := other
  unfold handedOver filterNetlink at called
  split at called
  next =>
    obtain ⟨r, same⟩ := record_filterWith
      (completes_filterKernelRoutes host debug importTables nh u.route mem) called
    cases same
  next =>
    split at called
    next =>
      obtain ⟨r, same⟩ := record_filterWith (completes_filterLink host debug nh u.link mem) called
      cases same
    next =>
      split at called
      next =>
        obtain ⟨r, same⟩ :=
          record_filterWith (completes_filterKernelRules host nh u.rule mem) called
        cases same
      next => cases called

theorem addressAttribute_isSome (attrs : List Attribute) :
    (∃ a, addressAttribute attrs = some a) ↔ ∃ a ∈ attrs, IsIfAddress a.type := by
  obtain ⟨supplied, none⟩ := addressAttribute_spec attrs
  cases found : addressAttribute attrs with
  | none =>
    refine iff_of_false (by simp) ?_
    rintro ⟨a, member, address⟩
    exact none found a member address
  | some a => exact iff_of_true ⟨a, rfl⟩ ⟨a, supplied a found⟩

theorem messageAlone_iff_mentionsAddress (filter : KernelFilter κ) (nh : Nlmsghdr) (closure : κ)
    (mem : Memory) :
    MessageAlone host debug importTables filter nh closure mem ↔
      MentionsAddress host filter nh mem := by
  by_cases type : IsAddr nh.type
  swap
  · exact iff_of_true (handedOver_other host debug importTables type filter closure mem)
      fun about => absurd about type
  by_cases present : filter.addr.isSome = true
  swap
  · refine iff_of_true ?_ fun _ callback => absurd callback present
    simp [MessageAlone, handedOver_addr host debug importTables type, present]
  simp only [MentionsAddress, type, present, forall_const, ← addressAttribute_isSome]
  cases found : addressAttribute (list host mem 8 (nh.len.toInt - 16 - 8)) with
  | none =>
    refine iff_of_false ?_ (by simp)
    intro alone
    -- the old address shows
    have same := alone .cleared
      { Scratch.cleared with addr := { addr := v4prefix, ifindex := 0 } }
    rw [handedOver_addr host debug importTables type,
      handedOver_addr host debug importTables type] at same
    simp only [present, found, if_true, Scratch.cleared, Option.some.injEq, Record.addr.injEq,
      KernelAddr.mk.injEq, and_true] at same
    exact absurd same (by decide)
  | some a =>
    refine iff_of_true ?_ ⟨a, rfl⟩
    simp [MessageAlone, handedOver_addr host debug importTables type, found]

theorem addressSupplied_iff {filter : KernelFilter κ} {nh : Nlmsghdr} (type : IsAddr nh.type)
    (present : filter.addr.isSome = true) {mem : Memory} {a : Attribute}
    (taken : addressAttribute (list host mem 8 (nh.len.toInt - 16 - 8)) = some a) (closure : κ) :
    AddressSupplied host debug importTables filter nh closure mem ↔
      (KnownFamily (mem 0).toNat → ¬Truncated (familyIsV4 mem 0) a) := by
  simp only [AddressSupplied, handedOver_addr host debug importTables type, present, taken, if_true]
  by_cases known : KnownFamily (mem 0).toNat
  · have any (p : Prop) : (∀ _ : Scratch, p) ↔ p := ⟨fun all => all .cleared, fun p _ => p⟩
    simp [known, any]
  · simp [known]

theorem messageAlone_iff (filter : KernelFilter κ) (nh : Nlmsghdr) (closure : κ) (mem : Memory) :
    MessageAlone host debug importTables filter nh closure mem ∧
        AddressSupplied host debug importTables filter nh closure mem ↔
      NamesAddress host filter nh mem := by
  rw [messageAlone_iff_mentionsAddress]
  by_cases about : IsAddr nh.type ∧ filter.addr.isSome = true
  swap
  · refine iff_of_true ⟨fun type present => absurd ⟨type, present⟩ about, ?_⟩
      fun type present => absurd ⟨type, present⟩ about
    intro u addr called
    by_cases type : IsAddr nh.type
    · rw [handedOver_addr host debug importTables type,
        if_neg fun present => about ⟨type, present⟩] at called
      cases called
    · exact absurd called
        (handedOver_ne_addr host debug importTables type filter closure mem u addr)
  obtain ⟨type, present⟩ := about
  simp only [MentionsAddress, NamesAddress, type, present, forall_const]
  rw [← addressAttribute_isSome]
  cases taken : addressAttribute (list host mem 8 (nh.len.toInt - 16 - 8)) with
  | none => simp
  | some a =>
    rw [addressSupplied_iff host debug importTables type present taken closure]
    simp

def addressesOnly : KernelFilter Unit where
  route := none
  addr := some fun _ closure => (closure, 0)
  link := none
  rule := none

theorem not_messageAlone_bareAddress :
    ¬MessageAlone .little 0 [] addressesOnly
      { len := 24, type := rtmNewaddr, flags := 0, seq := 0, pid := 0 } ()
      (Memory.ofBytes [10, 64, 0, 253, 2, 0, 0, 0] Memory.zeroed) := by
  intro alone
  have same := alone .cleared { Scratch.cleared with addr := { addr := v4prefix, ifindex := 0 } }
  revert same
  decide

-- an IFA_ADDRESS without a payload: the 16 bytes behind the message
theorem not_addressSupplied_emptyAddress :
    ¬AddressSupplied .little 0 [] addressesOnly
      { len := 28, type := rtmNewaddr, flags := 0, seq := 0, pid := 0 } ()
      (Memory.ofBytes [10, 64, 0, 253, 2, 0, 0, 0, 4, 0, 1, 0] Memory.zeroed) := by
  intro supplied
  obtain ⟨a, taken, whole, -⟩ := supplied .cleared { addr := .zero, ifindex := 2 } (by decide)
  cases taken
  exact whole (by decide)

end Tabeld.KernelNetlink
