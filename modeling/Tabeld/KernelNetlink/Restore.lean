import Tabeld.KernelNetlink.Settings

set_option autoImplicit false

namespace Tabeld.KernelNetlink

structure SettingsTaken (settings : List SysctlSetting) (was sysctls : String → Int)
    (out : (String → Int) × (String → Int) × Int) : Prop where
  saved : ∀ s ∈ settings, out.1 s.name = sysctls s.name
  nonneg : ∀ s ∈ settings, 0 ≤ sysctls s.name
  want : ∀ s ∈ settings, out.2.1 s.name = s.want
  others : ∀ path ∉ settings.map SysctlSetting.name,
    out.1 path = was path ∧ out.2.1 path = sysctls path

theorem readProc_nonneg {proc : Proc} {sysctls : String → Int} {filename : String}
    (nonneg : 0 ≤ readProc proc sysctls filename) :
    readProc proc sysctls filename = sysctls filename := by
  unfold readProc at nonneg ⊢
  split
  next => rfl
  next failed =>
    rw [if_neg failed] at nonneg
    omega

def Refused (proc : Proc) (setting : SysctlSetting) (sysctls : String → Int) : Prop :=
  readProc proc sysctls setting.name < 0 ∨
    readProc proc sysctls setting.name ≠ setting.want ∧ proc.writes setting.name = false

theorem setupSettings_refused {proc : Proc} {setting : SysctlSetting} {sysctls : String → Int}
    (refused : Refused proc setting sysctls) (rest : List SysctlSetting) (was : String → Int) :
    setupSettings proc (setting :: rest) was sysctls =
      (Function.update was setting.name (readProc proc sysctls setting.name), sysctls, -1) := by
  simp only [setupSettings, Function.update_self]
  split
  next => rfl
  next present =>
    obtain ⟨different, unwritable⟩ := refused.resolve_left present
    rw [if_pos different, writeProc, unwritable]
    rfl

theorem setupSettings_accepted {proc : Proc} {setting : SysctlSetting} {sysctls : String → Int}
    (accepted : ¬Refused proc setting sysctls) :
    0 ≤ sysctls setting.name ∧ ∃ changed : String → Int, changed setting.name = setting.want ∧
      (∀ path, path ≠ setting.name → changed path = sysctls path) ∧
      ∀ rest was, setupSettings proc (setting :: rest) was sysctls =
        setupSettings proc rest (Function.update was setting.name (sysctls setting.name))
          changed := by
  rw [Refused, not_or, Int.not_lt] at accepted
  obtain ⟨present, written⟩ := accepted
  have value := readProc_nonneg present
  rw [value] at present written
  have unread := Int.not_lt.mpr present
  refine ⟨present, ?_⟩
  by_cases same : sysctls setting.name = setting.want
  · refine ⟨sysctls, same, fun _ _ => rfl, fun rest was => ?_⟩
    simp only [setupSettings, Function.update_self, value, unread, if_false]
    rw [if_neg (not_not.mpr same)]
  · have writable : proc.writes setting.name = true := by simpa [same] using written
    refine ⟨Function.update sysctls setting.name setting.want, Function.update_self ..,
      fun path other => Function.update_of_ne other .., fun rest was => ?_⟩
    simp only [setupSettings, Function.update_self, value, unread, if_false, same, ne_eq,
      not_false_eq_true, if_true, writeProc, writable]
    rfl

theorem SettingsTaken.cons {s : SysctlSetting} {rest : List SysctlSetting}
    {was sysctls changed : String → Int} {out : (String → Int) × (String → Int) × Int}
    (first : s.name ∉ rest.map SysctlSetting.name) (nonneg : 0 ≤ sysctls s.name)
    (wanted : changed s.name = s.want)
    (kept : ∀ path, path ≠ s.name → changed path = sysctls path)
    (later : SettingsTaken rest (Function.update was s.name (sysctls s.name)) changed out) :
    SettingsTaken (s :: rest) was sysctls out := by
  have apart (other : SysctlSetting) (member : other ∈ rest) : other.name ≠ s.name := fun same =>
    first (same ▸ List.mem_map_of_mem member)
  have here := later.others s.name first
  refine ⟨?_, ?_, ?_, ?_⟩
  · rw [List.forall_mem_cons]
    refine ⟨by rw [here.1, Function.update_self], fun other member => ?_⟩
    rw [later.saved other member, kept other.name (apart other member)]
  · rw [List.forall_mem_cons]
    refine ⟨nonneg, fun other member => ?_⟩
    rw [← kept other.name (apart other member)]
    exact later.nonneg other member
  · rw [List.forall_mem_cons]
    exact ⟨by rw [here.2, wanted], later.want⟩
  · intro path outside
    rw [List.map_cons, List.mem_cons, not_or] at outside
    obtain ⟨saved, left⟩ := later.others path outside.2
    exact ⟨by rw [saved, Function.update_of_ne outside.1], by rw [left, kept path outside.1]⟩

theorem setupSettings_done (proc : Proc) (settings : List SysctlSetting)
    (distinct : (settings.map SysctlSetting.name).Nodup) (was sysctls : String → Int)
    (done : (setupSettings proc settings was sysctls).2.2 = 1) :
    SettingsTaken settings was sysctls (setupSettings proc settings was sysctls) := by
  induction settings generalizing was sysctls with
  | nil => exact ⟨by simp, by simp, by simp, fun _ _ => ⟨rfl, rfl⟩⟩
  | cons s rest ih =>
    rw [List.map_cons, List.nodup_cons] at distinct
    by_cases refused : Refused proc s sysctls
    · rw [setupSettings_refused refused] at done
      simp at done
    · obtain ⟨nonneg, changed, wanted, kept, accepted⟩ := setupSettings_accepted refused
      rw [accepted] at done ⊢
      exact .cons distinct.1 nonneg wanted kept (ih distinct.2 _ _ done)

theorem restoreSettings_done (proc : Proc) (settings : List SysctlSetting)
    (distinct : (settings.map SysctlSetting.name).Nodup)
    (writes : ∀ s ∈ settings, proc.writes s.name = true) (was sysctls : String → Int) :
    (∀ s ∈ settings, (restoreSettings proc settings was sysctls).1 s.name =
        if 0 ≤ was s.name ∧ was s.name ≠ s.want then was s.name else sysctls s.name) ∧
      ∀ path ∉ settings.map SysctlSetting.name,
        (restoreSettings proc settings was sysctls).1 path = sysctls path := by
  induction settings generalizing sysctls with
  | nil => exact ⟨by simp, fun _ _ => rfl⟩
  | cons s rest ih =>
    rw [List.map_cons, List.nodup_cons] at distinct
    have apart (other : SysctlSetting) (member : other ∈ rest) : other.name ≠ s.name := fun same =>
      distinct.1 (same ▸ List.mem_map_of_mem member)
    have later := ih distinct.2 fun other member => writes other (List.mem_cons_of_mem s member)
    have accepted := writes s (by simp)
    rw [restoreSettings]
    simp only [writeProc, accepted, if_true]
    by_cases changed : 0 ≤ was s.name ∧ was s.name ≠ s.want
    · rw [if_pos changed, if_neg (by decide)]
      obtain ⟨restored, others⟩ := later (Function.update sysctls s.name (was s.name))
      refine ⟨?_, ?_⟩
      · rw [List.forall_mem_cons]
        refine ⟨by rw [others s.name distinct.1, Function.update_self, if_pos changed], ?_⟩
        intro other member
        rw [restored other member, Function.update_of_ne (apart other member)]
      · intro path outside
        rw [List.map_cons, List.mem_cons, not_or] at outside
        rw [others path outside.2, Function.update_of_ne outside.1]
    · rw [if_neg changed]
      obtain ⟨restored, others⟩ := later sysctls
      refine ⟨?_, ?_⟩
      · rw [List.forall_mem_cons]
        exact ⟨by rw [others s.name distinct.1, if_neg changed], restored⟩
      · intro path outside
        rw [List.map_cons, List.mem_cons, not_or] at outside
        exact others path outside.2

theorem distinct_sysctlSettings : (sysctlSettings.map SysctlSetting.name).Nodup := by
  decide

def Fits (ifname : String) : Prop := (rpFilterPath ifname).utf8ByteSize < 100

theorem rpFilterPath_inj {left right : String} (same : rpFilterPath left = rpFilterPath right) :
    left = right := by
  unfold rpFilterPath at same
  rw [String.append_left_inj, String.append_right_inj] at same
  exact same

structure Found (names : Finset String) (oldIf : OldIfs) (ifname : String) (found : Int × OldIfs)
    (i : Nat) (o : OldIf) : Prop where
  index : found.1 = i
  held : found.2.entries[i]? = some o
  ifname : o.ifname = ifname
  keeps : ∀ other ∈ oldIf.entries, other ∈ found.2.entries
  known : ∀ n ∈ found.2.keys, n ∈ names

def HasEntry (strdup : Bool) (oldIf : OldIfs) (ifname : String) : Prop :=
  ifname ∈ oldIf.keys ∨ oldIf.entries.length < maxInterfaces ∧ strdup = true

theorem hasEntry_of_few {names : Finset String} {oldIf : OldIfs} {ifname : String} {strdup : Bool}
    (few : names.card ≤ maxInterfaces) (known : ∀ n ∈ oldIf.keys, n ∈ names)
    (member : ifname ∈ names) (copied : strdup = true) : HasEntry strdup oldIf ifname := by
  by_cases old : ifname ∈ oldIf.keys
  · exact Or.inl old
  · exact Or.inr ⟨KeyedTable.room few known member old, copied⟩

theorem getOldIf_found {names : Finset String} {oldIf : OldIfs} {ifname : String} {strdup : Bool}
    (entry : HasEntry strdup oldIf ifname) (known : ∀ n ∈ oldIf.keys, n ∈ names)
    (member : ifname ∈ names) :
    ∃ i o, Found names oldIf ifname (getOldIf strdup oldIf ifname) i o := by
  unfold getOldIf
  split
  next i position =>
    obtain ⟨o, held, same⟩ := KeyedTable.position_some position
    exact ⟨i, o, rfl, held, same, fun _ old => old, known⟩
  next missing =>
    obtain ⟨room, copied⟩ := entry.resolve_left (KeyedTable.position_none missing)
    rw [dif_neg (Nat.not_le_of_lt room), if_pos copied]
    refine ⟨oldIf.entries.length, { ifname := ifname, rpFilter := -1 }, rfl, ?_, rfl, ?_, ?_⟩
    · simp [KeyedTable.append]
    · intro other old
      simp [KeyedTable.append, old]
    · intro n new
      rw [KeyedTable.keys_append, List.mem_append, List.mem_singleton] at new
      rcases new with old | same
      · exact known n old
      · exact same ▸ member

theorem kernelSetupInterface_long {c : InterfaceCall} (long : ¬Fits c.ifname) (s : Setup) :
    kernelSetupInterface c s = (s, some (-1)) := by
  rw [Fits, Nat.not_lt] at long
  rw [kernelSetupInterface, if_pos long]

theorem kernelSetupInterface_up {names : Finset String} {c : InterfaceCall} {s : Setup} {i : Nat}
    {o : OldIf} (fits : Fits c.ifname) (setup : c.setup = true)
    (found : Found names s.oldIf c.ifname (getOldIf c.strdup s.oldIf c.ifname) i o) :
    let value := readProc c.proc s.sysctls (rpFilterPath c.ifname)
    ∃ rc, kernelSetupInterface c s =
      ({ s with
          oldIf := (getOldIf c.strdup s.oldIf c.ifname).2.setRpFilter i value
          sysctls := if value = 0 then s.sysctls
            else (writeProc c.proc s.sysctls (rpFilterPath c.ifname) 0).1 }, some rc) := by
  have held := KeyedTable.getElem?_modify_self found.held
    (fun old => { old with rpFilter := readProc c.proc s.sysctls (rpFilterPath c.ifname) })
    fun _ => rfl
  have there : OldIfs.rpFilter ((getOldIf c.strdup s.oldIf c.ifname).2.setRpFilter i
      (readProc c.proc s.sysctls (rpFilterPath c.ifname))) i =
        some (readProc c.proc s.sysctls (rpFilterPath c.ifname)) := by
    rw [OldIfs.rpFilter, if_neg (by omega), Int.toNat_natCast, OldIfs.setRpFilter, held]
    rfl
  simp only [kernelSetupInterface, if_neg (Nat.not_le_of_lt fits), setup, if_true, found.index,
    Int.natCast_nonneg, Int.toNat_natCast, there]
  by_cases zero : readProc c.proc s.sysctls (rpFilterPath c.ifname) = 0
  · exact ⟨1, by simp [zero]⟩
  · exact ⟨if (writeProc c.proc s.sysctls (rpFilterPath c.ifname) 0).2 < 0 then -1 else 1, by
      simp only [zero, ne_eq, not_false_eq_true, if_true, if_false]⟩

theorem kernelSetupInterface_down {names : Finset String} {c : InterfaceCall} {s : Setup} {i : Nat}
    {o : OldIf} (fits : Fits c.ifname) (setup : c.setup = false)
    (found : Found names s.oldIf c.ifname (getOldIf c.strdup s.oldIf c.ifname) i o) :
    kernelSetupInterface c s =
      ({ s with
          oldIf := (getOldIf c.strdup s.oldIf c.ifname).2
          sysctls := if 0 < o.rpFilter then
              (writeProc c.proc s.sysctls (rpFilterPath c.ifname) o.rpFilter).1
            else s.sysctls }, some 1) := by
  have there : OldIfs.rpFilter (getOldIf c.strdup s.oldIf c.ifname).2 i = some o.rpFilter := by
    rw [OldIfs.rpFilter, if_neg (by omega), Int.toNat_natCast, found.held]
    rfl
  simp only [kernelSetupInterface, if_neg (Nat.not_le_of_lt fits), setup, Bool.false_eq_true,
    if_false, found.index, there]
  split <;> rfl

/-- The settings are those of `base`, but for interfaces that are up; their old values are in the
table. -/
structure Saved (names : Finset String) (base was : String → Int) (up : String → Bool) (s : Setup) :
    Prop where
  was : s.was = was
  known : ∀ n ∈ s.oldIf.keys, n ∈ names
  others : ∀ path, (∀ n, up n = true → path ≠ rpFilterPath n) → s.sysctls path = base path
  changed : ∀ n, up n = true → s.sysctls (rpFilterPath n) = base (rpFilterPath n) ∨
    Fits n ∧ s.sysctls (rpFilterPath n) = 0
  entry : ∀ n, up n = true → Fits n →
    ∃ o ∈ s.oldIf.entries, o.ifname = n ∧ o.rpFilter = base (rpFilterPath n)

structure InterfaceCall.Granted (c : InterfaceCall) : Prop where
  strdup : c.strdup = true
  reads : c.setup = true → c.proc.reads (rpFilterPath c.ifname) = true
  writes : c.setup = false → c.proc.writes (rpFilterPath c.ifname) = true

section Run

variable {names : Finset String} {base was : String → Int} {up : String → Bool} {s : Setup}
  {c : InterfaceCall}

theorem Saved.update (saved : Saved names base was up s) {n : String} {isUp : Bool} {t : Setup}
    (kept : t.was = s.was) (known : ∀ k ∈ t.oldIf.keys, k ∈ names)
    (elsewhere : ∀ path, path ≠ rpFilterPath n → t.sysctls path = s.sysctls path)
    (entries : ∀ o ∈ s.oldIf.entries, o.ifname ≠ n → o ∈ t.oldIf.entries)
    (changed : t.sysctls (rpFilterPath n) = base (rpFilterPath n) ∨
      isUp = true ∧ Fits n ∧ t.sysctls (rpFilterPath n) = 0)
    (entry : isUp = true → Fits n →
      ∃ o ∈ t.oldIf.entries, o.ifname = n ∧ o.rpFilter = base (rpFilterPath n)) :
    Saved names base was (Function.update up n isUp) t := by
  refine ⟨kept.trans saved.was, known, ?_, ?_, ?_⟩
  · intro path outside
    by_cases here : path = rpFilterPath n
    · rw [here]
      refine changed.resolve_right fun zero => outside n ?_ here
      rw [Function.update_self, zero.1]
    · rw [elsewhere path here]
      refine saved.others path fun m mUp isPath => ?_
      have other : m ≠ n := fun same => here (same ▸ isPath)
      exact outside m (by rw [Function.update_of_ne other, mUp]) isPath
  · intro m mUp
    by_cases same : m = n
    · subst same
      exact changed.imp_right fun zero => zero.2
    · rw [Function.update_of_ne same] at mUp
      rw [elsewhere _ fun path => same (rpFilterPath_inj path)]
      exact saved.changed m mUp
  · intro m mUp fits
    by_cases same : m = n
    · subst same
      rw [Function.update_self] at mUp
      exact entry mUp fits
    · rw [Function.update_of_ne same] at mUp
      obtain ⟨o, member, name, value⟩ := saved.entry m mUp fits
      exact ⟨o, entries o member (by rw [name]; exact same), name, value⟩

theorem Saved.unchanged (saved : Saved names base was up s) {n : String} (isDown : up n = false) :
    s.sysctls (rpFilterPath n) = base (rpFilterPath n) := by
  refine saved.others _ fun m mUp same => ?_
  rw [← rpFilterPath_inj same, isDown] at mUp
  contradiction

theorem writeProc_elsewhere {proc : Proc} {sysctls : String → Int} {filename path : String}
    (other : path ≠ filename) (value : Int) :
    (writeProc proc sysctls filename value).1 path = sysctls path := by
  unfold writeProc
  split
  · exact Function.update_of_ne other ..
  · rfl

theorem writeProc_here (proc : Proc) (sysctls : String → Int) (filename : String) (value : Int) :
    (writeProc proc sysctls filename value).1 filename = sysctls filename ∨
      (writeProc proc sysctls filename value).1 filename = value := by
  unfold writeProc
  split
  · exact Or.inr (Function.update_self ..)
  · exact Or.inl rfl

theorem Saved.long (saved : Saved names base was up s) (long : ¬Fits c.ifname) :
    Saved names base was (Function.update up c.ifname c.setup) s := by
  refine saved.update rfl saved.known (fun _ _ => rfl) (fun _ member _ => member) (Or.inl ?_)
    fun _ fits => absurd fits long
  by_cases isUp : up c.ifname = true
  · exact (saved.changed c.ifname isUp).resolve_right fun zero => long zero.1
  · exact saved.unchanged (by simpa using isUp)

theorem Saved.setup (saved : Saved names base was up s) (few : names.card ≤ maxInterfaces)
    (member : c.ifname ∈ names) (granted : c.Granted) (setup : c.setup = true)
    (isDown : up c.ifname = false) (fits : Fits c.ifname) :
    ∃ t rc, kernelSetupInterface c s = (t, some rc) ∧
      Saved names base was (Function.update up c.ifname true) t := by
  have entry := hasEntry_of_few few saved.known member granted.strdup
  obtain ⟨i, o, found⟩ := getOldIf_found entry saved.known member
  obtain ⟨rc, called⟩ := kernelSetupInterface_up fits setup found
  refine ⟨_, rc, called, ?_⟩
  have unchanged := saved.unchanged isDown
  have value : readProc c.proc s.sysctls (rpFilterPath c.ifname) =
      base (rpFilterPath c.ifname) := by
    rw [readProc, if_pos (granted.reads setup), unchanged]
  rw [value]
  refine saved.update ?_ ?_ ?_ ?_ ?_ ?_
  · rfl
  · intro k member
    rw [OldIfs.setRpFilter, KeyedTable.keys_modify] at member
    exact found.known k member
  · intro path other
    simp only
    split
    · rfl
    · exact writeProc_elsewhere other 0
  · intro old oldMember other
    have different : old.ifname ≠ o.ifname := by rw [found.ifname]; exact other
    exact KeyedTable.mem_modify_other found.held (found.keeps old oldMember) different
      (fun entry => { entry with rpFilter := base (rpFilterPath c.ifname) }) fun _ => rfl
  · change (if base (rpFilterPath c.ifname) = 0 then s.sysctls else _) _ = _ ∨ _
    split
    · exact Or.inl unchanged
    · rcases writeProc_here c.proc s.sysctls (rpFilterPath c.ifname) 0 with kept | zero
      · exact Or.inl (kept.trans unchanged)
      · exact Or.inr ⟨rfl, fits, zero⟩
  · intro _ _
    have held := KeyedTable.getElem?_modify_self found.held
      (fun old => { old with rpFilter := base (rpFilterPath c.ifname) }) fun _ => rfl
    exact ⟨_, List.mem_of_getElem? held, found.ifname, rfl⟩

theorem Saved.teardown (saved : Saved names base was up s) (few : names.card ≤ maxInterfaces)
    (member : c.ifname ∈ names) (granted : c.Granted) (setup : c.setup = false)
    (isUp : up c.ifname = true) (fits : Fits c.ifname)
    (nonneg : 0 ≤ base (rpFilterPath c.ifname)) :
    ∃ t rc, kernelSetupInterface c s = (t, some rc) ∧
      Saved names base was (Function.update up c.ifname false) t := by
  have entry := hasEntry_of_few few saved.known member granted.strdup
  obtain ⟨i, o, found⟩ := getOldIf_found entry saved.known member
  refine ⟨_, 1, kernelSetupInterface_down fits setup found, ?_⟩
  -- the entry of the name is the one from when the interface came up
  obtain ⟨old, oldMember, name, value⟩ := saved.entry c.ifname isUp fits
  have same : o = old := KeyedTable.eq_of_key (List.mem_of_getElem? found.held)
    (found.keeps old oldMember) (found.ifname.trans name.symm)
  rw [same, value]
  refine saved.update ?_ found.known ?_ ?_ ?_ ?_
  · rfl
  · intro path other
    simp only
    split
    · exact writeProc_elsewhere other _
    · rfl
  · exact fun old oldMember _ => found.keeps old oldMember
  · refine Or.inl ?_
    simp only
    split
    next =>
      rw [writeProc, if_pos (granted.writes setup)]
      exact Function.update_self ..
    next none =>
      have zero : base (rpFilterPath c.ifname) = 0 := by omega
      rw [zero]
      rcases saved.changed c.ifname isUp with kept | cleared
      · rw [kept, zero]
      · exact cleared.2
  · intro contra
    contradiction

def Alternates : Bool → List Bool → Prop
  | up, [] => up = false
  | up, setup :: rest => setup = !up ∧ Alternates setup rest

theorem alternates_cons {c : InterfaceCall} {rest : List InterfaceCall}
    (alternates : ∀ n, Alternates (up n)
      (((c :: rest).filter fun c => c.ifname = n).map InterfaceCall.setup)) :
    c.setup = !up c.ifname ∧ ∀ n, Alternates (Function.update up c.ifname c.setup n)
      ((rest.filter fun c => c.ifname = n).map InterfaceCall.setup) := by
  have turn := alternates c.ifname
  simp only [List.filter_cons, decide_true, if_true, List.map_cons, Alternates] at turn
  refine ⟨turn.1, ?_⟩
  intro n
  by_cases same : n = c.ifname
  · subst same
    rw [Function.update_self]
    exact turn.2
  · have others := alternates n
    rw [List.filter_cons, if_neg (by simpa using Ne.symm same)] at others
    rw [Function.update_of_ne same]
    exact others

theorem Saved.call (saved : Saved names base was up s) (few : names.card ≤ maxInterfaces)
    (member : c.ifname ∈ names) (granted : c.Granted) (turn : c.setup = !up c.ifname)
    (nonneg : 0 ≤ base (rpFilterPath c.ifname)) :
    ∃ t rc, kernelSetupInterface c s = (t, some rc) ∧
      Saved names base was (Function.update up c.ifname c.setup) t := by
  by_cases fits : Fits c.ifname
  · cases setup : c.setup with
    | true =>
      have isDown : up c.ifname = false := by simpa [setup] using turn
      exact saved.setup few member granted setup isDown fits
    | false =>
      have isUp : up c.ifname = true := by simpa [setup] using turn
      exact saved.teardown few member granted setup isUp fits nonneg
  · exact ⟨s, -1, kernelSetupInterface_long fits s, saved.long fits⟩

theorem setupInterfaces_saved (calls : List InterfaceCall) (few : names.card ≤ maxInterfaces)
    (named : ∀ c ∈ calls, c.ifname ∈ names) (granted : ∀ c ∈ calls, c.Granted)
    (nonneg : ∀ c ∈ calls, 0 ≤ base (rpFilterPath c.ifname))
    (alternates : ∀ n, Alternates (up n)
      ((calls.filter fun c => c.ifname = n).map InterfaceCall.setup))
    (saved : Saved names base was up s) :
    ∃ t, setupInterfaces calls s = some t ∧ Saved names base was (fun _ => false) t := by
  induction calls generalizing up s with
  | nil =>
    have down : up = fun _ => false := funext fun n => alternates n
    exact ⟨s, rfl, down ▸ saved⟩
  | cons c rest ih =>
    obtain ⟨turn, later⟩ := alternates_cons alternates
    obtain ⟨t, rc, called, next⟩ := saved.call few (named c (by simp)) (granted c (by simp)) turn
      (nonneg c (by simp))
    obtain ⟨last, reached, done⟩ := ih (fun c member => named c (List.mem_cons_of_mem _ member))
      (fun c member => granted c (List.mem_cons_of_mem _ member))
      (fun c member => nonneg c (List.mem_cons_of_mem _ member)) later next
    exact ⟨last, by rw [setupInterfaces, called]; exact reached, done⟩

theorem Saved.restored (saved : Saved names base was (fun _ => false) s) :
    s.sysctls = base ∧ s.was = was :=
  ⟨funext fun path => saved.others path fun _ isUp => absurd isUp Bool.false_ne_true, saved.was⟩

end Run

theorem wants_nonneg : ∀ s ∈ sysctlSettings, 0 ≤ s.want := by
  decide

theorem kernelSetup_begun {skip : Bool} {io : SetupIo} {s : Setup}
    (begun : (kernelSetup true skip io s).2 = 1) :
    (kernelSetup true skip io s).1.oldIf = s.oldIf ∧
      if skip then (kernelSetup true skip io s).1.sysctls = s.sysctls
      else SettingsTaken sysctlSettings s.was s.sysctls
        ((kernelSetup true skip io s).1.was, (kernelSetup true skip io s).1.sysctls, 1) := by
  simp only [kernelSetup, if_true] at begun ⊢
  split at begun
  next => simp at begun
  next opened =>
    rw [if_neg opened]
    split at begun
    next => simp at begun
    next connected =>
      rw [if_neg connected]
      cases skip with
      | true => exact ⟨rfl, rfl⟩
      | false =>
        simp only [Bool.false_eq_true, if_false] at begun ⊢
        have taken := setupSettings_done io.proc sysctlSettings distinct_sysctlSettings s.was
          s.sysctls begun
        exact ⟨trivial, taken.saved, taken.nonneg, taken.want, taken.others⟩

theorem kernelSetup_restores {io : SetupIo} {s t : Setup}
    (writes : ∀ setting ∈ sysctlSettings, io.proc.writes setting.name = true)
    (settings : ∀ setting ∈ sysctlSettings,
      0 ≤ t.was setting.name ∧ t.was setting.name = s.sysctls setting.name ∧
          t.sysctls setting.name = setting.want ∨
        (t.was setting.name < 0 ∨ t.was setting.name = s.sysctls setting.name) ∧
          t.sysctls setting.name = s.sysctls setting.name)
    (others : ∀ path ∉ sysctlSettings.map SysctlSetting.name, t.sysctls path = s.sysctls path) :
    (kernelSetup false false io t).1.sysctls = s.sysctls := by
  obtain ⟨restored, kept⟩ := restoreSettings_done io.proc sysctlSettings distinct_sysctlSettings
    writes t.was t.sysctls
  simp only [kernelSetup, Bool.false_eq_true, if_false]
  funext path
  by_cases isGlobal : path ∈ sysctlSettings.map SysctlSetting.name
  · obtain ⟨setting, member, rfl⟩ := List.mem_map.mp isGlobal
    rw [restored setting member]
    rcases settings setting member with ⟨nonneg, old, want⟩ | ⟨saved, old⟩
    · rw [want]
      split
      next => exact old
      next unwritten =>
        rw [← old]
        by_contra different
        exact unwritten ⟨nonneg, Ne.symm different⟩
    · split
      next written => exact saved.resolve_left (Int.not_lt.mpr written.1)
      next => exact old
  · rw [kept path isGlobal, others path isGlobal]

theorem kernelSetup_ended {skip : Bool} {io : SetupIo} {s t : Setup} {taken : Setup}
    (same : t.sysctls = taken.sysctls ∧ t.was = taken.was)
    (restores : ∀ setting ∈ sysctlSettings, io.proc.writes setting.name = true)
    (begun : if skip then taken.sysctls = s.sysctls
      else SettingsTaken sysctlSettings s.was s.sysctls (taken.was, taken.sysctls, 1)) :
    (kernelSetup false skip io t).1.sysctls = s.sysctls := by
  cases skip with
  | true => exact same.1.trans begun
  | false =>
    simp only [Bool.false_eq_true, if_false] at begun
    apply kernelSetup_restores restores
    · intro setting member
      rw [same.1, same.2]
      have old : taken.was setting.name = s.sysctls setting.name := begun.saved setting member
      refine Or.inl ⟨?_, old, begun.want setting member⟩
      rw [old]
      exact begun.nonneg setting member
    · intro path outside
      rw [same.1]
      exact (begun.others path outside).2

theorem nonneg_of_begun {skip : Bool} {s taken : Setup} {path : String}
    (begun : if skip then taken.sysctls = s.sysctls
      else SettingsTaken sysctlSettings s.was s.sysctls (taken.was, taken.sysctls, 1))
    (nonneg : 0 ≤ s.sysctls path) : 0 ≤ taken.sysctls path := by
  cases skip with
  | true => exact begun ▸ nonneg
  | false =>
    simp only [Bool.false_eq_true, if_false] at begun
    by_cases isGlobal : path ∈ sysctlSettings.map SysctlSetting.name
    · obtain ⟨setting, found, same⟩ := List.mem_map.mp isGlobal
      have value : taken.sysctls path = setting.want := same ▸ begun.want setting found
      rw [value]
      exact wants_nonneg setting found
    · have value : taken.sysctls path = s.sysctls path := (begun.others path isGlobal).2
      rw [value]
      exact nonneg

theorem settings_restored (skip : Bool) (first last : SetupIo) (s : Setup)
    (calls : List InterfaceCall) (names : Finset String)
    (begun : (kernelSetup true skip first s).2 = 1)
    (few : names.card ≤ maxInterfaces) (known : ∀ n ∈ s.oldIf.keys, n ∈ names)
    (named : ∀ c ∈ calls, c.ifname ∈ names)
    (alternates : ∀ n, Alternates false
      ((calls.filter fun c => c.ifname = n).map InterfaceCall.setup))
    (granted : ∀ c ∈ calls, c.Granted)
    (nonneg : ∀ c ∈ calls, 0 ≤ s.sysctls (rpFilterPath c.ifname))
    (restores : ∀ setting ∈ sysctlSettings, last.proc.writes setting.name = true) :
    ∃ t, setupInterfaces calls (kernelSetup true skip first s).1 = some t ∧
      (kernelSetup false skip last t).1.sysctls = s.sysctls := by
  obtain ⟨table, taken⟩ := kernelSetup_begun begun
  generalize (kernelSetup true skip first s).1 = up at table taken
  have start : Saved names up.sysctls up.was (fun _ => false) up :=
    ⟨rfl, table ▸ known, fun _ _ => rfl, fun _ isUp => absurd isUp Bool.false_ne_true,
      fun _ isUp => absurd isUp Bool.false_ne_true⟩
  have still (c : InterfaceCall) (member : c ∈ calls) : 0 ≤ up.sysctls (rpFilterPath c.ifname) :=
    nonneg_of_begun taken (nonneg c member)
  obtain ⟨t, reached, saved⟩ := setupInterfaces_saved calls few named granted still alternates start
  exact ⟨t, reached, kernelSetup_ended saved.restored restores taken⟩

def procBut (failing : List String) : Proc where
  reads := fun _ => true
  writes := fun path => decide (path ∉ failing)

def startup : Setup where
  exportTable := -1
  importTables := []
  dgramSocket := -1
  nlCommand := { seqno := 0, sock := -1, nlPid := 0, socklen := 0 }
  nlSetup := false
  was := fun _ => -1
  oldIf := KeyedTable.empty
  sysctls := fun path => if path = rpFilterPath "eth0" ∨ path = rpFilterPath "eth1" then 2 else 0

def flaps : List InterfaceCall :=
  [{ setup := true, ifname := "eth0", strdup := true, proc := procBut [] },
    { setup := true, ifname := "eth1", strdup := true, proc := procBut [rpFilterPath "eth1"] },
    { setup := false, ifname := "eth0", strdup := true, proc := procBut [] },
    { setup := false, ifname := "eth1", strdup := true, proc := procBut [] }]

theorem settings_restored_flaps :
    let io : SetupIo := { dgram := 3, opening := .opened 1700000000 4 1000 12, proc := procBut [] }
    ∃ t, setupInterfaces flaps (kernelSetup true false io startup).1 = some t ∧
      (kernelSetup false false io t).1.sysctls = startup.sysctls := by
  apply settings_restored false _ _ startup flaps {"eth0", "eth1"}
  · decide
  · decide
  · decide
  · decide
  · intro n
    by_cases zero : "eth0" = n
    · subst zero
      simp [flaps, Alternates]
    · by_cases one : "eth1" = n
      · subst one
        simp [flaps, Alternates]
      · simp [flaps, zero, one, Alternates]
  · intro c member
    simp only [flaps, List.mem_cons, List.not_mem_nil, or_false] at member
    rcases member with rfl | rfl | rfl | rfl <;>
      exact ⟨rfl, fun _ => rfl, by simp [procBut]⟩
  · decide
  · decide

end Tabeld.KernelNetlink
