import Tabeld.KernelNetlink.Restore

set_option autoImplicit false

namespace Tabeld.KernelNetlink

theorem setupSettings_failed {proc : Proc} {settings : List SysctlSetting}
    {was sysctls : String → Int} (failed : (setupSettings proc settings was sysctls).2.2 = -1) :
    ∃ before setting after, settings = before ++ setting :: after ∧
      (setupSettings proc before was sysctls).2.2 = 1 ∧
      Refused proc setting (setupSettings proc before was sysctls).2.1 ∧
      setupSettings proc settings was sysctls =
        (Function.update (setupSettings proc before was sysctls).1 setting.name
            (readProc proc (setupSettings proc before was sysctls).2.1 setting.name),
          (setupSettings proc before was sysctls).2.1, -1) := by
  induction settings generalizing was sysctls with
  | nil => contradiction
  | cons first rest ih =>
    by_cases refused : Refused proc first sysctls
    · exact ⟨[], first, rest, rfl, rfl, refused, setupSettings_refused refused rest was⟩
    · obtain ⟨-, changed, -, -, accepted⟩ := setupSettings_accepted refused
      rw [accepted] at failed ⊢
      obtain ⟨before, setting, after, rfl, done, last, stopped⟩ := ih failed
      refine ⟨first :: before, setting, after, rfl, ?_⟩
      rw [accepted]
      exact ⟨done, last, stopped⟩

structure Unopened (s t : Setup) : Prop where
  sockets : t.dgramSocket < 0 ∨ t.nlCommand.sock = -1
  nlSetup : t.nlSetup = s.nlSetup
  was : t.was = s.was
  sysctls : t.sysctls = s.sysctls

structure StoppedAt (proc : Proc) (before : List SysctlSetting) (setting : SysctlSetting)
    (s t : Setup) : Prop where
  nlSetup : t.nlSetup = true
  -- `setting` could not be read, or not be written
  refused : Refused proc setting s.sysctls
  saved : t.was setting.name = readProc proc s.sysctls setting.name
  changed : ∀ b ∈ before,
    0 ≤ s.sysctls b.name ∧ t.was b.name = s.sysctls b.name ∧ t.sysctls b.name = b.want
  kept : ∀ path ∉ before.map SysctlSetting.name, t.sysctls path = s.sysctls path
  unsaved : ∀ path ∉ before.map SysctlSetting.name, path ≠ setting.name → t.was path = s.was path

structure Undone (s u : Setup) : Prop where
  nlSetup : u.nlSetup = false
  dgramSocket : u.dgramSocket = -1
  nlCommand : u.nlCommand.sock = -1
  sysctls : u.sysctls = s.sysctls

def UpToDate (s : Setup) : Prop :=
  ∀ setting ∈ sysctlSettings,
    s.was setting.name < 0 ∨ s.was setting.name = s.sysctls setting.name

theorem stoppedAt_of_failed {proc : Proc} {s t : Setup}
    (failed : (setupSettings proc sysctlSettings s.was s.sysctls).2.2 = -1)
    (nlSetup : t.nlSetup = true)
    (was : t.was = (setupSettings proc sysctlSettings s.was s.sysctls).1)
    (sysctls : t.sysctls = (setupSettings proc sysctlSettings s.was s.sysctls).2.1) :
    ∃ before setting after, sysctlSettings = before ++ setting :: after ∧
      StoppedAt proc before setting s t := by
  obtain ⟨before, setting, after, split, done, refused, out⟩ := setupSettings_failed failed
  have distinct := distinct_sysctlSettings
  rw [split, List.map_append, List.map_cons, List.nodup_append'] at distinct
  have first : setting.name ∉ before.map SysctlSetting.name := fun member =>
    List.disjoint_left.mp distinct.2.2 member (by simp)
  have taken := setupSettings_done proc before distinct.1 s.was s.sysctls done
  simp only [out] at was sysctls
  generalize setupSettings proc before s.was s.sysctls = mid at *
  have unchanged := (taken.others setting.name first).2
  have read : readProc proc mid.2.1 setting.name = readProc proc s.sysctls setting.name := by
    rw [readProc, readProc, unchanged]
  rw [read] at was
  refine ⟨before, setting, after, split, nlSetup, ?_, ?_, ?_, ?_, ?_⟩
  · rw [Refused, read] at refused
    exact refused
  · rw [was, Function.update_self]
  · intro b member
    have other : b.name ≠ setting.name := fun same =>
      first (same ▸ List.mem_map_of_mem member)
    rw [was, sysctls, Function.update_of_ne other]
    exact ⟨taken.nonneg b member, taken.saved b member, taken.want b member⟩
  · intro path outside
    rw [sysctls]
    exact (taken.others path outside).2
  · intro path outside other
    rw [was, Function.update_of_ne other]
    exact (taken.others path outside).1

theorem kernelSetup_stops {skip : Bool} {io : SetupIo} {s : Setup}
    (failed : (kernelSetup true skip io s).2 = -1) :
    Unopened s (kernelSetup true skip io s).1 ∨
      skip = false ∧ ∃ before setting after, sysctlSettings = before ++ setting :: after ∧
        StoppedAt io.proc before setting s (kernelSetup true skip io s).1 := by
  simp only [kernelSetup, if_true] at failed ⊢
  split at failed
  next closed =>
    rw [if_pos closed]
    exact Or.inl ⟨Or.inl closed, rfl, rfl, rfl⟩
  next opened =>
    rw [if_neg opened]
    split at failed
    next refused =>
      rw [if_pos refused]
      refine Or.inl ⟨Or.inr ?_, rfl, rfl, rfl⟩
      cases opening : io.opening with
      | refused => rfl
      | failed now => rfl
      | opened now sock nlPid socklen => simp [opening, netlinkSocket] at refused
    next connected =>
      rw [if_neg connected]
      cases skip with
      | true => simp at failed
      | false => exact Or.inr ⟨rfl, stoppedAt_of_failed failed rfl rfl rfl⟩

theorem Unopened.undone {skip : Bool} {io : SetupIo} {s t : Setup} (unopened : Unopened s t)
    (upToDate : UpToDate s)
    (writes : ∀ setting ∈ sysctlSettings, io.proc.writes setting.name = true) :
    (kernelSetup false skip io t).1.sysctls = s.sysctls := by
  cases skip with
  | true => exact unopened.sysctls
  | false =>
    apply kernelSetup_restores writes
    · intro setting member
      rw [unopened.was, unopened.sysctls]
      exact Or.inr ⟨upToDate setting member, rfl⟩
    · intro path _
      rw [unopened.sysctls]

theorem StoppedAt.undone {proc : Proc} {before after : List SysctlSetting}
    {setting : SysctlSetting} {io : SetupIo} {s t : Setup}
    (stopped : StoppedAt proc before setting s t)
    (split : sysctlSettings = before ++ setting :: after) (upToDate : UpToDate s)
    (writes : ∀ setting ∈ sysctlSettings, io.proc.writes setting.name = true) :
    (kernelSetup false false io t).1.sysctls = s.sysctls := by
  apply kernelSetup_restores writes
  · intro other member
    by_cases taken : other.name ∈ before.map SysctlSetting.name
    · obtain ⟨b, inside, same⟩ := List.mem_map.mp taken
      have distinct := distinct_sysctlSettings
      have old : b ∈ sysctlSettings := by simp [split, inside]
      obtain rfl : b = other := List.inj_on_of_nodup_map distinct old member same
      obtain ⟨nonneg, saved, want⟩ := stopped.changed b inside
      exact Or.inl ⟨saved ▸ nonneg, saved, want⟩
    · refine Or.inr ⟨?_, stopped.kept other.name taken⟩
      by_cases here : other.name = setting.name
      · rw [here, stopped.saved]
        exact (Int.lt_or_le _ 0).imp_right readProc_nonneg
      · rw [stopped.unsaved other.name taken here]
        exact upToDate other member
  · intro path outside
    apply stopped.kept
    intro inside
    apply outside
    rw [split, List.map_append]
    exact List.mem_append_left _ inside

def Atomic (skip : Bool) (io : SetupIo) (s : Setup) : Prop :=
  let out := kernelSetup true skip io s
  out.2 = -1 →
    (∀ setting ∈ sysctlSettings, out.1.sysctls setting.name = s.sysctls setting.name) ∧
      ¬(out.1.nlSetup = true ∧ 0 ≤ io.dgram ∧
        (0 ≤ out.1.dgramSocket ∨ 0 ≤ out.1.nlCommand.sock))

def noIpv4 : SetupIo where
  dgram := 3
  opening := .opened 1700000000 4 1000 12
  proc := {
    reads := fun path => decide (path ≠ "/proc/sys/net/ipv4/conf/all/forwarding")
    writes := fun _ => true }

theorem not_atomic_noIpv4 : ¬Atomic false noIpv4 startup := by
  intro atomic
  obtain ⟨kept, -⟩ := atomic (by decide)
  have forwarding := kept ⟨"/proc/sys/net/ipv6/conf/all/forwarding", 1⟩ (by decide)
  exact absurd forwarding (by decide)

theorem kernelSetup_failed (skip : Bool) (io : SetupIo) (s : Setup)
    (failed : (kernelSetup true skip io s).2 = -1) :
    (Unopened s (kernelSetup true skip io s).1 ∨
      skip = false ∧ ∃ before setting after, sysctlSettings = before ++ setting :: after ∧
        StoppedAt io.proc before setting s (kernelSetup true skip io s).1) ∧
      ∀ last : SetupIo, UpToDate s →
        (∀ setting ∈ sysctlSettings, last.proc.writes setting.name = true) →
          Undone s (kernelSetup false skip last (kernelSetup true skip io s).1).1 := by
  refine ⟨kernelSetup_stops failed, fun last upToDate writes => ?_⟩
  have restored : (kernelSetup false skip last (kernelSetup true skip io s).1).1.sysctls =
      s.sysctls := by
    rcases kernelSetup_stops failed with unopened | ⟨rfl, before, setting, after, split, stopped⟩
    · exact unopened.undone upToDate writes
    · exact stopped.undone split upToDate writes
  cases skip with
  | true => exact ⟨rfl, rfl, rfl, restored⟩
  | false => exact ⟨rfl, rfl, rfl, restored⟩

theorem kernelSetup_failed_noIpv4 :
    let t := (kernelSetup true false noIpv4 startup).1
    (Unopened startup t ∨ ∃ before setting after, sysctlSettings = before ++ setting :: after ∧
      StoppedAt noIpv4.proc before setting startup t) ∧
      Undone startup (kernelSetup false false noIpv4 t).1 := by
  obtain ⟨stopped, undone⟩ := kernelSetup_failed false noIpv4 startup (by decide)
  exact ⟨stopped.imp_right And.right, undone noIpv4 (by simp [UpToDate, startup]) fun _ _ => rfl⟩

end Tabeld.KernelNetlink
