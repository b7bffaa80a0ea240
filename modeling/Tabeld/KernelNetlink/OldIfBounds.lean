import Tabeld.KernelNetlink.Restore

set_option autoImplicit false

namespace Tabeld.KernelNetlink

open Machine

def getOldIfAccesses (strdup : Bool) (oldIf : OldIfs) (ifname : String) : List Int :=
  match oldIf.position ifname with
  | some i => (List.range (i + 1)).map Int.ofNat
  | none =>
    let scanned := (List.range oldIf.entries.length).map Int.ofNat
    if maxInterfaces ≤ oldIf.entries.length then scanned
    else
      let new : Int := oldIf.entries.length
      -- what strdup returns is stored first and looked at there
      if strdup then scanned ++ [new, new, new] else scanned ++ [new, new]

def kernelSetupInterfaceAccesses (c : InterfaceCall) (s : Setup) : List Int :=
  if 100 ≤ (rpFilterPath c.ifname).utf8ByteSize then []
  else
    let found := getOldIf c.strdup s.oldIf c.ifname
    let i := found.1
    getOldIfAccesses c.strdup s.oldIf c.ifname ++
      if c.setup then
        -- the store and the warning are guarded by i >= 0, the test before the write is not
        if 0 ≤ i then [i, i, i] else [i]
      else
        match found.2.rpFilter i with
        | some old => if 0 < old then [i, i] else [i]
        | none => []

def InBounds (s : Setup) (c : InterfaceCall) : Prop :=
  ∀ k ∈ kernelSetupInterfaceAccesses c s, 0 ≤ k ∧ k < maxInterfaces

instance (s : Setup) (c : InterfaceCall) : Decidable (InBounds s c) :=
  inferInstanceAs (Decidable (∀ k ∈ _, _))

def interfaceStep (s : Setup) (c : InterfaceCall) : Option (Int × Setup) :=
  match kernelSetupInterface c s with
  | (_, none) => none
  | (t, some rc) => some (rc, t)

def Recordable (s : Setup) (c : InterfaceCall) : Prop :=
  c.setup = true → Fits c.ifname → HasEntry c.strdup s.oldIf c.ifname

theorem position_bounded {oldIf : OldIfs} {ifname : String} {i : Nat}
    (found : oldIf.position ifname = some i) : ifname ∈ oldIf.keys ∧ i < maxInterfaces := by
  obtain ⟨o, held, same⟩ := KeyedTable.position_some found
  have inside := (List.getElem?_eq_some_iff.mp held).1
  exact ⟨same ▸ List.mem_map_of_mem (List.mem_of_getElem? held),
    Nat.lt_of_lt_of_le inside oldIf.bounded⟩

theorem getOldIfAccesses_bounded {strdup : Bool} {oldIf : OldIfs} {ifname : String} {k : Int}
    (accessed : k ∈ getOldIfAccesses strdup oldIf ifname) : 0 ≤ k ∧ k < maxInterfaces := by
  have scanned {n : Nat} (few : n ≤ maxInterfaces)
      (member : k ∈ (List.range n).map Int.ofNat) : 0 ≤ k ∧ k < maxInterfaces := by
    obtain ⟨j, inside, rfl⟩ := List.mem_map.mp member
    have below := List.mem_range.mp inside
    simp only [Int.ofNat_eq_natCast]
    omega
  have bounded := oldIf.bounded
  unfold getOldIfAccesses at accessed
  split at accessed
  next i found => exact scanned (position_bounded found).2 accessed
  next missing =>
    simp only at accessed
    split at accessed
    next full => exact scanned bounded accessed
    next room =>
      have appended : k ∈ (List.range oldIf.entries.length).map Int.ofNat ∨
          k = oldIf.entries.length := by
        split at accessed <;> simpa using accessed
      rcases appended with old | new
      · exact scanned bounded old
      · omega

theorem getOldIf_index (strdup : Bool) (oldIf : OldIfs) (ifname : String) :
    (getOldIf strdup oldIf ifname).1 < maxInterfaces ∧
      (0 ≤ (getOldIf strdup oldIf ifname).1 ↔ HasEntry strdup oldIf ifname) := by
  unfold getOldIf HasEntry
  split
  next i found =>
    obtain ⟨known, inside⟩ := position_bounded found
    simp only [known, true_or, iff_true]
    omega
  next missing =>
    rw [or_iff_right (KeyedTable.position_none missing)]
    split
    next full =>
      simp only [maxInterfaces] at full ⊢
      simp [Nat.not_lt.mpr full]
    next room =>
      rw [Nat.not_le] at room
      cases strdup with
      | true => simp [room]
      | false => simp [maxInterfaces]

theorem rpFilter_some {oldIf : OldIfs} {i old : Int} (held : oldIf.rpFilter i = some old) :
    0 ≤ i := by
  unfold OldIfs.rpFilter at held
  split at held
  next => contradiction
  next nonneg => exact Int.not_lt.mp nonneg

theorem inBounds_iff (s : Setup) (c : InterfaceCall) : InBounds s c ↔ Recordable s c := by
  obtain ⟨below, entry⟩ := getOldIf_index c.strdup s.oldIf c.ifname
  unfold InBounds Recordable kernelSetupInterfaceAccesses
  rw [← entry]
  by_cases fits : Fits c.ifname
  · rw [if_neg (Nat.not_le_of_lt fits)]
    generalize getOldIf c.strdup s.oldIf c.ifname = found at *
    constructor
    · intro inside setup _
      refine (inside found.1 (List.mem_append_right _ ?_)).1
      simp only [setup, if_true]
      split <;> simp
    · intro recordable k accessed
      rcases List.mem_append.mp accessed with scanned | own
      · exact getOldIfAccesses_bounded scanned
      -- whichever branch it is, the index is that of the entry
      have index : 0 ≤ found.1 ∧ k = found.1 := by
        cases setup : c.setup with
        | true =>
          have nonneg := recordable setup fits
          exact ⟨nonneg, by simpa [setup, nonneg] using own⟩
        | false =>
          simp only [setup, Bool.false_eq_true, if_false] at own
          split at own
          next old held => exact ⟨rpFilter_some held, by split at own <;> simpa using own⟩
          next => contradiction
      exact index.2 ▸ ⟨index.1, below⟩
  · rw [if_pos (Nat.le_of_not_lt fits)]
    simp [fits]

theorem interfaceStep_isSome (s : Setup) (c : InterfaceCall) :
    (interfaceStep s c).isSome ↔ Recordable s c := by
  have returned : (interfaceStep s c).isSome = (kernelSetupInterface c s).2.isSome := by
    unfold interfaceStep
    rcases kernelSetupInterface c s with ⟨t, none | rc⟩ <;> rfl
  rw [returned, Recordable]
  by_cases fits : Fits c.ifname
  · cases setup : c.setup with
    | true =>
      by_cases entry : HasEntry c.strdup s.oldIf c.ifname
      · let names := insert c.ifname s.oldIf.keys.toFinset
        have known : ∀ n ∈ s.oldIf.keys, n ∈ names := by simp +contextual [names]
        obtain ⟨i, o, found⟩ := getOldIf_found entry known (Finset.mem_insert_self ..)
        obtain ⟨rc, called⟩ := kernelSetupInterface_up fits setup found
        simp [called, entry]
      · have absent := (getOldIf_index c.strdup s.oldIf c.ifname).2.not.mpr entry
        simp [kernelSetupInterface, Nat.not_le_of_lt fits, setup, OldIfs.rpFilter,
          Int.not_le.mp absent, fits, entry]
    | false =>
      simp only [kernelSetupInterface, if_neg (Nat.not_le_of_lt fits), setup, Bool.false_eq_true,
        if_false, false_implies, iff_true]
      split
      · split <;> rfl
      · rfl
  · simp [kernelSetupInterface_long fits, fits]

theorem setupInterfaces_eq_run (calls : List InterfaceCall) (s : Setup) :
    setupInterfaces calls s = (run interfaceStep s calls).map Prod.snd := by
  induction calls generalizing s with
  | nil => rfl
  | cons c rest ih =>
    rw [setupInterfaces, run, interfaceStep]
    rcases kernelSetupInterface c s with ⟨t, none | rc⟩
    · rfl
    · simp only [ih, Option.map_map]
      rfl

theorem setupInterfaces_isSome (calls : List InterfaceCall) (s : Setup) :
    (setupInterfaces calls s).isSome ↔ Along interfaceStep InBounds s calls := by
  rw [setupInterfaces_eq_run, Option.isSome_map]
  exact run_isSome (fun s c => (interfaceStep_isSome s c).trans (inBounds_iff s c).symm) s calls

theorem inBounds_run_iff (s : Setup) (calls : List InterfaceCall) :
    Along interfaceStep InBounds s calls ↔ Along interfaceStep Recordable s calls :=
  ⟨Along.mono fun s c => (inBounds_iff s c).mp, Along.mono fun s c => (inBounds_iff s c).mpr⟩

def comesUp (ifname : String) : InterfaceCall where
  setup := true
  ifname := ifname
  strdup := true
  proc := procBut []

def twentyInterfaces : List InterfaceCall :=
  ["a", "b", "c", "d", "e", "f", "g", "h", "i", "j", "k", "l", "m", "n", "o", "p", "q", "r", "s",
    "t"].map comesUp

theorem not_inBounds_run_twentyOne :
    ¬Along interfaceStep InBounds startup (twentyInterfaces ++ [comesUp "u"]) := by
  intro along
  have full : (run interfaceStep startup twentyInterfaces).map
      (fun out => decide (InBounds out.2 (comesUp "u"))) = some false := by
    decide +kernel
  obtain ⟨⟨os, t⟩, ran, outside⟩ := Option.map_eq_some_iff.mp full
  have inside := ((along_append [comesUp "u"] ran).mp along).2.1
  exact of_decide_eq_false outside inside

end Tabeld.KernelNetlink
