import Mathlib.Data.Finset.Insert
import Mathlib.Data.Finset.Erase
import Tabeld.Shared.Machine

set_option autoImplicit false

/-!
# Owners of handles

Each owner holds at most one of the handles that are live; others are live for someone else. The
system that deals in handles does not give out a live one.
-/

namespace Handles

open Machine

variable {K H : Type}

structure State (K H : Type) where
  slots : K → Option H
  live : Finset H
  -- those of someone else
  foreign : Finset H

inductive Op (K H : Type) where
  -- a slot is overwritten, with a new handle or with none; what it held is not returned
  | assign (k : K) (h : Option H)
  -- the handle of a slot is returned, and the slot is emptied
  | release (k : K)
  | foreignOpen (h : H)
  | foreignClose (h : H)

section Definitions

variable [DecidableEq K] [DecidableEq H]

def apply (s : State K H) : Op K H → State K H
  | .assign k h =>
    { s with slots := Function.update s.slots k h, live := h.elim s.live fun h => insert h s.live }
  | .release k =>
    { s with
      slots := Function.update s.slots k none
      live := (s.slots k).elim s.live fun h => s.live.erase h }
  | .foreignOpen h => { s with live := insert h s.live, foreign := insert h s.foreign }
  | .foreignClose h => { s with live := s.live.erase h, foreign := s.foreign.erase h }

end Definitions

/-- A new handle is not live yet, and others return only their own. -/
def Fresh (s : State K H) : Op K H → Prop
  | .assign _ h => ∀ new ∈ h, new ∉ s.live
  | .release _ => True
  | .foreignOpen h => h ∉ s.live
  | .foreignClose h => h ∈ s.foreign

/-- What every slot holds is live, in no other slot and nobody else's. -/
structure Owns (s : State K H) : Prop where
  live : ∀ k h, s.slots k = some h → h ∈ s.live ∧ h ∉ s.foreign
  distinct : ∀ k l h, s.slots k = some h → s.slots l = some h → k = l
  foreign : s.foreign ⊆ s.live

def Tight (s : State K H) : Prop :=
  ∀ h ∈ s.live, h ∈ s.foreign ∨ ∃ k, s.slots k = some h

def Loses (s : State K H) : Op K H → Prop
  | .assign k _ => (s.slots k).isSome
  | _ => False

variable [DecidableEq K] [DecidableEq H] {s : State K H}

theorem Owns.assign (owns : Owns s) {k : K} {new : Option H} (fresh : Fresh s (.assign k new)) :
    Owns (apply s (.assign k new)) := by
  have other {l : K} {h : H} (different : l ≠ k)
      (holds : Function.update s.slots k new l = some h) : s.slots l = some h := by
    rwa [Function.update_of_ne different] at holds
  have elsewhere {l : K} {h : H} (different : l ≠ k) (old : s.slots l = some h) :
      new ≠ some h := fun same => fresh h same (owns.live l h old).1
  constructor
  case live =>
    intro l h holds
    simp only [Handles.apply] at holds ⊢
    by_cases here : l = k
    · rw [here, Function.update_self] at holds
      rw [holds]
      exact ⟨Finset.mem_insert_self h s.live,
        fun known => fresh h holds (owns.foreign known)⟩
    · have old := owns.live l h (other here holds)
      refine ⟨?_, old.2⟩
      cases new with
      | none => exact old.1
      | some new => exact Finset.mem_insert_of_mem old.1
  case distinct =>
    intro l m h first second
    simp only [Handles.apply] at first second
    by_cases left : l = k <;> by_cases right : m = k
    · rw [left, right]
    · rw [left, Function.update_self] at first
      exact absurd first (elsewhere right (other right second))
    · rw [right, Function.update_self] at second
      exact absurd second (elsewhere left (other left first))
    · exact owns.distinct l m h (other left first) (other right second)
  case foreign =>
    intro h known
    cases new with
    | none => exact owns.foreign known
    | some new => exact Finset.mem_insert_of_mem (owns.foreign known)

theorem Owns.release (owns : Owns s) (k : K) : Owns (apply s (.release k)) := by
  have other {l : K} {h : H} (holds : Function.update s.slots k none l = some h) :
      l ≠ k ∧ s.slots l = some h := by
    have different : l ≠ k := by
      rintro rfl
      rw [Function.update_self] at holds
      contradiction
    exact ⟨different, by rwa [Function.update_of_ne different] at holds⟩
  have kept {h : H} (live : h ∈ s.live) (different : s.slots k ≠ some h) :
      h ∈ (s.slots k).elim s.live fun h => s.live.erase h := by
    cases slot : s.slots k with
    | none => exact live
    | some old =>
      exact Finset.mem_erase.mpr ⟨fun same => different (same ▸ slot), live⟩
  constructor
  case live =>
    intro l h holds
    obtain ⟨different, old⟩ := other holds
    exact ⟨kept (owns.live l h old).1 fun same => different (owns.distinct l k h old same),
      (owns.live l h old).2⟩
  case distinct =>
    intro l m h first second
    exact owns.distinct l m h (other first).2 (other second).2
  case foreign =>
    intro h known
    exact kept (owns.foreign known) fun same => (owns.live k h same).2 known

theorem Owns.foreignOpen (owns : Owns s) {new : H} (fresh : Fresh s (.foreignOpen new)) :
    Owns (apply s (.foreignOpen new)) := by
  constructor
  case live =>
    intro l h holds
    have old := owns.live l h holds
    refine ⟨Finset.mem_insert_of_mem old.1, ?_⟩
    intro known
    rcases Finset.mem_insert.mp known with same | known
    · exact fresh (same ▸ old.1)
    · exact old.2 known
  case distinct => exact owns.distinct
  case foreign => exact Finset.insert_subset_insert new owns.foreign

theorem Owns.foreignClose (owns : Owns s) {old : H} (fresh : Fresh s (.foreignClose old)) :
    Owns (apply s (.foreignClose old)) := by
  constructor
  case live =>
    intro l h holds
    obtain ⟨live, ours⟩ := owns.live l h holds
    exact ⟨Finset.mem_erase.mpr ⟨fun same => ours (same ▸ fresh), live⟩,
      fun known => ours (Finset.mem_of_mem_erase known)⟩
  case distinct => exact owns.distinct
  case foreign => exact Finset.erase_subset_erase old owns.foreign

theorem Owns.apply (owns : Owns s) {op : Op K H} (fresh : Fresh s op) : Owns (apply s op) := by
  cases op with
  | assign k new => exact owns.assign fresh
  | release k => exact owns.release k
  | foreignOpen new => exact owns.foreignOpen fresh
  | foreignClose old => exact owns.foreignClose fresh

theorem tight_assign (owns : Owns s) {k : K} {new : Option H} (fresh : ∀ h ∈ new, h ∉ s.live) :
    Tight (apply s (.assign k new)) ↔ Tight s ∧ s.slots k = none := by
  have grown {h : H} (live : h ∈ s.live) : h ∈ (apply s (.assign k new)).live := by
    cases new with
    | none => exact live
    | some new => exact Finset.mem_insert_of_mem live
  -- what was live before is neither the new handle nor found in the slot that has it now
  have owner {h : H} (live : h ∈ s.live) {l : K}
      (holds : (apply s (.assign k new)).slots l = some h) : l ≠ k ∧ s.slots l = some h := by
    simp only [apply] at holds
    have different : l ≠ k := by
      rintro rfl
      rw [Function.update_self] at holds
      exact fresh h holds live
    exact ⟨different, by rwa [Function.update_of_ne different] at holds⟩
  constructor
  · intro tight
    constructor
    · intro h live
      exact (tight h (grown live)).imp_right fun ⟨l, holds⟩ => ⟨l, (owner live holds).2⟩
    · cases slot : s.slots k with
      | none => rfl
      | some old =>
        obtain ⟨live, ours⟩ := owns.live k old slot
        rcases tight old (grown live) with known | ⟨l, holds⟩
        · exact absurd known ours
        · obtain ⟨different, also⟩ := owner live holds
          exact absurd (owns.distinct l k old also slot) different
  · rintro ⟨tight, empty⟩ h live
    by_cases isNew : new = some h
    · exact Or.inr ⟨k, by simp [apply, isNew]⟩
    · have before : h ∈ s.live := by
        cases new with
        | none => exact live
        | some new =>
          exact Finset.mem_of_mem_insert_of_ne live fun same => isNew (congrArg some same.symm)
      refine (tight h before).imp_right fun ⟨l, holds⟩ => ⟨l, ?_⟩
      have different : l ≠ k := by
        rintro rfl
        rw [empty] at holds
        contradiction
      simp only [apply, Function.update_of_ne different, holds]

theorem tight_release (s : State K H) (k : K) : Tight (apply s (.release k)) ↔ Tight s := by
  have live (h : H) : h ∈ (apply s (.release k)).live ↔ h ∈ s.live ∧ s.slots k ≠ some h := by
    simp only [apply]
    cases slot : s.slots k with
    | none => simp
    | some old => simp [Finset.mem_erase, and_comm, eq_comm]
  have slots (h : H) (l : K) : (apply s (.release k)).slots l = some h ↔
      l ≠ k ∧ s.slots l = some h := by
    simp only [apply, Function.update_apply]
    split <;> simp_all
  constructor
  · intro tight h known
    by_cases own : s.slots k = some h
    · exact Or.inr ⟨k, own⟩
    · exact (tight h ((live h).mpr ⟨known, own⟩)).imp_right fun ⟨l, holds⟩ =>
        ⟨l, ((slots h l).mp holds).2⟩
  · intro tight h known
    obtain ⟨before, other⟩ := (live h).mp known
    exact (tight h before).imp_right fun ⟨l, holds⟩ =>
      ⟨l, (slots h l).mpr ⟨fun here => other (here ▸ holds), holds⟩⟩

theorem tight_apply (owns : Owns s) {op : Op K H} (fresh : Fresh s op) :
    Tight (apply s op) ↔ Tight s ∧ ¬Loses s op := by
  cases op with
  | assign k new =>
    rw [tight_assign owns fresh, Loses, Bool.not_eq_true, Option.isSome_eq_false_iff,
      Option.isNone_iff_eq_none]
  | release k => simpa [Loses] using tight_release s k
  | foreignOpen new =>
    simp only [Loses, not_false_eq_true, and_true]
    constructor
    · intro tight h live
      refine (tight h (Finset.mem_insert_of_mem live)).imp_left fun known => ?_
      exact Finset.mem_of_mem_insert_of_ne known fun same => fresh (same ▸ live)
    · intro tight h live
      rcases Finset.mem_insert.mp live with same | before
      · exact Or.inl (same ▸ Finset.mem_insert_self new s.foreign)
      · exact (tight h before).imp_left Finset.mem_insert_of_mem
  | foreignClose old =>
    simp only [Loses, not_false_eq_true, and_true]
    constructor
    · intro tight h live
      by_cases here : h = old
      · exact Or.inl (here ▸ fresh)
      · exact (tight h (Finset.mem_erase.mpr ⟨here, live⟩)).imp_left Finset.mem_of_mem_erase
    · intro tight h live
      obtain ⟨different, before⟩ := Finset.mem_erase.mp live
      exact (tight h before).imp_left fun known => Finset.mem_erase.mpr ⟨different, known⟩

def step (s : State K H) (op : Op K H) : Option (Unit × State K H) := some ((), apply s op)

def applyAll (s : State K H) (ops : List (Op K H)) : State K H := ops.foldl apply s

theorem along_step_cons {P : State K H → Op K H → Prop} (op : Op K H) (ops : List (Op K H)) :
    Along step P s (op :: ops) ↔ P s op ∧ Along step P (apply s op) ops :=
  along_cons ops rfl

theorem applyAll_owns_tight (owns : Owns s) {ops : List (Op K H)} (fresh : Along step Fresh s ops) :
    Owns (applyAll s ops) ∧
      (Tight (applyAll s ops) ↔ Tight s ∧ Along step (fun s op => ¬Loses s op) s ops) := by
  induction ops generalizing s with
  | nil => exact ⟨owns, by simp [applyAll, Along]⟩
  | cons op ops ih =>
    obtain ⟨here, later⟩ := (along_step_cons op ops).mp fresh
    obtain ⟨after, tight⟩ := ih (owns.apply here) later
    refine ⟨after, ?_⟩
    rw [along_step_cons, ← and_assoc, ← tight_apply owns here]
    exact tight

end Handles
