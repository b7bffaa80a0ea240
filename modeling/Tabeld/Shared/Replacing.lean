import Mathlib.Data.List.Sort

set_option autoImplicit false

/-!
# Replacing an entry of an ordered list

An entry is replaced by putting in the new one first and then taking out the first entry that a
test selects.
-/

namespace Replacing

variable {A : Type} (P : A → Prop)

theorem exists_mem_eraseP [DecidablePred P] {entries : List A} (q : A → Bool)
    (two : 2 ≤ entries.countP fun a => decide (P a)) : ∃ a ∈ entries.eraseP q, P a := by
  have remains : 0 < (entries.eraseP q).countP fun a => decide (P a) := by
    rcases List.exists_or_eq_self_of_eraseP q entries with
      same | ⟨taken, before, after, -, -, split, erased⟩
    · rw [same]
      omega
    · rw [split, List.countP_append, List.countP_cons] at two
      rw [erased, List.countP_append]
      split at two <;> omega
  obtain ⟨a, member, holds⟩ := List.countP_pos_iff.mp remains
  exact ⟨a, member, by simpa using holds⟩

variable (before : A → A → Prop) [DecidableRel before]

theorem countP_eraseP (q : A → Bool) (entries : List A) :
    (entries.eraseP q).countP q = entries.countP q - 1 := by
  induction entries with
  | nil => rfl
  | cons a rest ih =>
    cases selected : q a with
    | true => rw [List.eraseP_cons_of_pos selected, List.countP_cons_of_pos selected]; omega
    | false =>
      have kept : ¬q a = true := by simp [selected]
      rw [List.eraseP_cons_of_neg kept, List.countP_cons_of_neg kept, List.countP_cons_of_neg kept,
        ih]

theorem countP_replaced (q : A → Bool) (new : A) (entries : List A) :
    ((entries.orderedInsert before new).eraseP q).countP q =
      if q new = true then entries.countP q else entries.countP q - 1 := by
  rw [countP_eraseP, (entries.perm_orderedInsert before new).countP_eq, List.countP_cons]
  split <;> omega

theorem exists_mem_orderedInsert {entries : List A} (new : A) (some_ : ∃ a ∈ entries, P a) :
    ∃ a ∈ entries.orderedInsert before new, P a := by
  obtain ⟨a, member, holds⟩ := some_
  exact ⟨a, (List.mem_orderedInsert before).mpr (Or.inr member), holds⟩

theorem exists_mem_replaced [DecidablePred P] {entries : List A} {new : A} (holds : P new)
    (some_ : ∃ a ∈ entries, P a) (q : A → Bool) :
    ∃ a ∈ (entries.orderedInsert before new).eraseP q, P a := by
  apply exists_mem_eraseP
  rw [(entries.perm_orderedInsert before new).countP_eq, List.countP_cons_of_pos (by simpa)]
  obtain ⟨a, member, old⟩ := some_
  have one : 0 < entries.countP fun a => decide (P a) :=
    List.countP_pos_iff.mpr ⟨a, member, by simpa using old⟩
  omega

theorem mem_replaced {entries : List A} (new : A) {q : A → Bool} {a : A} (kept : q a = false) :
    a ∈ (entries.orderedInsert before new).eraseP q ↔ a = new ∨ a ∈ entries := by
  rw [List.mem_eraseP_of_neg (by simp [kept]), List.mem_orderedInsert]

end Replacing
