import Mathlib.Logic.Function.Basic

set_option autoImplicit false

/-!
# Arrays of keyed slots

A slot is free or holds a value under a key. The array is filled from the front, and a key is in
at most one slot.
-/

namespace KeyedSlots

variable {K V : Type} {n : Nat}

abbrev Slots (K V : Type) (n : Nat) : Type := Fin n → Option (K × V)

def Packed (s : Slots K V n) : Prop := ∀ i j, i < j → (s j).isSome → (s i).isSome

def Distinct (s : Slots K V n) : Prop :=
  ∀ i j a b, s i = some a → s j = some b → a.1 = b.1 → i = j

def Ordered (le : V → V → Prop) (s : Slots K V n) : Prop :=
  ∀ i j a b, i < j → s i = some a → s j = some b → le a.2 b.2

def Keeps (s t : Slots K V n) : Prop := ∀ i a, s i = some a → ∃ b, t i = some b ∧ b.1 = a.1

def write (s : Slots K V n) (i : Fin n) (a : K × V) : Slots K V n := Function.update s i (some a)

/-- `a` may go into slot `i`: nothing before it is free, its key is in no other slot, and no
other key is in this one. -/
structure Admits (s : Slots K V n) (i : Fin n) (a : K × V) : Prop where
  before : ∀ j < i, (s j).isSome
  new : ∀ j b, s j = some b → b.1 = a.1 → j = i
  own : ∀ b, s i = some b → b.1 = a.1

variable {s t u : Slots K V n} {i : Fin n} {a : K × V}

@[simp] theorem write_self (s : Slots K V n) (i : Fin n) (a : K × V) : write s i a i = some a := by
  simp [write]

theorem write_of_ne (s : Slots K V n) {i j : Fin n} (a : K × V) (different : j ≠ i) :
    write s i a j = s j := by
  simp [write, different]

theorem Keeps.refl (s : Slots K V n) : Keeps s s := fun _ a held => ⟨a, held, rfl⟩

theorem Keeps.trans (first : Keeps s t) (second : Keeps t u) : Keeps s u := by
  intro i a held
  obtain ⟨b, middle, same⟩ := first i a held
  obtain ⟨c, last, again⟩ := second i b middle
  exact ⟨c, last, again.trans same⟩

theorem Packed.write (packed : Packed s) (admits : Admits s i a) : Packed (write s i a) := by
  intro x y less filled
  by_cases left : x = i
  · simp [left]
  · rw [write_of_ne s a left]
    by_cases right : y = i
    · exact admits.before x (right ▸ less)
    · rw [write_of_ne s a right] at filled
      exact packed x y less filled

theorem Distinct.write (distinct : Distinct s) (admits : Admits s i a) :
    Distinct (write s i a) := by
  intro x y b c first second same
  by_cases left : x = i <;> by_cases right : y = i
  · rw [left, right]
  · rw [left, write_self, Option.some.injEq] at first
    rw [write_of_ne s a right] at second
    exact absurd (admits.new y c second (by rw [first, same])) right
  · rw [right, write_self, Option.some.injEq] at second
    rw [write_of_ne s a left] at first
    exact absurd (admits.new x b first (by rw [second, same])) left
  · rw [write_of_ne s a left] at first
    rw [write_of_ne s a right] at second
    exact distinct x y b c first second same

theorem keeps_write (admits : Admits s i a) : Keeps s (write s i a) := by
  intro j b held
  by_cases here : j = i
  · subst here
    exact ⟨a, write_self s j a, (admits.own b held).symm⟩
  · exact ⟨b, by rw [write_of_ne s a here, held], rfl⟩

theorem ordered_write_free {le : V → V → Prop} (packed : Packed s) (ordered : Ordered le s)
    (free : s i = none) :
    Ordered le (write s i a) ↔ ∀ j b, s j = some b → le b.2 a.2 := by
  have ahead (j : Fin n) (b : K × V) (held : s j = some b) : j < i := by
    by_contra behind
    have different : j ≠ i := by
      intro here
      rw [here, free] at held
      contradiction
    have filled := packed i j (by omega) (by rw [held]; rfl)
    rw [free] at filled
    contradiction
  constructor
  · intro after j b held
    have less := ahead j b held
    exact after j i b a less (by rw [write_of_ne s a (Fin.ne_of_lt less), held]) (write_self s i a)
  · intro bound x y b c less first second
    by_cases left : x = i
    · rw [write_of_ne s a (by omega)] at second
      have := ahead y c second
      omega
    · rw [write_of_ne s a left] at first
      by_cases right : y = i
      · rw [right, write_self, Option.some.injEq] at second
        exact second ▸ bound x b first
      · rw [write_of_ne s a right] at second
        exact ordered x y b c less first second

theorem Ordered.write_least {le : V → V → Prop} (ordered : Ordered le s)
    (least : ∀ j, ¬j < i) {b : K × V} (held : s i = some b)
    (smaller : ∀ v, le b.2 v → le a.2 v) : Ordered le (write s i a) := by
  intro x y c d less first second
  have right : y ≠ i := fun here => least x (here ▸ less)
  rw [write_of_ne s a right] at second
  by_cases left : x = i
  · subst left
    rw [write_self, Option.some.injEq] at first
    exact first ▸ smaller d.2 (ordered x y b d less held second)
  · rw [write_of_ne s a left] at first
    exact ordered x y c d less first second

end KeyedSlots
