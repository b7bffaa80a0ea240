import Mathlib.Algebra.Group.Int.Defs
import Mathlib.Tactic.ByContra

set_option autoImplicit false

/-!
# Signed integers of C

An `int` of 32 bits is an `Int`; an operation whose result is out of range, or a division by zero,
has no defined result. Division truncates toward zero.
-/

namespace CheckedInt

def InRange (x : Int) : Prop := -2 ^ 31 ≤ x ∧ x < 2 ^ 31

instance decidableInRange (x : Int) : Decidable (InRange x) := inferInstanceAs (Decidable (_ ∧ _))

def checked (x : Int) : Option Int := if InRange x then some x else none

def add (a b : Int) : Option Int := checked (a + b)

def sub (a b : Int) : Option Int := checked (a - b)

def mul (a b : Int) : Option Int := checked (a * b)

def div (a b : Int) : Option Int := if b = 0 then none else checked (a.tdiv b)

theorem checked_bind_eq_some {α : Type} {x : Int} {next : Int → Option α} {r : α} :
    (checked x).bind next = some r ↔ InRange x ∧ next x = some r := by
  unfold checked
  split
  next inside => simp [inside]
  next outside => simp [outside]

theorem checked_of_inRange {x : Int} (inside : InRange x) : checked x = some x := if_pos inside

theorem eq_of_checked {x y : Int} (same : checked x = some y) : y = x := by
  unfold checked at same
  split at same
  next => exact (Option.some.inj same).symm
  next => cases same

theorem div_of_inRange {a b : Int} (nonzero : b ≠ 0) (inside : InRange (a.tdiv b)) :
    div a b = some (a.tdiv b) := by
  rw [div, if_neg nonzero, checked_of_inRange inside]

theorem checked_bind {α : Type} {x : Int} (inside : InRange x) (next : Int → Option α) :
    (checked x).bind next = next x := by
  simp [checked, inside]

theorem div_bind_eq_some {α : Type} {a b : Int} (nonzero : b ≠ 0) {next : Int → Option α} {r : α} :
    (div a b).bind next = some r ↔ InRange (a.tdiv b) ∧ next (a.tdiv b) = some r := by
  rw [div, if_neg nonzero, checked_bind_eq_some]

theorem tdiv_nonneg_bounds {n d : Int} (pos : 0 < d) (nonneg : 0 ≤ n) :
    d * n.tdiv d ≤ n ∧ n < d * n.tdiv d + d :=
  ⟨Int.mul_tdiv_self_le nonneg, Int.lt_mul_tdiv_self_add pos⟩

theorem tdiv_neg_bounds {n d : Int} (pos : 0 < d) (neg : n < 0) :
    d * n.tdiv d - d < n ∧ n ≤ d * n.tdiv d := by
  have mirrored := tdiv_nonneg_bounds (n := -n) pos (by omega)
  rw [Int.neg_tdiv, Int.mul_neg] at mirrored
  omega

theorem tdiv_unique {n d k : Int} (pos : 0 < d) (nonneg : 0 ≤ n) (low : d * k ≤ n)
    (high : n < d * k + d) : n.tdiv d = k := by
  have split : n - d * k + d * k = n ∧ 0 ≤ n - d * k ∧ n - d * k < d := by omega
  rw [Int.tdiv_eq_ediv_of_nonneg nonneg]
  exact (Int.ediv_emod_unique pos).mpr split |>.1

theorem le_tdiv_of_pos {n d k : Int} (pos : 0 < d) (positive : 0 < k) :
    k ≤ n.tdiv d ↔ k * d ≤ n := by
  constructor
  · intro below
    by_cases nonneg : 0 ≤ n
    · calc k * d ≤ n.tdiv d * d := Int.mul_le_mul_of_nonneg_right below (by omega)
        _ = d * n.tdiv d := Int.mul_comm _ _
        _ ≤ n := (tdiv_nonneg_bounds pos nonneg).1
    · have bounds := (tdiv_neg_bounds pos (Int.not_le.mp nonneg)).1
      have grown : d * 1 ≤ d * n.tdiv d := Int.mul_le_mul_of_nonneg_left (by omega) (by omega)
      omega
  · exact Int.le_tdiv_of_mul_le pos

theorem le_tdiv_of_nonpos {n d k : Int} (pos : 0 < d) (nonpos : k ≤ 0) :
    k ≤ n.tdiv d ↔ (k - 1) * d < n := by
  by_cases nonneg : 0 ≤ n
  · have quotient : 0 ≤ n.tdiv d := Int.tdiv_nonneg nonneg (by omega)
    have product : (k - 1) * d < 0 := Int.mul_neg_of_neg_of_pos (by omega) pos
    exact iff_of_true (by omega) (by omega)
  · obtain ⟨low, high⟩ := tdiv_neg_bounds pos (Int.not_le.mp nonneg)
    constructor
    · intro below
      calc (k - 1) * d = d * k - d := by rw [Int.sub_mul, Int.one_mul, Int.mul_comm]
        _ ≤ d * n.tdiv d - d :=
          Int.sub_le_sub_right (Int.mul_le_mul_of_nonneg_left below (by omega)) d
        _ < n := low
    · intro above
      by_contra beyond
      have product : d * n.tdiv d ≤ d * (k - 1) :=
        Int.mul_le_mul_of_nonneg_left (by omega) (by omega)
      rw [Int.mul_comm d (k - 1)] at product
      omega

end CheckedInt
