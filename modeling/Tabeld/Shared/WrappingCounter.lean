import Mathlib.Algebra.Group.Nat.Defs

set_option autoImplicit false

namespace WrappingCounter

variable {w : Nat}

/-- The number of draw `k` of a counter that was at `start`. -/
def drawn (start : BitVec w) (k : Nat) : BitVec w := start + BitVec.ofNat w k

@[simp] theorem drawn_zero (start : BitVec w) : drawn start 0 = start := by
  simp [drawn]

theorem drawn_succ (start : BitVec w) (k : Nat) : drawn start (k + 1) = drawn start k + 1 := by
  rw [drawn, drawn, BitVec.add_assoc, BitVec.ofNat_add]
  rfl

theorem drawn_drawn (start : BitVec w) (i j : Nat) :
    drawn (drawn start i) j = drawn start (i + j) := by
  rw [drawn, drawn, drawn, BitVec.add_assoc, BitVec.ofNat_add]

theorem drawn_inj (start : BitVec w) {i j : Nat} (ordered : i ≤ j) (near : j - i < 2 ^ w)
    (same : drawn start i = drawn start j) : i = j := by
  have numbers : BitVec.ofNat w i = BitVec.ofNat w j := (BitVec.add_right_inj start).mp same
  have residues : i % 2 ^ w = j % 2 ^ w := by
    simpa using congrArg BitVec.toNat numbers
  have whole : (j - i) % 2 ^ w = 0 := Nat.sub_mod_eq_zero_of_mod_eq residues.symm
  rw [Nat.mod_eq_of_lt near] at whole
  omega

theorem setWidth_inj {v : Nat} (wider : w ≤ v) {a b : BitVec w}
    (same : a.setWidth v = b.setWidth v) : a = b := by
  have narrowed := congrArg (BitVec.setWidth w) same
  simpa [BitVec.setWidth_setWidth_of_le, wider] using narrowed

/-- `numbers` are those of all draws since some point, in order. -/
def Issued (counter : BitVec w) (numbers : List (BitVec w)) : Prop :=
  ∃ start, counter = drawn start numbers.length ∧
    ∀ k number, numbers[k]? = some number → number = drawn start (k + 1)

theorem issued_nil (counter : BitVec w) : Issued counter [] :=
  ⟨counter, by simp, by simp⟩

theorem Issued.draw {counter : BitVec w} {numbers : List (BitVec w)}
    (issued : Issued counter numbers) : Issued (counter + 1) (numbers ++ [counter + 1]) := by
  obtain ⟨start, current, known⟩ := issued
  refine ⟨start, ?_, ?_⟩
  · rw [List.length_append, List.length_singleton, drawn_succ, current]
  · intro k number found
    rcases Nat.lt_trichotomy k numbers.length with old | rfl | beyond
    · rw [List.getElem?_append_left old] at found
      exact known k number found
    · rw [List.getElem?_concat_length, Option.some.injEq] at found
      rw [← found, current, drawn_succ]
    · rw [List.getElem?_eq_none (by simp; omega)] at found
      contradiction

theorem Issued.last {counter : BitVec w} {numbers : List (BitVec w)}
    (issued : Issued counter numbers) {k : Nat} (found : numbers[k]? = some counter)
    (near : numbers.length - (k + 1) < 2 ^ w) : k + 1 = numbers.length := by
  obtain ⟨start, current, known⟩ := issued
  have bound : k < numbers.length := (List.getElem?_eq_some_iff.mp found).1
  exact drawn_inj start bound near ((known k counter found).symm.trans current)

end WrappingCounter
