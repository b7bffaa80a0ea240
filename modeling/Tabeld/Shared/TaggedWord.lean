import Mathlib.Algebra.Group.Nat.Defs

set_option autoImplicit false

/-!
# Words with a tag in their low bits

`pack bits tag n` keeps `tag` in the low `bits` bits of a word and the number `n` above them.
-/

namespace TaggedWord

variable {w : Nat}

def pack (bits : Nat) (tag : BitVec w) (n : Nat) : BitVec w :=
  tag ||| BitVec.ofNat w n <<< bits

theorem getLsbD_low {bits : Nat} {x : BitVec w} (low : x.toNat < 2 ^ bits) {i : Nat}
    (above : bits ≤ i) : x.getLsbD i = false :=
  Nat.testBit_lt_two_pow (Nat.lt_of_lt_of_le low (Nat.pow_le_pow_right (by omega) above))

theorem shift_or_low {bits : Nat} {flags : BitVec w} (word : BitVec w)
    (low : flags.toNat < 2 ^ bits) : (word ||| flags) >>> bits = word >>> bits := by
  apply BitVec.eq_of_getLsbD_eq
  intro i _
  simp [getLsbD_low low (Nat.le_add_right bits i)]

theorem mask_or_disjoint {flags mask : BitVec w} (word : BitVec w)
    (disjoint : flags &&& mask = 0) : (word ||| flags) &&& mask = word &&& mask := by
  rw [BitVec.and_or_distrib_right, disjoint]
  exact BitVec.or_zero

theorem pack_mask {bits : Nat} {mask : BitVec w} (tag : BitVec w) (n : Nat)
    (low : mask.toNat < 2 ^ bits) : pack bits tag n &&& mask = tag &&& mask := by
  apply mask_or_disjoint
  apply BitVec.eq_of_getLsbD_eq
  intro i _
  by_cases inside : i < bits
  · simp [inside]
  · simp [getLsbD_low low (Nat.le_of_not_lt inside)]

theorem pack_shift {bits n : Nat} {tag : BitVec w} (low : tag.toNat < 2 ^ bits)
    (fits : n * 2 ^ bits < 2 ^ w) : (pack bits tag n >>> bits).toNat = n := by
  have positive : 0 < 2 ^ bits := Nat.two_pow_pos bits
  have small : n < 2 ^ w := Nat.lt_of_le_of_lt (Nat.le_mul_of_pos_right n positive) fits
  rw [pack, BitVec.or_comm, shift_or_low _ low]
  simp only [BitVec.toNat_ushiftRight, BitVec.toNat_shiftLeft, BitVec.toNat_ofNat,
    Nat.mod_eq_of_lt small, Nat.shiftLeft_eq, Nat.mod_eq_of_lt fits, Nat.shiftRight_eq_div_pow]
  exact Nat.mul_div_cancel n positive

theorem pack_toNat {bits n : Nat} {tag : BitVec w} (low : tag.toNat < 2 ^ bits)
    (fits : n * 2 ^ bits < 2 ^ w) : (pack bits tag n).toNat = 2 ^ bits * n + tag.toNat := by
  have small : n < 2 ^ w :=
    Nat.lt_of_le_of_lt (Nat.le_mul_of_pos_right n (Nat.two_pow_pos bits)) fits
  rw [Nat.two_pow_add_eq_or_of_lt low, Nat.or_comm]
  simp only [pack, BitVec.toNat_or, BitVec.toNat_shiftLeft, BitVec.toNat_ofNat,
    Nat.mod_eq_of_lt small, Nat.shiftLeft_eq, Nat.mod_eq_of_lt fits, Nat.mul_comm]

end TaggedWord
