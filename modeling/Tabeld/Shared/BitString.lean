import Mathlib.Data.Nat.Bitwise

set_option autoImplicit false

/-!
# Bits of byte strings

Bits are counted from the highest bit of the first byte, as prefix lengths count them.
-/

namespace BitString

def bitAt (bytes : List UInt8) (i : Nat) : Bool :=
  (bytes.getD (i / 8) 0).toNat.testBit (7 - i % 8)

def Agree (count : Nat) (left right : List UInt8) : Prop :=
  ∀ i < count, bitAt left i = bitAt right i

instance decidableAgree (count : Nat) (left right : List UInt8) :
    Decidable (Agree count left right) :=
  inferInstanceAs (Decidable (∀ i < count, _))

theorem agree_refl (count : Nat) (bytes : List UInt8) : Agree count bytes bytes :=
  fun _ _ => rfl

theorem bitAt_zeros (size i : Nat) : bitAt (List.replicate size 0) i = false := by
  have byte : (List.replicate size (0 : UInt8)).getD (i / 8) 0 = 0 := by
    by_cases inside : i / 8 < size <;> simp [List.getD, inside]
  rw [bitAt, byte]
  exact Nat.zero_testBit _

theorem eq_of_agree {left right : List UInt8} (size : left.length = right.length)
    (agree : Agree (8 * left.length) left right) : left = right := by
  have bytes (k : Nat) (bound : k < left.length) : left.getD k 0 = right.getD k 0 := by
    apply UInt8.toNat_inj.mp
    apply Nat.eq_of_testBit_eq
    intro j
    by_cases inside : j < 8
    · -- bit j of byte k is bit 8 * k + (7 - j) of the string
      have same := agree (8 * k + (7 - j)) (by omega)
      have byte : (8 * k + (7 - j)) / 8 = k := by omega
      have place : 7 - (8 * k + (7 - j)) % 8 = j := by omega
      simpa only [bitAt, byte, place] using same
    · have high (byte : UInt8) : byte.toNat.testBit j = false := by
        apply Nat.testBit_lt_two_pow
        calc byte.toNat < 2 ^ 8 := UInt8.toNat_lt _
          _ ≤ 2 ^ j := Nat.pow_le_pow_right (by omega) (by omega)
      rw [high, high]
  apply List.ext_getElem size
  intro k left_bound right_bound
  simpa [List.getD, left_bound, right_bound] using bytes k left_bound

theorem bitAt_take {bytes : List UInt8} {size i : Nat} (inside : i < 8 * size) :
    bitAt (bytes.take size) i = bitAt bytes i := by
  have byte : i / 8 < size := by omega
  simp [bitAt, List.getD, List.getElem?_take_of_lt byte]

theorem agree_iff_take {left right : List UInt8} {size : Nat} (leftSize : size ≤ left.length)
    (rightSize : size ≤ right.length) :
    Agree (8 * size) left right ↔ left.take size = right.take size := by
  constructor
  · intro agree
    have lengths : (left.take size).length = (right.take size).length := by
      rw [List.length_take_of_le leftSize, List.length_take_of_le rightSize]
    apply eq_of_agree lengths
    rw [List.length_take_of_le leftSize]
    intro i inside
    rw [bitAt_take inside, bitAt_take inside]
    exact agree i inside
  · intro same i inside
    rw [← bitAt_take inside, same, bitAt_take inside]

end BitString
