import Mathlib.Data.Nat.Digits.Defs

set_option autoImplicit false

/-!
# Words in memory

A word of `width` bytes is a `Nat` below `256 ^ width`; its image in memory is a list of bytes
whose order depends on the machine.
-/

inductive ByteOrder where
  | little
  | big
  deriving DecidableEq

namespace ByteOrder

def load (order : ByteOrder) (bytes : List UInt8) : Nat :=
  match order with
  | .little => Nat.ofDigits 256 (bytes.map UInt8.toNat)
  | .big => Nat.ofDigits 256 (bytes.reverse.map UInt8.toNat)

def storeLittle : Nat → Nat → List UInt8
  | 0, _ => []
  | width + 1, word => UInt8.ofNat word :: storeLittle width (word / 256)

def store (order : ByteOrder) (width word : Nat) : List UInt8 :=
  match order with
  | .little => storeLittle width word
  | .big => (storeLittle width word).reverse

/-- The word whose image in memory is the big-endian image of `word`. -/
def toBig (order : ByteOrder) (width word : Nat) : Nat :=
  match order with
  | .little => ByteOrder.big.load (storeLittle width word)
  | .big => word

theorem load_big (bytes : List UInt8) :
    ByteOrder.big.load bytes = ByteOrder.little.load bytes.reverse := rfl

@[simp] theorem length_storeLittle (width word : Nat) :
    (storeLittle width word).length = width := by
  induction width generalizing word with
  | zero => rfl
  | succ width ih => simp [storeLittle, ih]

@[simp] theorem length_store (order : ByteOrder) (width word : Nat) :
    (order.store width word).length = width := by
  cases order <;> simp [store]

theorem storeLittle_load (bytes : List UInt8) :
    storeLittle bytes.length (ByteOrder.little.load bytes) = bytes := by
  induction bytes with
  | nil => rfl
  | cons byte rest ih =>
    have small : byte.toNat < 256 := byte.toNat_lt
    have value : ByteOrder.little.load (byte :: rest) =
        byte.toNat + 256 * ByteOrder.little.load rest := by
      simp [load, Nat.ofDigits_cons]
    have low : UInt8.ofNat (byte.toNat + 256 * ByteOrder.little.load rest) = byte := by
      apply UInt8.toNat_inj.mp
      simp only [UInt8.toNat_ofNat']
      omega
    have high : (byte.toNat + 256 * ByteOrder.little.load rest) / 256 =
        ByteOrder.little.load rest := by
      omega
    rw [value, List.length_cons, storeLittle, low, high, ih]

@[simp] theorem store_load (order : ByteOrder) (bytes : List UInt8) :
    order.store bytes.length (order.load bytes) = bytes := by
  cases order with
  | little => exact storeLittle_load bytes
  | big =>
    have h := storeLittle_load bytes.reverse
    rw [List.length_reverse] at h
    rw [store, load_big, h, List.reverse_reverse]

theorem load_storeLittle (width word : Nat) (bound : word < 256 ^ width) :
    ByteOrder.little.load (storeLittle width word) = word := by
  induction width generalizing word with
  | zero =>
    have : word = 0 := by simpa using bound
    simp [this, storeLittle, load]
  | succ width ih =>
    have rest : word / 256 < 256 ^ width := by
      rw [Nat.pow_succ'] at bound
      exact Nat.div_lt_of_lt_mul bound
    have tail := ih (word / 256) rest
    simp only [load] at tail
    simp only [load, storeLittle, List.map_cons, Nat.ofDigits_cons, tail, UInt8.toNat_ofNat']
    omega

@[simp] theorem load_store (order : ByteOrder) (width word : Nat) (bound : word < 256 ^ width) :
    order.load (order.store width word) = word := by
  cases order with
  | little => exact load_storeLittle width word bound
  | big => rw [store, load_big, List.reverse_reverse, load_storeLittle width word bound]

theorem load_inj (order : ByteOrder) {left right : List UInt8}
    (length : left.length = right.length) :
    order.load left = order.load right ↔ left = right := by
  constructor
  · intro same
    calc left = order.store left.length (order.load left) := (order.store_load left).symm
      _ = order.store right.length (order.load right) := by rw [same, length]
      _ = right := order.store_load right
  · intro same
    rw [same]

@[simp] theorem load_replicate_zero (order : ByteOrder) (width : Nat) :
    order.load (List.replicate width 0) = 0 := by
  cases order <;> simp [load, Nat.ofDigits_replicate_zero]

theorem load_eq_zero (order : ByteOrder) (bytes : List UInt8) :
    order.load bytes = 0 ↔ bytes = List.replicate bytes.length 0 := by
  rw [← order.load_inj (by simp), load_replicate_zero]

theorem store_zero (order : ByteOrder) (width : Nat) :
    order.store width 0 = List.replicate width 0 := by
  have h := order.store_load (List.replicate width 0)
  rwa [List.length_replicate, load_replicate_zero] at h

theorem store_toBig (order : ByteOrder) (width word : Nat) :
    order.store width (order.toBig width word) = ByteOrder.big.store width word := by
  cases order with
  | little =>
    have h := storeLittle_load (storeLittle width word).reverse
    rw [List.length_reverse, length_storeLittle] at h
    exact h
  | big => rfl

theorem load_eq_toBig (order : ByteOrder) (bytes : List UInt8) (word : Nat)
    (bound : word < 256 ^ bytes.length) :
    order.load bytes = order.toBig bytes.length word ↔
      bytes = ByteOrder.big.store bytes.length word := by
  constructor
  · intro same
    rw [← order.store_toBig, ← same, store_load]
  · intro same
    cases order with
    | little =>
      conv_lhs => rw [same]
      simp [toBig, store, load]
    | big =>
      conv_lhs => rw [same]
      exact ByteOrder.big.load_store _ _ bound

end ByteOrder
