import Mathlib.Logic.Function.Basic

set_option autoImplicit false

structure RingBuffer (α : Type) (size : Nat) where
  slots : Fin size → α
  current : Fin size

namespace RingBuffer

variable {α : Type} {size : Nat}

def following (ring : RingBuffer α size) : Fin size :=
  ⟨(ring.current + 1) % size, Nat.mod_lt _ (Nat.zero_lt_of_lt ring.current.isLt)⟩

def rotate (ring : RingBuffer α size) (change : α → α) : Fin size × RingBuffer α size :=
  (ring.following,
    { slots := Function.update ring.slots ring.following (change (ring.slots ring.following))
      current := ring.following })

def result (call : Fin size × RingBuffer α size) : α := call.2.slots call.1

@[simp] theorem result_rotate (ring : RingBuffer α size) (change : α → α) :
    result (ring.rotate change) = change (ring.slots ring.following) := by
  simp [result, rotate]

theorem rotate_eq (ring : RingBuffer α size) (change : α → α) :
    ring.rotate change = ring.rotate fun _ => result (ring.rotate change) := by
  rw [result_rotate]
  rfl

def map {β : Type} (ring : RingBuffer α size) (f : α → β) : RingBuffer β size where
  slots := fun k => f (ring.slots k)
  current := ring.current

theorem rotate_map {β : Type} (ring : RingBuffer α size) (f : α → β) (content : α) :
    ((ring.map f).rotate fun _ => f content).2 = (ring.rotate fun _ => content).2.map f := by
  simp only [rotate, map, following, mk.injEq, and_true]
  exact (Function.comp_update f ring.slots _ content).symm

def rotates (ring : RingBuffer α size) (changes : List (α → α)) : RingBuffer α size :=
  changes.foldl (fun ring change => (ring.rotate change).2) ring

theorem following_ne {ring : RingBuffer α size} {k : Fin size} {n : Nat}
    (ahead : ring.current = (k + n) % size) (few : n + 1 < size) : ring.following ≠ k := by
  intro same
  have slot : (k + n + 1) % size = k := by
    have next := congrArg Fin.val same
    simp only [following, ahead, Nat.mod_add_mod] at next
    exact next
  rcases Nat.lt_or_ge (k + n + 1) size with inside | beyond
  · rw [Nat.mod_eq_of_lt inside] at slot
    omega
  · have once : k + n + 1 - size < size := by omega
    rw [Nat.mod_eq_sub_mod beyond, Nat.mod_eq_of_lt once] at slot
    omega

theorem slots_rotates_ahead (changes : List (α → α)) {ring : RingBuffer α size} {k : Fin size}
    {n : Nat} (ahead : ring.current = (k + n) % size) (few : n + changes.length < size) :
    (ring.rotates changes).slots k = ring.slots k := by
  induction changes generalizing ring n with
  | nil => rfl
  | cons change rest ih =>
    rw [List.length_cons] at few
    have other := following_ne ahead (by omega)
    have next : (ring.rotate change).2.current = (k + (n + 1)) % size := by
      simp only [rotate, following, ahead, Nat.mod_add_mod]
      rfl
    rw [rotates, List.foldl_cons, ← rotates, ih next (by omega)]
    exact Function.update_of_ne (Ne.symm other) ..

theorem slots_rotates (ring : RingBuffer α size) (changes : List (α → α))
    (few : changes.length < size) :
    (ring.rotates changes).slots ring.current = ring.slots ring.current := by
  apply slots_rotates_ahead changes (n := 0)
  · rw [Nat.add_zero, Nat.mod_eq_of_lt ring.current.isLt]
  · omega

end RingBuffer
