import Mathlib.Data.Vector.Defs

set_option autoImplicit false

structure BoundedPool (α : Type) (capacity : Nat) where
  slots : Vector α capacity
  used : Nat
  bound : used ≤ capacity

namespace BoundedPool

variable {α : Type} {capacity : Nat}

def empty (fill : α) : BoundedPool α capacity where
  slots := Vector.replicate capacity fill
  used := 0
  bound := Nat.zero_le capacity

def push (pool : BoundedPool α capacity) (value : α) : Option (Nat × BoundedPool α capacity) :=
  -- a store past the last slot has no defined result
  if room : pool.used < capacity then
    some (pool.used,
      { slots := pool.slots.set pool.used value, used := pool.used + 1, bound := room })
  else none

def read (pool : BoundedPool α capacity) (slot : Nat) : Option α :=
  pool.slots[slot]?

theorem push_isSome (pool : BoundedPool α capacity) (value : α) :
    (pool.push value).isSome ↔ pool.used < capacity := by
  unfold push
  split <;> simp_all

theorem read_isSome (pool : BoundedPool α capacity) (slot : Nat) :
    (pool.read slot).isSome ↔ slot < capacity := by
  simp [read]

theorem read_empty {fill value : α} {slot : Nat}
    (content : (empty fill : BoundedPool α capacity).read slot = some value) : value = fill := by
  simp only [read, empty, Vector.getElem?_replicate] at content
  split at content
  · exact (Option.some.inj content).symm
  · contradiction

theorem push_cases {pool next : BoundedPool α capacity} {value : α} {slot : Nat}
    (pushed : pool.push value = some (slot, next)) :
    slot = pool.used ∧ pool.used < capacity ∧ next.used = pool.used + 1 ∧
      next.read slot = some value ∧ ∀ other ≠ slot, next.read other = pool.read other := by
  unfold push at pushed
  split at pushed
  next room =>
    obtain ⟨rfl, rfl⟩ := by simpa using pushed
    refine ⟨rfl, room, rfl, ?_, ?_⟩
    · simp [read, room]
    · intro other different
      simp [read, Ne.symm different]
  next => contradiction

end BoundedPool
