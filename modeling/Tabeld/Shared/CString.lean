import Tabeld.Shared.Memory

set_option autoImplicit false

namespace CString

/-- The string at `start`, if it ends within `room` bytes. -/
def stringAt (mem : Memory) : Nat → Nat → Option (List UInt8)
  | _, 0 => none
  | start, room + 1 =>
    if mem start = 0 then some [] else (stringAt mem (start + 1) room).map (mem start :: ·)

def strlen (mem : Memory) (start room : Nat) : Option Nat :=
  (stringAt mem start room).map List.length

def put (mem : Memory) (start : Nat) (text : List UInt8) : Memory := mem.write start (text ++ [0])

/-- At most `size` bytes with the terminator, as `snprintf` does it. -/
def putn (mem : Memory) (start size : Nat) (text : List UInt8) : Memory :=
  if size = 0 then mem else put mem start (text.take (size - 1))

theorem stringAt_eq_some {mem : Memory} {start room : Nat} {text : List UInt8} :
    stringAt mem start room = some text ↔
      text.length < room ∧ 0 ∉ text ∧ mem.Holds start (text ++ [0]) := by
  induction room generalizing start text with
  | zero => simp [stringAt]
  | succ room ih =>
    rw [stringAt]
    by_cases ends : mem start = 0
    · cases text with
      | nil => simp [ends, Memory.Holds, Memory.bytes]
      | cons byte rest =>
        simp only [ends, if_true, Option.some.injEq, List.cons_append, Memory.holds_cons]
        refine iff_of_false (by simp) ?_
        rintro ⟨-, clean, rfl, -⟩
        simp at clean
    · rw [if_neg ends, Option.map_eq_some_iff]
      cases text with
      | nil => simp [ends, Memory.holds_cons]
      | cons byte rest =>
        simp only [List.cons.injEq, ih, List.cons_append, Memory.holds_cons]
        constructor
        · rintro ⟨_, ⟨short, clean, later⟩, rfl, rfl⟩
          exact ⟨by simpa using short, by simpa [Ne.symm ends] using clean, rfl, later⟩
        · rintro ⟨short, clean, here, later⟩
          have room : rest.length < room := by simpa using short
          exact ⟨rest, ⟨room, fun member => clean (List.mem_cons_of_mem byte member), later⟩,
            here, rfl⟩

theorem stringAt_congr {left right : Memory} (start room : Nat)
    (same : ∀ address, start ≤ address → address < start + room → left address = right address) :
    stringAt left start room = stringAt right start room := by
  induction room generalizing start with
  | zero => rfl
  | succ room ih =>
    have head := same start (by omega) (by omega)
    have tail := ih (start + 1) fun address low high => same address (by omega) (by omega)
    rw [stringAt, stringAt, head, tail]

theorem put_other (mem : Memory) {start address : Nat} {text : List UInt8}
    (outside : address < start ∨ start + text.length < address) :
    put mem start text address = mem address := by
  apply mem.write_other
  rw [List.length_append, List.length_singleton]
  omega

theorem stringAt_put (mem : Memory) (start : Nat) {room : Nat} {text : List UInt8}
    (short : text.length < room) (clean : 0 ∉ text) :
    stringAt (put mem start text) start room = some text :=
  stringAt_eq_some.mpr ⟨short, clean, mem.holds_write start (text ++ [0])⟩

theorem putn_of_short (mem : Memory) (start : Nat) {size : Nat} {text : List UInt8}
    (short : text.length < size) : putn mem start size text = put mem start text := by
  rw [putn, if_neg (by omega), List.take_of_length_le (by omega)]

theorem stringAt_put_end {mem : Memory} {start room : Nat} {text more : List UInt8}
    (string : stringAt mem start room = some text) (short : text.length + more.length < room)
    (clean : 0 ∉ more) :
    stringAt (put mem (start + text.length) more) start room = some (text ++ more) := by
  rw [stringAt_eq_some] at string ⊢
  obtain ⟨-, cleanText, holds⟩ := string
  refine ⟨by simpa using short, by simp [cleanText, clean], ?_⟩
  rw [Memory.holds_append] at holds
  rw [List.append_assoc, Memory.holds_append]
  exact ⟨holds.1.write (Or.inl (Nat.le_refl _)), Memory.holds_write _ _ _⟩

end CString
