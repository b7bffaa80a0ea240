import Tabeld.Shared.ByteOrder

set_option autoImplicit false

/-!
# Byte-addressed memory

A memory has a byte at every address; which of them belong to a buffer is up to its user.
-/

abbrev Memory : Type := Nat → UInt8

namespace Memory

def bytes (mem : Memory) : Nat → Nat → List UInt8
  | _, 0 => []
  | start, count + 1 => mem start :: mem.bytes (start + 1) count

def word (mem : Memory) (order : ByteOrder) (start width : Nat) : Nat :=
  order.load (mem.bytes start width)

def write (mem : Memory) (start : Nat) (content : List UInt8) : Memory := fun address =>
  if start ≤ address ∧ address < start + content.length then content.getD (address - start) 0
  else mem address

def zeroed : Memory := fun _ => 0

def ofBytes (data : List UInt8) (beyond : Memory) : Memory := fun address =>
  if address < data.length then data.getD address 0 else beyond (address - data.length)

def Holds (mem : Memory) (start : Nat) (content : List UInt8) : Prop :=
  mem.bytes start content.length = content

@[simp] theorem length_bytes (mem : Memory) (start count : Nat) :
    (mem.bytes start count).length = count := by
  induction count generalizing start with
  | zero => rfl
  | succ count ih => simp [bytes, ih]

theorem bytes_add (mem : Memory) (start count more : Nat) :
    mem.bytes start (count + more) = mem.bytes start count ++ mem.bytes (start + count) more := by
  induction count generalizing start with
  | zero => simp [bytes]
  | succ count ih =>
    have shift : count + 1 + more = (count + more) + 1 := by omega
    have next : start + 1 + count = start + (count + 1) := by omega
    rw [shift, bytes, ih, next, bytes, List.cons_append]

theorem bytes_congr {left right : Memory} (start count : Nat)
    (same : ∀ address, start ≤ address → address < start + count → left address = right address) :
    left.bytes start count = right.bytes start count := by
  induction count generalizing start with
  | zero => rfl
  | succ count ih =>
    have head := same start (by omega) (by omega)
    have tail := ih (start + 1) fun address low high => same address (by omega) (by omega)
    rw [bytes, bytes, head, tail]

theorem word_congr {left right : Memory} (order : ByteOrder) (start width : Nat)
    (same : ∀ address, start ≤ address → address < start + width → left address = right address) :
    left.word order start width = right.word order start width := by
  rw [word, word, bytes_congr start width same]

theorem holds_append (mem : Memory) (start : Nat) (left right : List UInt8) :
    mem.Holds start (left ++ right) ↔
      mem.Holds start left ∧ mem.Holds (start + left.length) right := by
  rw [Holds, List.length_append, bytes_add]
  constructor
  · intro same
    exact List.append_inj same (by simp)
  · rintro ⟨first, second⟩
    rw [Holds] at first second
    rw [first, second]

theorem holds_cons (mem : Memory) (start : Nat) (byte : UInt8) (rest : List UInt8) :
    mem.Holds start (byte :: rest) ↔ mem start = byte ∧ mem.Holds (start + 1) rest := by
  simp [Holds, bytes]

theorem Holds.congr {left right : Memory} {start : Nat} {content : List UInt8}
    (holds : left.Holds start content)
    (same : ∀ address, start ≤ address → address < start + content.length →
      left address = right address) : right.Holds start content := by
  rw [Holds, ← bytes_congr start content.length same]
  exact holds

theorem holds_bytes (mem : Memory) (start count : Nat) :
    mem.Holds start (mem.bytes start count) := by
  rw [Holds, length_bytes]

theorem Holds.word {mem : Memory} {order : ByteOrder} {start width value : Nat}
    (holds : mem.Holds start (order.store width value)) (bound : value < 256 ^ width) :
    mem.word order start width = value := by
  rw [Holds, ByteOrder.length_store] at holds
  rw [Memory.word, holds, order.load_store width value bound]

@[simp] theorem word_one (mem : Memory) (order : ByteOrder) (start : Nat) :
    mem.word order start 1 = (mem start).toNat := by
  cases order <;> simp [Memory.word, bytes, ByteOrder.load]

theorem holds_of_getD {mem : Memory} {start : Nat} {content : List UInt8}
    (same : ∀ i < content.length, mem (start + i) = content.getD i 0) :
    mem.Holds start content := by
  induction content generalizing start with
  | nil => rfl
  | cons byte rest ih =>
    rw [holds_cons]
    refine ⟨by simpa using same 0 (by simp), ih ?_⟩
    intro i bound
    have next := same (i + 1) (by simpa using bound)
    rwa [List.getD_cons_succ, ← Nat.add_assoc, Nat.add_right_comm] at next

theorem Holds.getD {mem : Memory} {start : Nat} {content : List UInt8}
    (holds : mem.Holds start content) {i : Nat} (bound : i < content.length) :
    mem (start + i) = content.getD i 0 := by
  induction content generalizing start i with
  | nil => simp at bound
  | cons byte rest ih =>
    rw [holds_cons] at holds
    cases i with
    | zero => simpa using holds.1
    | succ i =>
      have next := ih holds.2 (by simpa using bound)
      rwa [Nat.add_right_comm] at next

theorem holds_write (mem : Memory) (start : Nat) (content : List UInt8) :
    (mem.write start content).Holds start content := by
  apply holds_of_getD
  intro i bound
  rw [write, if_pos ⟨by omega, by omega⟩, Nat.add_sub_cancel_left]

theorem write_other (mem : Memory) {start address : Nat} {content : List UInt8}
    (outside : address < start ∨ start + content.length ≤ address) :
    mem.write start content address = mem address := by
  rw [write, if_neg (by omega)]

theorem Holds.write {mem : Memory} {start other : Nat} {content written : List UInt8}
    (holds : mem.Holds start content)
    (apart : start + content.length ≤ other ∨ other + written.length ≤ start) :
    (mem.write other written).Holds start content :=
  holds.congr fun address low high => (mem.write_other (by omega)).symm

theorem holds_ofBytes (data : List UInt8) (beyond : Memory) :
    (ofBytes data beyond).Holds 0 data := by
  apply holds_of_getD
  intro i bound
  rw [ofBytes, Nat.zero_add, if_pos bound]

end Memory
