import Tabeld.Shared.Attributes

set_option autoImplicit false

/-!
# Writing a list of attributes

The writer goes through a zeroed buffer. It moves on by the length that it finds at its own
position, so that before the first attribute it stays where it is.
-/

namespace Attributes

variable (order : ByteOrder)

def image (type : Nat) (payload : List UInt8) : List UInt8 :=
  order.store 2 (4 + payload.length) ++ order.store 2 type ++ payload ++
    List.replicate (align (4 + payload.length) - (4 + payload.length)) 0

def images (attrs : List (Nat × List UInt8)) : List UInt8 :=
  attrs.flatMap fun a => image order a.1 a.2

def Storable (type : Nat) (payload : List UInt8) : Prop := type < 65536 ∧ 4 + payload.length < 65536

instance (type : Nat) (payload : List UInt8) : Decidable (Storable type payload) :=
  inferInstanceAs (Decidable (_ ∧ _))

def place : Nat → List (Nat × List UInt8) → List Attribute
  | _, [] => []
  | start, (type, payload) :: rest =>
    ⟨start, 4 + payload.length, type⟩ :: place (start + align (4 + payload.length)) rest

@[simp] theorem length_image (type : Nat) (payload : List UInt8) :
    (image order type payload).length = align (4 + payload.length) := by
  have grown := le_align (4 + payload.length)
  simp only [image, List.length_append, ByteOrder.length_store, List.length_replicate]
  omega

@[simp] theorem images_nil : images order [] = [] := rfl

@[simp] theorem images_cons (a : Nat × List UInt8) (rest : List (Nat × List UInt8)) :
    images order (a :: rest) = image order a.1 a.2 ++ images order rest := by
  simp [images]

theorem images_append (left right : List (Nat × List UInt8)) :
    images order (left ++ right) = images order left ++ images order right := by
  simp [images]

theorem holds_image {mem : Memory} {start type : Nat} {payload : List UInt8}
    (holds : mem.Holds start (image order type payload)) (storable : Storable type payload) :
    first order mem start = ⟨start, 4 + payload.length, type⟩ ∧
      mem.Holds (start + 4) payload := by
  simp only [image, Memory.holds_append, ByteOrder.length_store, List.length_append,
    Nat.reduceAdd] at holds
  obtain ⟨⟨⟨len, type_⟩, content⟩, -⟩ := holds
  refine ⟨?_, content⟩
  rw [first, len.word storable.2, type_.word storable.1]

theorem list_images {mem : Memory} {start : Nat} {attrs : List (Nat × List UInt8)}
    (holds : mem.Holds start (images order attrs)) (storable : ∀ a ∈ attrs, Storable a.1 a.2) :
    list order mem start (images order attrs).length = place start attrs := by
  induction attrs generalizing start with
  | nil =>
    rw [list_eq, if_neg fun ok => absurd ok.1 (by simp)]
    rfl
  | cons a rest ih =>
    obtain ⟨type, payload⟩ := a
    rw [images_cons, Memory.holds_append, length_image] at holds
    obtain ⟨head, -⟩ := holds_image order holds.1 (storable _ (by simp))
    have tail := ih holds.2 fun a member => storable a (by simp [member])
    have grown := le_align (4 + payload.length)
    have ok : Ok order mem start (images order ((type, payload) :: rest)).length := by
      rw [Ok, head]
      simp only [images_cons, List.length_append, length_image]
      omega
    have left : ((images order ((type, payload) :: rest)).length : Int) -
        align (4 + payload.length) = (images order rest).length := by
      simp only [images_cons, List.length_append, length_image]
      omega
    rw [list_eq, if_pos ok, head, place]
    simp only
    rw [left, tail]

theorem place_append (start : Nat) (left right : List (Nat × List UInt8)) :
    place start (left ++ right) =
      place start left ++ place (start + (images order left).length) right := by
  induction left generalizing start with
  | nil => rfl
  | cons a rest ih =>
    obtain ⟨type, payload⟩ := a
    rw [List.cons_append, place, place, ih, List.cons_append, images_cons, List.length_append,
      length_image, Nat.add_assoc]

theorem mem_place {start : Nat} {attrs : List (Nat × List UInt8)} {a : Attribute}
    (member : a ∈ place start attrs) :
    ∃ payload, (a.type, payload) ∈ attrs ∧ a.payload = payload.length := by
  induction attrs generalizing start with
  | nil => cases member
  | cons head rest ih =>
    obtain ⟨type, payload⟩ := head
    rw [place] at member
    rcases List.mem_cons.mp member with rfl | later
    · exact ⟨payload, by simp, by simp [Attribute.payload]⟩
    · obtain ⟨other, found, size⟩ := ih later
      exact ⟨other, by simp [found], size⟩

def putAt (mem : Memory) (rta type : Nat) (payload : List UInt8) : Memory :=
  let mem := mem.write rta (order.store 2 (4 + payload.length))
  let mem := mem.write (rta + 2) (order.store 2 type)
  mem.write (rta + 4) payload

structure Put (rta type : Nat) (payload : List UInt8) (before after : Memory) : Prop where
  len : after.Holds rta (order.store 2 (4 + payload.length))
  kind : after.Holds (rta + 2) (order.store 2 type)
  content : after.Holds (rta + 4) payload
  frame : ∀ address, address < rta ∨ rta + 4 + payload.length ≤ address →
    after address = before address

theorem putAt_correct (mem : Memory) (rta type : Nat) (payload : List UInt8) :
    Put order rta type payload mem (putAt order mem rta type payload) := by
  have two (value : Nat) : (order.store 2 value).length = 2 := order.length_store 2 value
  refine ⟨?_, ?_, Memory.holds_write _ _ _, ?_⟩
  · apply Memory.Holds.write _ (by rw [two]; omega)
    exact (Memory.holds_write _ _ _).write (by rw [two, two]; omega)
  · exact (Memory.holds_write _ _ _).write (by rw [two]; omega)
  · intro address outside
    have first := two (4 + payload.length)
    have second := two type
    simp only [putAt]
    rw [Memory.write_other _ (by omega), Memory.write_other _ (by omega),
      Memory.write_other _ (by omega)]

theorem holds_zeros {mem : Memory} {start count : Nat}
    (clear : ∀ address, start ≤ address → mem address = 0) :
    mem.Holds start (List.replicate count 0) := by
  apply Memory.holds_of_getD
  intro i bound
  rw [List.length_replicate] at bound
  rw [clear _ (by omega), List.getD_eq_getElem?_getD, List.getElem?_replicate, if_pos bound]
  rfl

theorem Put.image {rta type : Nat} {payload : List UInt8} {before after : Memory}
    (put : Put order rta type payload before after)
    (clear : ∀ address, rta ≤ address → before address = 0) :
    after.Holds rta (image order type payload) := by
  simp only [Attributes.image, Memory.holds_append, List.length_append, ByteOrder.length_store]
  refine ⟨⟨⟨put.len, put.kind⟩, put.content⟩, holds_zeros fun address low => ?_⟩
  rw [put.frame address (by omega), clear address (by omega)]

/-- `attrs` have been written from `start` on to a buffer that was `base`. -/
structure Laid (base : Memory) (start : Nat) (attrs : List (Nat × List UInt8)) (mem : Memory) :
    Prop where
  holds : mem.Holds start (images order attrs)
  before : ∀ address < start, mem address = base address
  after : ∀ address, start + (images order attrs).length ≤ address → mem address = 0

theorem laid_nil {base : Memory} {start : Nat}
    (clear : ∀ address, start ≤ address → base address = 0) : Laid order base start [] base :=
  ⟨rfl, fun _ _ => rfl, by simpa using clear⟩

theorem Laid.putAt {base mem : Memory} {start rta : Nat} {attrs : List (Nat × List UInt8)}
    (laid : Laid order base start attrs mem) (next : rta = start + (images order attrs).length)
    (type : Nat) (payload : List UInt8) :
    Laid order base start (attrs ++ [(type, payload)]) (putAt order mem rta type payload) := by
  have grown := le_align (4 + payload.length)
  have put := putAt_correct order mem rta type payload
  refine ⟨?_, ?_, ?_⟩
  · rw [images_append, Memory.holds_append, images_cons, images_nil, List.append_nil, ← next]
    exact ⟨laid.holds.congr fun address low high => (put.frame address (by omega)).symm,
      put.image order fun address low => laid.after address (by omega)⟩
  · intro address low
    exact (put.frame address (by omega)).trans (laid.before address low)
  · intro address high
    simp only [images_append, images_cons, images_nil, List.append_nil, List.length_append,
      length_image] at high
    exact (put.frame address (by omega)).trans (laid.after address (by omega))

structure Writer where
  mem : Memory
  rta : Nat

def Writer.put (w : Writer) (type : Nat) (payload : List UInt8) : Writer :=
  let rta := w.rta + align (w.mem.word order w.rta 2)
  { mem := putAt order w.mem rta type payload, rta := rta }

def Writer.stop (w : Writer) : Nat := w.rta + w.mem.word order w.rta 2

structure Written (base : Memory) (start : Nat) (attrs : List (Nat × List UInt8)) (w : Writer) :
    Prop where
  laid : Laid order base start attrs w.mem
  next : w.rta + align (w.mem.word order w.rta 2) = start + (images order attrs).length

theorem written_nil {base : Memory} {start : Nat}
    (clear : ∀ address, start ≤ address → base address = 0) :
    Written order base start [] { mem := base, rta := start } where
  laid := laid_nil order clear
  next := by
    have zeros : base.bytes start 2 = List.replicate 2 0 := by
      simp [Memory.bytes, clear start (by omega), clear (start + 1) (by omega)]
    have len : base.word order start 2 = 0 := by
      rw [Memory.word, zeros, order.load_replicate_zero]
    simp [len, align]

theorem Written.put {base : Memory} {start : Nat} {attrs : List (Nat × List UInt8)} {w : Writer}
    (written : Written order base start attrs w) {type : Nat} {payload : List UInt8}
    (storable : Storable type payload) :
    Written order base start (attrs ++ [(type, payload)]) (w.put order type payload) := by
  have put := putAt_correct order w.mem (w.rta + align (w.mem.word order w.rta 2)) type payload
  refine ⟨written.laid.putAt order written.next type payload, ?_⟩
  rw [Writer.put, put.len.word storable.2, written.next]
  simp [images_append, Nat.add_assoc]

theorem Written.stop_put {base : Memory} {start : Nat} {attrs : List (Nat × List UInt8)}
    {w : Writer} (written : Written order base start attrs w) {type : Nat} {payload : List UInt8}
    (storable : Storable type payload) (whole : payload.length % 4 = 0) :
    (w.put order type payload).stop order =
      start + (images order (attrs ++ [(type, payload)])).length := by
  have put := putAt_correct order w.mem (w.rta + align (w.mem.word order w.rta 2)) type payload
  have word := put.len.word storable.2
  have unpadded : align (4 + payload.length) = 4 + payload.length := by
    unfold align
    omega
  rw [Writer.stop, Writer.put, word, written.next]
  simp only [images_append, images_cons, images_nil, List.append_nil, List.length_append,
    length_image, unpadded]
  omega

end Attributes
