import Tabeld.KernelNetlink.Scratch
import Tabeld.Shared.AttributeWriter

set_option autoImplicit false

namespace Tabeld.KernelNetlink

open Attributes Decoder Kdump

variable {ρ : Type} (host : ByteOrder)

def carried (mem : Memory) (len : Int) : List (Nat × List UInt8) :=
  (list host mem 8 (len - 8)).map fun a => (a.type, mem.bytes a.data a.payload)

theorem carried_images {mem : Memory} {attrs : List (Nat × List UInt8)}
    (holds : mem.Holds 8 (images host attrs)) (storable : ∀ a ∈ attrs, Storable a.1 a.2) :
    carried host mem (8 + (images host attrs).length : Nat) = attrs := by
  have len : ((8 + (images host attrs).length : Nat) : Int) - 8 = (images host attrs).length := by
    omega
  rw [carried, len, list_images host holds storable]
  clear len
  generalize 8 = start at holds
  induction attrs generalizing start with
  | nil => rfl
  | cons a rest ih =>
    obtain ⟨type, payload⟩ := a
    rw [images_cons, Memory.holds_append, length_image] at holds
    obtain ⟨-, content⟩ := holds_image host holds.1 (storable _ (by simp))
    have tail := ih (fun a member => storable a (by simp [member])) _ holds.2
    rw [place, List.map_cons, tail]
    simp only [Attribute.data, Attribute.payload, Nat.add_sub_cancel_left]
    rw [content]

structure NamesOne (v4 : Bool) (attrs : List (Nat × List UInt8)) : Prop where
  locals : (attrs.countP fun a => a.1 = ifaLocal) ≤ 1
  addresses : (attrs.countP fun a => a.1 = ifaAddress) ≤ 1
  some : ∃ a ∈ attrs, IsIfAddress a.1
  long : ∀ a ∈ attrs, IsIfAddress a.1 → addressSize v4 ≤ a.2.length

theorem NamesOne.perm {v4 : Bool} {attrs other : List (Nat × List UInt8)}
    (names : NamesOne v4 attrs) (perm : other.Perm attrs) : NamesOne v4 other where
  locals := perm.countP_eq _ ▸ names.locals
  addresses := perm.countP_eq _ ▸ names.addresses
  some := by
    obtain ⟨a, member, address⟩ := names.some
    exact ⟨a, perm.mem_iff.mpr member, address⟩
  long a member := names.long a (perm.mem_iff.mp member)

def addressBytes (v4 : Bool) (payload : List UInt8) : List UInt8 :=
  if v4 then List.take 12 v4prefix.b ++ payload.take 4 else payload.take 16

structure LocalWins (v4 : Bool) (attrs : List (Nat × List UInt8)) (res : Addr6) : Prop where
  isLocal : ∀ payload, (ifaLocal, payload) ∈ attrs → res.b = addressBytes v4 payload
  otherwise : (∀ payload, (ifaLocal, payload) ∉ attrs) →
    ∀ payload, (ifaAddress, payload) ∈ attrs → res.b = addressBytes v4 payload

theorem LocalWins.unique {v4 : Bool} {attrs other : List (Nat × List UInt8)} {res res' : Addr6}
    (named : ∃ a ∈ attrs, IsIfAddress a.1) (perm : other.Perm attrs)
    (wins : LocalWins v4 attrs res) (wins' : LocalWins v4 other res') : res' = res := by
  have bytes : res'.b = res.b := by
    by_cases found : ∃ payload, (ifaLocal, payload) ∈ attrs
    · obtain ⟨payload, member⟩ := found
      rw [wins.isLocal payload member, wins'.isLocal payload (perm.mem_iff.mpr member)]
    · rw [not_exists] at found
      have found' (payload : List UInt8) : (ifaLocal, payload) ∉ other :=
        fun member => found payload (perm.mem_iff.mp member)
      obtain ⟨⟨type, payload⟩, member, address⟩ := named
      rcases address with rfl | rfl
      · exact absurd member (found payload)
      · rw [wins.otherwise found payload member,
          wins'.otherwise found' payload (perm.mem_iff.mpr member)]
  obtain ⟨_, size⟩ := res
  cases res'
  exact (Addr6.mk.injEq ..).mpr bytes

theorem take_bytes (mem : Memory) (start count size : Nat) (long : size ≤ count) :
    (mem.bytes start count).take size = mem.bytes start size := by
  obtain ⟨more, rfl⟩ := Nat.exists_eq_add_of_le long
  rw [mem.bytes_add, List.take_left' (mem.length_bytes start size)]

theorem addressAt_bytes (v4 : Bool) (mem : Memory) (a : Attribute)
    (long : addressSize v4 ≤ a.payload) :
    (addressAt v4 mem a.data).b = addressBytes v4 (mem.bytes a.data a.payload) := by
  have taken := take_bytes mem a.data a.payload (addressSize v4) long
  cases v4
  · exact taken.symm
  · exact congrArg (List.take 12 v4prefix.b ++ ·) taken.symm

theorem eq_of_countP {α : Type} {hit : α → Bool} {l : List α} (few : l.countP hit ≤ 1) {a b : α}
    (left : a ∈ l) (here : hit a = true) (right : b ∈ l) (also : hit b = true) : a = b := by
  have left := List.mem_filter.mpr ⟨left, here⟩
  have right := List.mem_filter.mpr ⟨right, also⟩
  rw [List.countP_eq_length_filter] at few
  match found : l.filter hit, few with
  | [], _ => simp [found] at left
  | [c], _ =>
    rw [found, List.mem_singleton] at left right
    rw [left, right]

theorem addressAttribute_local_iff {attrs : List Attribute} {a : Attribute}
    (taken : addressAttribute attrs = some a) :
    a ∈ attrs ∧ (a.type = ifaLocal ∨ a.type = ifaAddress ∧ ∀ b ∈ attrs, b.type ≠ ifaLocal) := by
  obtain ⟨member, address⟩ := (addressAttribute_spec attrs).1 a taken
  refine ⟨member, ?_⟩
  unfold addressAttribute at taken
  split at taken
  next b found =>
    cases taken
    exact Or.inl (by simpa using List.find?_some found)
  next none =>
    have others : ∀ b ∈ attrs, b.type ≠ ifaLocal := by simpa using none
    exact Or.inr ⟨address.resolve_left (others a member), others⟩

theorem parseAddrRta_localWins (mem : Memory) (len : Int) (res : Addr6)
    (known : KnownFamily (mem 0).toNat)
    (names : NamesOne (familyIsV4 mem 0) (carried host mem len)) :
    ∃ stored, (parseAddrRta host 0 len res : Decoder ρ _).value mem = .ok (0, stored) ∧
      LocalWins (familyIsV4 mem 0) (carried host mem len) stored := by
  have carries {a : Attribute} (member : a ∈ list host mem 8 (len - 8)) :
      (a.type, mem.bytes a.data a.payload) ∈ carried host mem len :=
    List.mem_map_of_mem member
  cases taken : addressAttribute (list host mem 8 (len - 8)) with
  | none =>
    obtain ⟨named, member, address⟩ := names.some
    obtain ⟨a, found, rfl⟩ := List.mem_map.mp member
    exact absurd address ((addressAttribute_spec _).2 taken a found)
  | some a =>
    obtain ⟨member, which⟩ := addressAttribute_local_iff taken
    have address : IsIfAddress a.type := which.imp_right And.left
    have long := names.long _ (carries member) address
    rw [Memory.length_bytes] at long
    have bytes := addressAt_bytes (familyIsV4 mem 0) mem a long
    refine ⟨addressAt (familyIsV4 mem 0) mem a.data, ?_, ?_, ?_⟩
    · rw [value_parseAddrRta, taken]
      simp only [known, if_true]
    · intro payload present
      rcases which with isLocal | ⟨-, others⟩
      · have same := eq_of_countP names.locals (carries member) (by simpa using isLocal) present
          (by simp)
        rw [bytes, (Prod.mk.inj same).2]
      · obtain ⟨b, found, same⟩ := List.mem_map.mp present
        exact absurd (Prod.mk.inj same).1 (others b found)
    · intro none payload present
      rcases which with isLocal | ⟨peer, -⟩
      · exact absurd (isLocal ▸ carries member) (none _)
      · have same := eq_of_countP names.addresses (carries member) (by simpa using peer) present
          (by simp)
        rw [bytes, (Prod.mk.inj same).2]

theorem parseAddrRta_anyOrder (mem : Memory) (len : Int) (res : Addr6)
    (known : KnownFamily (mem 0).toNat)
    (names : NamesOne (familyIsV4 mem 0) (carried host mem len)) :
    ∃ stored, (parseAddrRta host 0 len res : Decoder ρ _).value mem = .ok (0, stored) ∧
      LocalWins (familyIsV4 mem 0) (carried host mem len) stored ∧
      ∀ mem' len' res', mem' 0 = mem 0 → (carried host mem' len').Perm (carried host mem len) →
        (parseAddrRta host 0 len' res' : Decoder ρ _).value mem' = .ok (0, stored) := by
  obtain ⟨stored, value, wins⟩ := parseAddrRta_localWins (ρ := ρ) host mem len res known names
  refine ⟨stored, value, wins, ?_⟩
  intro mem' len' res' family perm
  have v4 : familyIsV4 mem' 0 = familyIsV4 mem 0 := by rw [familyIsV4, family, familyIsV4]
  obtain ⟨stored', value', wins'⟩ := parseAddrRta_localWins (ρ := ρ) host mem' len' res'
    (by rw [family]; exact known) (by rw [v4]; exact names.perm perm)
  rw [v4] at wins'
  rw [value', wins.unique names.some perm wins']

def pointToPoint : List (Nat × List UInt8) :=
  [(ifaAddress, [10, 0, 0, 2]), (3, [112, 112, 112, 48, 0]), (ifaLocal, [10, 0, 0, 1])]

def pointToPointMessage : Memory :=
  Memory.ofBytes ([2, 32, 128, 0, 3, 0, 0, 0] ++ images .little pointToPoint) Memory.zeroed

theorem carried_pointToPoint : carried .little pointToPointMessage 36 = pointToPoint := by
  have holds := Memory.holds_ofBytes
    ([2, 32, 128, 0, 3, 0, 0, 0] ++ images .little pointToPoint) Memory.zeroed
  rw [Memory.holds_append] at holds
  exact carried_images .little holds.2 (by decide)

theorem namesOne_pointToPoint : NamesOne true pointToPoint where
  locals := by decide
  addresses := by decide
  some := ⟨_, List.mem_cons_self, by decide⟩
  long := by decide

theorem parseAddrRta_anyOrder_pointToPoint :
    ∃ stored, (parseAddrRta .little 0 36 .zero : Decoder Unit _).value pointToPointMessage =
        .ok (0, stored) ∧
      LocalWins true (carried .little pointToPointMessage 36) stored ∧
      ∀ mem' len' res', mem' 0 = pointToPointMessage 0 →
        (carried .little mem' len').Perm (carried .little pointToPointMessage 36) →
        (parseAddrRta .little 0 len' res' : Decoder Unit _).value mem' = .ok (0, stored) :=
  parseAddrRta_anyOrder .little pointToPointMessage 36 .zero (by decide)
    (by rw [carried_pointToPoint]; exact namesOne_pointToPoint)

end Tabeld.KernelNetlink
