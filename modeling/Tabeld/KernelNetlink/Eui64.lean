import Tabeld.KernelNetlink.Channels

set_option autoImplicit false

namespace Tabeld.KernelNetlink

def arphrdEther : Nat := 1
def arphrdIeee802 : Nat := 6
def arphrdIeee1394 : Nat := 24
def arphrdEui64 : Nat := 27
def arphrdInfiniband : Nat := 32
def arphrdFddi : Nat := 774
def arphrdIeee802Tr : Nat := 800

/-- `ifr_hwaddr`. -/
structure Hwaddr where
  saFamily : Nat
  saData : List UInt8
  size : saData.length = 14

structure EuiResult where
  rc : Int
  errno : Int
  eui : List UInt8

/-- A null address, or one with the group bit or the bit for local addresses. -/
def Refuses (mac : List UInt8) : Prop :=
  mac = List.replicate mac.length 0 ∨ mac.getD 0 0 &&& 1 ≠ 0 ∨ mac.getD 0 0 &&& 2 ≠ 0

instance (mac : List UInt8) : Decidable (Refuses mac) := inferInstanceAs (Decidable (_ ∨ _ ∨ _))

def flipUniversal (eui : List UInt8) : List UInt8 := eui.modifyHead (· ^^^ 2)

def ifEui64 (s sErrno : Int) (hwaddr : Except Int Hwaddr) (errno : Int) (eui : List UInt8) :
    EuiResult :=
  if s < 0 then ⟨-1, sErrno, eui⟩
  else
    match hwaddr with
    | .error savedErrno => ⟨-1, savedErrno, eui⟩
    | .ok ifr =>
      if ifr.saFamily = arphrdEther ∨ ifr.saFamily = arphrdFddi ∨
          ifr.saFamily = arphrdIeee802Tr ∨ ifr.saFamily = arphrdIeee802 then
        let mac := ifr.saData.take 6
        if Refuses mac then ⟨-1, enoent, eui⟩
        else
          ⟨1, errno, flipUniversal (mac.take 3 ++ [0xFF, 0xFE] ++ mac.drop 3) ++ eui.drop 8⟩
      else if ifr.saFamily = arphrdEui64 ∨ ifr.saFamily = arphrdIeee1394 ∨
          ifr.saFamily = arphrdInfiniband then
        let mac := ifr.saData.take 8
        if Refuses mac then ⟨-1, enoent, eui⟩
        else ⟨1, errno, flipUniversal mac ++ eui.drop 8⟩
      else ⟨-1, enoent, eui⟩

inductive Mac where
  | eui48 (bytes : List UInt8) (size : bytes.length = 6)
  | eui64 (bytes : List UInt8) (size : bytes.length = 8)

namespace Mac

def bytes : Mac → List UInt8
  | eui48 bytes _ | eui64 bytes _ => bytes

/-- The identifier of 64 bits that the address stands for. -/
def identifier : Mac → List UInt8
  | eui48 bytes _ => bytes.take 3 ++ [0xFF, 0xFE] ++ bytes.drop 3
  | eui64 bytes _ => bytes

theorem length_identifier (mac : Mac) : mac.identifier.length = 8 := by
  cases mac with
  | eui48 bytes size => simp [identifier, size]
  | eui64 bytes size => exact size

theorem head_identifier (mac : Mac) : mac.identifier.getD 0 0 = mac.bytes.getD 0 0 := by
  cases mac with
  | eui48 bytes size =>
    obtain ⟨first, rest, rfl⟩ := List.exists_cons_of_length_eq_add_one size
    rfl
  | eui64 bytes size => rfl

end Mac

def Hwaddr.mac (h : Hwaddr) : Option Mac :=
  if h.saFamily ∈ [arphrdEther, arphrdFddi, arphrdIeee802Tr, arphrdIeee802] then
    some (.eui48 (h.saData.take 6) (by simp [h.size]))
  else if h.saFamily ∈ [arphrdEui64, arphrdIeee1394, arphrdInfiniband] then
    some (.eui64 (h.saData.take 8) (by simp [h.size]))
  else none

theorem ifEui64_mac {s : Int} (opened : ¬s < 0) (sErrno : Int) (h : Hwaddr) (errno : Int)
    (eui : List UInt8) : ifEui64 s sErrno (.ok h) errno eui =
      match h.mac with
      | none => ⟨-1, enoent, eui⟩
      | some mac =>
        if Refuses mac.bytes then ⟨-1, enoent, eui⟩
        else ⟨1, errno, flipUniversal mac.identifier ++ eui.drop 8⟩ := by
  simp only [ifEui64, opened, if_false, Hwaddr.mac, List.mem_cons, List.not_mem_nil, or_false]
  split
  next => rfl
  next => split <;> rfl

theorem ifEui64_made {s sErrno errno : Int} {h : Hwaddr} {eui : List UInt8}
    (made : (ifEui64 s sErrno (.ok h) errno eui).rc = 1) :
    ∃ mac, h.mac = some mac ∧ ¬Refuses mac.bytes ∧
      (ifEui64 s sErrno (.ok h) errno eui).eui.take 8 = flipUniversal mac.identifier := by
  have opened : ¬s < 0 := by
    intro closed
    rw [ifEui64, if_pos closed] at made
    cases made
  rw [ifEui64_mac opened] at made ⊢
  cases known : h.mac with
  | none =>
    rw [known] at made
    cases made
  | some mac =>
    simp only [known] at made ⊢
    split at made
    next => cases made
    next usable =>
      refine ⟨mac, rfl, usable, ?_⟩
      rw [if_neg usable]
      exact List.take_left' (by rw [flipUniversal, List.length_modifyHead, mac.length_identifier])

theorem flipUniversal_inj {left right : List UInt8}
    (same : flipUniversal left = flipUniversal right) : left = right := by
  have twice (eui : List UInt8) : flipUniversal (flipUniversal eui) = eui := by
    cases eui with
    | nil => rfl
    | cons first rest =>
      have back : first ^^^ 2 ^^^ 2 = first := by
        rw [UInt8.xor_assoc, UInt8.xor_self, UInt8.xor_zero]
      simp only [flipUniversal, List.modifyHead_cons, back]
  rw [← twice left, same, twice]

theorem getD_flipUniversal {eui : List UInt8} (nonempty : eui ≠ []) :
    (flipUniversal eui).getD 0 0 = eui.getD 0 0 ^^^ 2 := by
  cases eui with
  | nil => contradiction
  | cons first rest => rfl

theorem and_three_of_flipped (byte : UInt8) (group : byte &&& 1 = 0) (loc : byte &&& 2 = 0) :
    (byte ^^^ 2) &&& 3 = 2 := by
  have all : ∀ v : BitVec 8, v &&& 1 = 0 → v &&& 2 = 0 → (v ^^^ 2) &&& 3 = 2 := by decide +kernel
  rw [← UInt8.toBitVec_inj] at group loc ⊢
  exact all byte.toBitVec group loc

namespace Mac

theorem bytes_eq_of_identifier {mac other : Mac} (width : mac.bytes.length = other.bytes.length)
    (same : mac.identifier = other.identifier) : mac.bytes = other.bytes := by
  cases mac with
  | eui48 bytes size =>
    cases other with
    | eui64 wide wideSize => simp [Mac.bytes, size, wideSize] at width
    | eui48 others otherSize =>
      simp only [identifier, List.append_assoc] at same
      obtain ⟨first, rest⟩ := List.append_inj same (by simp [size, otherSize])
      have last : bytes.drop 3 = others.drop 3 := List.append_cancel_left rest
      rw [Mac.bytes, Mac.bytes, ← List.take_append_drop 3 bytes, first, last,
        List.take_append_drop]
  | eui64 bytes size =>
    cases other with
    | eui48 narrow narrowSize => simp [Mac.bytes, size, narrowSize] at width
    | eui64 others otherSize => exact same

end Mac

def etherCard : Hwaddr where
  saFamily := arphrdEther
  saData := [0, 0x16, 0x3E, 1, 2, 3] ++ List.replicate 8 0
  size := rfl

def fireWire : Hwaddr where
  saFamily := arphrdIeee1394
  saData := [0, 0x16, 0x3E, 0xFF, 0xFE, 1, 2, 3] ++ List.replicate 6 0
  size := rfl

-- the two are the same, which only addresses of different widths can be
example : (ifEui64 3 0 (.ok etherCard) 0 (List.replicate 8 0)).eui =
    (ifEui64 4 0 (.ok fireWire) 0 (List.replicate 8 0)).eui := by decide

end Tabeld.KernelNetlink
