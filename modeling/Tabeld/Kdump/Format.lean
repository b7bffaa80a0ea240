import Mathlib.Data.List.DropRight
import Tabeld.Kdump.Compact
import Tabeld.Shared.BitString
import Tabeld.Shared.RingBuffer

set_option autoImplicit false

/-!
# Printing addresses and prefixes

`inet_ntop` is a parameter: the text of an address is a function of its family and bytes.
-/

namespace Tabeld.Kdump

open RingBuffer

variable (host : ByteOrder)

inductive Family where
  | inet
  | inet6
  deriving DecidableEq

def Family.size : Family → Nat
  | .inet => 4
  | .inet6 => 16

abbrev Ntop := Family → List UInt8 → List Char

def inet6Addrstrlen : Nat := 46

variable (ntop : Ntop)

/-- The documented properties of `inet_ntop`. -/
structure InetNtop : Prop where
  short : ∀ family bytes, bytes.length = family.size →
    (ntop family bytes).length < inet6Addrstrlen
  injective : ∀ family left right, left.length = family.size → right.length = family.size →
    ntop family left = ntop family right → left = right

def Short : Prop := ∀ family bytes, bytes.length = family.size →
  (ntop family bytes).length < inet6Addrstrlen

abbrev Buf := RingBuffer (List Char) 4

def inetNtop (family : Family) (address : List UInt8) (buf : List Char) : List Char :=
  -- a text that does not fit is not stored
  let text := ntop family (address.take family.size)
  if text.length < inet6Addrstrlen then text else buf

def snprintfPlen (buf : List Char) (plen : Nat) : List Char :=
  let n := buf.length
  buf ++ ('/' :: Nat.toDigits 10 plen).take (inet6Addrstrlen + 4 - n - 1)

def formatAddress (address : Addr6) (buf : Buf) : Fin 4 × Buf :=
  buf.rotate fun text =>
    if v4mapped host address then
      -- &address.z, the third of the four words
      inetNtop ntop .inet (address.b.drop 8) text
    else
      inetNtop ntop .inet6 address.b text

def formatPrefix (address : Addr6) (plen : UInt8) (buf : Buf) : Fin 4 × Buf :=
  buf.rotate fun text =>
    if 96 ≤ plen ∧ v4mapped host address then
      snprintfPlen (inetNtop ntop .inet (address.b.drop 8) text) (plen.toNat - 96)
    else
      snprintfPlen (inetNtop ntop .inet6 address.b text) plen.toNat

def v4mappedStr (address : List UInt8) : Bool :=
  address.take 12 == List.take 12 v4prefix.b

def formatPrefixStr (address : List UInt8) (plen : UInt8) (buf : Buf) : Fin 4 × Buf :=
  buf.rotate fun text =>
    if 96 ≤ plen ∧ v4mappedStr address then
      snprintfPlen (inetNtop ntop .inet (address.drop 12) text) (plen.toNat - 96)
    else
      snprintfPlen (inetNtop ntop .inet6 address text) plen.toNat

theorem v4mappedStr_eq (address : Addr6) : v4mappedStr address.b = decide (V4Mapped address) := by
  apply Bool.eq_iff_iff.mpr
  rw [v4mappedStr, beq_iff_eq, decide_eq_true_iff, V4Mapped]

theorem v4Mapped_iff_agree (address : Addr6) :
    V4Mapped address ↔ BitString.Agree 96 address.b v4prefix.b := by
  have size : 12 ≤ address.b.length := by
    rw [address.size]
    decide
  have fixed : 12 ≤ v4prefix.b.length := by decide
  exact (BitString.agree_iff_take size fixed).symm

theorem v4mapped_tests (route : Rte) :
    v4mapped host route.dst = decide (BitString.Agree 96 route.dst.b v4prefix.b) ∧
      v4mappedStr route.dst.b = decide (BitString.Agree 96 route.dst.b v4prefix.b) ∧
      (!checkRteV6 host route) = decide (BitString.Agree 96 route.dst.b v4prefix.b) := by
  simp only [← v4Mapped_iff_agree]
  refine ⟨v4mapped_eq host route.dst, v4mappedStr_eq route.dst, ?_⟩
  rw [checkRteV6_eq, Bool.not_not]

theorem length_word (address : Addr6) {offset : Nat} (bound : offset ≤ 12) :
    Family.inet.size ≤ (address.b.drop offset).length := by
  have size := address.size
  simp only [Family.size, List.length_drop]
  omega

section

variable {ntop} (short : Short ntop)
include short

theorem inetNtop_eq (family : Family) (address : List UInt8) (text : List Char)
    (long : family.size ≤ address.length) :
    inetNtop ntop family address text = ntop family (address.take family.size) := by
  have fits := short family (address.take family.size) (List.length_take_of_le long)
  simp [inetNtop, fits]

theorem inetNtop_word (address : Addr6) (offset : Nat) (bound : offset ≤ 12)
    (text : List Char) : inetNtop ntop .inet (address.b.drop offset) text =
      ntop .inet ((address.b.drop offset).take 4) :=
  inetNtop_eq short .inet _ text (length_word address bound)

theorem inetNtop_whole (address : Addr6) (text : List Char) :
    inetNtop ntop .inet6 address.b text = ntop .inet6 address.b := by
  have size := address.size
  have whole : address.b.take Family.inet6.size = address.b :=
    List.take_of_length_le (Nat.le_of_eq size)
  rw [inetNtop_eq short .inet6 address.b text (Nat.le_of_eq size.symm), whole]

theorem length_ntop_plen (family : Family) (bytes : List UInt8)
    (size : bytes.length = family.size) (length : Nat) (small : length < 256) :
    (ntop family bytes).length + ('/' :: Nat.toDigits 10 length).length < inet6Addrstrlen + 4 := by
  have fits := short family bytes size
  have digits : (Nat.toDigits 10 length).length ≤ 3 :=
    (Nat.length_toDigits_le_iff (by decide) (by decide)).mpr (by omega)
  rw [List.length_cons]
  omega

theorem snprintfPlen_eq (family : Family) (bytes : List UInt8) (size : bytes.length = family.size)
    (length : Nat) (small : length < 256) :
    snprintfPlen (ntop family bytes) length =
      ntop family bytes ++ '/' :: Nat.toDigits 10 length := by
  have room := length_ntop_plen short family bytes size length small
  rw [snprintfPlen, List.take_of_length_le (by omega)]

theorem result_formatAddress (address : Addr6) (buf : Buf) :
    result (formatAddress host ntop address buf) =
      if V4Mapped address then ntop .inet ((address.b.drop 8).take 4)
      else ntop .inet6 address.b := by
  simp only [formatAddress, result_rotate, v4mapped_eq, decide_eq_true_iff,
    inetNtop_word short address 8 (by decide), inetNtop_whole short]

theorem snprintfPlen_word (address : Addr6) (offset : Nat) (bound : offset ≤ 12)
    (plen : UInt8) (text : List Char) :
    snprintfPlen (inetNtop ntop .inet (address.b.drop offset) text) (plen.toNat - 96) =
      ntop .inet ((address.b.drop offset).take 4) ++
        '/' :: Nat.toDigits 10 (plen.toNat - 96) := by
  have size : ((address.b.drop offset).take 4).length = Family.inet.size :=
    List.length_take_of_le (length_word address bound)
  have small := plen.toNat_lt
  rw [inetNtop_word short address offset bound]
  exact snprintfPlen_eq short .inet _ size _ (by omega)

theorem snprintfPlen_whole (address : Addr6) (plen : UInt8) (text : List Char) :
    snprintfPlen (inetNtop ntop .inet6 address.b text) plen.toNat =
      ntop .inet6 address.b ++ '/' :: Nat.toDigits 10 plen.toNat := by
  rw [inetNtop_whole short]
  exact snprintfPlen_eq short .inet6 address.b address.size plen.toNat plen.toNat_lt

def prefixText (ntop : Ntop) (offset : Nat) (address : Addr6) (plen : UInt8) : List Char :=
  if 96 ≤ plen ∧ V4Mapped address then
    ntop .inet ((address.b.drop offset).take 4) ++ '/' :: Nat.toDigits 10 (plen.toNat - 96)
  else
    ntop .inet6 address.b ++ '/' :: Nat.toDigits 10 plen.toNat

theorem result_formatPrefix (address : Addr6) (plen : UInt8) (buf : Buf) :
    result (formatPrefix host ntop address plen buf) = prefixText ntop 8 address plen := by
  simp only [formatPrefix, result_rotate, v4mapped_eq, decide_eq_true_iff, prefixText,
    snprintfPlen_word short address 8 (by decide), snprintfPlen_whole short]

theorem result_formatPrefixStr (address : Addr6) (plen : UInt8) (buf : Buf) :
    result (formatPrefixStr ntop address.b plen buf) = prefixText ntop 12 address plen := by
  simp only [formatPrefixStr, result_rotate, v4mappedStr_eq, decide_eq_true_iff, prefixText,
    snprintfPlen_word short address 12 (by decide), snprintfPlen_whole short]

end

def quad (bytes : List UInt8) : List Char :=
  ['.'].intercalate (bytes.map fun byte => Nat.toDigits 10 byte.toNat)

def hexBytes (bytes : List UInt8) : List Char :=
  bytes.flatMap fun byte => [Nat.digitChar (byte.toNat / 16), Nat.digitChar (byte.toNat % 16)]

def plainNtop : Ntop
  | .inet, address => quad address
  -- without colons; no address of this family is printed below
  | .inet6, address => hexBytes address

theorem quad_injective {left right : List UInt8} (leftSize : left.length = 4)
    (rightSize : right.length = 4) (same : quad left = quad right) : left = right := by
  have groups (bytes : List UInt8) (size : bytes.length = 4) :
      (quad bytes).splitOn '.' = bytes.map fun byte => Nat.toDigits 10 byte.toNat := by
    apply List.splitOn_intercalate
    · intro group member
      obtain ⟨byte, -, rfl⟩ := List.mem_map.mp member
      intro dot
      exact absurd (Nat.isDigit_of_mem_toDigits (by decide) (by decide) dot) (by decide)
    · intro none
      rw [List.map_eq_nil_iff] at none
      simp [none] at size
  have split := congrArg (List.splitOn '.') same
  rw [groups left leftSize, groups right rightSize] at split
  apply List.map_injective_iff.mpr _ split
  intro byte other equal
  have value := congrArg (Nat.ofDigitChars 10 · 0) equal
  simp only [Nat.ofDigitChars_ten_toDigits] at value
  exact UInt8.toNat_inj.mp value

theorem length_quad (bytes : List UInt8) (size : bytes.length = 4) : (quad bytes).length ≤ 15 := by
  have digits (byte : UInt8) : (Nat.toDigits 10 byte.toNat).length ≤ 3 :=
    (Nat.length_toDigits_le_iff (by decide) (by decide)).mpr (by have := byte.toNat_lt; omega)
  obtain ⟨a, b, c, d, rfl⟩ := List.length_eq_four.mp size
  have := digits a
  have := digits b
  have := digits c
  have := digits d
  simp [quad]
  omega

theorem digitChar_injective : ∀ m < 16, ∀ n < 16, Nat.digitChar m = Nat.digitChar n → m = n := by
  decide

theorem hexBytes_injective {left right : List UInt8} (same : hexBytes left = hexBytes right) :
    left = right := by
  induction left generalizing right with
  | nil => cases right with
    | nil => rfl
    | cons byte rest => simp [hexBytes] at same
  | cons byte rest ih => cases right with
    | nil => simp [hexBytes] at same
    | cons other rest' =>
      simp only [hexBytes, List.flatMap_cons, List.cons_append, List.nil_append,
        List.cons.injEq] at same
      obtain ⟨high, low, tail⟩ := same
      have bound := byte.toNat_lt
      have bound' := other.toNat_lt
      have high := digitChar_injective _ (by omega) _ (by omega) high
      have low := digitChar_injective _ (by omega) _ (by omega) low
      have equal : byte = other := UInt8.toNat_inj.mp (by omega)
      rw [equal, ih tail]

theorem inetNtop_plain : InetNtop plainNtop where
  short family bytes size := by
    cases family with
    | inet =>
      have short := length_quad bytes size
      simp only [plainNtop, inet6Addrstrlen]
      omega
    | inet6 =>
      have sixteen : bytes.length = 16 := size
      simp [plainNtop, hexBytes, inet6Addrstrlen, sixteen]
  injective family left right leftSize rightSize same := by
    cases family with
    | inet => exact quad_injective leftSize rightSize same
    | inet6 => exact hexBytes_injective same

def beforeSlash (text : List Char) : List Char := (text.rdropWhile (· ≠ '/')).dropLast

/-- What `&address.z` shows of every v4-mapped address. -/
def zBytes : Addr4 := ⟨[0, 0, 0xFF, 0xFF], rfl⟩

structure PrintersAgree (address : Addr6) (plen : UInt8) : Prop where
  prefixes : ∀ buf buf', result (formatPrefix host ntop address plen buf) =
    result (formatPrefixStr ntop address.b plen buf')
  addresses : ∀ buf buf', result (formatAddress host ntop address buf) =
    beforeSlash (result (formatPrefixStr ntop address.b 128 buf'))

theorem beforeSlash_append (text : List Char) (plen : Nat) :
    beforeSlash (text ++ '/' :: Nat.toDigits 10 plen) = text := by
  have digits : ∀ c ∈ (Nat.toDigits 10 plen).reverse, decide (c ≠ '/') = true := by
    intro c member
    have digit := Nat.isDigit_of_mem_toDigits (by decide) (by decide) (List.mem_reverse.mp member)
    rw [decide_eq_true_iff]
    rintro rfl
    exact absurd digit (by decide)
  simp only [beforeSlash, List.rdropWhile, List.reverse_append, List.reverse_cons,
    List.append_assoc, List.dropWhile_append_of_pos digits]
  simp

section

variable {ntop} (documented : InetNtop ntop)
include documented

theorem ntop_words (address : Addr6) (mapped : V4Mapped address) :
    ntop .inet ((address.b.drop 8).take 4) = ntop .inet ((address.b.drop 12).take 4) ↔
      toV4 address = zBytes := by
  have size := address.size
  have third : (address.b.drop 8).take 4 = zBytes.b := ((v4Mapped_iff address).mp mapped).1
  have last : (address.b.drop 12).take 4 = (toV4 address).b :=
    List.take_of_length_le (by simp [size])
  rw [third, last]
  constructor
  · intro same
    have bytes := documented.injective .inet _ _ zBytes.size (toV4 address).size same
    exact (Addr4.mk.injEq ..).mpr bytes.symm
  · intro same
    rw [same]

theorem prefixText_agree (address : Addr6) (plen : UInt8) :
    prefixText ntop 8 address plen = prefixText ntop 12 address plen ↔
      (96 ≤ plen → V4Mapped address → toV4 address = zBytes) := by
  unfold prefixText
  by_cases mapped : 96 ≤ plen ∧ V4Mapped address
  · simp [mapped, ntop_words documented address mapped.2]
  · rw [if_neg mapped, if_neg mapped]
    exact iff_of_true rfl fun long family => absurd ⟨long, family⟩ mapped

theorem addresses_agree (address : Addr6) (buf buf' : Buf) :
    result (formatAddress host ntop address buf) =
        beforeSlash (result (formatPrefixStr ntop address.b 128 buf')) ↔
      (V4Mapped address → toV4 address = zBytes) := by
  rw [result_formatAddress host documented.short, result_formatPrefixStr documented.short,
    prefixText]
  by_cases mapped : V4Mapped address
  · have long : (96 : UInt8) ≤ 128 ∧ V4Mapped address := ⟨by decide, mapped⟩
    rw [if_pos mapped, if_pos long, beforeSlash_append, ntop_words documented address mapped]
    exact (imp_iff_right mapped).symm
  · have other : ¬((96 : UInt8) ≤ 128 ∧ V4Mapped address) := fun both => mapped both.2
    rw [if_neg mapped, if_neg other, beforeSlash_append]
    exact iff_of_true rfl fun family => absurd family mapped

theorem printersAgree_iff (address : Addr6) (plen : UInt8) :
    PrintersAgree host ntop address plen ↔ (V4Mapped address → toV4 address = zBytes) := by
  constructor
  · intro agree
    let buf : Buf := ⟨fun _ => [], 0⟩
    exact (addresses_agree host documented address buf buf).mp (agree.addresses buf buf)
  · intro shown
    refine ⟨?_, fun buf buf' => (addresses_agree host documented address buf buf').mpr shown⟩
    intro buf buf'
    rw [result_formatPrefix host documented.short, result_formatPrefixStr documented.short]
    exact (prefixText_agree documented address plen).mpr fun _ => shown

end

def lan : Addr6 := ⟨[0, 0, 0, 0, 0, 0, 0, 0, 0, 0, 0xFF, 0xFF, 10, 0, 0, 1], rfl⟩

theorem printersAgree_lan :
    PrintersAgree .little plainNtop lan 120 ↔ (V4Mapped lan → toV4 lan = zBytes) :=
  printersAgree_iff .little inetNtop_plain lan 120

theorem not_printersAgree_lan : ¬PrintersAgree .little plainNtop lan 120 := by
  intro agree
  let buf : Buf := ⟨fun _ => [], 0⟩
  exact absurd (agree.prefixes buf buf) (by decide)

end Tabeld.Kdump
