import Mathlib.Algebra.Group.Int.Defs

set_option autoImplicit false

/-!
# Decimal text of C integers

What `%d` prints and what `atoi` reads, for a `long` of 64 bits and an `int` of 32.
-/

namespace Decimal

def text (value : Int) : List Char :=
  if value < 0 then '-' :: Nat.toDigits 10 value.natAbs else Nat.toDigits 10 value.natAbs

def isSpace (c : Char) : Bool :=
  c = ' ' ∨ c = '\t' ∨ c = '\n' ∨ c = '\x0B' ∨ c = '\x0C' ∨ c = '\r'

def sign : List Char → Bool × List Char
  | '-' :: rest => (true, rest)
  | '+' :: rest => (false, rest)
  | other => (false, other)

/-- A value out of range is the nearest `long`. -/
def strtol (buf : List Char) : Int :=
  let (negative, rest) := sign (buf.dropWhile isSpace)
  let value : Int := Nat.ofDigitChars 10 (rest.takeWhile Char.isDigit) 0
  if negative then max (-value) (-2 ^ 63) else min value (2 ^ 63 - 1)

/-- `buf` is a C string, and what the terminator is followed by is not read. -/
def atoi (buf : List Char) : Int :=
  (BitVec.ofInt 32 (strtol (buf.takeWhile fun c => c ≠ '\x00'))).toInt

def InRange (value : Int) : Prop := -2 ^ 31 ≤ value ∧ value < 2 ^ 31

theorem isDigit_text {value : Int} {c : Char} (member : c ∈ text value) : c = '-' ∨ c.isDigit := by
  unfold text at member
  split at member
  · rcases List.mem_cons.mp member with minus | digit
    · exact Or.inl minus
    · exact Or.inr (Nat.isDigit_of_mem_toDigits (by decide) (by decide) digit)
  · exact Or.inr (Nat.isDigit_of_mem_toDigits (by decide) (by decide) member)

theorem not_isSpace_of_isDigit {c : Char} (digit : c.isDigit) : isSpace c = false := by
  have bounds : 48 ≤ c.toNat := by
    simp only [Char.isDigit, Bool.and_eq_true, decide_eq_true_eq] at digit
    exact digit.1
  have other (d : Char) (low : d.toNat < 48) : c ≠ d := by
    rintro rfl
    omega
  simp [isSpace, other]

theorem sign_digits {c : Char} (digit : c.isDigit) (rest : List Char) :
    sign (c :: rest) = (false, c :: rest) := by
  have minus : c ≠ '-' := by
    rintro rfl
    exact absurd digit (by decide)
  have plus : c ≠ '+' := by
    rintro rfl
    exact absurd digit (by decide)
  unfold sign
  split <;> simp_all

theorem takeWhile_digits (n : Nat) {rest : List Char}
    (stops : ∀ c ∈ rest.head?, c.isDigit = false) :
    (Nat.toDigits 10 n ++ rest).takeWhile Char.isDigit = Nat.toDigits 10 n := by
  have digits : ∀ c ∈ Nat.toDigits 10 n, c.isDigit := fun c member =>
    Nat.isDigit_of_mem_toDigits (by decide) (by decide) member
  rw [List.takeWhile_append_of_pos digits]
  cases rest with
  | nil => simp
  | cons c later => simp [stops c rfl]

theorem strtol_text {value : Int} (range : InRange value) {rest : List Char}
    (stops : ∀ c ∈ rest.head?, c.isDigit = false) : strtol (text value ++ rest) = value := by
  have digits := takeWhile_digits value.natAbs stops
  have number : (Nat.ofDigitChars 10 (Nat.toDigits 10 value.natAbs) 0 : Int) = value.natAbs := by
    rw [Nat.ofDigitChars_ten_toDigits]
  obtain ⟨low, high⟩ := range
  by_cases negative : value < 0
  · have spaces : (text value ++ rest).dropWhile isSpace =
        '-' :: (Nat.toDigits 10 value.natAbs ++ rest) := by
      rw [text, if_pos negative]
      rfl
    simp only [strtol, spaces, sign, digits, number, if_true]
    omega
  · obtain ⟨first, later, split⟩ := List.exists_cons_of_ne_nil
      (Nat.toDigits_ne_nil (n := value.natAbs) (b := 10))
    have digit : first.isDigit := Nat.isDigit_of_mem_toDigits (b := 10) (n := value.natAbs)
      (by decide) (by decide) (by rw [split]; simp)
    have spaces : (text value ++ rest).dropWhile isSpace =
        Nat.toDigits 10 value.natAbs ++ rest := by
      rw [text, if_neg negative, split, List.cons_append]
      exact List.dropWhile_cons_of_neg (by simp [not_isSpace_of_isDigit digit])
    have unsigned : sign (Nat.toDigits 10 value.natAbs ++ rest) =
        (false, Nat.toDigits 10 value.natAbs ++ rest) := by
      rw [split, List.cons_append, sign_digits digit]
    simp only [strtol, spaces, unsigned, digits, number, Bool.false_eq_true, if_false]
    omega

theorem atoi_text {value : Int} (range : InRange value) {rest : List Char}
    (stops : ∀ c ∈ rest.head?, c.isDigit = false) : atoi (text value ++ rest) = value := by
  have clean : ∀ c ∈ text value, decide (c ≠ '\x00') = true := by
    intro c member
    have other : c ≠ '\x00' := by
      rintro rfl
      rcases isDigit_text member with minus | digit
      · exact absurd minus (by decide)
      · exact absurd digit (by decide)
    simpa using other
  have after : ∀ c ∈ (rest.takeWhile fun c => c ≠ '\x00').head?, c.isDigit = false := by
    intro c first
    cases rest with
    | nil => simp at first
    | cons d later =>
      rw [List.takeWhile_cons] at first
      split at first
      · rw [List.head?_cons, Option.mem_some_iff] at first
        exact first ▸ stops d rfl
      · simp at first
  rw [atoi, List.takeWhile_append_of_pos clean, strtol_text range after, BitVec.toInt_ofInt]
  obtain ⟨low, high⟩ := range
  exact Int.bmod_eq_of_le (by omega) (by omega)

theorem length_text {value : Int} (range : InRange value) :
    0 < (text value).length ∧ (text value).length ≤ 11 := by
  obtain ⟨low, high⟩ := range
  have digits : (Nat.toDigits 10 value.natAbs).length ≤ 10 :=
    (Nat.length_toDigits_le_iff (by decide) (by decide)).mpr (by omega)
  have some_ : 0 < (Nat.toDigits 10 value.natAbs).length := Nat.length_toDigits_pos
  unfold text
  split
  · rw [List.length_cons]
    omega
  · omega

end Decimal
