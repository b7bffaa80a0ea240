import Tabeld.Shared.BitString
import Tabeld.Structures

set_option autoImplicit false

namespace Tabeld.Kdump

open BitString

variable (host : ByteOrder)

def dotted (a b c d : UInt8) : Addr4 := ⟨[a, b, c, d], rfl⟩

def martians4 : List Rte4 :=
  [{ dst := dotted 127 0 0 0, dstPlen := 8, via := 0, hh := 0 },
    { dst := dotted 255 255 255 255, dstPlen := 0, via := 0, hh := 0 },
    { dst := dotted 224 0 0 0, dstPlen := 4, via := 0, hh := 0 },
    { dst := dotted 0 0 0 0, dstPlen := 8, via := 0, hh := 0 }]

def martianCheckAt (a : Addr4) (plen : UInt8) : List Nat → Option Bool
  | [] => some false
  | i :: rest =>
    -- an entry past the end of the table has no defined value
    match martians4[i]? with
    | none => none
    | some entry =>
      if entry.dst.v host = a.v host ∧ entry.dstPlen ≤ plen then some true
      else martianCheckAt a plen rest

def martianCheck4 (a : Addr4) (plen : UInt8) : Option Bool :=
  martianCheckAt host a plen (List.range 5)

def Inside (range : Addr4) (length : Nat) (a : Addr4) (plen : UInt8) : Prop :=
  length ≤ plen.toNat ∧ Agree length a.b range.b

instance decidableInside (range : Addr4) (length : Nat) (a : Addr4) (plen : UInt8) :
    Decidable (Inside range length a plen) :=
  inferInstanceAs (Decidable (_ ∧ _))

def Martian (a : Addr4) (plen : UInt8) : Prop :=
  Inside (dotted 127 0 0 0) 8 a plen ∨ Inside (dotted 224 0 0 0) 4 a plen ∨
    Inside (dotted 0 0 0 0) 8 a plen ∨ a = dotted 255 255 255 255

instance decidableMartian (a : Addr4) (plen : UInt8) : Decidable (Martian a plen) :=
  inferInstanceAs (Decidable (_ ∨ _ ∨ _ ∨ _))

def Listed (entries : List Rte4) (a : Addr4) (plen : UInt8) : Prop :=
  ∃ entry ∈ entries, entry.dst = a ∧ entry.dstPlen ≤ plen

instance decidableListed (entries : List Rte4) (a : Addr4) (plen : UInt8) :
    Decidable (Listed entries a plen) :=
  inferInstanceAs (Decidable (∃ entry ∈ entries, _ ∧ _))

theorem listed_cons (entry : Rte4) (rest : List Rte4) (a : Addr4) (plen : UInt8) :
    Listed (entry :: rest) a plen ↔
      (entry.dst = a ∧ entry.dstPlen ≤ plen) ∨ Listed rest a plen := by
  simp [Listed]

theorem martian_of_listed {a : Addr4} {plen : UInt8} (listed : Listed martians4 a plen) :
    Martian a plen := by
  obtain ⟨entry, member, rfl, long⟩ := listed
  have inside : Inside entry.dst entry.dstPlen.toNat entry.dst plen :=
    ⟨UInt8.le_iff_toNat_le.mp long, agree_refl _ _⟩
  simp only [martians4, List.mem_cons, List.not_mem_nil, or_false] at member
  rcases member with rfl | rfl | rfl | rfl
  · exact Or.inl inside
  · exact Or.inr (Or.inr (Or.inr rfl))
  · exact Or.inr (Or.inl inside)
  · exact Or.inr (Or.inr (Or.inl inside))

theorem v_inj (a b : Addr4) : a.v host = b.v host ↔ a = b := by
  obtain ⟨left, leftSize⟩ := a
  obtain ⟨right, rightSize⟩ := b
  simpa [Addr4.v] using host.load_inj (leftSize.trans rightSize.symm)

theorem martianCheckAt_eq (a : Addr4) (plen : UInt8) (start left : Nat)
    (fits : start + left = martians4.length) :
    martianCheckAt host a plen (List.range' start (left + 1)) =
      if Listed (martians4.drop start) a plen then some true else none := by
  induction left generalizing start with
  | zero =>
    have past : martians4[start]? = none := List.getElem?_eq_none (by omega)
    have rest : martians4.drop start = [] := List.drop_eq_nil_of_le (by omega)
    simp [martianCheckAt, past, rest, Listed]
  | succ left ih =>
    have inside : start < martians4.length := by omega
    have read : martians4[start]? = some martians4[start] := List.getElem?_eq_getElem inside
    have rest : martians4.drop start = martians4[start] :: martians4.drop (start + 1) :=
      List.drop_eq_getElem_cons inside
    have listed : Listed (martians4.drop start) a plen ↔
        (martians4[start].dst = a ∧ martians4[start].dstPlen ≤ plen) ∨
          Listed (martians4.drop (start + 1)) a plen := by
      rw [rest, listed_cons]
    rw [List.range'_succ, martianCheckAt, read]
    simp only [v_inj, listed]
    split
    next found => rw [if_pos (Or.inl found)]
    next other =>
      rw [ih (start + 1) (by omega)]
      simp [other]

theorem martianCheck4_eq (a : Addr4) (plen : UInt8) : martianCheck4 host a plen =
    if Listed martians4 a plen then some true else none :=
  martianCheckAt_eq host a plen 0 4 rfl

def ChecksMartians (a : Addr4) (plen : UInt8) : Prop :=
  martianCheck4 host a plen = some (decide (Martian a plen))

theorem checksMartians_iff (a : Addr4) (plen : UInt8) :
    ChecksMartians host a plen ↔ Listed martians4 a plen := by
  rw [ChecksMartians, martianCheck4_eq]
  by_cases listed : Listed martians4 a plen
  · simp [listed, martian_of_listed listed]
  · simp [listed]

theorem not_checksMartians_localhost :
    Martian (dotted 127 0 0 1) 32 ∧ ¬ChecksMartians .little (dotted 127 0 0 1) 32 := by
  refine ⟨by decide, ?_⟩
  rw [ChecksMartians, martianCheck4_eq]
  decide

end Tabeld.Kdump
