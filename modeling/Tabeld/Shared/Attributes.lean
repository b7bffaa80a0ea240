import Mathlib.Data.List.Induction
import Tabeld.Shared.Decoder

set_option autoImplicit false

/-!
# Lists of attributes

An attribute is a length and a type of two bytes each, then its payload. The length counts these
four bytes too; the next attribute starts at the next multiple of four.
-/

structure Attribute where
  offset : Nat
  len : Nat
  type : Nat
  deriving DecidableEq

def Attribute.data (a : Attribute) : Nat := a.offset + 4

def Attribute.payload (a : Attribute) : Nat := a.len - 4

namespace Attributes

def align (size : Nat) : Nat := (size + 3) / 4 * 4

theorem le_align (size : Nat) : size ≤ align size := by
  unfold align
  omega

variable (order : ByteOrder)

def first (mem : Memory) (start : Nat) : Attribute where
  offset := start
  len := mem.word order start 2
  type := mem.word order (start + 2) 2

def Ok (mem : Memory) (start : Nat) (len : Int) : Prop :=
  4 ≤ len ∧ 4 ≤ (first order mem start).len ∧ (first order mem start).len ≤ len

instance (mem : Memory) (start : Nat) (len : Int) : Decidable (Ok order mem start len) :=
  inferInstanceAs (Decidable (_ ∧ _ ∧ _))

theorem ok_iff {mem : Memory} {start : Nat} {len : Int} : Ok order mem start len ↔
    ¬len < 4 ∧ ¬(mem.word order start 2 < 4 ∨ len < mem.word order start 2) := by
  simp only [Ok, first]
  omega

def upTo {α : Type} (ends : α → Bool) : List α → List α
  | [] => []
  | a :: rest => a :: if ends a then [] else upTo ends rest

theorem mem_of_mem_upTo {α : Type} {ends : α → Bool} {a : α} {l : List α}
    (member : a ∈ upTo ends l) : a ∈ l := by
  induction l with
  | nil => cases member
  | cons b rest ih =>
    rw [upTo] at member
    rcases List.mem_cons.mp member with rfl | later
    · simp
    · split at later
      next => cases later
      next => exact List.mem_cons_of_mem b (ih later)

def listFrom (mem : Memory) : Nat → Nat → Int → List Attribute
  | 0, _, _ => []
  | fuel + 1, start, len =>
    if Ok order mem start len then
      first order mem start ::
        listFrom mem fuel (start + align (first order mem start).len)
          (len - align (first order mem start).len)
    else []

def list (mem : Memory) (start : Nat) (len : Int) : List Attribute :=
  -- every attribute takes four bytes of `len` or more
  listFrom order mem len.toNat start len

theorem listFrom_fuel (mem : Memory) (fuel other start : Nat) (len : Int)
    (enough : len.toNat ≤ fuel) (also : len.toNat ≤ other) :
    listFrom order mem fuel start len = listFrom order mem other start len := by
  induction fuel generalizing other start len with
  | zero =>
    have none : ¬Ok order mem start len := by
      intro ok
      have room := ok.1
      omega
    cases other <;> simp [listFrom, none]
  | succ fuel ih =>
    by_cases ok : Ok order mem start len
    · have room := ok.1
      have least := ok.2.1
      have grown := le_align (first order mem start).len
      cases other with
      | zero => omega
      | succ other =>
        rw [listFrom, listFrom, if_pos ok, if_pos ok, ih other _ _ (by omega) (by omega)]
    · cases other <;> simp [listFrom, ok]

theorem list_eq (mem : Memory) (start : Nat) (len : Int) : list order mem start len =
    if Ok order mem start len then
      first order mem start ::
        list order mem (start + align (first order mem start).len)
          (len - align (first order mem start).len)
    else [] := by
  split
  next ok =>
    have room := ok.1
    have least := ok.2.1
    have grown := le_align (first order mem start).len
    obtain ⟨fuel, same⟩ : ∃ fuel, len.toNat = fuel + 1 := ⟨len.toNat - 1, by omega⟩
    rw [list, same, listFrom, if_pos ok, list, listFrom_fuel] <;> omega
  next ok =>
    rw [list]
    cases len.toNat <;> simp [listFrom, ok]

theorem mem_list {mem : Memory} {start : Nat} {len : Int} {a : Attribute}
    (member : a ∈ list order mem start len) :
    start ≤ a.offset ∧ 4 ≤ a.len ∧ (a.offset : Int) + a.len ≤ start + len := by
  unfold list at member
  generalize len.toNat = fuel at member
  induction fuel generalizing start len with
  | zero => cases member
  | succ fuel ih =>
    rw [listFrom] at member
    split at member
    next ok =>
      have room := ok.2.2
      have grown := le_align (first order mem start).len
      rcases List.mem_cons.mp member with rfl | later
      · exact ⟨Nat.le_refl _, ok.2.1, Int.add_le_add_left room _⟩
      · have rest := ih later
        omega
    next => cases member

def lastOf (type : Nat) (attrs : List Attribute) : Option Attribute :=
  (attrs.filter fun a => a.type = type).getLast?

/-- What only attributes of one type set is decided by the last of them. -/
theorem foldl_lastOf {σ β : Type} {step : σ → Attribute → σ} (get : σ → β) {type : Nat}
    {value : Attribute → β}
    (sets : ∀ s a, get (step s a) = if a.type = type then value a else get s)
    (attrs : List Attribute) (s : σ) : get (attrs.foldl step s) =
      match lastOf type attrs with
      | some a => value a
      | none => get s := by
  induction attrs using List.reverseRecOn with
  | nil => rfl
  | append_singleton attrs a ih =>
    rw [List.foldl_append, List.foldl_cons, List.foldl_nil, sets, ih, lastOf, lastOf,
      List.filter_append]
    by_cases same : a.type = type <;> simp [same]

variable {ρ σ : Type}

def eachFrom (body : Attribute → σ → Decoder ρ σ) : Nat → Nat → Int → σ → Decoder ρ σ
  | 0, _, _, s => pure s
  | fuel + 1, start, len, s =>
    if len < 4 then pure s
    else do
      let rtaLen ← Decoder.word order start 2
      if rtaLen < 4 ∨ len < rtaLen then pure s
      else do
        let type ← Decoder.word order (start + 2) 2
        let s ← body ⟨start, rtaLen, type⟩ s
        eachFrom body fuel (start + align rtaLen) (len - align rtaLen) s

def each (body : Attribute → σ → Decoder ρ σ) (start : Nat) (len : Int) (s : σ) : Decoder ρ σ :=
  eachFrom order body len.toNat start len s

theorem value_each (body : Attribute → σ → Decoder ρ σ) (mem : Memory) (start : Nat) (len : Int)
    (s : σ) : (each order body start len s).value mem =
      (list order mem start len).foldlM (fun s a => (body a s).value mem) s := by
  unfold each list
  generalize len.toNat = fuel
  induction fuel generalizing start len s with
  | zero => rfl
  | succ fuel ih =>
    rw [eachFrom, listFrom]
    by_cases room : len < 4
    · have none : ¬Ok order mem start len := fun ok => ((ok_iff order).mp ok).1 room
      simp [room, none]
      rfl
    · by_cases bad : mem.word order start 2 < 4 ∨ len < mem.word order start 2
      · have none : ¬Ok order mem start len := fun ok => ((ok_iff order).mp ok).2 bad
        simp [room, bad, none]
        rfl
      · have ok : Ok order mem start len := (ok_iff order).mpr ⟨room, bad⟩
        simp only [room, if_false, ok, if_true, List.foldlM_cons, Decoder.value_bind,
          Decoder.value_word, Decoder.ok_bind, bad, ih]
        rfl

theorem value_each_ok {body : Attribute → σ → Decoder ρ σ} (step : Attribute → σ → σ)
    {mem : Memory} {start : Nat} {len : Int}
    (plain : ∀ a ∈ list order mem start len, ∀ s, (body a s).value mem = .ok (step a s)) (s : σ) :
    (each order body start len s).value mem =
      .ok ((list order mem start len).foldl (fun s a => step a s) s) := by
  rw [value_each]
  generalize list order mem start len = attrs at plain
  induction attrs generalizing s with
  | nil => rfl
  | cons a rest ih =>
    rw [List.foldlM_cons, plain a (by simp), Decoder.ok_bind, List.foldl_cons]
    exact ih (step a s) fun b member => plain b (by simp [member])

theorem within_each {body : Attribute → σ → Decoder ρ σ} (ends : Attribute → Bool)
    (fits : Attribute → Prop) (inv : σ → Prop) {mem : Memory} {limit start : Nat} {len : Int}
    (room : (start : Int) + len ≤ limit)
    (reads : ∀ a ∈ list order mem start len, ∀ s, (body a s).Within mem limit ↔ fits a)
    (early : ∀ a ∈ list order mem start len, ∀ s, inv s →
      ((∀ t, (body a s).value mem ≠ .ok t) ↔ ends a = true))
    (keep : ∀ a ∈ list order mem start len, ∀ s t, inv s → (body a s).value mem = .ok t → inv t)
    (s : σ) (initial : inv s) :
    (each order body start len s).Within mem limit ↔
      ∀ a ∈ upTo ends (list order mem start len), fits a := by
  unfold each
  unfold list at *
  generalize len.toNat = fuel at *
  induction fuel generalizing start len s with
  | zero => simp [eachFrom, listFrom, upTo]
  | succ fuel ih =>
    rw [eachFrom]
    by_cases short : len < 4
    · have none : ¬Ok order mem start len := fun ok => ((ok_iff order).mp ok).1 short
      simp [listFrom, short, none, upTo]
    · have header : start + 2 ≤ limit := by omega
      by_cases bad : mem.word order start 2 < 4 ∨ len < mem.word order start 2
      · have none : ¬Ok order mem start len := fun ok => ((ok_iff order).mp ok).2 bad
        simp only [short, if_false, Decoder.within_bind, Decoder.within_word, header, true_and,
          Decoder.value_word, Except.ok.injEq, forall_eq', bad, if_true, listFrom, none, upTo]
        simp
      · have ok : Ok order mem start len := (ok_iff order).mpr ⟨short, bad⟩
        have type : start + 2 + 2 ≤ limit := by omega
        have grown := le_align (first order mem start).len
        simp only [listFrom, ok, if_true] at reads early keep ⊢
        have here := reads (first order mem start) (by simp) s
        have ended := early (first order mem start) (by simp) s initial
        simp only [short, if_false, Decoder.within_bind, Decoder.within_word, header, true_and,
          Decoder.value_word, Except.ok.injEq, forall_eq', bad, type]
        rw [show (⟨start, mem.word order start 2, mem.word order (start + 2) 2⟩ : Attribute) =
          first order mem start from rfl, here, upTo, List.forall_mem_cons]
        apply and_congr_right
        intro _
        by_cases ending : ends (first order mem start) = true
        · have never := ended.mpr ending
          simp [ending, never]
        · have goesOn : ∃ t, (body (first order mem start) s).value mem = .ok t := by
            by_contra never
            exact ending (ended.mp fun t same => never ⟨t, same⟩)
          obtain ⟨t, reached⟩ := goesOn
          simp only [reached, Except.ok.injEq, forall_eq', ending]
          exact ih (by omega) t (keep _ (by simp) s t initial reached)
            (fun a member => reads a (List.mem_cons_of_mem _ member))
            (fun a member => early a (List.mem_cons_of_mem _ member))
            (fun a member => keep a (List.mem_cons_of_mem _ member))

theorem within_each_free {body : Attribute → σ → Decoder ρ σ} (ends : Attribute → Bool)
    (fits : Attribute → Prop) {mem : Memory} {limit start : Nat} {len : Int}
    (room : (start : Int) + len ≤ limit)
    (reads : ∀ a ∈ list order mem start len, ∀ s, (body a s).Within mem limit ↔ fits a)
    (early : ∀ a s, (∀ t, (body a s).value mem ≠ .ok t) ↔ ends a = true) (s : σ) :
    (each order body start len s).Within mem limit ↔
      ∀ a ∈ upTo ends (list order mem start len), fits a :=
  within_each order ends fits (fun _ => True) room reads (fun a _ s _ => early a s)
    (fun _ _ _ _ _ _ => trivial) s trivial

end Attributes
