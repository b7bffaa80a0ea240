import Tabeld.Shared.Memory

set_option autoImplicit false

/-!
# Computations that read memory

A decoder yields a value or returns early; beside that it records what it has read, so that one
definition answers both what is decoded and which bytes that takes. The record is complete: memory
that was not read makes no difference.
-/

inductive Access where
  | span (start count : Nat)
  -- bytes up to and including the first zero
  | string (start : Nat)
  deriving DecidableEq

namespace Access

def Inside (mem : Memory) (limit : Nat) : Access → Prop
  | span start count => start + count ≤ limit
  | string start => ∃ stop < limit, start ≤ stop ∧ mem stop = 0

instance (mem : Memory) (limit : Nat) (access : Access) :
    Decidable (access.Inside mem limit) :=
  match access with
  | span start count => inferInstanceAs (Decidable (start + count ≤ limit))
  | string start => inferInstanceAs (Decidable (∃ stop < limit, start ≤ stop ∧ mem stop = 0))

def Covers (mem : Memory) (address : Nat) : Access → Prop
  | span start count => start ≤ address ∧ address < start + count
  | string start =>
    start ≤ address ∧ ∀ earlier, start ≤ earlier → earlier < address → mem earlier ≠ 0

theorem lt_of_covers {mem : Memory} {limit address : Nat} {access : Access}
    (inside : access.Inside mem limit) (covers : access.Covers mem address) : address < limit := by
  cases access with
  | span start count => exact Nat.lt_of_lt_of_le covers.2 inside
  | string start =>
    obtain ⟨stop, bound, low, zero⟩ := inside
    by_contra far
    exact covers.2 stop low (by omega) zero

end Access

def Agree (left right : Memory) (log : List Access) : Prop :=
  ∀ access ∈ log, ∀ address, access.Covers left address → left address = right address

/-- `ρ` is the type of early results. -/
structure Decoder (ρ α : Type) where
  run : Memory → List Access × Except ρ α
  honest : ∀ mem other, Agree mem other (run mem).1 → run other = run mem

namespace Decoder

variable {ρ σ α β : Type}

def value (d : Decoder ρ α) (mem : Memory) : Except ρ α := (d.run mem).2

def accesses (d : Decoder ρ α) (mem : Memory) : List Access := (d.run mem).1

def Within (d : Decoder ρ α) (mem : Memory) (limit : Nat) : Prop :=
  ∀ access ∈ d.accesses mem, access.Inside mem limit

theorem run_congr (d : Decoder ρ α) {mem other : Memory} {limit : Nat}
    (within : d.Within mem limit) (same : ∀ address < limit, mem address = other address) :
    d.run other = d.run mem := by
  apply d.honest
  intro access member address covers
  exact same address (access.lt_of_covers (within access member) covers)

def runBind (d : Decoder ρ α) (next : α → Decoder ρ β) (mem : Memory) :
    List Access × Except ρ β :=
  match d.run mem with
  | (log, .ok a) => (log ++ (next a).accesses mem, (next a).value mem)
  | (log, .error r) => (log, .error r)

theorem bind_honest (d : Decoder ρ α) (next : α → Decoder ρ β) (mem other : Memory)
    (agree : Agree mem other (d.runBind next mem).1) :
    d.runBind next other = d.runBind next mem := by
  have first := d.honest mem other
  unfold runBind at agree ⊢
  generalize d.run mem = result at agree first ⊢
  obtain ⟨log, r | a⟩ := result
  · rw [first agree]
  · rw [first fun access member => agree access (List.mem_append_left _ member)]
    have second := (next a).honest mem other
      fun access member => agree access (List.mem_append_right _ member)
    simp only [accesses, value, second]

theorem pure_honest (result : Except ρ α) (mem other : Memory)
    (_ : Agree mem other []) : (([], result) : List Access × Except ρ α) = ([], result) := rfl

instance : Monad (Decoder ρ) where
  pure a := ⟨fun _ => ([], .ok a), pure_honest (.ok a)⟩
  bind d next := ⟨d.runBind next, bind_honest d next⟩

def stop (r : ρ) : Decoder ρ α := ⟨fun _ => ([], .error r), pure_honest (.error r)⟩

def result (body : Decoder α α) (mem : Memory) : α :=
  match body.value mem with
  | .ok a => a
  | .error a => a

theorem result_of_value {body : Decoder α α} {mem : Memory} {a : α}
    (value : body.value mem = .ok a) : body.result mem = a := by
  rw [result, value]

theorem result_congr (body : Decoder α α) {mem other : Memory} {limit : Nat}
    (within : body.Within mem limit) (same : ∀ address < limit, mem address = other address) :
    body.result other = body.result mem := by
  rw [result, result, value, value, run_congr body within same]

theorem call_honest (body : Decoder α α) (mem other : Memory)
    (agree : Agree mem other (body.accesses mem)) :
    ((body.accesses other, .ok (body.result other)) : List Access × Except ρ α) =
      (body.accesses mem, .ok (body.result mem)) := by
  have same := body.honest mem other agree
  simp only [accesses, result, value, same]

def call (body : Decoder α α) : Decoder ρ α :=
  ⟨fun mem => (body.accesses mem, .ok (body.result mem)), call_honest body⟩

theorem word_honest (order : ByteOrder) (start width : Nat) (mem other : Memory)
    (agree : Agree mem other [.span start width]) :
    (([.span start width], .ok (other.word order start width)) : List Access × Except ρ Nat) =
      ([.span start width], .ok (mem.word order start width)) := by
  rw [Memory.word_congr order _ _ fun address low high =>
    agree (.span start width) (by simp) address ⟨low, high⟩]

def word (order : ByteOrder) (start width : Nat) : Decoder ρ Nat :=
  ⟨fun mem => ([.span start width], .ok (mem.word order start width)),
    word_honest order start width⟩

def bytesAt (start count : Nat) (mem : Memory) : {bytes : List UInt8 // bytes.length = count} :=
  ⟨mem.bytes start count, mem.length_bytes start count⟩

theorem copy_honest (start count : Nat) (mem other : Memory)
    (agree : Agree mem other [.span start count]) :
    (([.span start count], .ok (bytesAt start count other)) : List Access × Except ρ _) =
      ([.span start count], .ok (bytesAt start count mem)) := by
  have same : other.bytes start count = mem.bytes start count :=
    (Memory.bytes_congr _ _ fun address low high =>
      agree (.span start count) (by simp) address ⟨low, high⟩).symm
  simp only [bytesAt, same]

def copy (start count : Nat) : Decoder ρ {bytes : List UInt8 // bytes.length = count} :=
  ⟨fun mem => ([.span start count], .ok (bytesAt start count mem)), copy_honest start count⟩

theorem string_honest (start : Nat) (mem other : Memory)
    (_ : Agree mem other [.string start]) :
    (([.string start], .ok ()) : List Access × Except ρ Unit) = ([.string start], .ok ()) := rfl

def string (start : Nat) : Decoder ρ Unit :=
  ⟨fun _ => ([.string start], .ok ()), string_honest start⟩

@[simp] theorem ok_bind (a : α) (next : α → Except ρ β) : (Except.ok a >>= next) = next a := rfl

@[simp] theorem error_bind (r : ρ) (next : α → Except ρ β) :
    (Except.error r >>= next) = .error r := rfl

@[simp] theorem value_pure (a : α) (mem : Memory) :
    (pure a : Decoder ρ α).value mem = .ok a := rfl

@[simp] theorem value_bind (d : Decoder ρ α) (next : α → Decoder ρ β) (mem : Memory) :
    (d >>= next).value mem = d.value mem >>= fun a => (next a).value mem := by
  simp only [value, bind, runBind]
  generalize d.run mem = result
  obtain ⟨log, a | r⟩ := result <;> rfl

@[simp] theorem value_stop (r : ρ) (mem : Memory) :
    (stop r : Decoder ρ α).value mem = .error r := rfl

@[simp] theorem value_call (body : Decoder α α) (mem : Memory) :
    (call body : Decoder ρ α).value mem = .ok (body.result mem) := rfl

@[simp] theorem value_word (order : ByteOrder) (start width : Nat) (mem : Memory) :
    (word order start width : Decoder ρ Nat).value mem = .ok (mem.word order start width) := rfl

@[simp] theorem value_ite (c : Prop) [Decidable c] (d e : Decoder ρ α) (mem : Memory) :
    (if c then d else e).value mem = if c then d.value mem else e.value mem := by
  split <;> rfl

@[simp] theorem within_pure (a : α) (mem : Memory) (limit : Nat) :
    (pure a : Decoder ρ α).Within mem limit := by
  intro access member
  cases member

@[simp] theorem within_bind (d : Decoder ρ α) (next : α → Decoder ρ β) (mem : Memory)
    (limit : Nat) : (d >>= next).Within mem limit ↔
      d.Within mem limit ∧ ∀ a, d.value mem = .ok a → (next a).Within mem limit := by
  simp only [Within, value, accesses, bind, runBind]
  generalize d.run mem = result
  obtain ⟨log, r | a⟩ := result
  · simp
  · simp [or_imp, forall_and]

@[simp] theorem within_stop (r : ρ) (mem : Memory) (limit : Nat) :
    (stop r : Decoder ρ α).Within mem limit := by
  intro access member
  cases member

@[simp] theorem within_call (body : Decoder α α) (mem : Memory) (limit : Nat) :
    (call body : Decoder ρ α).Within mem limit ↔ body.Within mem limit := Iff.rfl

@[simp] theorem within_word (order : ByteOrder) (start width : Nat) (mem : Memory) (limit : Nat) :
    (word order start width : Decoder ρ Nat).Within mem limit ↔ start + width ≤ limit := by
  simp [Within, accesses, word, Access.Inside]

@[simp] theorem within_copy (start count : Nat) (mem : Memory) (limit : Nat) :
    (copy start count : Decoder ρ _).Within mem limit ↔ start + count ≤ limit := by
  simp [Within, accesses, copy, Access.Inside]

@[simp] theorem within_string (start : Nat) (mem : Memory) (limit : Nat) :
    (string start : Decoder ρ Unit).Within mem limit ↔
      ∃ stop < limit, start ≤ stop ∧ mem stop = 0 := by
  simp [Within, accesses, string, Access.Inside]

@[simp] theorem within_ite (c : Prop) [Decidable c] (d e : Decoder ρ α) (mem : Memory)
    (limit : Nat) : (if c then d else e).Within mem limit ↔
      if c then d.Within mem limit else e.Within mem limit := by
  split <;> rfl

theorem foldlM_error {step : σ → α → Except ρ σ} {early : ρ → Prop} (l : List α)
    (results : ∀ a ∈ l, ∀ s r, step s a = .error r → early r)
    (stops : ∃ a ∈ l, ∀ s t, step s a ≠ .ok t) (s : σ) :
    ∃ r, l.foldlM step s = .error r ∧ early r := by
  induction l generalizing s with
  | nil => simp at stops
  | cons a rest ih =>
    rw [List.foldlM_cons]
    cases here : step s a with
    | error r => exact ⟨r, rfl, results a (by simp) s r here⟩
    | ok t =>
      have later : ∃ b ∈ rest, ∀ s t, step s b ≠ .ok t := by
        obtain ⟨b, member, never⟩ := stops
        rcases List.mem_cons.mp member with rfl | member
        · exact absurd here (never s t)
        · exact ⟨b, member, never⟩
      exact ih (fun b member => results b (List.mem_cons_of_mem a member)) later t

def Related (early : ρ → ρ → Prop) (states : σ → σ → Prop) : Except ρ σ → Except ρ σ → Prop
  | .ok s, .ok t => states s t
  | .error r, .error q => early r q
  | _, _ => False

theorem related_foldlM {early : ρ → ρ → Prop} {states : σ → σ → Prop} {step : σ → α → Except ρ σ}
    (l : List α)
    (related : ∀ a ∈ l, ∀ s t, states s t → Related early states (step s a) (step t a))
    {s t : σ} (initial : states s t) :
    Related early states (l.foldlM step s) (l.foldlM step t) := by
  induction l generalizing s t with
  | nil => exact initial
  | cons a rest ih =>
    have here := related a (by simp) s t initial
    rw [List.foldlM_cons, List.foldlM_cons]
    generalize step s a = left at here
    generalize step t a = right at here
    cases left <;> cases right
    · exact here
    · cases here
    · cases here
    · exact ih (fun b member => related b (List.mem_cons_of_mem a member)) here

end Decoder
