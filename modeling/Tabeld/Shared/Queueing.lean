import Tabeld.Shared.Machine

set_option autoImplicit false

/-!
# Queues inside a machine

A machine that keeps a queue: other parties put things at its end, and its own steps take them
from the front. What a run has taken and what still waits is what was there and what has arrived.
-/

namespace Machine

variable {S I O A : Type} {step : S → I → Option (O × S)}

/-- While `Inv` holds and the inputs meet `N`, each step takes `taken` from the front of the queue
and `arrived` is put at its end. -/
structure Queues (step : S → I → Option (O × S)) (Inv : S → Prop) (N : I → Prop)
    (waiting : S → List A) (arrived : I → List A) (taken : O → List A) : Prop where
  kept : ∀ s i o t, Inv s → N i → step s i = some (o, t) → Inv t
  conserved : ∀ s i o t, Inv s → N i → step s i = some (o, t) →
    taken o ++ waiting t = waiting s ++ arrived i

variable {Inv : S → Prop} {N : I → Prop} {waiting : S → List A} {arrived : I → List A}
  {taken : O → List A}

theorem Queues.run_conserved (queues : Queues step Inv N waiting arrived taken) {s u : S}
    {is : List I} {os : List O} (initial : Inv s) (inputs : ∀ i ∈ is, N i)
    (ran : run step s is = some (os, u)) :
    os.flatMap taken ++ waiting u = waiting s ++ is.flatMap arrived := by
  induction is generalizing s os with
  | nil =>
    simp only [run_nil, Option.some.injEq, Prod.mk.injEq] at ran
    obtain ⟨rfl, rfl⟩ := ran
    simp
  | cons i is ih =>
    obtain ⟨o, t, rest, first, later, rfl⟩ := run_cons.mp ran
    have allowed := inputs i (by simp)
    have others := ih (queues.kept s i o t initial allowed first)
      (fun j member => inputs j (by simp [member])) later
    have here := queues.conserved s i o t initial allowed first
    rw [List.flatMap_cons, List.flatMap_cons, List.append_assoc, others, ← List.append_assoc, here,
      List.append_assoc]

theorem run_foldl {C : Type} (component : S → C) (act : C → A → C) (said : O → List A)
    (one : ∀ s i o t, Inv s → N i → step s i = some (o, t) →
      Inv t ∧ component t = (said o).foldl act (component s))
    {s u : S} {is : List I} {os : List O} (initial : Inv s) (inputs : ∀ i ∈ is, N i)
    (ran : run step s is = some (os, u)) :
    component u = (os.flatMap said).foldl act (component s) := by
  induction is generalizing s os with
  | nil =>
    simp only [run_nil, Option.some.injEq, Prod.mk.injEq] at ran
    obtain ⟨rfl, rfl⟩ := ran
    rfl
  | cons i is ih =>
    obtain ⟨o, t, rest, first, later, rfl⟩ := run_cons.mp ran
    obtain ⟨next, here⟩ := one s i o t initial (inputs i (by simp)) first
    rw [List.flatMap_cons, List.foldl_append, ← here]
    exact ih next (fun j member => inputs j (by simp [member])) later

end Machine
