import Mathlib.Data.List.Induction
import Tabeld.Shared.Machine

set_option autoImplicit false

/-!
# Stores of one entry a key

A step concerns the entry of one key. What a run does to an entry is what the steps that concern it
do, and the first step of each kind can decide it.
-/

namespace Sharding

open Machine

variable {K E T I O : Type}

/-- A step of the store is a step of the entry of `key i`, and changes no other. -/
structure Local (lookup : T → K → E) (key : I → K) (one : E → I → Option (O × E))
    (step : T → I → Option (O × T)) : Prop where
  here : ∀ t i o u, step t i = some (o, u) →
    one (lookup t (key i)) i = some (o, lookup u (key i))
  others : ∀ t i o u, step t i = some (o, u) → ∀ k, k ≠ key i → lookup u k = lookup t k

section Projection

variable [DecidableEq K] {lookup : T → K → E} {key : I → K} {one : E → I → Option (O × E)}
  {step : T → I → Option (O × T)}

def concerning (key : I → K) (k : K) (is : List I) : List I := is.filter fun i => key i = k

def outputs (key : I → K) (k : K) (is : List I) (os : List O) : List O :=
  ((is.zip os).filter fun p => key p.1 = k).map Prod.snd

theorem Local.run_projects (local_ : Local lookup key one step) (k : K) {t u : T} {is : List I}
    {os : List O} (ran : run step t is = some (os, u)) :
    run one (lookup t k) (concerning key k is) = some (outputs key k is os, lookup u k) := by
  induction is generalizing t os with
  | nil =>
    simp only [run_nil, Option.some.injEq, Prod.mk.injEq] at ran
    obtain ⟨rfl, rfl⟩ := ran
    rfl
  | cons i is ih =>
    obtain ⟨o, mid, rest, first, later, rfl⟩ := run_cons.mp ran
    have remaining := ih later
    by_cases concerns : key i = k
    · subst concerns
      rw [concerning, List.filter_cons_of_pos (by simp), outputs, List.zip_cons_cons,
        List.filter_cons_of_pos (by simp), List.map_cons]
      exact run_cons.mpr ⟨o, _, _, local_.here t i o mid first, remaining, rfl⟩
    · rw [concerning, List.filter_cons_of_neg (by simpa using concerns), outputs,
        List.zip_cons_cons, List.filter_cons_of_neg (by simpa using concerns)]
      rw [local_.others t i o mid first k (Ne.symm concerns)] at remaining
      exact remaining

end Projection

section Firsts

variable {A : Type} [DecidableEq K] (kind : A → K)

def addFirst (firsts : List A) (a : A) : List A :=
  if kind a ∈ firsts.map kind then firsts else firsts ++ [a]

def firsts (as : List A) : List A := as.foldl (addFirst kind) []

theorem firsts_append_singleton (as : List A) (a : A) :
    firsts kind (as ++ [a]) = addFirst kind (firsts kind as) a := by
  rw [firsts, List.foldl_append]
  rfl

theorem head?_firsts (as : List A) : (firsts kind as).head? = as.head? := by
  induction as using List.reverseRecOn with
  | nil => rfl
  | append_singleton as a ih =>
    rw [firsts_append_singleton, addFirst]
    cases as with
    | nil => rfl
    | cons b rest =>
      split
      next => exact ih
      next => rw [List.head?_append, ih]; rfl

theorem kinds_firsts (as : List A) (k : K) :
    k ∈ (firsts kind as).map kind ↔ k ∈ as.map kind := by
  induction as using List.reverseRecOn with
  | nil => rfl
  | append_singleton as a ih =>
    rw [firsts_append_singleton, addFirst, List.map_append, List.mem_append, ← ih]
    split
    next known =>
      rw [List.map_singleton, List.mem_singleton]
      exact ⟨Or.inl, fun either => either.elim id fun same => same ▸ known⟩
    next => rw [List.map_append, List.mem_append]

theorem nodup_firsts (as : List A) : ((firsts kind as).map kind).Nodup := by
  induction as using List.reverseRecOn with
  | nil => exact List.nodup_nil
  | append_singleton as a ih =>
    rw [firsts_append_singleton, addFirst]
    split
    next => exact ih
    next new =>
      rw [List.map_append, List.map_singleton]
      exact List.nodup_append'.mpr
        ⟨ih, List.nodup_singleton _, List.disjoint_singleton.mpr new⟩

end Firsts

end Sharding
