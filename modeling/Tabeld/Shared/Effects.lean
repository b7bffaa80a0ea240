import Mathlib.Data.Finset.Insert
import Mathlib.Data.Finset.Erase
import Tabeld.Shared.Machine

set_option autoImplicit false

/-!
# Effects on a set

A step of a machine changes a set by some effects, which its input and its output tell something
about. So do the effects of a whole run.
-/

namespace Effects

open Machine

variable {A : Type}

inductive Effect (A : Type) where
  | insert (a : A)
  | erase (a : A)

def Effect.target : Effect A → A
  | .insert a => a
  | .erase a => a

def Effect.Seen (s : Finset A) : Effect A → Prop
  | .insert a => a ∈ s
  | .erase a => a ∉ s

variable [DecidableEq A]

def Effect.apply (s : Finset A) : Effect A → Finset A
  | .insert a => Insert.insert a s
  | .erase a => s.erase a

def applyAll (s : Finset A) (es : List (Effect A)) : Finset A := es.foldl Effect.apply s

theorem applyAll_append (s : Finset A) (first second : List (Effect A)) :
    applyAll s (first ++ second) = applyAll (applyAll s first) second :=
  List.foldl_append

theorem seen_apply (s : Finset A) (e : Effect A) : e.Seen (e.apply s) := by
  cases e with
  | insert a => exact Finset.mem_insert_self a s
  | erase a => exact Finset.notMem_erase a s

theorem seen_applyAll_getLast {s : Finset A} {es : List (Effect A)} {e : Effect A}
    (last : es.getLast? = some e) : e.Seen (applyAll s es) := by
  obtain ⟨before, rfl⟩ := List.getLast?_eq_some_iff.mp last
  rw [applyAll_append]
  exact seen_apply _ e

theorem seen_applyAll_others {s : Finset A} {e : Effect A} (seen : e.Seen s)
    {es : List (Effect A)} (others : ∀ other ∈ es, other.target ≠ e.target) :
    e.Seen (applyAll s es) := by
  induction es generalizing s with
  | nil => exact seen
  | cons other rest ih =>
    have different := others other (by simp)
    have next : e.Seen (other.apply s) := by
      cases e <;> cases other <;>
        simp_all [Effect.Seen, Effect.apply, Effect.target, eq_comm]
    exact ih next fun later member => others later (by simp [member])

theorem exists_of_forall₂ {B C : Type} {R : B → C → Prop} {bs : List B} {cs : List C}
    (related : List.Forall₂ R bs cs) {c : C} (member : c ∈ cs) : ∃ b ∈ bs, R b c := by
  induction related with
  | nil => cases member
  | cons here _ ih =>
    rcases List.mem_cons.mp member with rfl | later
    · exact ⟨_, List.mem_cons_self, here⟩
    · obtain ⟨b, inside, holds⟩ := ih later
      exact ⟨b, List.mem_cons_of_mem _ inside, holds⟩

/-- Where each step that meets `P` keeps `Inv` and is explained by the effects that it has on
`view`, so is a run. -/
theorem run_explained {S I O : Type} {step : S → I → Option (O × S)} (view : S → Finset A)
    (Explains : I → O → List (Effect A) → Prop) (Inv : S → Prop) (P : S → I → Prop)
    (one : ∀ s i o t, Inv s → P s i → step s i = some (o, t) →
      Inv t ∧ ∃ es, Explains i o es ∧ view t = applyAll (view s) es)
    {s u : S} {is : List I} {os : List O} (initial : Inv s) (along : Along step P s is)
    (ran : run step s is = some (os, u)) :
    Inv u ∧ ∃ effects, List.Forall₂ (fun io es => Explains io.1 io.2 es) (is.zip os) effects ∧
      view u = applyAll (view s) effects.flatten := by
  induction is generalizing s os with
  | nil =>
    simp only [run_nil, Option.some.injEq, Prod.mk.injEq] at ran
    obtain ⟨rfl, rfl⟩ := ran
    exact ⟨initial, [], .nil, rfl⟩
  | cons i is ih =>
    obtain ⟨o, t, rest, first, later, rfl⟩ := run_cons.mp ran
    obtain ⟨here, remaining⟩ := along
    obtain ⟨next, es, explained, changed⟩ := one s i o t initial here first
    obtain ⟨final, effects, others, last⟩ := ih next (remaining o t first) later
    exact ⟨final, es :: effects, .cons explained others, by
      rw [last, changed, List.flatten_cons, applyAll_append]⟩

end Effects
