import Mathlib.Data.List.Basic
import Mathlib.Data.List.Nodup

set_option autoImplicit false

/-!
# Runs of a partial machine

`step s i` is `none` where the program has no defined behaviour in state `s` on input `i`, and
otherwise what the step returns and the state it leaves.
-/

namespace Machine

variable {S I O : Type}

def run (step : S → I → Option (O × S)) : S → List I → Option (List O × S)
  | s, [] => some ([], s)
  | s, i :: is =>
    match step s i with
    | none => none
    | some (o, t) => (run step t is).map fun (os, u) => (o :: os, u)

/-- The run is defined, and `P` holds of every state that it reaches. -/
def AllReached (step : S → I → Option (O × S)) (P : S → Prop) (s : S) (is : List I) : Prop :=
  ∀ before, before <+: is → ∃ os t, run step s before = some (os, t) ∧ P t

/-- `P` holds of every state of the run together with the input consumed there. -/
def Along (step : S → I → Option (O × S)) (P : S → I → Prop) : S → List I → Prop
  | _, [] => True
  | s, i :: is => P s i ∧ ∀ o t, step s i = some (o, t) → Along step P t is

variable {step : S → I → Option (O × S)}

@[simp] theorem run_nil (s : S) : run step s [] = some ([], s) := rfl

theorem run_cons {s u : S} {i : I} {is : List I} {outs : List O} :
    run step s (i :: is) = some (outs, u) ↔
      ∃ o t os, step s i = some (o, t) ∧ run step t is = some (os, u) ∧ outs = o :: os := by
  cases first : step s i with
  | none => simp [run, first]
  | some result =>
    obtain ⟨o, t⟩ := result
    simp only [run, first, Option.map_eq_some_iff, Prod.exists, Prod.mk.injEq, Option.some.injEq]
    constructor
    · rintro ⟨os, v, rest, rfl, rfl⟩
      exact ⟨o, t, os, ⟨rfl, rfl⟩, rest, rfl⟩
    · rintro ⟨_, _, os, ⟨rfl, rfl⟩, rest, rfl⟩
      exact ⟨os, u, rest, rfl, rfl⟩

theorem run_append {s u : S} {is js : List I} {outs : List O} :
    run step s (is ++ js) = some (outs, u) ↔
      ∃ os t ps, run step s is = some (os, t) ∧ run step t js = some (ps, u) ∧
        outs = os ++ ps := by
  induction is generalizing s outs with
  | nil => simp
  | cons i is ih =>
    simp only [List.cons_append, run_cons, ih]
    constructor
    · rintro ⟨o, t, _, first, ⟨os, v, ps, left, right, rfl⟩, rfl⟩
      exact ⟨o :: os, v, ps, ⟨o, t, os, first, left, rfl⟩, right, rfl⟩
    · rintro ⟨_, v, ps, ⟨o, t, os, first, left, rfl⟩, right, rfl⟩
      exact ⟨o, t, os ++ ps, first, ⟨os, v, ps, left, right, rfl⟩, rfl⟩

theorem run_invariant (Inv : S → Prop)
    (preserved : ∀ s i o t, Inv s → step s i = some (o, t) → Inv t)
    {s u : S} {is : List I} {os : List O} (initial : Inv s)
    (ran : run step s is = some (os, u)) : Inv u := by
  induction is generalizing s os with
  | nil =>
    simp only [run_nil, Option.some.injEq, Prod.mk.injEq] at ran
    exact ran.2 ▸ initial
  | cons i is ih =>
    obtain ⟨o, t, rest, first, later, -⟩ := run_cons.mp ran
    exact ih (preserved s i o t initial first) later

theorem run_related (R : S → S → Prop) (refl : ∀ s, R s s)
    (trans : ∀ s t u, R s t → R t u → R s u)
    (related : ∀ s i o t, step s i = some (o, t) → R s t)
    {s u : S} {is : List I} {os : List O} (ran : run step s is = some (os, u)) : R s u :=
  run_invariant (R s) (fun t i o v sofar one => trans s t v sofar (related t i o v one))
    (refl s) ran

theorem run_simulates {T P : Type} {spec : T → I → Option (P × T)} (R : S → T → Prop)
    (out : P → O)
    (one : ∀ s a i p b, R s a → spec a i = some (p, b) →
      ∃ t, step s i = some (out p, t) ∧ R t b)
    {s : S} {a b : T} {is : List I} {ps : List P} (related : R s a)
    (ran : run spec a is = some (ps, b)) :
    ∃ t, run step s is = some (ps.map out, t) ∧ R t b := by
  induction is generalizing s a ps with
  | nil =>
    simp only [run_nil, Option.some.injEq, Prod.mk.injEq] at ran
    obtain ⟨rfl, rfl⟩ := ran
    exact ⟨s, rfl, related⟩
  | cons i is ih =>
    obtain ⟨p, mid, rest, first, later, rfl⟩ := run_cons.mp ran
    obtain ⟨t, here, next⟩ := one s a i p mid related first
    obtain ⟨u, there, final⟩ := ih next later
    exact ⟨u, run_cons.mpr ⟨out p, t, rest.map out, here, there, rfl⟩, final⟩

theorem run_agrees {T P : Type} {spec : T → I → Option (P × T)} (R : S → T → Prop) (out : P → O)
    (one : ∀ s a i, R s a →
      (spec a i = none ∧ step s i = none) ∨
        ∃ p b t, spec a i = some (p, b) ∧ step s i = some (out p, t) ∧ R t b)
    {s : S} {a : T} (related : R s a) (is : List I) :
    (run step s is).map Prod.fst = (run spec a is).map fun result => result.1.map out := by
  induction is generalizing s a with
  | nil => rfl
  | cons i is ih =>
    rcases one s a i related with ⟨nowhere, neither⟩ | ⟨p, b, t, there, here, next⟩
    · simp [run, nowhere, neither]
    · have rest := ih next
      simp only [run, here, there, Option.map_map, Function.comp_def, List.map_cons]
      calc (run step t is).map (fun result => out p :: result.1)
          = ((run step t is).map Prod.fst).map (out p :: ·) := by rw [Option.map_map]; rfl
        _ = (run spec b is).map (fun result => out p :: result.1.map out) := by
          rw [rest, Option.map_map]
          rfl

theorem run_length {s u : S} {is : List I} {os : List O}
    (ran : run step s is = some (os, u)) : os.length = is.length := by
  induction is generalizing s os with
  | nil =>
    simp only [run_nil, Option.some.injEq, Prod.mk.injEq] at ran
    simp [← ran.1]
  | cons i is ih =>
    obtain ⟨o, t, rest, -, later, rfl⟩ := run_cons.mp ran
    simp [ih later]

theorem run_along (Inv : S → Prop) (P : S → I → Prop) (Q : O → Prop)
    (preserved : ∀ s i o t, Inv s → P s i → step s i = some (o, t) → Inv t ∧ Q o)
    {s u : S} {is : List I} {os : List O} (initial : Inv s) (along : Along step P s is)
    (ran : run step s is = some (os, u)) : Inv u ∧ ∀ o ∈ os, Q o := by
  induction is generalizing s os with
  | nil =>
    simp only [run_nil, Option.some.injEq, Prod.mk.injEq] at ran
    obtain ⟨rfl, rfl⟩ := ran
    simpa using initial
  | cons i is ih =>
    obtain ⟨o, t, rest, first, later, rfl⟩ := run_cons.mp ran
    obtain ⟨here, remaining⟩ := along
    obtain ⟨next, good⟩ := preserved s i o t initial here first
    obtain ⟨final, others⟩ := ih next (remaining o t first) later
    exact ⟨final, by simpa using ⟨good, others⟩⟩

theorem along_of_inputs {N : I → Prop} {s : S} {is : List I} (inputs : ∀ i ∈ is, N i) :
    Along step (fun _ i => N i) s is := by
  induction is generalizing s with
  | nil => trivial
  | cons i is ih =>
    exact ⟨inputs i (by simp), fun o t _ => ih fun j member => inputs j (by simp [member])⟩

theorem Along.mono {P Q : S → I → Prop} (weaker : ∀ s i, P s i → Q s i) {s : S} {is : List I}
    (along : Along step P s is) : Along step Q s is := by
  induction is generalizing s with
  | nil => trivial
  | cons i is ih => exact ⟨weaker s i along.1, fun o t first => ih (along.2 o t first)⟩

theorem run_isSome {P : S → I → Prop} (defined : ∀ s i, (step s i).isSome ↔ P s i) (s : S)
    (is : List I) : (run step s is).isSome ↔ Along step P s is := by
  induction is generalizing s with
  | nil => simp [Along]
  | cons i is ih =>
    rw [Along, ← defined, run]
    cases first : step s i with
    | none => simp
    | some result =>
      obtain ⟨o, t⟩ := result
      simp [ih]

theorem along_cons {P : S → I → Prop} {s t : S} {i : I} {o : O} (is : List I)
    (first : step s i = some (o, t)) :
    Along step P s (i :: is) ↔ P s i ∧ Along step P t is := by
  simp [Along, first]

theorem along_append {P : S → I → Prop} {s t : S} {is : List I} {os : List O} (js : List I)
    (ran : run step s is = some (os, t)) :
    Along step P s (is ++ js) ↔ Along step P s is ∧ Along step P t js := by
  induction is generalizing s os with
  | nil =>
    simp only [run_nil, Option.some.injEq, Prod.mk.injEq] at ran
    simp [Along, ran.2]
  | cons i is ih =>
    obtain ⟨o, u, rest, first, later, -⟩ := run_cons.mp ran
    rw [List.cons_append, along_cons _ first, along_cons _ first, ih later, and_assoc]

theorem AllReached.here {P : S → Prop} {s : S} {is : List I} (reached : AllReached step P s is) :
    P s := by
  obtain ⟨os, t, ran, holds⟩ := reached [] List.nil_prefix
  simp only [run_nil, Option.some.injEq, Prod.mk.injEq] at ran
  exact ran.2 ▸ holds

theorem allReached_nil (P : S → Prop) (s : S) : AllReached step P s [] ↔ P s := by
  constructor
  · exact AllReached.here
  · intro holds before pre
    rw [List.prefix_nil.mp pre]
    exact ⟨[], s, rfl, holds⟩

theorem allReached_cons (P : S → Prop) {s t : S} {i : I} {o : O} (is : List I)
    (first : step s i = some (o, t)) :
    AllReached step P s (i :: is) ↔ P s ∧ AllReached step P t is := by
  constructor
  · intro reached
    refine ⟨reached.here, ?_⟩
    intro before pre
    obtain ⟨outs, u, ran, holds⟩ := reached (i :: before) ((List.prefix_cons_inj i).mpr pre)
    obtain ⟨p, v, os, again, later, -⟩ := run_cons.mp ran
    rw [first, Option.some.injEq, Prod.mk.injEq] at again
    exact ⟨os, u, again.2 ▸ later, holds⟩
  · rintro ⟨here, later⟩ before pre
    cases before with
    | nil => exact ⟨[], s, rfl, here⟩
    | cons j before =>
      obtain ⟨same, shorter⟩ := List.cons_prefix_cons.mp pre
      obtain ⟨os, u, ran, holds⟩ := later before shorter
      exact ⟨o :: os, u, same ▸ run_cons.mpr ⟨o, t, os, first, ran, rfl⟩, holds⟩

theorem allReached_invariant (Inv : S → Prop) (N : I → Prop)
    (one : ∀ s i, Inv s → N i → ∃ o t, step s i = some (o, t) ∧ Inv t)
    {s : S} {is : List I} (initial : Inv s) (inputs : ∀ i ∈ is, N i) :
    AllReached step Inv s is := by
  induction is generalizing s with
  | nil => exact (allReached_nil Inv s).mpr initial
  | cons i is ih =>
    obtain ⟨o, t, first, next⟩ := one s i initial (inputs i (by simp))
    exact (allReached_cons Inv is first).mpr
      ⟨initial, ih next fun j member => inputs j (by simp [member])⟩

/-- Where one step keeps `P` exactly under the condition `Q`, a run does so exactly if each of
its steps meets `Q`. -/
theorem allReached_iff_along (Inv P : S → Prop) (N : I → Prop) (Q : S → I → Prop)
    (one : ∀ s i, Inv s → P s → N i → ∃ o t, step s i = some (o, t) ∧ Inv t ∧ (P t ↔ Q s i))
    {s : S} {is : List I} (initial : Inv s) (holds : P s) (inputs : ∀ i ∈ is, N i) :
    AllReached step P s is ↔ Along step Q s is := by
  induction is generalizing s with
  | nil => simp [allReached_nil, Along, holds]
  | cons i is ih =>
    obtain ⟨o, t, first, next, condition⟩ := one s i initial holds (inputs i (by simp))
    have rest := fun after => ih next after fun j member => inputs j (List.mem_cons_of_mem i member)
    rw [allReached_cons P is first, along_cons is first, ← condition]
    constructor
    · rintro ⟨-, later⟩
      exact ⟨later.here, (rest later.here).mp later⟩
    · rintro ⟨after, later⟩
      exact ⟨holds, (rest after).mpr later⟩

/-- Each step returns a name that named nothing before, gives it a value, and keeps every value
that was there. -/
structure Allocates {V : Type} (step : S → I → Option (O × S)) (read : S → O → Option V) :
    Prop where
  fresh : ∀ s i o t, step s i = some (o, t) → read s o = none
  filled : ∀ s i o t, step s i = some (o, t) → (read t o).isSome
  kept : ∀ s i o t, step s i = some (o, t) → ∀ p v, read s p = some v → read t p = some v

variable {V : Type} {read : S → O → Option V}

theorem Allocates.run_kept (allocates : Allocates step read) {s u : S} {is : List I}
    {os : List O} (ran : run step s is = some (os, u)) {o : O} {v : V}
    (known : read s o = some v) : read u o = some v :=
  run_related (fun s t => read s o = some v → read t o = some v) (fun _ h => h)
    (fun _ _ _ f g h => g (f h)) (fun s i p t one => allocates.kept s i p t one o v) ran known

theorem Allocates.run_nodup (allocates : Allocates step read) {s u : S} {is : List I}
    {os : List O} (ran : run step s is = some (os, u)) :
    os.Nodup ∧ ∀ o ∈ os, read s o = none ∧ (read u o).isSome := by
  induction is generalizing s os with
  | nil =>
    simp only [run_nil, Option.some.injEq, Prod.mk.injEq] at ran
    simp [← ran.1]
  | cons i is ih =>
    obtain ⟨o, t, rest, first, later, rfl⟩ := run_cons.mp ran
    obtain ⟨distinct, known⟩ := ih later
    obtain ⟨v, value⟩ := Option.isSome_iff_exists.mp (allocates.filled s i o t first)
    have new : o ∉ rest := by
      intro member
      rw [(known o member).1] at value
      contradiction
    refine ⟨List.nodup_cons.mpr ⟨new, distinct⟩, ?_⟩
    intro p member
    rcases List.mem_cons.mp member with rfl | member
    · rw [allocates.run_kept later value]
      exact ⟨allocates.fresh s i p t first, rfl⟩
    · refine ⟨?_, (known p member).2⟩
      -- a value that `p` had before the first step would still be there after it
      cases before : read s p with
      | none => rfl
      | some old =>
        have still := allocates.kept s i o t first p old before
        rw [(known p member).1] at still
        contradiction

end Machine
