import Tabeld.RouteTable.Calls
import Tabeld.Shared.KeyedSlots
import Tabeld.Shared.Machine

set_option autoImplicit false

namespace Tabeld.RouteTable

open KeyedSlots Machine

def Rtes.view (r : Rtes) : Slots RteTbls Metrics maxRtes :=
  fun i => if (r.rid i).v = 0 then none else some (r.slot i)

theorem view_isSome (r : Rtes) (i : Fin maxRtes) : (r.view i).isSome ↔ (r.rid i).v ≠ 0 := by
  unfold Rtes.view
  split <;> simp_all

theorem view_eq_none (r : Rtes) (i : Fin maxRtes) : r.view i = none ↔ (r.rid i).v = 0 := by
  unfold Rtes.view
  split <;> simp_all

theorem view_eq_some (r : Rtes) (i : Fin maxRtes) (a : RteTbls × Metrics) :
    r.view i = some a ↔ (r.rid i).v ≠ 0 ∧ r.slot i = a := by
  unfold Rtes.view
  split <;> simp_all

theorem view_put (r : Rtes) (i : Fin maxRtes) (q : Rtq) (nonzero : q.rid.v ≠ 0) :
    (r.put i q).view = write r.view i (q.rid, q.metric) := by
  funext j
  by_cases here : j = i
  · subst here
    rw [write_self, view_eq_some, Rtes.slot_put, if_pos rfl, Rtes.rid_put, if_pos rfl]
    exact ⟨nonzero, rfl⟩
  · rw [write_of_ne _ _ here, Rtes.view, Rtes.view, Rtes.slot_put, if_neg here, Rtes.rid_put,
      if_neg here]

/-- The occupied slots are the first ones, and no router has two of them. -/
structure WellFormed (r : Rtes) : Prop where
  filled : ∀ i j : Fin maxRtes, i < j → (r.rid j).v ≠ 0 → (r.rid i).v ≠ 0
  distinct : Distinct r

theorem WellFormed.packed {r : Rtes} (formed : WellFormed r) : Packed r.view := by
  intro i j less filled
  rw [view_isSome] at filled ⊢
  exact formed.filled i j less filled

theorem WellFormed.keyed {r : Rtes} (formed : WellFormed r) : KeyedSlots.Distinct r.view := by
  intro i j a b first second same
  rw [view_eq_some] at first second
  obtain ⟨occupied, rfl⟩ := first
  obtain ⟨-, rfl⟩ := second
  exact formed.distinct i j occupied same

theorem wellFormed_of_view {r : Rtes} (packed : Packed r.view)
    (keyed : KeyedSlots.Distinct r.view) : WellFormed r where
  filled i j less filled := by
    rw [← view_isSome] at filled ⊢
    exact packed i j less filled
  distinct i j occupied same :=
    keyed i j (r.slot i) (r.slot j) ((view_eq_some r i _).mpr ⟨occupied, rfl⟩)
      ((view_eq_some r j _).mpr ⟨same ▸ occupied, rfl⟩) same

inductive Written (r : Rtes) (q : Rtq) (t : Slots RteTbls Metrics maxRtes) : Prop
  | same (settled : (∃ i : Fin maxRtes, r.rid i = q.rid) ∨ ∀ i : Fin maxRtes, (r.rid i).v ≠ 0)
      (slots : t = r.view)
  | better (admits : Admits r.view 0 (q.rid, q.metric)) (old : Metrics)
      (held : r.view 0 = some (q.rid, old)) (less : q.metric.v < old.v)
      (slots : t = write r.view 0 (q.rid, q.metric))
  | first (i : Fin maxRtes) (admits : Admits r.view i (q.rid, q.metric))
      (free : r.view i = none) (absent : ∀ j : Fin maxRtes, r.rid j ≠ q.rid)
      (slots : t = write r.view i (q.rid, q.metric))

theorem update_written {r : Rtes} {q : Rtq} {o : Outcome} (formed : WellFormed r)
    (nonzero : q.rid.v ≠ 0) (update : Update r q o) : Written r q o.entry.view := by
  cases update with
  | absent passed => exact .same (Or.inr fun i => (passed i).2) rfl
  | kept i _ same => exact .same (Or.inl ⟨i, same⟩) rfl
  | improved same better =>
    have held : r.view 0 = some (q.rid, r.metric 0) :=
      (view_eq_some r 0 _).mpr ⟨same ▸ nonzero, Prod.ext same rfl⟩
    refine .better ⟨?_, ?_, ?_⟩ _ held better (view_put r 0 q nonzero)
    · exact fun j less => absurd less (Fin.not_lt_zero j)
    · intro j b other key
      exact formed.keyed j 0 b _ other held key
    · intro b own
      rw [held, Option.some.injEq] at own
      rw [← own]
  | added i passed empty new =>
    have free : r.view i = none := (view_eq_none r i).mpr empty
    -- behind the free slot everything is free, and the scan has passed everything before it
    have absent (j : Fin maxRtes) : r.rid j ≠ q.rid := by
      intro same
      have behind : ¬j < i := fun less => (passed j less).1 (congrArg RteTbls.v same)
      have here : j ≠ i := fun here => nonzero (by rw [← same, here, empty])
      exact formed.filled i j (by omega) (same ▸ nonzero) empty
    refine .first i ⟨?_, ?_, ?_⟩ free absent (view_put r i q nonzero)
    · intro j less
      exact (view_isSome r j).mpr (passed j less).2
    · intro j b other key
      rw [view_eq_some] at other
      exact absurd ((congrArg Prod.fst other.2).trans key) (absent j)
    · intro b own
      rw [free] at own
      contradiction

variable (rinsert : Rtq → Rtes)

def callUpdate (r : Rtes) (q : Rtq) : Option (Outcome × Rtes) :=
  let o := updateRtes rinsert (some r) q
  some (o, o.entry)

theorem callUpdate_written {r s : Rtes} {q : Rtq} {o : Outcome} (formed : WellFormed r)
    (nonzero : q.rid.v ≠ 0) (called : callUpdate rinsert r q = some (o, s)) :
    Written r q s.view := by
  simp only [callUpdate, Option.some.injEq, Prod.mk.injEq] at called
  obtain ⟨rfl, rfl⟩ := called
  exact update_written formed nonzero (updateRtes_update rinsert r q)

theorem written_wellFormed {r s : Rtes} {q : Rtq} (formed : WellFormed r)
    (written : Written r q s.view) : WellFormed s ∧ Keeps r.view s.view := by
  have write (i : Fin maxRtes) (admits : Admits r.view i (q.rid, q.metric))
      (slots : s.view = KeyedSlots.write r.view i (q.rid, q.metric)) :
      WellFormed s ∧ Keeps r.view s.view := by
    rw [slots]
    exact ⟨wellFormed_of_view (slots ▸ formed.packed.write admits)
      (slots ▸ formed.keyed.write admits), keeps_write admits⟩
  cases written with
  | same _ slots =>
    refine ⟨wellFormed_of_view (slots ▸ formed.packed) (slots ▸ formed.keyed), ?_⟩
    rw [slots]
    exact Keeps.refl r.view
  | better admits _ _ _ slots => exact write 0 admits slots
  | first i admits _ _ slots => exact write i admits slots

theorem callUpdate_wellFormed {r : Rtes} {q : Rtq} (formed : WellFormed r)
    (nonzero : q.rid.v ≠ 0) :
    ∃ o s, callUpdate rinsert r q = some (o, s) ∧ WellFormed s :=
  ⟨_, _, rfl, (written_wellFormed formed (callUpdate_written rinsert formed nonzero rfl)).1⟩

theorem run_keeps {r s : Rtes} {calls : List Rtq} {os : List Outcome} (formed : WellFormed r)
    (nonzero : ∀ q ∈ calls, q.rid.v ≠ 0)
    (ran : run (callUpdate rinsert) r calls = some (os, s)) : Keeps r.view s.view := by
  refine (run_along (fun s => WellFormed s ∧ Keeps r.view s.view) (fun _ q => q.rid.v ≠ 0)
    (fun _ => True) ?_ ⟨formed, Keeps.refl r.view⟩ (along_of_inputs nonzero) ran).1.2
  rintro s q o t ⟨formed, kept⟩ nonzero called
  obtain ⟨next, more⟩ := written_wellFormed formed
    (callUpdate_written rinsert formed nonzero called)
  exact ⟨⟨next, kept.trans more⟩, trivial⟩

theorem single_occupied (q : Rtq) (i : Fin maxRtes) (occupied : ((Rtes.single q).rid i).v ≠ 0) :
    i = 0 := by
  obtain ⟨i, bound⟩ := i
  rcases i with _ | _ | _ | i
  · rfl
  · simp [Rtes.single, RteTbls.v] at occupied
  · simp [Rtes.single, RteTbls.v] at occupied
  · exact absurd bound (by simp [maxRtes])

theorem wellFormed_single (q : Rtq) : WellFormed (.single q) where
  filled i j less occupied := by
    rw [single_occupied q j occupied] at less
    exact absurd less (Fin.not_lt_zero i)
  distinct i j occupied same := by
    rw [single_occupied q i occupied, single_occupied q j (same ▸ occupied)]

theorem wellFormed_empty {r : Rtes} (empty : ∀ i : Fin maxRtes, (r.rid i).v = 0) :
    WellFormed r where
  filled _ j _ occupied := absurd (empty j) occupied
  distinct i _ occupied _ := absurd (empty i) occupied

theorem entry_structure (creates : ∀ q, rinsert q = .single q) (start : Rtes)
    (created : (∀ i : Fin maxRtes, (start.rid i).v = 0) ∨ ∃ q, start = rinsert q)
    (calls : List Rtq) (nonzero : ∀ q ∈ calls, q.rid.v ≠ 0) :
    AllReached (callUpdate rinsert) WellFormed start calls ∧
      ∀ before after, before ++ after <+: calls → ∃ os r ps s,
        run (callUpdate rinsert) start before = some (os, r) ∧
        run (callUpdate rinsert) r after = some (ps, s) ∧
        ∀ i : Fin maxRtes, (r.rid i).v ≠ 0 → s.rid i = r.rid i := by
  have formed : WellFormed start := by
    rcases created with empty | ⟨q, rfl⟩
    · exact wellFormed_empty empty
    · rw [creates]
      exact wellFormed_single q
  have reached : AllReached (callUpdate rinsert) WellFormed start calls :=
    allReached_invariant WellFormed (fun q => q.rid.v ≠ 0)
      (fun _ _ => callUpdate_wellFormed rinsert) formed nonzero
  refine ⟨reached, ?_⟩
  intro before after pre
  obtain ⟨_, s, ran, -⟩ := reached (before ++ after) pre
  obtain ⟨os, r, ps, first, later, -⟩ := run_append.mp ran
  refine ⟨os, r, ps, s, first, later, ?_⟩
  intro i occupied
  -- the state between the two parts is well formed too, so that the second part keeps its slots
  obtain ⟨_, t, again, middle⟩ := reached before ((List.prefix_append before after).trans pre)
  rw [first, Option.some.injEq, Prod.mk.injEq] at again
  have inputs : ∀ q ∈ after, q.rid.v ≠ 0 := fun q member =>
    nonzero q (pre.subset (List.mem_append_right before member))
  obtain ⟨b, held, same⟩ := run_keeps rinsert (again.2 ▸ middle) inputs later i (r.slot i)
    ((view_eq_some r i _).mpr ⟨occupied, rfl⟩)
  rw [view_eq_some] at held
  exact (congrArg Prod.fst held.2).trans same

def threeCalls : List Rtq := [candidate 2 20, candidate 1 5, candidate 3 30]

theorem entry_structure_threeCalls :
    AllReached (callUpdate .single) WellFormed (.single (candidate 1 10)) threeCalls ∧
      ∀ before after, before ++ after <+: threeCalls → ∃ os r ps s,
        run (callUpdate .single) (.single (candidate 1 10)) before = some (os, r) ∧
        run (callUpdate .single) r after = some (ps, s) ∧
        ∀ i : Fin maxRtes, (r.rid i).v ≠ 0 → s.rid i = r.rid i :=
  entry_structure .single (fun _ => rfl) (.single (candidate 1 10))
    (Or.inr ⟨candidate 1 10, rfl⟩) threeCalls (by decide)

def BestFirst (r : Rtes) : Prop :=
  ∀ i j : Fin maxRtes, i < j → (r.rid i).v ≠ 0 → (r.rid j).v ≠ 0 →
    (r.metric i).metric ≤ (r.metric j).metric

def AddsInOrder (r : Rtes) (q : Rtq) : Prop :=
  (∀ i : Fin maxRtes, r.rid i ≠ q.rid) → (∃ i : Fin maxRtes, (r.rid i).v = 0) →
    ∀ i : Fin maxRtes, (r.rid i).v ≠ 0 → (r.metric i).metric ≤ q.metric.metric

theorem bestFirst_iff (r : Rtes) :
    BestFirst r ↔ Ordered (fun a b => a.metric ≤ b.metric) r.view := by
  constructor
  · intro best i j a b less first second
    rw [view_eq_some] at first second
    obtain ⟨left, rfl⟩ := first
    obtain ⟨right, rfl⟩ := second
    exact best i j less left right
  · intro ordered i j less left right
    exact ordered i j _ _ less ((view_eq_some r i _).mpr ⟨left, rfl⟩)
      ((view_eq_some r j _).mpr ⟨right, rfl⟩)

theorem bestFirst_written {r s : Rtes} {q : Rtq} (formed : WellFormed r) (best : BestFirst r)
    (written : Written r q s.view) : BestFirst s ↔ AddsInOrder r q := by
  rw [bestFirst_iff] at best
  rw [bestFirst_iff]
  cases written with
  | same settled slots =>
    rw [slots]
    refine iff_of_true best ?_
    intro absent ⟨j, free⟩
    rcases settled with ⟨i, listed⟩ | full
    · exact absurd listed (absent i)
    · exact absurd free (full j)
  | better _ old held less slots =>
    rw [slots]
    refine iff_of_true (best.write_least Fin.not_lt_zero held ?_) ?_
    · intro v bound
      exact UInt16.le_trans (Metrics.metric_le less) bound
    · intro absent
      exact absurd (congrArg Prod.fst ((view_eq_some r 0 _).mp held).2) (absent 0)
  | first i _ free absent slots =>
    -- the candidate goes behind all others, wherever it belongs
    rw [slots, ordered_write_free formed.packed best free]
    constructor
    · intro bound _ _ j occupied
      exact bound j _ ((view_eq_some r j _).mpr ⟨occupied, rfl⟩)
    · intro adds j b held
      rw [view_eq_some] at held
      obtain ⟨occupied, rfl⟩ := held
      exact adds absent ⟨i, (view_eq_none r i).mp free⟩ j occupied

theorem bestFirst_single (q : Rtq) : BestFirst (.single q) := by
  intro i j less _ occupied
  rw [single_occupied q j occupied] at less
  exact absurd less (Fin.not_lt_zero i)

/-- New candidates are appended, not sorted in: a run keeps the best route first exactly if it
adds its candidates in that order. -/
theorem bestFirst_run_iff (creates : ∀ q, rinsert q = .single q) (first : Rtq)
    (calls : List Rtq) (nonzero : ∀ q ∈ calls, q.rid.v ≠ 0) :
    AllReached (callUpdate rinsert) BestFirst (rinsert first) calls ↔
      Along (callUpdate rinsert) AddsInOrder (rinsert first) calls := by
  refine allReached_iff_along WellFormed BestFirst (fun q => q.rid.v ≠ 0) AddsInOrder ?_ ?_ ?_
    nonzero
  · intro r q formed best nonzero
    have written := callUpdate_written rinsert formed nonzero rfl
    exact ⟨_, _, rfl, (written_wellFormed formed written).1, bestFirst_written formed best written⟩
  · rw [creates]
    exact wellFormed_single first
  · rw [creates]
    exact bestFirst_single first

theorem bestFirst_run_threeCalls :
    AllReached (callUpdate .single) BestFirst (.single (candidate 1 10)) threeCalls ↔
      Along (callUpdate .single) AddsInOrder (.single (candidate 1 10)) threeCalls :=
  bestFirst_run_iff .single (fun _ => rfl) (candidate 1 10) threeCalls (by decide)

theorem better_route_second :
    (∀ q ∈ [candidate 2 32], q.rid.v ≠ 0) ∧
      ¬AllReached (callUpdate .single) BestFirst (.single (candidate 1 128)) [candidate 2 32] := by
  refine ⟨by decide, ?_⟩
  intro reached
  obtain ⟨os, s, ran, best⟩ := reached [candidate 2 32] List.prefix_rfl
  simp only [run, callUpdate, Option.map_some, Option.some.injEq, Prod.mk.injEq] at ran
  obtain ⟨-, rfl⟩ := ran
  exact absurd (best 0 1 (by decide) (by decide) (by decide)) (by decide)

end Tabeld.RouteTable
