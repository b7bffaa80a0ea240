import Tabeld.RouteTable.Update

set_option autoImplicit false

namespace Tabeld.RouteTable

variable (rinsert : Rtq → Rtes)

theorem slot_improved {r : Rtes} {q : Rtq}
    (better : q.metric.v < (r.metric 0).v) (i : Fin maxRtes) :
    (r.put 0 q).slot i ≠ r.slot i ↔ i = 0 := by
  rw [Rtes.slot_put]
  by_cases main : i = 0
  · subst main
    have differs : q.metric ≠ r.metric 0 := by
      intro equal
      rw [equal] at better
      exact Nat.lt_irrefl _ better
    rw [if_pos rfl]
    exact iff_of_true (fun equal => differs (congrArg Prod.snd equal)) rfl
  · simp [main]

theorem slot_added {r : Rtes} {q : Rtq} {i : Fin maxRtes} (empty : (r.rid i).v = 0)
    (new : q.rid.v ≠ 0) (j : Fin maxRtes) : (r.put i q).slot j ≠ r.slot j ↔ j = i := by
  rw [Rtes.slot_put]
  by_cases here : j = i
  · subst here
    have differs : q.rid ≠ r.rid j := by
      intro equal
      rw [equal] at new
      exact new empty
    rw [if_pos rfl]
    exact iff_of_true (fun equal => differs (congrArg Prod.fst equal)) rfl
  · simp [here]

theorem updateRtes_reports (found : Option Rtes) (q : Rtq) :
    ((updateRtes rinsert found q).changed = true ↔ found = none ∨
      ∃ r, found = some r ∧ ∃ i, (updateRtes rinsert found q).entry.slot i ≠ r.slot i) ∧
    (∀ r, found = some r → ∀ i j, (updateRtes rinsert found q).entry.slot i ≠ r.slot i →
      (updateRtes rinsert found q).entry.slot j ≠ r.slot j → i = j) ∧
    (.tell ∈ (updateRtes rinsert found q).calls ↔ found = none ∨
      ∃ r, found = some r ∧ (updateRtes rinsert found q).entry.slot 0 ≠ r.slot 0) := by
  cases found with
  | none => simp [updateRtes]
  | some r =>
    have update := updateRtes_update rinsert r q
    generalize updateRtes rinsert (some r) q = o at update
    simp only [reduceCtorEq, false_or, Option.some.injEq, exists_eq_left', forall_eq']
    cases update with
    | absent => simp
    | kept => simp
    | improved _ better =>
      simp only [slot_improved better]
      simp
    | added i _ empty new =>
      have slot (j : Fin maxRtes) :
          Rtes.slot { r.put i q with r := if i = 0 then q.r else r.r } j ≠ r.slot j ↔ j = i :=
        slot_added empty new j
      simp only [slot]
      by_cases main : i = 0
      · simp [main]
      · simp [main, Ne.symm main]

def Records (r : Rtes) (q : Rtq) : Prop :=
  ∃ i, r.rid i = q.rid ∧ r.metric i = q.metric ∧ ∀ j : Fin maxRtes, r.rid j = q.rid → j = i

def Distinct (r : Rtes) : Prop :=
  ∀ i j : Fin maxRtes, (r.rid i).v ≠ 0 → r.rid i = r.rid j → i = j

/-- A call records the metric of a known candidate only where the metric is the stored one, or
slot 0 gets a better one; and an empty slot ahead of the candidate takes it a second time. -/
theorem records_iff (r : Rtes) (q : Rtq) (i : Fin maxRtes) (distinct : Distinct r)
    (nonzero : q.rid.v ≠ 0) (held : r.rid i = q.rid) :
    Records (updateRtes rinsert (some r) q).entry q ↔
      (∀ j < i, (r.rid j).v ≠ 0) ∧
        (r.metric i = q.metric ∨ i = 0 ∧ q.metric.v < (r.metric i).v) := by
  have only (j : Fin maxRtes) (other : r.rid j = q.rid) : j = i :=
    distinct j i (other ▸ nonzero) (other.trans held.symm)
  have update := updateRtes_update rinsert r q
  generalize updateRtes rinsert (some r) q = o at update
  cases update with
  | absent passed => exact absurd (congrArg RteTbls.v held) (passed i).1
  | kept k passed same worse =>
    obtain rfl := only k same
    have records : Records r q ↔ r.metric k = q.metric := by
      constructor
      · rintro ⟨j, rid, metric, -⟩
        exact only j rid ▸ metric
      · exact fun metric => ⟨k, held, metric, only⟩
    have before : ∀ j < k, (r.rid j).v ≠ 0 := fun j less => (passed j less).2
    rw [records, or_iff_left worse]
    exact ⟨fun metric => ⟨before, metric⟩, And.right⟩
  | improved same better =>
    obtain rfl := only 0 same
    refine iff_of_true ⟨0, ?_, ?_, ?_⟩ ⟨?_, Or.inr ⟨rfl, better⟩⟩
    · rw [Rtes.rid_put, if_pos rfl]
    · rw [Rtes.metric_put, if_pos rfl]
    · intro j rid
      rw [Rtes.rid_put] at rid
      split at rid
      · assumption
      · exact only j rid
    · exact fun j less => absurd less (Fin.not_lt_zero j)
  | added k passed empty new =>
    have different : i ≠ k := by
      intro here
      rw [← here, held] at empty
      exact new empty
    have behind : k < i := by
      by_contra ahead
      exact (passed i (by omega)).1 (congrArg RteTbls.v held)
    -- now both slot k and slot i hold the router
    refine iff_of_false ?_ fun condition => condition.1 k behind empty
    rintro ⟨j, -, -, unique⟩
    have first := unique k (by simp [Rtes.put])
    have second := unique i (by rw [← held]; simp [Rtes.put, different])
    exact different (second.trans first.symm)

def candidate (rid metric : UInt16) : Rtq := ⟨0, ⟨rid, 0⟩, ⟨0, 0, 0, metric⟩⟩

def threeRoutes : Rtes where
  r := 0
  rid := ![⟨1, 0⟩, ⟨2, 0⟩, ⟨3, 0⟩]
  metric := ![⟨0, 0, 0, 10⟩, ⟨0, 0, 0, 20⟩, ⟨0, 0, 0, 30⟩]

theorem threeRoutes_distinct : Distinct threeRoutes := by
  unfold Distinct
  decide

theorem records_main_improvement :
    Records (updateRtes .single (some threeRoutes) (candidate 1 5)).entry (candidate 1 5) ↔
      (∀ j < (0 : Fin maxRtes), (threeRoutes.rid j).v ≠ 0) ∧
        (threeRoutes.metric 0 = (candidate 1 5).metric ∨
          (0 : Fin maxRtes) = 0 ∧
            (candidate 1 5).metric.v < (threeRoutes.metric 0).v) :=
  records_iff .single threeRoutes (candidate 1 5) 0 threeRoutes_distinct (by decide) (by decide)

theorem loses_improvement :
    Distinct threeRoutes ∧ (candidate 2 5).rid.v ≠ 0 ∧
      threeRoutes.rid 1 = (candidate 2 5).rid ∧
      ¬Records (updateRtes .single (some threeRoutes) (candidate 2 5)).entry (candidate 2 5) := by
  refine ⟨threeRoutes_distinct, by decide, by decide, ?_⟩
  unfold Records
  decide

theorem updateRtes_full (r : Rtes) (q : Rtq) (full : ∀ i : Fin maxRtes, (r.rid i).v ≠ 0)
    (absent : ∀ i : Fin maxRtes, r.rid i ≠ q.rid) :
    updateRtes rinsert (some r) q = { entry := r, changed := false, calls := [] } := by
  have update := updateRtes_update rinsert r q
  generalize updateRtes rinsert (some r) q = o at update
  cases update with
  | absent => rfl
  | kept i _ same => exact absurd same (absent i)
  | improved same => exact absurd same (absent 0)
  | added i _ empty => exact absurd empty (full i)

theorem updateRtes_threeRoutes :
    updateRtes .single (some threeRoutes) (candidate 4 5) =
      { entry := threeRoutes, changed := false, calls := [] } :=
  updateRtes_full .single threeRoutes (candidate 4 5) (by decide) (by decide)

theorem better_candidate_refused :
    (∀ i : Fin maxRtes, (threeRoutes.rid i).v ≠ 0) ∧ Distinct threeRoutes ∧
      (candidate 4 5).rid.v ≠ 0 ∧
      (∀ i : Fin maxRtes, threeRoutes.rid i ≠ (candidate 4 5).rid) ∧
      (∀ i : Fin maxRtes, cmpm (candidate 4 5).metric (threeRoutes.metric i) = -1) ∧
      ∀ i, (updateRtes .single (some threeRoutes) (candidate 4 5)).entry.slot i ≠
        ((candidate 4 5).rid, (candidate 4 5).metric) := by
  refine ⟨by decide, threeRoutes_distinct, by decide, by decide, by decide, ?_⟩
  decide

end Tabeld.RouteTable
