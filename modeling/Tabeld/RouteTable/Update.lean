import Mathlib.Data.Fin.VecNotation
import Mathlib.Data.Fintype.Basic
import Tabeld.Structures

set_option autoImplicit false

/-!
# update_rtes

An entry keeps up to three candidate routes to one destination. Unions are laid out as on a
little-endian machine.
-/

namespace Tabeld.RouteTable

structure RteTbls where
  rid : UInt16
  nh : UInt16
  deriving DecidableEq

def RteTbls.v (t : RteTbls) : Nat := t.rid.toNat + t.nh.toNat * 2 ^ 16

structure Metrics where
  addMetric : UInt16
  cost : UInt16
  refMetric : UInt16
  metric : UInt16
  deriving DecidableEq

def Metrics.v (m : Metrics) : Nat :=
  m.addMetric.toNat + m.cost.toNat * 2 ^ 16 + m.refMetric.toNat * 2 ^ 32 + m.metric.toNat * 2 ^ 48

abbrev maxRtes : Nat := 3

structure Rtes where
  r : RteIdx
  rid : Fin maxRtes → RteTbls
  metric : Fin maxRtes → Metrics
  deriving DecidableEq

structure Rtq where
  r : RteIdx
  rid : RteTbls
  metric : Metrics

def cmpm (a b : Metrics) : Int :=
  if a.v > b.v then 1 else if a.v < b.v then -1 else 0

inductive Call where
  | tell
  | rteSend (r : Rtes)
  | rteBetter2Send
  | rteU128Send
  deriving DecidableEq

structure Outcome where
  entry : Rtes
  changed : Bool
  calls : List Call

def Rtes.put (r : Rtes) (i : Fin maxRtes) (q : Rtq) : Rtes :=
  { r with rid := Function.update r.rid i q.rid, metric := Function.update r.metric i q.metric }

def scan (q : Rtq) : List (Fin maxRtes) → Outcome → Outcome
  | [], o => o
  | i :: rest, o =>
    if o.changed then o
    else if (o.entry.rid i).v = q.rid.v then
      let rc := cmpm (o.entry.metric i) q.metric
      if rc = 1 then
        if i = 0 then
          let entry := o.entry.put i q
          { entry := entry
            changed := true
            calls := o.calls ++ [.rteSend entry, .rteBetter2Send, .tell, .rteU128Send] }
        -- the loop over the slots before this one has an empty body
        else o
      -- so has the loop over the slots from here on for a worse metric
      else o
    else if (o.entry.rid i).v = 0 then
      -- there is no break here: the test of `changed` ends the scan
      scan q rest
        { entry := { o.entry.put i q with r := if i = 0 then q.r else o.entry.r }
          changed := true
          calls := if i = 0 then o.calls ++ [.tell] else o.calls }
    else scan q rest o

/-- `found` is what `rlookup` returns for `q.r`, and `rinsert` the entry that the function of
that name makes. -/
def updateRtes (rinsert : Rtq → Rtes) (found : Option Rtes) (q : Rtq) : Outcome :=
  match found with
  | none => { entry := rinsert q, changed := true, calls := [.tell] }
  | some r => scan q (List.finRange maxRtes) { entry := r, changed := false, calls := [] }

def Rtes.single (q : Rtq) : Rtes where
  r := q.r
  rid := ![q.rid, ⟨0, 0⟩, ⟨0, 0⟩]
  metric := ![q.metric, ⟨0, 0, 0, 0⟩, ⟨0, 0, 0, 0⟩]

theorem RteTbls.v_inj (t u : RteTbls) : t.v = u.v ↔ t = u := by
  obtain ⟨rid, nh⟩ := t
  obtain ⟨rid', nh'⟩ := u
  have := rid.toNat_lt
  have := nh.toNat_lt
  have := rid'.toNat_lt
  have := nh'.toNat_lt
  simp only [RteTbls.v, RteTbls.mk.injEq, ← UInt16.toNat_inj]
  omega

theorem Metrics.v_inj (m n : Metrics) : m.v = n.v ↔ m = n := by
  obtain ⟨a, b, c, d⟩ := m
  obtain ⟨a', b', c', d'⟩ := n
  have := a.toNat_lt
  have := b.toNat_lt
  have := c.toNat_lt
  have := d.toNat_lt
  have := a'.toNat_lt
  have := b'.toNat_lt
  have := c'.toNat_lt
  have := d'.toNat_lt
  simp only [Metrics.v, Metrics.mk.injEq, ← UInt16.toNat_inj]
  omega

theorem Metrics.metric_le {m n : Metrics} (less : m.v < n.v) : m.metric ≤ n.metric := by
  have := m.addMetric.toNat_lt
  have := m.cost.toNat_lt
  have := m.refMetric.toNat_lt
  have := n.addMetric.toNat_lt
  have := n.cost.toNat_lt
  have := n.refMetric.toNat_lt
  simp only [Metrics.v] at less
  rw [UInt16.le_iff_toNat_le]
  omega

theorem cmpm_eq_one (a b : Metrics) : cmpm a b = 1 ↔ b.v < a.v := by
  unfold cmpm
  split
  · simp_all
  · split <;> simp_all

theorem Rtes.rid_put (r : Rtes) (i j : Fin maxRtes) (q : Rtq) :
    (r.put i q).rid j = if j = i then q.rid else r.rid j := by
  simp [Rtes.put, Function.update_apply]

theorem Rtes.metric_put (r : Rtes) (i j : Fin maxRtes) (q : Rtq) :
    (r.put i q).metric j = if j = i then q.metric else r.metric j := by
  simp [Rtes.put, Function.update_apply]

/-- The scan goes past slot `i`: another router's route is in it. -/
def Passed (r : Rtes) (q : Rtq) (i : Fin maxRtes) : Prop :=
  (r.rid i).v ≠ q.rid.v ∧ (r.rid i).v ≠ 0

inductive Update (r : Rtes) (q : Rtq) : Outcome → Prop
  | absent (passed : ∀ i, Passed r q i) : Update r q ⟨r, false, []⟩
  | kept (i : Fin maxRtes) (passed : ∀ j < i, Passed r q j) (same : r.rid i = q.rid)
      (worse : ¬(i = 0 ∧ q.metric.v < (r.metric i).v)) : Update r q ⟨r, false, []⟩
  | improved (same : r.rid 0 = q.rid)
      (better : q.metric.v < (r.metric 0).v) :
      Update r q ⟨r.put 0 q, true, [.rteSend (r.put 0 q), .rteBetter2Send, .tell, .rteU128Send]⟩
  | added (i : Fin maxRtes) (passed : ∀ j < i, Passed r q j) (empty : (r.rid i).v = 0)
      (new : q.rid.v ≠ 0) :
      Update r q ⟨{ r.put i q with r := if i = 0 then q.r else r.r }, true,
        if i = 0 then [.tell] else []⟩

theorem scan_changed (q : Rtq) (slots : List (Fin maxRtes)) (o : Outcome)
    (changed : o.changed = true) : scan q slots o = o := by
  cases slots <;> simp [scan, changed]

theorem scan_update (r : Rtes) (q : Rtq) (slots : List (Fin maxRtes))
    (sorted : slots.Pairwise (· < ·)) (passed : ∀ i, i ∉ slots → Passed r q i) :
    Update r q (scan q slots ⟨r, false, []⟩) := by
  induction slots with
  | nil => exact .absent fun i => passed i (by simp)
  | cons i rest ih =>
    obtain ⟨least, restSorted⟩ := List.pairwise_cons.mp sorted
    have before : ∀ j < i, Passed r q j := by
      intro j less
      apply passed
      intro member
      rcases List.mem_cons.mp member with rfl | member
      · omega
      · have := least j member
        omega
    simp only [scan, Bool.false_eq_true, if_false]
    -- the scan ends at the router's own slot or at the first empty one
    by_cases same : (r.rid i).v = q.rid.v
    · have held := (RteTbls.v_inj _ _).mp same
      rw [if_pos same]
      by_cases better : i = 0 ∧ q.metric.v < (r.metric i).v
      · obtain ⟨rfl, better⟩ := better
        rw [if_pos ((cmpm_eq_one _ _).mpr better), if_pos rfl]
        exact .improved held better
      · have unchanged : Update r q ⟨r, false, []⟩ := .kept i before held better
        split
        next compared =>
          rw [cmpm_eq_one] at compared
          rw [if_neg fun main => better ⟨main, compared⟩]
          exact unchanged
        next => exact unchanged
    · rw [if_neg same]
      by_cases empty : (r.rid i).v = 0
      · rw [if_pos empty, scan_changed _ _ _ rfl]
        exact .added i before empty (empty ▸ Ne.symm same)
      · rw [if_neg empty]
        apply ih restSorted
        intro j other
        by_cases here : j = i
        · exact here ▸ ⟨same, empty⟩
        · exact passed j (by simp [here, other])

theorem updateRtes_update (rinsert : Rtq → Rtes) (r : Rtes) (q : Rtq) :
    Update r q (updateRtes rinsert (some r) q) :=
  scan_update r q (List.finRange maxRtes) (List.pairwise_lt_finRange maxRtes) (by simp)

def Changes (e : Rtes) (q : Rtq) : Prop :=
  e.rid 0 = q.rid ∧ q.metric.v < (e.metric 0).v ∨
    q.rid.v ≠ 0 ∧ ∃ i, (e.rid i).v = 0 ∧ ∀ j < i, Passed e q j

def Rtes.slot (r : Rtes) (i : Fin maxRtes) : RteTbls × Metrics := (r.rid i, r.metric i)

theorem Rtes.slot_put (r : Rtes) (i j : Fin maxRtes) (q : Rtq) :
    (r.put i q).slot j = if j = i then (q.rid, q.metric) else r.slot j := by
  unfold Rtes.slot
  rw [Rtes.rid_put, Rtes.metric_put]
  split <;> rfl

end Tabeld.RouteTable
