import Tabeld.RouteTable.Runs
import Tabeld.Shared.Sharding

set_option autoImplicit false

/-!
# update_rtes on a table of destinations

`rlookup` and `rinsert` are not part of the program: the table is theirs.
-/

namespace Tabeld.RouteTable

open Machine Sharding

structure Store (T : Type) where
  rlookup : T → RteIdx → Option Rtes
  rinsert : T → Rtq → T
  -- an assignment through the pointer that `rlookup` returns
  assign : T → RteIdx → Rtes → T

structure Store.Lawful {T : Type} (store : Store T) : Prop where
  rlookup_rinsert : ∀ t q d,
    store.rlookup (store.rinsert t q) d = if d = q.r then some (.single q) else store.rlookup t d
  rlookup_assign : ∀ t r e d,
    store.rlookup (store.assign t r e) d = if d = r then some e else store.rlookup t d

structure Report where
  changed : Bool
  calls : List Call
  deriving DecidableEq

def Outcome.report (o : Outcome) : Report := ⟨o.changed, o.calls⟩

section Store

variable {T : Type} (store : Store T)

def Store.updateRtes (t : T) (q : Rtq) : Option (Report × T) :=
  match store.rlookup t q.r with
  | none => some (⟨true, [.tell]⟩, store.rinsert t q)
  | some r =>
    let o := RouteTable.updateRtes .single (some r) q
    some (o.report, if o.changed then store.assign t q.r o.entry else t)

def updateEntry (found : Option Rtes) (q : Rtq) : Option (Report × Option Rtes) :=
  let o := RouteTable.updateRtes .single found q
  some (o.report, some o.entry)

theorem entry_unchanged {r : Rtes} {q : Rtq} {o : Outcome} (update : Update r q o)
    (unchanged : o.changed = false) : o.entry = r := by
  cases update with
  | absent | kept => rfl
  | improved | added => simp at unchanged

theorem updateRtes_local (lawful : store.Lawful) :
    Local store.rlookup Rtq.r updateEntry store.updateRtes := by
  constructor
  · intro t q report u called
    unfold Store.updateRtes at called
    unfold updateEntry
    split at called
    next missing =>
      simp only [Option.some.injEq, Prod.mk.injEq] at called
      rw [missing, ← called.1, ← called.2, lawful.rlookup_rinsert, if_pos rfl]
      rfl
    next r found =>
      have update := updateRtes_update .single r q
      simp only [Option.some.injEq, Prod.mk.injEq] at called
      rw [found, ← called.1, ← called.2]
      split
      next => rw [lawful.rlookup_assign, if_pos rfl]
      next same =>
        have kept := entry_unchanged update (by simpa using same)
        simp only [kept, found]
  · intro t q report u called d other
    unfold Store.updateRtes at called
    split at called
    next =>
      simp only [Option.some.injEq, Prod.mk.injEq] at called
      rw [← called.2, lawful.rlookup_rinsert, if_neg other]
    next =>
      simp only [Option.some.injEq, Prod.mk.injEq] at called
      rw [← called.2]
      split
      next => rw [lawful.rlookup_assign, if_neg other]
      next => rfl

theorem run_exists (t : T) (qs : List Rtq) :
    ∃ reports u, run store.updateRtes t qs = some (reports, u) := by
  have defined (t : T) (q : Rtq) : (store.updateRtes t q).isSome ↔ True := by
    unfold Store.updateRtes
    split <;> simp
  have along : Along store.updateRtes (fun _ _ => True) t qs :=
    along_of_inputs fun _ _ => trivial
  obtain ⟨⟨reports, u⟩, ran⟩ := Option.isSome_iff_exists.mp ((run_isSome defined t qs).mpr along)
  exact ⟨reports, u, ran⟩

end Store

/-- What the calls for a destination leave in its entry: the first routers, in their order. Slot 0
has the best metric that its router has offered, the others have their routers' first. -/
structure Holds (d : RteIdx) (mine : List Rtq) (e : Rtes) : Prop where
  destination : e.r = d
  listed : ∀ (i : Fin maxRtes) q, (firsts Rtq.rid mine)[i.val]? = some q →
    e.rid i = q.rid ∧ (i ≠ 0 → e.metric i = q.metric)
  free : ∀ i : Fin maxRtes, (firsts Rtq.rid mine)[i.val]? = none →
    e.slot i = (⟨0, 0⟩, ⟨0, 0, 0, 0⟩)
  offered : ∃ q ∈ mine, q.rid = e.rid 0 ∧ q.metric = e.metric 0
  best : ∀ q ∈ mine, q.rid = e.rid 0 → (e.metric 0).v ≤ q.metric.v

variable {d : RteIdx} {mine : List Rtq} {e : Rtes} {q : Rtq}

theorem firsts_known (known : q.rid ∈ (firsts Rtq.rid mine).map Rtq.rid) :
    firsts Rtq.rid (mine ++ [q]) = firsts Rtq.rid mine := by
  rw [firsts_append_singleton, addFirst, if_pos known]

theorem firsts_new (new : q.rid ∉ (firsts Rtq.rid mine).map Rtq.rid) :
    firsts Rtq.rid (mine ++ [q]) = firsts Rtq.rid mine ++ [q] := by
  rw [firsts_append_singleton, addFirst, if_neg new]

theorem Holds.occupied (holds : Holds d mine e) (nonzero : ∀ p ∈ mine, p.rid.v ≠ 0)
    (i : Fin maxRtes) : (e.rid i).v ≠ 0 ↔ i.val < (firsts Rtq.rid mine).length := by
  constructor
  · intro occupied
    by_contra beyond
    have empty : e.rid i = ⟨0, 0⟩ :=
      congrArg Prod.fst (holds.free i (List.getElem?_eq_none (by omega)))
    rw [empty] at occupied
    exact occupied rfl
  · intro inside
    have router := (holds.listed i _ (List.getElem?_eq_getElem inside)).1
    have member := List.mem_map_of_mem (f := Rtq.rid) (List.getElem_mem inside)
    rw [kinds_firsts, List.mem_map] at member
    obtain ⟨p, member, same⟩ := member
    rw [router, ← same]
    exact nonzero p member

theorem Holds.position (holds : Holds d mine e) {i : Fin maxRtes} {j : Nat} {p : Rtq}
    (here : (firsts Rtq.rid mine)[j]? = some p) (inside : i.val < (firsts Rtq.rid mine).length)
    (same : e.rid i = p.rid) : i.val = j := by
  have distinct := nodup_firsts Rtq.rid mine
  have router := (holds.listed i _ (List.getElem?_eq_getElem inside)).1
  refine (List.getElem?_inj (by rwa [List.length_map]) distinct).mp ?_
  rw [List.getElem?_map, List.getElem?_map, here, List.getElem?_eq_getElem inside,
    Option.map_some, Option.map_some, ← router, same]

theorem Holds.unchanged (holds : Holds d mine e)
    (same : ∀ i : Fin maxRtes,
      (firsts Rtq.rid (mine ++ [q]))[i.val]? = (firsts Rtq.rid mine)[i.val]?)
    (worse : q.rid = e.rid 0 → (e.metric 0).v ≤ q.metric.v) : Holds d (mine ++ [q]) e where
  destination := holds.destination
  listed i p here := holds.listed i p (by rw [← same i, here])
  free i none_ := holds.free i (by rw [← same i, none_])
  offered := by
    obtain ⟨p, member, known⟩ := holds.offered
    exact ⟨p, List.mem_append_left _ member, known⟩
  best := by
    intro p member router
    rw [List.mem_append, List.mem_singleton] at member
    rcases member with earlier | rfl
    · exact holds.best p earlier router
    · exact worse router

theorem mem_kinds_of_rid (holds : Holds d mine e) (nonzero : ∀ p ∈ mine, p.rid.v ≠ 0)
    {i : Fin maxRtes} (new : q.rid.v ≠ 0) (same : e.rid i = q.rid) :
    q.rid ∈ (firsts Rtq.rid mine).map Rtq.rid := by
  have inside := (holds.occupied nonzero i).mp (same ▸ new)
  rw [← same, (holds.listed i _ (List.getElem?_eq_getElem inside)).1]
  exact List.mem_map_of_mem (List.getElem_mem inside)

theorem Holds.improved (holds : Holds d mine e) (nonzero : ∀ p ∈ mine, p.rid.v ≠ 0)
    (new : q.rid.v ≠ 0) (same : e.rid 0 = q.rid) (better : q.metric.v < (e.metric 0).v) :
    Holds d (mine ++ [q]) (e.put 0 q) := by
  have router : (e.put 0 q).rid 0 = e.rid 0 := by rw [Rtes.rid_put, if_pos rfl, same]
  have known := firsts_known (mem_kinds_of_rid holds nonzero new same)
  constructor
  case destination => exact holds.destination
  case listed =>
    intro i p here
    rw [known] at here
    have before := holds.listed i p here
    rw [Rtes.rid_put, Rtes.metric_put]
    split
    next main => exact ⟨by rw [← before.1, main, same], fun other => absurd main other⟩
    next => exact before
  case free =>
    intro i none_
    rw [known] at none_
    have other : i ≠ 0 := by
      intro main
      have inside := (holds.occupied nonzero 0).mp (same ▸ new)
      rw [main, List.getElem?_eq_none_iff] at none_
      omega
    rw [Rtes.slot_put, if_neg other]
    exact holds.free i none_
  case offered => exact ⟨q, by simp, by simp [Rtes.rid_put], by simp [Rtes.metric_put]⟩
  case best =>
    intro p member routed
    rw [router] at routed
    rw [Rtes.metric_put, if_pos rfl]
    rw [List.mem_append, List.mem_singleton] at member
    rcases member with earlier | rfl
    · exact Nat.le_trans (Nat.le_of_lt better) (holds.best p earlier routed)
    · exact Nat.le_refl _

theorem Holds.place_added (holds : Holds d mine e) (nonzero : ∀ p ∈ mine, p.rid.v ≠ 0)
    {i : Fin maxRtes} (passed : ∀ j < i, Passed e q j) (empty : (e.rid i).v = 0) :
    0 < i.val ∧ i.val = (firsts Rtq.rid mine).length ∧
      q.rid ∉ (firsts Rtq.rid mine).map Rtq.rid := by
  have occupied := holds.occupied nonzero
  have positive : 0 < i.val := by
    apply Nat.pos_of_ne_zero
    intro zero
    obtain ⟨p, member, router, -⟩ := holds.offered
    exact nonzero p member (by rw [router, ← empty, show i = 0 from Fin.ext zero])
  have beyond := (occupied i).not.mp (not_not.mpr empty)
  have last := (occupied ⟨i.val - 1, by omega⟩).mp
    (passed ⟨i.val - 1, by omega⟩ (Nat.sub_lt positive Nat.one_pos)).2
  have place : i.val = (firsts Rtq.rid mine).length := by
    simp only at last
    omega
  refine ⟨positive, place, ?_⟩
  intro known
  obtain ⟨j, bound, same⟩ := List.getElem_of_mem known
  rw [List.length_map] at bound
  rw [List.getElem_map] at same
  have router := (holds.listed ⟨j, by omega⟩ _ (List.getElem?_eq_getElem bound)).1
  have scanned := passed ⟨j, by omega⟩ (show j < i.val by omega)
  exact scanned.1 (by rw [router, same])

theorem Holds.added (holds : Holds d mine e) (nonzero : ∀ p ∈ mine, p.rid.v ≠ 0)
    {i : Fin maxRtes} (passed : ∀ j < i, Passed e q j) (empty : (e.rid i).v = 0) :
    i ≠ 0 ∧ Holds d (mine ++ [q]) (e.put i q) := by
  obtain ⟨positive, place, absent⟩ := holds.place_added nonzero passed empty
  have main : i ≠ 0 := fun zero => Nat.ne_of_gt positive (congrArg Fin.val zero)
  have grown := firsts_new absent
  have own : (firsts Rtq.rid (mine ++ [q]))[i.val]? = some q := by
    rw [grown, place, List.getElem?_concat_length]
  have other (j : Fin maxRtes) (different : j ≠ i) :
      (firsts Rtq.rid (mine ++ [q]))[j.val]? = (firsts Rtq.rid mine)[j.val]? := by
    rw [grown]
    by_cases inside : j.val < (firsts Rtq.rid mine).length
    · exact List.getElem?_append_left inside
    · rw [List.getElem?_eq_none (by simp; omega), List.getElem?_eq_none (by omega)]
  have unchanged (j : Fin maxRtes) (different : j ≠ i) : (e.put i q).slot j = e.slot j := by
    rw [Rtes.slot_put, if_neg different]
  have rid : (e.put i q).rid 0 = e.rid 0 := congrArg Prod.fst (unchanged 0 (Ne.symm main))
  have metric : (e.put i q).metric 0 = e.metric 0 :=
    congrArg Prod.snd (unchanged 0 (Ne.symm main))
  refine ⟨main, ?_⟩
  constructor
  case destination => exact holds.destination
  case listed =>
    intro j p here
    rw [Rtes.rid_put, Rtes.metric_put]
    split
    next same =>
      rw [same, own, Option.some.injEq] at here
      rw [here]
      exact ⟨rfl, fun _ => rfl⟩
    next different => exact holds.listed j p (by rw [← other j different, here])
  case free =>
    intro j none_
    have different : j ≠ i := by
      rintro rfl
      rw [own] at none_
      contradiction
    rw [unchanged j different]
    exact holds.free j (by rw [← other j different, none_])
  case offered =>
    obtain ⟨p, member, router, first⟩ := holds.offered
    exact ⟨p, List.mem_append_left _ member, router.trans rid.symm, first.trans metric.symm⟩
  case best =>
    intro p member routed
    rw [rid] at routed
    rw [metric]
    rw [List.mem_append, List.mem_singleton] at member
    rcases member with earlier | rfl
    · exact holds.best p earlier routed
    · exact absurd (congrArg RteTbls.v routed.symm) (passed 0 positive).1

theorem Holds.update (holds : Holds d mine e) (nonzero : ∀ p ∈ mine, p.rid.v ≠ 0)
    (new : q.rid.v ≠ 0) {o : Outcome} (update : Update e q o) :
    Holds d (mine ++ [q]) o.entry := by
  cases update with
  | absent passed =>
    -- the list of first routers may grow, but not among the first three
    have full := (holds.occupied nonzero 2).mp (passed 2).2
    refine holds.unchanged ?_ fun same => absurd (congrArg RteTbls.v same.symm) (passed 0).1
    intro i
    rw [firsts_append_singleton, addFirst]
    split
    next => rfl
    next =>
      have inside : i.val < (firsts Rtq.rid mine).length := Nat.lt_of_le_of_lt i.is_le full
      exact List.getElem?_append_left inside
  | kept i passed same worse =>
    refine holds.unchanged ?_ ?_
    · rw [firsts_known (mem_kinds_of_rid holds nonzero new same)]
      exact fun _ => rfl
    · intro main
      have first : i = 0 := by
        by_contra later
        exact (passed 0 (Fin.pos_iff_ne_zero.mpr later)).1 (congrArg RteTbls.v main.symm)
      subst first
      simpa using worse
  | improved same better => exact holds.improved nonzero new same better
  | added i passed empty _ =>
    obtain ⟨behind, after⟩ := holds.added nonzero passed empty
    rw [if_neg behind]
    exact after

theorem holds_single (q : Rtq) : Holds q.r [q] (.single q) where
  destination := rfl
  listed i p here := by
    have first : firsts Rtq.rid [q] = [q] := rfl
    rw [first, List.getElem?_singleton] at here
    split at here
    next zero =>
      obtain rfl : i = 0 := Fin.ext zero
      exact ⟨congrArg Rtq.rid (Option.some.inj here), fun other => absurd rfl other⟩
    next => contradiction
  free i none_ := by
    have first : firsts Rtq.rid [q] = [q] := rfl
    rw [first, List.getElem?_eq_none_iff, List.length_singleton] at none_
    obtain ⟨i, bound⟩ := i
    match i, bound with
    | 1, _ | 2, _ => rfl
  offered := ⟨q, by simp, rfl, rfl⟩
  best p member _ := by
    rw [List.mem_singleton.mp member]
    exact Nat.le_refl _

def After (d : RteIdx) (mine : List Rtq) (found : Option Rtes) : Prop :=
  if mine = [] then found = none else ∃ e, found = some e ∧ Holds d mine e

theorem after_update {found : Option Rtes} (after : After d mine found)
    (nonzero : ∀ p ∈ mine, p.rid.v ≠ 0) (toHere : q.r = d) (new : q.rid.v ≠ 0) :
    After d (mine ++ [q]) (some (updateRtes .single found q).entry) := by
  rw [After, if_neg (by simp)]
  refine ⟨_, rfl, ?_⟩
  unfold After at after
  split at after
  next fresh =>
    rw [after, fresh, ← toHere]
    exact holds_single q
  next =>
    obtain ⟨e, rfl, holds⟩ := after
    exact holds.update nonzero new (updateRtes_update .single e q)

theorem run_after (qs : List Rtq) (toHere : ∀ q ∈ qs, q.r = d) (nonzero : ∀ q ∈ qs, q.rid.v ≠ 0)
    {reports : List Report} {found : Option Rtes}
    (ran : run updateEntry none qs = some (reports, found)) : After d qs found := by
  induction qs using List.reverseRecOn generalizing reports found with
  | nil =>
    simp only [run_nil, Option.some.injEq, Prod.mk.injEq] at ran
    exact ran.2.symm
  | append_singleton qs q ih =>
    simp only [List.mem_append, List.mem_singleton, or_imp, forall_and, forall_eq] at toHere nonzero
    obtain ⟨_, between, _, earlier, last, -⟩ := run_append.mp ran
    obtain ⟨_, _, _, called, done, -⟩ := run_cons.mp last
    simp only [run_nil, Option.some.injEq, Prod.mk.injEq] at done
    simp only [updateEntry, Option.some.injEq, Prod.mk.injEq] at called
    rw [← done.2, ← called.2]
    exact after_update (ih toHere.1 nonzero.1 earlier) nonzero.1 toHere.2 nonzero.2

def New (before : List Rtq) (q : Rtq) : Prop :=
  (∀ p ∈ before, p.rid ≠ q.rid) ∧ (firsts Rtq.rid before).length < maxRtes

def Better (before : List Rtq) (q : Rtq) : Prop :=
  (∃ p ∈ before.head?, p.rid = q.rid) ∧ ∀ p ∈ before, p.rid = q.rid → q.metric.v < p.metric.v

theorem Holds.main (holds : Holds d mine e) :
    (∃ p ∈ mine.head?, p.rid = q.rid) ↔ e.rid 0 = q.rid := by
  obtain ⟨p, member, -⟩ := holds.offered
  obtain ⟨first, rest, rfl⟩ := List.exists_cons_of_ne_nil (List.ne_nil_of_mem member)
  have head : (firsts Rtq.rid (first :: rest))[0]? = some first := by
    rw [← List.head?_eq_getElem?, head?_firsts]
    rfl
  rw [(holds.listed 0 first head).1]
  simp

theorem reports_update (holds : Holds d mine e) (nonzero : ∀ p ∈ mine, p.rid.v ≠ 0)
    (new : q.rid.v ≠ 0) {o : Outcome} (update : Update e q o) :
    (o.changed = true ↔ New mine q ∨ Better mine q) ∧ (.tell ∈ o.calls ↔ Better mine q) := by
  have known (i : Fin maxRtes) (same : e.rid i = q.rid) : ¬New mine q := by
    have kinds := mem_kinds_of_rid holds nonzero new same
    rw [kinds_firsts, List.mem_map] at kinds
    obtain ⟨p, member, router⟩ := kinds
    exact fun unknown => unknown.1 p member router
  have worse (passed : Passed e q 0) : ¬Better mine q := fun better =>
    passed.1 (congrArg RteTbls.v (holds.main.mp better.1))
  cases update with
  | absent passed =>
    have full : ¬New mine q := by
      have last := (holds.occupied nonzero 2).mp (passed 2).2
      exact fun unknown => Nat.lt_irrefl _ (Nat.lt_of_lt_of_le unknown.2 last)
    have main := worse (passed 0)
    simp [full, main]
  | kept i passed same notBetter =>
    have main : ¬Better mine q := by
      by_cases first : i = 0
      · subst first
        obtain ⟨p, member, router, metric⟩ := holds.offered
        intro better
        exact notBetter ⟨rfl, metric ▸ better.2 p member (router.trans same)⟩
      · exact worse (passed 0 (Fin.pos_iff_ne_zero.mpr first))
    simp [known i same, main]
  | improved same better =>
    have main : Better mine q :=
      ⟨holds.main.mpr same, fun p member router =>
        Nat.lt_of_lt_of_le better (holds.best p member (router.trans same.symm))⟩
    simp [main]
  | added i passed empty _ =>
    obtain ⟨positive, place, absent⟩ := holds.place_added nonzero passed empty
    have main := worse (passed 0 positive)
    have zero : i ≠ 0 := Fin.pos_iff_ne_zero.mp positive
    have unknown : New mine q := by
      refine ⟨?_, place ▸ i.isLt⟩
      intro p member same
      rw [kinds_firsts] at absent
      exact absent (same ▸ List.mem_map_of_mem member)
    simp [main, unknown, zero]

theorem reports_after {found : Option Rtes} (after : After d mine found)
    (nonzero : ∀ p ∈ mine, p.rid.v ≠ 0) (new : q.rid.v ≠ 0) :
    ((updateRtes .single found q).changed = true ↔ New mine q ∨ Better mine q) ∧
      (.tell ∈ (updateRtes .single found q).calls ↔ mine = [] ∨ Better mine q) := by
  unfold After at after
  split at after
  next fresh => simp [after, fresh, updateRtes, New, firsts]
  next known =>
    obtain ⟨e, rfl, holds⟩ := after
    have reports := reports_update holds nonzero new (updateRtes_update .single e q)
    simpa only [known, false_or] using reports

structure Extends (e f : Rtes) : Prop where
  kept : ∀ i : Fin maxRtes, (e.rid i).v ≠ 0 → f.rid i = e.rid i
  best : f.rid 0 = e.rid 0 → (f.metric 0).v ≤ (e.metric 0).v

theorem not_changes_held {i : Fin maxRtes} (passed : ∀ j < i, Passed e q j)
    (same : e.rid i = q.rid) (worse : ¬(i = 0 ∧ q.metric.v < (e.metric i).v)) :
    ¬Changes e q := by
  rintro (⟨main, better⟩ | ⟨nonzero, k, empty, before⟩)
  · by_cases first : i = 0
    · exact worse ⟨first, first ▸ better⟩
    · exact (passed 0 (Fin.pos_iff_ne_zero.mpr first)).1 (congrArg RteTbls.v main)
  · rcases Nat.lt_trichotomy i.val k.val with less | equal | greater
    · exact (before i less).1 (congrArg RteTbls.v same)
    · obtain rfl := Fin.ext equal
      exact nonzero (same ▸ empty)
    · exact (passed k greater).2 empty

theorem not_changes_passed (passed : ∀ i, Passed e q i) : ¬Changes e q := by
  rintro (⟨same, -⟩ | ⟨-, i, empty, -⟩)
  · exact (passed 0).1 (congrArg RteTbls.v same)
  · exact (passed i).2 empty

theorem changes_of_changed {o : Outcome} (update : Update e q o) :
    o = ⟨e, false, []⟩ ∧ ¬Changes e q ∨ o.changed = true ∧ Changes e q := by
  cases update with
  | absent passed => exact Or.inl ⟨rfl, not_changes_passed passed⟩
  | kept i passed same worse => exact Or.inl ⟨rfl, not_changes_held passed same worse⟩
  | improved same better => exact Or.inr ⟨rfl, Or.inl ⟨same, better⟩⟩
  | added i passed empty new => exact Or.inr ⟨rfl, Or.inr ⟨new, i, empty, passed⟩⟩

theorem extends_update {o : Outcome} (update : Update e q o) : Extends e o.entry := by
  cases update with
  | absent | kept => exact ⟨fun _ _ => rfl, fun _ => Nat.le_refl _⟩
  | improved same better =>
    constructor
    · intro i _
      rw [Rtes.rid_put]
      split
      next here => rw [here, same]
      next => rfl
    · intro _
      rw [Rtes.metric_put, if_pos rfl]
      exact Nat.le_of_lt better
  | added i passed empty new =>
    have other (j : Fin maxRtes) (different : j ≠ i) : (e.put i q).slot j = e.slot j := by
      rw [Rtes.slot_put, if_neg different]
    constructor
    · intro j occupied
      have different : j ≠ i := fun here => occupied (here ▸ empty)
      exact congrArg Prod.fst (other j different)
    · intro same
      have different : 0 ≠ i := by
        rintro rfl
        change (e.put 0 q).rid 0 = e.rid 0 at same
        rw [Rtes.rid_put, if_pos rfl] at same
        exact new (same ▸ empty)
      have metric : (e.put i q).metric 0 = e.metric 0 := congrArg Prod.snd (other 0 different)
      change ((e.put i q).metric 0).v ≤ (e.metric 0).v
      rw [metric]

theorem Extends.not_changes {f : Rtes} (extends_ : Extends e f) (settled : ¬Changes e q) :
    ¬Changes f q := by
  rintro (⟨same, better⟩ | ⟨nonzero, i, empty, passed⟩)
  · by_cases free : (e.rid 0).v = 0
    · by_cases main : e.rid 0 = q.rid
      · have bound := extends_.best (same.trans main.symm)
        exact settled (Or.inl ⟨main, by omega⟩)
      · have nonzero : q.rid.v ≠ 0 := fun zero =>
          main ((RteTbls.v_inj _ _).mp (free.trans zero.symm))
        exact settled (Or.inr ⟨nonzero, 0, free, fun j less => absurd less (Fin.not_lt_zero j)⟩)
    · have main := extends_.kept 0 free
      have bound := extends_.best main
      exact settled (Or.inl ⟨main.symm.trans same, by omega⟩)
  · -- before, the scan has stopped at the first slot that was empty then
    have some_ : ∃ i, (e.rid i).v = 0 := by
      by_contra none_
      rw [not_exists] at none_
      have kept := extends_.kept i (none_ i)
      exact none_ i (kept ▸ empty)
    obtain ⟨k, free, least⟩ := wellFounded_lt.has_min {i : Fin maxRtes | (e.rid i).v = 0} some_
    have bound : ¬i < k := by
      intro less
      have kept := extends_.kept i fun zero => least i zero less
      exact least i (show (e.rid i).v = 0 by rw [← kept, empty]) less
    refine settled (Or.inr ⟨nonzero, k, free, fun j less => ?_⟩)
    have kept := extends_.kept j fun zero => least j zero less
    have scanned := passed j (by omega)
    rw [Passed, kept] at scanned
    exact scanned

section Runs

variable {T : Type} (store : Store T)

theorem run_entry (lawful : store.Lawful) {t u : T} (empty : ∀ d, store.rlookup t d = none)
    {qs : List Rtq} (nonzero : ∀ q ∈ qs, q.rid.v ≠ 0) {reports : List Report}
    (ran : run store.updateRtes t qs = some (reports, u)) (d : RteIdx) :
    After d (concerning Rtq.r d qs) (store.rlookup u d) := by
  have projected := (updateRtes_local store lawful).run_projects d ran
  rw [empty d] at projected
  refine run_after _ ?_ ?_ projected
  · intro q member
    simpa [concerning] using (List.mem_filter.mp member).2
  · exact fun q member => nonzero q (List.mem_filter.mp member).1

theorem table_exact (lawful : store.Lawful) (t : T) (empty : ∀ d, store.rlookup t d = none)
    (qs : List Rtq) (nonzero : ∀ q ∈ qs, q.rid.v ≠ 0) :
    ∃ reports u, run store.updateRtes t qs = some (reports, u) ∧
      ∀ d, After d (concerning Rtq.r d qs) (store.rlookup u d) := by
  obtain ⟨reports, u, ran⟩ := run_exists store t qs
  exact ⟨reports, u, ran, run_entry store lawful empty nonzero ran⟩

/-- Every call of a run reports exactly what the earlier candidates for its destination say: a
change for a router that is new and has room, or for a better metric of the very first router; and
only the latter, or a new destination, is told to the hook. -/
theorem reports_exact (lawful : store.Lawful) (t : T) (empty : ∀ d, store.rlookup t d = none)
    (before : List Rtq) (q : Rtq) (nonzero : ∀ p ∈ before ++ [q], p.rid.v ≠ 0) :
    ∃ reports u report v, run store.updateRtes t before = some (reports, u) ∧
      store.updateRtes u q = some (report, v) ∧
      let mine := concerning Rtq.r q.r before
      (report.changed = true ↔ New mine q ∨ Better mine q) ∧
        (.tell ∈ report.calls ↔ mine = [] ∨ Better mine q) := by
  simp only [List.mem_append, List.mem_singleton, or_imp, forall_and, forall_eq] at nonzero
  obtain ⟨reports, u, ran⟩ := run_exists store t before
  obtain ⟨_, v, last⟩ := run_exists store u [q]
  obtain ⟨report, _, _, called, -⟩ := run_cons.mp last
  refine ⟨reports, u, report, _, ran, called, ?_⟩
  have after := run_entry store lawful empty nonzero.1 ran q.r
  have here := (updateRtes_local store lawful).here u q report _ called
  simp only [updateEntry, Option.some.injEq, Prod.mk.injEq] at here
  rw [← here.1]
  exact reports_after after (fun p member => nonzero.1 p (List.mem_filter.mp member).1) nonzero.2

def Settled (t : T) (q : Rtq) : Prop := ∃ e, store.rlookup t q.r = some e ∧ ¬Changes e q

theorem settled_called (lawful : store.Lawful) {t u : T} {p q : Rtq} {report : Report}
    (settled : Settled store t q) (called : store.updateRtes t p = some (report, u)) :
    Settled store u q := by
  obtain ⟨e, found, unchanged⟩ := settled
  have local_ := updateRtes_local store lawful
  by_cases same : q.r = p.r
  · have here := local_.here t p report u called
    simp only [updateEntry, Option.some.injEq, Prod.mk.injEq, ← same, found] at here
    exact ⟨_, here.2.symm, (extends_update (updateRtes_update .single e p)).not_changes unchanged⟩
  · exact ⟨e, by rw [local_.others t p report u called q.r same, found], unchanged⟩

theorem not_changes_updated (found : Option Rtes) (q : Rtq) :
    ¬Changes (updateRtes .single found q).entry q := by
  cases found with
  | none =>
    exact not_changes_held (i := 0) (fun j less => absurd less (Fin.not_lt_zero j)) rfl
      fun better => Nat.lt_irrefl _ better.2
  | some e =>
    have update := updateRtes_update .single e q
    generalize updateRtes .single (some e) q = o at update
    cases update with
    | absent passed => exact not_changes_passed passed
    | kept i passed same worse => exact not_changes_held passed same worse
    | improved same better =>
      refine not_changes_held (i := 0) (fun j less => absurd less (Fin.not_lt_zero j)) ?_ ?_
      · rw [Rtes.rid_put, if_pos rfl]
      · rw [Rtes.metric_put, if_pos rfl]
        exact fun better => Nat.lt_irrefl _ better.2
    | added i passed empty new =>
      refine not_changes_held (i := i) ?_ ?_ ?_
      · intro j less
        change ((e.put i q).rid j).v ≠ q.rid.v ∧ ((e.put i q).rid j).v ≠ 0
        rw [Rtes.rid_put, if_neg (Fin.ne_of_lt less)]
        exact passed j less
      · exact (Rtes.rid_put e i i q).trans (if_pos rfl)
      · change ¬(i = 0 ∧ q.metric.v < ((e.put i q).metric i).v)
        rw [Rtes.metric_put, if_pos rfl]
        exact fun better => Nat.lt_irrefl _ better.2

theorem settled_own (lawful : store.Lawful) {t u : T} {q : Rtq} {report : Report}
    (called : store.updateRtes t q = some (report, u)) : Settled store u q := by
  have here := (updateRtes_local store lawful).here t q report u called
  simp only [updateEntry, Option.some.injEq, Prod.mk.injEq] at here
  exact ⟨_, here.2.symm, not_changes_updated _ q⟩

theorem called_settled {t : T} {q : Rtq} (settled : Settled store t q) :
    store.updateRtes t q = some (⟨false, []⟩, t) := by
  obtain ⟨e, found, unchanged⟩ := settled
  rw [Store.updateRtes, found]
  have update := updateRtes_update .single e q
  rcases changes_of_changed update with ⟨same, -⟩ | ⟨-, changes⟩
  · simp [same, Outcome.report]
  · exact absurd changes unchanged

theorem run_settled (lawful : store.Lawful) {t u : T} {qs : List Rtq} {reports : List Report}
    (ran : run store.updateRtes t qs = some (reports, u)) : ∀ q ∈ qs, Settled store u q := by
  induction qs generalizing t reports with
  | nil => simp
  | cons q qs ih =>
    obtain ⟨report, mid, rest, first, later, -⟩ := run_cons.mp ran
    intro p member
    rcases List.mem_cons.mp member with rfl | member
    · exact run_invariant (fun t => Settled store t p)
        (fun _ _ _ _ settled called => settled_called store lawful settled called)
        (settled_own store lawful first) later
    · exact ih later p member

theorem repeated_silent (lawful : store.Lawful) (t : T) (qs : List Rtq) :
    ∃ reports u, run store.updateRtes t qs = some (reports, u) ∧
      ∀ again, again ⊆ qs →
        run store.updateRtes u again = some (again.map fun _ => ⟨false, []⟩, u) := by
  obtain ⟨reports, u, ran⟩ := run_exists store t qs
  refine ⟨reports, u, ran, ?_⟩
  intro again known
  have settled := run_settled store lawful ran
  induction again with
  | nil => rfl
  | cons q rest ih =>
    rw [List.cons_subset] at known
    exact run_cons.mpr ⟨_, u, _, called_settled store (settled q known.1), ih known.2, rfl⟩

end Runs

def entries : Store (RteIdx → Option Rtes) where
  rlookup t := t
  rinsert t q := fun d => if d = q.r then some (.single q) else t d
  assign t r e := fun d => if d = r then some e else t d

theorem lawful_entries : entries.Lawful := ⟨fun _ _ _ => rfl, fun _ _ _ _ => rfl⟩

def twoDestinations : List Rtq :=
  [candidate 1 10, { candidate 1 20 with r := 1 }, candidate 2 5, candidate 1 7]

theorem table_exact_twoDestinations :
    ∃ reports u, run entries.updateRtes (fun _ => none) twoDestinations = some (reports, u) ∧
      ∀ d, After d (concerning Rtq.r d twoDestinations) (entries.rlookup u d) :=
  table_exact entries lawful_entries (fun _ => none) (fun _ => rfl) twoDestinations (by decide)

theorem reports_exact_twoDestinations :
    ∃ reports u report v, run entries.updateRtes (fun _ => none) twoDestinations =
        some (reports, u) ∧
      entries.updateRtes u (candidate 3 1) = some (report, v) ∧
      let mine := concerning Rtq.r (candidate 3 1).r twoDestinations
      (report.changed = true ↔ New mine (candidate 3 1) ∨ Better mine (candidate 3 1)) ∧
        (.tell ∈ report.calls ↔ mine = [] ∨ Better mine (candidate 3 1)) :=
  reports_exact entries lawful_entries (fun _ => none) (fun _ => rfl) twoDestinations
    (candidate 3 1) (by decide)

theorem repeated_silent_twoDestinations :
    ∃ reports u, run entries.updateRtes (fun _ => none) twoDestinations = some (reports, u) ∧
      ∀ again, again ⊆ twoDestinations →
        run entries.updateRtes u again = some (again.map fun _ => ⟨false, []⟩, u) :=
  repeated_silent entries lawful_entries (fun _ => none) twoDestinations

end Tabeld.RouteTable
