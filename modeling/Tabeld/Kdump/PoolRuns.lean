import Tabeld.Kdump.Pools

set_option autoImplicit false

namespace Tabeld.Kdump

open Machine

variable (host : ByteOrder)

def issued (p : Pools) (r : RteIdx) : Option Rte :=
  -- `getroute` also reads slots that no index has been handed out for
  if slotAt r < p.used (classAt r) then getroute host p r else none

theorem getroute_of_issued {p : Pools} {r : RteIdx} {route : Rte}
    (known : issued host p r = some route) : getroute host p r = some route := by
  unfold issued at known
  split at known
  · exact known
  · contradiction

theorem issued_inserted {p q : Pools} {route : Rte} {r : RteIdx}
    (inserted : insaddrGeneric host p route = some (r, q)) :
    issued host p r = none ∧ issued host q r = some (normalize host route) := by
  have read := getroute_inserted host inserted
  obtain ⟨rfl, stored⟩ := insaddrGeneric_stored host inserted
  have slot := slotAt_indexOf (classOf route) _ stored.room
  unfold issued
  rw [read, classAt_indexOf, slot, stored.used_self]
  simp

theorem issued_kept {p q : Pools} {route : Rte} {r : RteIdx}
    (inserted : insaddrGeneric host p route = some (r, q)) (other : RteIdx) (old : Rte)
    (known : issued host p other = some old) : issued host q other = some old := by
  obtain ⟨-, stored⟩ := insaddrGeneric_stored host inserted
  unfold issued at known ⊢
  rw [getroute_eq] at known ⊢
  split at known
  next before =>
    -- in the same class the new slot is behind every issued one; no other class is touched
    by_cases same : classAt other = classOf route
    · have later : slotAt other < q.used (classAt other) := by
        rw [same] at before ⊢
        rw [stored.used_self]
        omega
      have different : slotAt other ≠ p.used (classOf route) := by
        rw [same] at before
        omega
      rw [if_pos later, stored.lookup_other _ _ (Or.inr different), known]
    · have later : slotAt other < q.used (classAt other) := by
        rwa [stored.used_other _ same]
      rw [if_pos later, stored.lookup_other _ _ (Or.inl same), known]
  next => contradiction

theorem insaddrGeneric_allocates : Allocates (insaddrGeneric host) (issued host) where
  fresh _ _ _ _ inserted := (issued_inserted host inserted).1
  filled _ _ _ _ inserted := by rw [(issued_inserted host inserted).2]; rfl
  kept _ _ _ _ inserted := issued_kept host inserted

def ofClass (c : RouteClass) (routes : List Rte) : Nat :=
  routes.countP fun route => classOf route = c

theorem run_isSome_iff (p : Pools) (routes : List Rte) :
    (run (insaddrGeneric host) p routes).isSome ↔
      ∀ c, p.used c + ofClass c routes ≤ testRoutes := by
  induction routes generalizing p with
  | nil => simp [ofClass, p.used_le]
  | cons route routes ih =>
    have room := insaddrGeneric_isSome host p route
    cases inserted : insaddrGeneric host p route with
    | none =>
      rw [inserted] at room
      simp only [run, inserted, Option.isSome_none, Bool.false_eq_true, false_iff] at room ⊢
      intro bounded
      have bound := bounded (classOf route)
      simp only [ofClass, List.countP_cons, decide_true, if_true] at bound
      omega
    | some result =>
      obtain ⟨r, q⟩ := result
      obtain ⟨-, stored⟩ := insaddrGeneric_stored host inserted
      have count (c : RouteClass) :
          q.used c + ofClass c routes = p.used c + ofClass c (route :: routes) := by
        by_cases same : classOf route = c
        · subst same
          simp only [ofClass, List.countP_cons, stored.used_self, decide_true, if_true]
          omega
        · simp [ofClass, same, stored.used_other c (Ne.symm same)]
      simp only [run, inserted, Option.isSome_map, ih q, count]

def flagBits : List RteIdx := [isMartian, isLl, isDefault, isFiltered, isEnabled]

def orFlags (r : RteIdx) (flags : List RteIdx) : RteIdx := flags.foldl (· ||| ·) r

theorem flag_low {flag : RteIdx} (member : flag ∈ flagBits) :
    flag.toNat < 2 ^ rteTagSize ∧ flag &&& 3 = 0 := by
  simp only [flagBits, List.mem_cons, List.not_mem_nil, or_false] at member
  rcases member with rfl | rfl | rfl | rfl | rfl <;> decide

theorem getroute_flags (p : Pools) (r : RteIdx) (flags : List RteIdx)
    (members : ∀ flag ∈ flags, flag ∈ flagBits) :
    getroute host p (orFlags r flags) = getroute host p r := by
  induction flags generalizing r with
  | nil => rfl
  | cons flag flags ih =>
    have low := flag_low (members flag (by simp))
    have tag := TaggedWord.mask_or_disjoint r low.2
    have slot := TaggedWord.shift_or_low r low.1
    calc getroute host p (orFlags r (flag :: flags))
        = getroute host p (orFlags (r ||| flag) flags) := rfl
      _ = getroute host p (r ||| flag) :=
          ih (r ||| flag) fun other member => members other (List.mem_cons_of_mem _ member)
      _ = getroute host p r := by simp only [getroute, tag, slot]

/-- Every insertion of the run gets an index of its own, which leads to the same route at every
later point and whatever flags are set in it. -/
structure StableIndices (p : Pools) (routes : List Rte) : Prop where
  distinct : ∃ rs last, run (insaddrGeneric host) p routes = some (rs, last) ∧
    rs.length = routes.length ∧ rs.Nodup
  kept : ∀ before route after, before ++ route :: after <+: routes →
    ∃ rs p₁ r p₂ rs' p₃ stored,
      run (insaddrGeneric host) p before = some (rs, p₁) ∧
      insaddrGeneric host p₁ route = some (r, p₂) ∧
      run (insaddrGeneric host) p₂ after = some (rs', p₃) ∧
      getroute host p₂ r = some stored ∧ getroute host p₃ r = some stored
  flags : ∀ q r flags, (∀ flag ∈ flags, flag ∈ flagBits) →
    getroute host q (orFlags r flags) = getroute host q r

theorem indices_stable (p : Pools) (routes : List Rte) (zero : ∀ c, p.used c = 0)
    (few : ∀ c, ofClass c routes ≤ testRoutes) : StableIndices host p routes := by
  have fits : ∀ c, p.used c + ofClass c routes ≤ testRoutes := by
    intro c
    rw [zero c, Nat.zero_add]
    exact few c
  obtain ⟨⟨rs, last⟩, ran⟩ := Option.isSome_iff_exists.mp
    ((run_isSome_iff host p routes).mpr fits)
  refine ⟨⟨rs, last, ran, run_length ran, ?_⟩, ?_, getroute_flags host⟩
  · exact ((insaddrGeneric_allocates host).run_nodup ran).1
  · rintro before route after ⟨rest, rfl⟩
    obtain ⟨_, p₃, _, left, -, -⟩ := run_append.mp ran
    obtain ⟨rs, p₁, _, first, right, -⟩ := run_append.mp left
    obtain ⟨r, p₂, rs', inserted, later, -⟩ := run_cons.mp right
    have known := (issued_inserted host inserted).2
    have kept := (insaddrGeneric_allocates host).run_kept later known
    exact ⟨rs, p₁, r, p₂, rs', p₃, normalize host route, first, inserted, later,
      getroute_of_issued host known, getroute_of_issued host kept⟩

theorem indices_stable_mixed : StableIndices .little .empty [v4s, v6, v4s, v6s, v4, v6] :=
  indices_stable .little .empty [v4s, v6, v4s, v6s, v4, v6] (by intro c; cases c <;> rfl)
    (by intro c; cases c <;> decide)

def PoolSafe (routes : List Rte) : Prop :=
  ∃ rs last, run (insaddrGeneric host) .empty routes = some (rs, last) ∧
    ∀ r ∈ rs, slotAt r < testRoutes ∧ (getroute host last r).isSome

theorem not_poolSafe_of_full (c : RouteClass) {routes : List Rte}
    (many : testRoutes < ofClass c routes) : ¬PoolSafe host routes := by
  rintro ⟨rs, last, ran, -⟩
  have fits := (run_isSome_iff host .empty routes).mp (by rw [ran]; rfl) c
  omega

theorem poolSafe_iff (routes : List Rte) :
    PoolSafe host routes ↔ ∀ c, ofClass c routes ≤ testRoutes := by
  constructor
  · intro safe c
    by_contra many
    exact not_poolSafe_of_full host c (Nat.lt_of_not_le many) safe
  · intro few
    have fits : ∀ c, Pools.empty.used c + ofClass c routes ≤ testRoutes := by
      intro c
      have none : Pools.empty.used c = 0 := by cases c <;> rfl
      rw [none, Nat.zero_add]
      exact few c
    obtain ⟨⟨rs, last⟩, ran⟩ := Option.isSome_iff_exists.mp
      ((run_isSome_iff host .empty routes).mpr fits)
    refine ⟨rs, last, ran, ?_⟩
    intro r member
    obtain ⟨route, known⟩ := Option.isSome_iff_exists.mp
      (((insaddrGeneric_allocates host).run_nodup ran).2 r member).2
    have read := getroute_of_issued host known
    refine ⟨?_, by rw [read]; rfl⟩
    rw [getroute_eq] at read
    exact (Pools.lookup_isSome host last (classAt r) (slotAt r)).mp (by rw [read]; rfl)

theorem not_poolSafe_v4s : ¬PoolSafe .little (List.replicate 129 v4s) := by
  apply not_poolSafe_of_full .little .v4ss
  have all : ofClass .v4ss (List.replicate 129 v4s) = 129 := by
    simp [ofClass, show classOf v4s = .v4ss by decide]
  rw [all]
  decide

end Tabeld.Kdump
