import Tabeld.Kdump.Compact
import Tabeld.Shared.BoundedPool
import Tabeld.Shared.Machine
import Tabeld.Shared.TaggedWord

set_option autoImplicit false

/-!
# The route pools

Each pool comes with the static counter of the function that fills it. A store past the end of a
pool has no defined result.
-/

namespace Tabeld.Kdump

open TaggedWord

variable (host : ByteOrder)

def testRoutes : Nat := 128

structure Pools where
  poolv4s : BoundedPool Rte4s testRoutes
  poolv4 : BoundedPool Rte4 testRoutes
  poolv6s : BoundedPool Rte6s testRoutes
  poolv6 : BoundedPool Rte6 testRoutes

def getroute (p : Pools) (r : RteIdx) : Option Rte :=
  let idx := (r >>> rteTagSize).toNat
  if r &&& 3 = isV6 then (p.poolv6.read idx).map fromRte6
  else if r &&& 3 = isV4 then (p.poolv4.read idx).map (fromRte4 host)
  else if r &&& 3 = isSs then (p.poolv6s.read idx).map fromRte6s
  else if r &&& 3 = isV4ss then (p.poolv4s.read idx).map (fromRte4s host)
  else none

def insaddrInto {α : Type} (pool : BoundedPool α testRoutes)
    (put : BoundedPool α testRoutes → Pools) (route : α) : Option (RteIdx × Pools) :=
  -- the body that the four functions below share; none of them sets a tag
  (pool.push route).map fun (ctr, next) => (BitVec.ofNat 32 ctr <<< rteTagSize, put next)

def insaddr4 (p : Pools) (route : Rte4) : Option (RteIdx × Pools) :=
  insaddrInto p.poolv4 (fun next => { p with poolv4 := next }) route

def insaddr4s (p : Pools) (route : Rte4s) : Option (RteIdx × Pools) :=
  insaddrInto p.poolv4s (fun next => { p with poolv4s := next }) route

def insaddr6 (p : Pools) (route : Rte6) : Option (RteIdx × Pools) :=
  insaddrInto p.poolv6 (fun next => { p with poolv6 := next }) route

def insaddr6s (p : Pools) (route : Rte6s) : Option (RteIdx × Pools) :=
  insaddrInto p.poolv6s (fun next => { p with poolv6s := next }) route

def insaddrGeneric (p : Pools) (route : Rte) : Option (RteIdx × Pools) :=
  let r := rteClassify host route
  let merge := fun (inserted : RteIdx × Pools) => (r ||| inserted.1, inserted.2)
  if r &&& 3 = isV6 then (insaddr6 p (rte2Rte6 route)).map merge
  else if r &&& 3 = isV4 then (insaddr4 p (rte2Rte4 host route)).map merge
  else if r &&& 3 = isSs then (insaddr6s p (rte2Rte6s route)).map merge
  else if r &&& 3 = isV4ss then (insaddr4s p (rte2Rte4s host route)).map merge
  else some (r, p)

namespace Pools

def used (p : Pools) : RouteClass → Nat
  | .v6 => p.poolv6.used
  | .v4 => p.poolv4.used
  | .ss => p.poolv6s.used
  | .v4ss => p.poolv4s.used

def lookup (p : Pools) (c : RouteClass) (slot : Nat) : Option Rte :=
  match c with
  | .v6 => (p.poolv6.read slot).map fromRte6
  | .v4 => (p.poolv4.read slot).map (fromRte4 host)
  | .ss => (p.poolv6s.read slot).map fromRte6s
  | .v4ss => (p.poolv4s.read slot).map (fromRte4s host)

def empty : Pools where
  poolv4s := .empty ⟨⟨[0, 0, 0, 0], rfl⟩, ⟨[0, 0, 0, 0], rfl⟩, 0, 0, 0, 0⟩
  poolv4 := .empty ⟨⟨[0, 0, 0, 0], rfl⟩, 0, 0, 0⟩
  poolv6s := .empty ⟨.zero, .zero, 0, 0, 0, 0⟩
  poolv6 := .empty ⟨.zero, 0, 0, 0⟩

theorem used_le (p : Pools) (c : RouteClass) : p.used c ≤ testRoutes := by
  cases c
  · exact p.poolv6.bound
  · exact p.poolv4.bound
  · exact p.poolv6s.bound
  · exact p.poolv4s.bound

theorem lookup_isSome (p : Pools) (c : RouteClass) (slot : Nat) :
    (p.lookup host c slot).isSome ↔ slot < testRoutes := by
  cases c <;> simp [lookup, BoundedPool.read_isSome]

end Pools

def classAt (r : RteIdx) : RouteClass :=
  if r &&& 3 = isV6 then .v6
  else if r &&& 3 = isV4 then .v4
  else if r &&& 3 = isSs then .ss
  else .v4ss

def slotAt (r : RteIdx) : Nat := (r >>> rteTagSize).toNat

theorem masked_tag (r : RteIdx) : r &&& 3 = (classAt r).tag := by
  have bits : (r &&& 3).toNat = r.toNat % 4 := Nat.and_two_pow_sub_one_eq_mod r.toNat 2
  have cases : r &&& 3 = isV6 ∨ r &&& 3 = isV4 ∨ r &&& 3 = isSs ∨ r &&& 3 = isV4ss := by
    simp only [← BitVec.toNat_inj, bits, isV6, isV4, isSs, isV4ss]
    simp
    omega
  rcases cases with tag | tag | tag | tag <;> rw [classAt, tag] <;> rfl

theorem getroute_eq (p : Pools) (r : RteIdx) :
    getroute host p r = p.lookup host (classAt r) (slotAt r) := by
  rw [getroute, masked_tag]
  cases classAt r <;> rfl

def indexOf (c : RouteClass) (slot : Nat) : RteIdx := pack rteTagSize c.tag slot

theorem classAt_indexOf (c : RouteClass) (slot : Nat) : classAt (indexOf c slot) = c := by
  have mask : indexOf c slot &&& 3 = c.tag := by
    rw [indexOf, pack_mask c.tag slot (by decide)]
    cases c <;> decide
  rw [← tag_injective, ← masked_tag, mask]

theorem slotAt_indexOf (c : RouteClass) (slot : Nat) (bound : slot < testRoutes) :
    slotAt (indexOf c slot) = slot := by
  apply pack_shift
  · cases c <;> decide
  · simp only [testRoutes, rteTagSize] at *
    omega

structure Stored (c : RouteClass) (content : Rte) (p q : Pools) : Prop where
  room : p.used c < testRoutes
  used_self : q.used c = p.used c + 1
  used_other : ∀ d ≠ c, q.used d = p.used d
  lookup_self : q.lookup host c (p.used c) = some content
  lookup_other : ∀ d slot, d ≠ c ∨ slot ≠ p.used c →
    q.lookup host d slot = p.lookup host d slot

theorem insaddrInto_cases {α : Type} {pool : BoundedPool α testRoutes}
    {put : BoundedPool α testRoutes → Pools} {route : α} {r : RteIdx} {q : Pools}
    (inserted : insaddrInto pool put route = some (r, q)) :
    ∃ next, pool.push route = some (pool.used, next) ∧
      r = BitVec.ofNat 32 pool.used <<< rteTagSize ∧ q = put next := by
  simp only [insaddrInto, Option.map_eq_some_iff, Prod.exists, Prod.mk.injEq] at inserted
  obtain ⟨ctr, next, pushed, rfl, rfl⟩ := inserted
  obtain ⟨rfl, -⟩ := BoundedPool.push_cases pushed
  exact ⟨next, pushed, rfl, rfl⟩

theorem insaddrInto_isSome {α : Type} (pool : BoundedPool α testRoutes)
    (put : BoundedPool α testRoutes → Pools) (route : α) :
    (insaddrInto pool put route).isSome ↔ pool.used < testRoutes := by
  rw [insaddrInto, Option.isSome_map, BoundedPool.push_isSome]

structure PoolOf {α : Type} (p : Pools) (c : RouteClass) (expand : α → Rte)
    (pool : BoundedPool α testRoutes) (put : BoundedPool α testRoutes → Pools) : Prop where
  used : p.used c = pool.used
  lookup : ∀ slot, p.lookup host c slot = (pool.read slot).map expand
  used_put : ∀ next, (put next).used c = next.used
  lookup_put : ∀ next slot, (put next).lookup host c slot = (next.read slot).map expand
  used_other : ∀ next, ∀ d ≠ c, (put next).used d = p.used d
  lookup_other : ∀ next, ∀ d ≠ c, ∀ slot, (put next).lookup host d slot = p.lookup host d slot

theorem insaddrInto_stored {α : Type} {p q : Pools} {c : RouteClass} {expand : α → Rte}
    {pool : BoundedPool α testRoutes} {put : BoundedPool α testRoutes → Pools} {route : α}
    {r : RteIdx} (own : PoolOf host p c expand pool put)
    (inserted : insaddrInto pool put route = some (r, q)) :
    r = BitVec.ofNat 32 (p.used c) <<< rteTagSize ∧ Stored host c (expand route) p q := by
  obtain ⟨next, pushed, rfl, rfl⟩ := insaddrInto_cases inserted
  obtain ⟨-, room, used, content, others⟩ := BoundedPool.push_cases pushed
  refine ⟨by rw [own.used], ?_, ?_, own.used_other next, ?_, ?_⟩
  · rwa [own.used]
  · rw [own.used_put, used, own.used]
  · rw [own.used, own.lookup_put, content, Option.map_some]
  · intro d slot other
    by_cases same : d = c
    · have different : slot ≠ pool.used := by simpa [same, own.used] using other
      rw [same, own.lookup_put, others slot different, own.lookup]
    · exact own.lookup_other next d same slot

theorem poolv6_own (p : Pools) :
    PoolOf host p .v6 fromRte6 p.poolv6 (fun next => { p with poolv6 := next }) where
  used := rfl
  lookup _ := rfl
  used_put _ := rfl
  lookup_put _ _ := rfl
  used_other _ d _ := by cases d <;> trivial
  lookup_other _ d _ _ := by cases d <;> trivial

theorem poolv4_own (p : Pools) :
    PoolOf host p .v4 (fromRte4 host) p.poolv4 (fun next => { p with poolv4 := next }) where
  used := rfl
  lookup _ := rfl
  used_put _ := rfl
  lookup_put _ _ := rfl
  used_other _ d _ := by cases d <;> trivial
  lookup_other _ d _ _ := by cases d <;> trivial

theorem poolv6s_own (p : Pools) :
    PoolOf host p .ss fromRte6s p.poolv6s (fun next => { p with poolv6s := next }) where
  used := rfl
  lookup _ := rfl
  used_put _ := rfl
  lookup_put _ _ := rfl
  used_other _ d _ := by cases d <;> trivial
  lookup_other _ d _ _ := by cases d <;> trivial

theorem poolv4s_own (p : Pools) :
    PoolOf host p .v4ss (fromRte4s host) p.poolv4s (fun next => { p with poolv4s := next }) where
  used := rfl
  lookup _ := rfl
  used_put _ := rfl
  lookup_put _ _ := rfl
  used_other _ d _ := by cases d <;> trivial
  lookup_other _ d _ _ := by cases d <;> trivial

theorem insaddr6_stored {p q : Pools} {route : Rte6} {r : RteIdx}
    (inserted : insaddr6 p route = some (r, q)) :
    r = BitVec.ofNat 32 (p.used .v6) <<< rteTagSize ∧
      Stored host .v6 (fromRte6 route) p q :=
  insaddrInto_stored host (poolv6_own host p) inserted

theorem insaddr4_stored {p q : Pools} {route : Rte4} {r : RteIdx}
    (inserted : insaddr4 p route = some (r, q)) :
    r = BitVec.ofNat 32 (p.used .v4) <<< rteTagSize ∧
      Stored host .v4 (fromRte4 host route) p q :=
  insaddrInto_stored host (poolv4_own host p) inserted

theorem insaddr6s_stored {p q : Pools} {route : Rte6s} {r : RteIdx}
    (inserted : insaddr6s p route = some (r, q)) :
    r = BitVec.ofNat 32 (p.used .ss) <<< rteTagSize ∧
      Stored host .ss (fromRte6s route) p q :=
  insaddrInto_stored host (poolv6s_own host p) inserted

theorem insaddr4s_stored {p q : Pools} {route : Rte4s} {r : RteIdx}
    (inserted : insaddr4s p route = some (r, q)) :
    r = BitVec.ofNat 32 (p.used .v4ss) <<< rteTagSize ∧
      Stored host .v4ss (fromRte4s host route) p q :=
  insaddrInto_stored host (poolv4s_own host p) inserted

theorem insaddrGeneric_eq (p : Pools) (route : Rte) :
    insaddrGeneric host p route =
      (match classOf route with
        | .v6 => insaddr6 p (rte2Rte6 route)
        | .v4 => insaddr4 p (rte2Rte4 host route)
        | .ss => insaddr6s p (rte2Rte6s route)
        | .v4ss => insaddr4s p (rte2Rte4s host route)).map
        fun (inserted : RteIdx × Pools) => ((classOf route).tag ||| inserted.1, inserted.2) := by
  rw [insaddrGeneric, rteClassify_eq]
  cases classOf route <;> rfl

theorem insaddrGeneric_isSome (p : Pools) (route : Rte) :
    (insaddrGeneric host p route).isSome ↔ p.used (classOf route) < testRoutes := by
  rw [insaddrGeneric_eq, Option.isSome_map]
  cases classOf route <;> exact insaddrInto_isSome _ _ _

theorem insaddrGeneric_stored {p q : Pools} {route : Rte} {r : RteIdx}
    (inserted : insaddrGeneric host p route = some (r, q)) :
    r = indexOf (classOf route) (p.used (classOf route)) ∧
      Stored host (classOf route) (normalize host route) p q := by
  simp only [insaddrGeneric_eq, Option.map_eq_some_iff, Prod.exists, Prod.mk.injEq] at inserted
  obtain ⟨slot, _, compact, rfl, rfl⟩ := inserted
  unfold normalize indexOf pack
  cases class_ : classOf route <;> simp only [class_] at compact
  case v6 =>
    obtain ⟨rfl, stored⟩ := insaddr6_stored host compact
    exact ⟨rfl, stored⟩
  case v4 =>
    obtain ⟨rfl, stored⟩ := insaddr4_stored host compact
    exact ⟨rfl, stored⟩
  case ss =>
    obtain ⟨rfl, stored⟩ := insaddr6s_stored host compact
    exact ⟨rfl, stored⟩
  case v4ss =>
    obtain ⟨rfl, stored⟩ := insaddr4s_stored host compact
    exact ⟨rfl, stored⟩

theorem getroute_inserted {p q : Pools} {route : Rte} {r : RteIdx}
    (inserted : insaddrGeneric host p route = some (r, q)) :
    getroute host q r = some (normalize host route) := by
  obtain ⟨rfl, stored⟩ := insaddrGeneric_stored host inserted
  rw [getroute_eq, classAt_indexOf, slotAt_indexOf _ _ stored.room, stored.lookup_self]

theorem getroute_insaddrGeneric_iff (p : Pools) (route : Rte)
    (room : p.used (classOf route) < testRoutes) :
    ∃ r q, insaddrGeneric host p route = some (r, q) ∧
      (getroute host q r = some route ↔ Lossless route) := by
  obtain ⟨⟨r, q⟩, inserted⟩ := Option.isSome_iff_exists.mp
    ((insaddrGeneric_isSome host p route).mpr room)
  refine ⟨r, q, inserted, ?_⟩
  rw [getroute_inserted host inserted, Option.some.injEq, normalize_eq_self]

def v4s : Rte where
  -- as in kdump.c's main
  src := ⟨[0, 0, 0, 0, 0, 0, 0, 0, 0, 0, 0xFF, 0xFF, 240, 0, 0, 0], rfl⟩
  dst := ⟨[0, 0, 0, 0, 0, 0, 0, 0, 0, 0, 0xFF, 0xFF, 255, 255, 255, 254], rfl⟩
  srcPlen := 96 + 4
  dstPlen := 96 + 32

def v4 : Rte where
  src := .zero
  dst := ⟨[0, 0, 0, 0, 0, 0, 0, 0, 0, 0, 0xFF, 0xFF, 255, 255, 255, 254], rfl⟩
  srcPlen := 0
  dstPlen := 128

def v6 : Rte where
  src := .zero
  dst := ⟨[0xFC, 0, 0, 0, 0, 0, 0, 0, 0, 0, 0, 0, 0, 0, 0, 1], rfl⟩
  srcPlen := 0
  dstPlen := 7

def v6s : Rte where
  src := ⟨[0xFD, 0, 0, 0, 0, 0, 0, 0, 0, 0, 0, 0, 0, 0, 0, 0], rfl⟩
  dst := ⟨[0xFD, 0x99, 0x99, 0x99, 0, 0, 0, 0, 0, 0, 0, 0, 0, 0, 0, 0], rfl⟩
  srcPlen := 64
  dstPlen := 64

theorem getroute_insaddrGeneric_v4s :
    ∃ r q, insaddrGeneric .little .empty v4s = some (r, q) ∧
      (getroute .little q r = some v4s ↔ Lossless v4s) :=
  getroute_insaddrGeneric_iff .little .empty v4s (by decide)

inductive Overload where
  -- the types that the macro insaddr selects by; its default is rte
  | rte4 (x : Rte4)
  | rte4s (x : Rte4s)
  | rte6 (x : Rte6)
  | rte6s (x : Rte6s)
  | rte (x : Rte)

def insaddr (p : Pools) : Overload → Option (RteIdx × Pools)
  | .rte4 x => insaddr4 p x
  | .rte4s x => insaddr4s p x
  | .rte6 x => insaddr6 p x
  | .rte6s x => insaddr6s p x
  | .rte x => insaddrGeneric host p x

def Overload.poolClass : Overload → RouteClass
  | .rte4 _ => .v4
  | .rte4s _ => .v4ss
  | .rte6 _ => .v6
  | .rte6s _ => .ss
  | .rte x => classOf x

def Overload.expand : Overload → Rte
  | .rte4 x => fromRte4 host x
  | .rte4s x => fromRte4s host x
  | .rte6 x => fromRte6 x
  | .rte6s x => fromRte6s x
  | .rte x => x

def Resolves (p : Pools) (x : Overload) : Prop :=
  ∃ r q, insaddr host p x = some (r, q) ∧ getroute host q r = some (x.expand host)

/-- Where an index without a tag still leads to the right route: the typed overloads return
the bare slot number, which `getroute` looks up in `poolv6`. -/
def BareIndexAgrees (p : Pools) : Overload → Prop
  | .rte4 x => ∃ old, p.poolv6.read p.poolv4.used = some old ∧
      old.dst = toV6 x.dst ∧ old.dstPlen = x.dstPlen + 96
  | .rte4s _ => False
  | .rte6 _ => True
  | .rte6s x => x.src = .zero ∧ x.srcPlen = 0 ∧
      ∃ old, p.poolv6.read p.poolv6s.used = some old ∧
        old.dst = x.dst ∧ old.dstPlen = x.dstPlen
  | .rte x => Lossless x

theorem insaddr_isSome (p : Pools) (x : Overload) :
    (insaddr host p x).isSome ↔ p.used x.poolClass < testRoutes := by
  cases x with
  | rte4 x =>
    rw [insaddr, insaddr4, insaddrInto_isSome]
    rfl
  | rte4s x =>
    rw [insaddr, insaddr4s, insaddrInto_isSome]
    rfl
  | rte6 x =>
    rw [insaddr, insaddr6, insaddrInto_isSome]
    rfl
  | rte6s x =>
    rw [insaddr, insaddr6s, insaddrInto_isSome]
    rfl
  | rte x => exact insaddrGeneric_isSome host p x

theorem insaddr_typed {p q : Pools} {x : Overload} {r : RteIdx}
    (typed : ∀ y, x ≠ .rte y) (inserted : insaddr host p x = some (r, q)) :
    r = indexOf .v6 (p.used x.poolClass) ∧ Stored host x.poolClass (x.expand host) p q := by
  have bare (slot : Nat) : BitVec.ofNat 32 slot <<< rteTagSize = indexOf .v6 slot := by
    simp [indexOf, pack, RouteClass.tag, isV6]
  cases x with
  | rte4 x => exact bare (p.used .v4) ▸ insaddr4_stored host inserted
  | rte4s x => exact bare (p.used .v4ss) ▸ insaddr4s_stored host inserted
  | rte6 x => exact bare (p.used .v6) ▸ insaddr6_stored host inserted
  | rte6s x => exact bare (p.used .ss) ▸ insaddr6s_stored host inserted
  | rte x => exact absurd rfl (typed x)

theorem getroute_typed {p q : Pools} {x : Overload} {r : RteIdx}
    (typed : ∀ y, x ≠ .rte y) (inserted : insaddr host p x = some (r, q)) :
    getroute host q r = q.lookup host .v6 (p.used x.poolClass) := by
  obtain ⟨rfl, stored⟩ := insaddr_typed host typed inserted
  rw [getroute_eq, classAt_indexOf, slotAt_indexOf _ _ stored.room]

theorem getroute_foreign {p q : Pools} {x : Overload} {r : RteIdx}
    (typed : ∀ y, x ≠ .rte y) (foreign : .v6 ≠ x.poolClass)
    (inserted : insaddr host p x = some (r, q)) :
    getroute host q r = (p.poolv6.read (p.used x.poolClass)).map fromRte6 := by
  obtain ⟨-, stored⟩ := insaddr_typed host typed inserted
  rw [getroute_typed host typed inserted, stored.lookup_other _ _ (Or.inl foreign)]
  rfl

theorem resolves_iff {p q : Pools} {x : Overload} {r : RteIdx}
    (inserted : insaddr host p x = some (r, q)) :
    Resolves host p x ↔ getroute host q r = some (x.expand host) := by
  constructor
  · rintro ⟨_, _, same, resolved⟩
    rw [inserted] at same
    cases same
    exact resolved
  · exact fun resolved => ⟨r, q, inserted, resolved⟩

theorem resolves_rte4 (p : Pools) (x : Rte4) (room : p.poolv4.used < testRoutes) :
    Resolves host p (.rte4 x) ↔ BareIndexAgrees p (.rte4 x) := by
  obtain ⟨⟨r, q⟩, inserted⟩ := Option.isSome_iff_exists.mp
    ((insaddr_isSome host p (.rte4 x)).mpr room)
  have foreign := getroute_foreign host (by simp) (by simp [Overload.poolClass]) inserted
  rw [resolves_iff host inserted, foreign]
  simp only [Option.map_eq_some_iff, Overload.expand, fromRte4_eq, fromRte6, Rte.mk.injEq,
    true_and]
  rfl

theorem resolves_rte4s (p : Pools) (x : Rte4s) (room : p.poolv4s.used < testRoutes) :
    ¬Resolves host p (.rte4s x) := by
  obtain ⟨⟨r, q⟩, inserted⟩ := Option.isSome_iff_exists.mp
    ((insaddr_isSome host p (.rte4s x)).mpr room)
  have foreign := getroute_foreign host (by simp) (by simp [Overload.poolClass]) inserted
  rw [resolves_iff host inserted, foreign]
  simp only [Option.map_eq_some_iff, Overload.expand, fromRte4s_eq, fromRte6, Rte.mk.injEq]
  -- `poolv6` has no source, but an IPv4 source is never the zero address
  rintro ⟨_, _, source, _⟩
  exact toV6_ne_zero x.src source.symm

theorem resolves_rte6s (p : Pools) (x : Rte6s) (room : p.poolv6s.used < testRoutes) :
    Resolves host p (.rte6s x) ↔ BareIndexAgrees p (.rte6s x) := by
  obtain ⟨⟨r, q⟩, inserted⟩ := Option.isSome_iff_exists.mp
    ((insaddr_isSome host p (.rte6s x)).mpr room)
  have foreign := getroute_foreign host (by simp) (by simp [Overload.poolClass]) inserted
  rw [resolves_iff host inserted, foreign]
  simp only [Option.map_eq_some_iff, Overload.expand, fromRte6s, fromRte6, Rte.mk.injEq,
    BareIndexAgrees, Overload.poolClass, Pools.used]
  constructor
  · rintro ⟨old, read, source, destination, length, plen⟩
    exact ⟨source.symm, length.symm, old, read, destination, plen⟩
  · rintro ⟨source, length, old, read, destination, plen⟩
    exact ⟨old, read, source.symm, destination, length.symm, plen⟩

theorem insaddr_resolves_iff (p : Pools) (x : Overload)
    (room : p.used x.poolClass < testRoutes) :
    Resolves host p x ↔ BareIndexAgrees p x := by
  cases x with
  | rte4 x => exact resolves_rte4 host p x room
  | rte4s x => exact iff_of_false (resolves_rte4s host p x room) id
  | rte6s x => exact resolves_rte6s host p x room
  | rte6 x =>
    obtain ⟨⟨r, q⟩, inserted⟩ := Option.isSome_iff_exists.mp
      ((insaddr_isSome host p (.rte6 x)).mpr room)
    obtain ⟨-, stored⟩ := insaddr_typed host (by simp) inserted
    rw [resolves_iff host inserted, getroute_typed host (by simp) inserted]
    exact iff_of_true stored.lookup_self trivial
  | rte x =>
    obtain ⟨⟨r, q⟩, inserted⟩ := Option.isSome_iff_exists.mp
      ((insaddr_isSome host p (.rte x)).mpr room)
    rw [resolves_iff host inserted, getroute_inserted host inserted, Option.some.injEq]
    exact normalize_eq_self host x

def loopback4 : Rte4 := ⟨⟨[127, 0, 0, 1], rfl⟩, 8, 0, 0⟩

theorem insaddr_resolves_loopback4 :
    Resolves .little .empty (.rte4 loopback4) ↔ BareIndexAgrees .empty (.rte4 loopback4) :=
  insaddr_resolves_iff .little .empty (.rte4 loopback4) (by decide)

theorem insaddr_loses_loopback4 :
    Pools.empty.used (Overload.rte4 loopback4).poolClass < testRoutes ∧
      ¬Resolves .little .empty (.rte4 loopback4) := by
  refine ⟨by decide, ?_⟩
  rw [resolves_rte4 .little .empty loopback4 (by decide)]
  rintro ⟨old, read, destination, -⟩
  rw [BoundedPool.read_empty read] at destination
  exact toV6_ne_zero loopback4.dst destination.symm

end Tabeld.Kdump
