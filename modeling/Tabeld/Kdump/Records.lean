import Tabeld.Kdump.Pools

set_option autoImplicit false

namespace Tabeld.Kdump

variable (host : ByteOrder)

def record (p : Pools) (r : RteIdx) : Option Overload :=
  match classAt r with
  | .v6 => (p.poolv6.read (slotAt r)).map .rte6
  | .v4 => (p.poolv4.read (slotAt r)).map .rte4
  | .ss => (p.poolv6s.read (slotAt r)).map .rte6s
  | .v4ss => (p.poolv4s.read (slotAt r)).map .rte4s

def compact (route : Rte) : Overload :=
  match classOf route with
  | .v6 => .rte6 (rte2Rte6 route)
  | .v4 => .rte4 (rte2Rte4 host route)
  | .ss => .rte6s (rte2Rte6s route)
  | .v4ss => .rte4s (rte2Rte4s host route)

theorem insaddrInto_read {α : Type} {pool : BoundedPool α testRoutes}
    {put : BoundedPool α testRoutes → Pools} {route : α} {r : RteIdx} {q : Pools}
    (inserted : insaddrInto pool put route = some (r, q)) :
    ∃ next, q = put next ∧ next.read pool.used = some route := by
  obtain ⟨next, pushed, -, rfl⟩ := insaddrInto_cases inserted
  obtain ⟨-, -, -, content, -⟩ := BoundedPool.push_cases pushed
  exact ⟨next, rfl, content⟩

theorem inserted_class {p q : Pools} {route : Rte} {r : RteIdx}
    (inserted : insaddrGeneric host p route = some (r, q)) :
    classAt r = classOf route ∧ slotAt r = p.used (classOf route) := by
  obtain ⟨rfl, stored⟩ := insaddrGeneric_stored host inserted
  exact ⟨classAt_indexOf _ _, slotAt_indexOf _ _ stored.room⟩

theorem record_inserted {p q : Pools} {route : Rte} {r : RteIdx}
    (inserted : insaddrGeneric host p route = some (r, q)) :
    record q r = some (compact host route) := by
  obtain ⟨class_, slot⟩ := inserted_class host inserted
  simp only [insaddrGeneric_eq, Option.map_eq_some_iff, Prod.exists, Prod.mk.injEq] at inserted
  obtain ⟨bare, _, stored, -, rfl⟩ := inserted
  rw [record, class_, slot, compact]
  cases known : classOf route <;> simp only [known] at stored ⊢
  case v6 =>
    obtain ⟨next, rfl, content⟩ := insaddrInto_read stored
    exact congrArg (Option.map Overload.rte6) content
  case v4 =>
    obtain ⟨next, rfl, content⟩ := insaddrInto_read stored
    exact congrArg (Option.map Overload.rte4) content
  case ss =>
    obtain ⟨next, rfl, content⟩ := insaddrInto_read stored
    exact congrArg (Option.map Overload.rte6s) content
  case v4ss =>
    obtain ⟨next, rfl, content⟩ := insaddrInto_read stored
    exact congrArg (Option.map Overload.rte4s) content

theorem compact_normalize (route : Rte) :
    compact host (normalize host route) = compact host route := by
  have stored := classOf_normalize host route
  unfold compact
  rw [stored]
  by_cases mapped : V4Mapped route.dst <;> by_cases plain : route.src = .zero <;>
    simp [classOf, normalize_eq, rte2Rte6, rte2Rte6s, rte2Rte4_eq, rte2Rte4s_eq, mapped, plain]

theorem insaddrGeneric_again (p : Pools) (route : Rte)
    (room : p.used (classOf route) + 1 < testRoutes) :
    ∃ r q n r' q' stored,
      insaddrGeneric host p route = some (r, q) ∧ getroute host q r = some n ∧
      rteClassify host n = rteClassify host route ∧
      insaddrGeneric host q n = some (r', q') ∧ classAt r' = classAt r ∧
      record q r = some stored ∧ record q' r' = some stored ∧ getroute host q' r' = some n := by
  obtain ⟨⟨r, q⟩, first⟩ := Option.isSome_iff_exists.mp
    ((insaddrGeneric_isSome host p route).mpr (by omega))
  obtain ⟨-, stored⟩ := insaddrGeneric_stored host first
  have class_ := classOf_normalize host route
  have second : (insaddrGeneric host q (normalize host route)).isSome := by
    rw [insaddrGeneric_isSome, class_, stored.used_self]
    exact room
  obtain ⟨⟨r', q'⟩, second⟩ := Option.isSome_iff_exists.mp second
  have fixed : normalize host (normalize host route) = normalize host route :=
    (normalize_eq_self host _).mpr (lossless_normalize host route)
  refine ⟨r, q, normalize host route, r', q', compact host route, first,
    getroute_inserted host first, ?_, second, ?_, record_inserted host first, ?_, ?_⟩
  · rw [rteClassify_eq, rteClassify_eq, class_]
  · rw [(inserted_class host first).1, (inserted_class host second).1, class_]
  · rw [record_inserted host second, compact_normalize]
  · rw [getroute_inserted host second, fixed]

def foreignSource : Rte where
  -- an IPv6 source on an IPv4 destination: twelve of its bytes are lost
  src := ⟨[0x20, 0x01, 0x0D, 0xB8, 0, 0, 0, 0, 0, 0, 0, 0, 0, 0, 0, 1], rfl⟩
  dst := ⟨[0, 0, 0, 0, 0, 0, 0, 0, 0, 0, 0xFF, 0xFF, 192, 168, 0, 0], rfl⟩
  srcPlen := 128
  dstPlen := 8

theorem insaddrGeneric_again_foreignSource :
    ∃ r q n r' q' stored,
      insaddrGeneric .little .empty foreignSource = some (r, q) ∧
      getroute .little q r = some n ∧
      rteClassify .little n = rteClassify .little foreignSource ∧
      insaddrGeneric .little q n = some (r', q') ∧ classAt r' = classAt r ∧
      record q r = some stored ∧ record q' r' = some stored ∧
      getroute .little q' r' = some n :=
  insaddrGeneric_again .little .empty foreignSource (by decide)

end Tabeld.Kdump
