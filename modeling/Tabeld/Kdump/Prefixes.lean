import Tabeld.Kdump.Records
import Tabeld.Util

set_option autoImplicit false

namespace Tabeld.Kdump

open Util

variable (host : ByteOrder)

structure Prefixes (route : Rte) : Prop where
  src : NoStrayBits route.src route.srcPlen.toNat
  dst : NoStrayBits route.dst route.dstPlen.toNat
  srcPlen : route.srcPlen.toNat ≤ 128
  dstPlen : route.dstPlen.toNat ≤ 128

instance (route : Rte) : Decidable (Prefixes route) :=
  decidable_of_iff
    (NoStrayBits route.src route.srcPlen.toNat ∧ NoStrayBits route.dst route.dstPlen.toNat ∧
      route.srcPlen.toNat ≤ 128 ∧ route.dstPlen.toNat ≤ 128)
    ⟨fun h => ⟨h.1, h.2.1, h.2.2.1, h.2.2.2⟩, fun h => ⟨h.src, h.dst, h.srcPlen, h.dstPlen⟩⟩

def SameFamily (route : Rte) : Prop :=
  route.src = .zero ∧ route.srcPlen = 0 ∨ (V4Mapped route.src ↔ V4Mapped route.dst)

instance (route : Rte) : Decidable (SameFamily route) :=
  inferInstanceAs (Decidable (_ ∧ _ ∨ (_ ↔ _)))

theorem exists_inserted (route : Rte) :
    ∃ p r q, insaddrGeneric host p route = some (r, q) := by
  have room : (insaddrGeneric host .empty route).isSome := by
    rw [insaddrGeneric_isSome]
    cases classOf route <;> decide
  obtain ⟨⟨r, q⟩, inserted⟩ := Option.isSome_iff_exists.mp room
  exact ⟨.empty, r, q, inserted⟩

def RouteClass.Specific (c : RouteClass) : Prop := c = .ss ∨ c = .v4ss

instance (c : RouteClass) : Decidable c.Specific := inferInstanceAs (Decidable (_ ∨ _))

theorem specific_classOf (route : Rte) : (classOf route).Specific ↔ route.src ≠ .zero := by
  by_cases mapped : V4Mapped route.dst <;> by_cases plain : route.src = .zero <;>
    simp [classOf, RouteClass.Specific, mapped, plain]

theorem specific_tag (c : RouteClass) : c.tag &&& isSs ≠ 0 ↔ c.Specific := by
  cases c <;> decide

structure FollowsDefault (route : Rte) : Prop where
  bit : rteClassify host route &&& isSs ≠ 0 ↔
    Util.isDefault route.src route.srcPlen.toNat = false
  pool : ∀ p r q, insaddrGeneric host p route = some (r, q) →
    ((classAt r).Specific ↔ Util.isDefault route.src route.srcPlen.toNat = false)

theorem followsDefault_src (route : Rte) : FollowsDefault host route ↔
    (route.src ≠ .zero ↔ Util.isDefault route.src route.srcPlen.toNat = false) := by
  have bit : rteClassify host route &&& isSs ≠ 0 ↔ route.src ≠ .zero := by
    rw [rteClassify_eq, specific_tag, specific_classOf]
  constructor
  · intro follows
    rw [← bit]
    exact follows.bit
  · intro same
    refine ⟨by rw [bit, same], ?_⟩
    intro p r q inserted
    obtain ⟨rfl, -⟩ := insaddrGeneric_stored host inserted
    rw [classAt_indexOf, specific_classOf, same]

theorem followsDefault_iff (route : Rte) (prefixes : Prefixes route) :
    FollowsDefault host route ↔
      (route.src = .zero → route.srcPlen = 0) ∧
        ¬(route.srcPlen = 96 ∧ V4Mapped route.src) := by
  have lengths : (route.srcPlen.toNat = 0 ↔ route.srcPlen = 0) ∧
      (route.srcPlen.toNat = 96 ↔ route.srcPlen = 96) :=
    ⟨UInt8.toNat_inj (b := 0), UInt8.toNat_inj (b := 96)⟩
  have default : Util.isDefault route.src route.srcPlen.toNat = false ↔
      ¬(route.srcPlen = 0 ∨ route.srcPlen = 96 ∧ V4Mapped route.src) := by
    simp [Util.isDefault, lengths]
  rw [followsDefault_src, default]
  by_cases plain : route.src = .zero
  · have unmapped : ¬V4Mapped .zero := by decide
    simp [plain, unmapped]
  · -- an address with a bit set has a prefix that is long enough for it
    have positive : route.srcPlen ≠ 0 := by
      intro short
      have bits := prefixes.src
      rw [short] at bits
      exact plain (eq_zero_of_noStrayBits route.src bits)
    simp [plain, positive]

theorem followsDefault_iff_v4s : FollowsDefault .little v4s ↔
    (v4s.src = .zero → v4s.srcPlen = 0) ∧ ¬(v4s.srcPlen = 96 ∧ V4Mapped v4s.src) :=
  followsDefault_iff .little v4s (by decide)

def anySource4 : Rte where
  src := v4prefix
  dst := ⟨[0, 0, 0, 0, 0, 0, 0, 0, 0, 0, 0xFF, 0xFF, 10, 0, 0, 0], rfl⟩
  srcPlen := 96
  dstPlen := 96 + 8

theorem not_followsDefault_anySource4 :
    Prefixes anySource4 ∧ SameFamily anySource4 ∧ ¬FollowsDefault .little anySource4 := by
  refine ⟨by decide, by decide, ?_⟩
  intro follows
  exact absurd follows.bit (by decide)

def Narrowed (wide narrow : UInt8) : Prop :=
  narrow.toNat + 96 = wide.toNat ∧ narrow.toNat ≤ 32

instance (wide narrow : UInt8) : Decidable (Narrowed wide narrow) :=
  inferInstanceAs (Decidable (_ ∧ _))

theorem narrowed_iff (wide : UInt8) (bound : wide.toNat ≤ 128) :
    Narrowed wide (wide - 96) ↔ 96 ≤ wide.toNat := by
  have wrapped : (wide - 96).toNat = (256 - 96 + wide.toNat) % 256 := UInt8.toNat_sub wide 96
  rw [Narrowed, wrapped]
  omega

/-- The lengths in the IPv4 record that `insaddr_generic` stores for `route`, if any. -/
structure NarrowsSafely (route : Rte) : Prop where
  rte4 : ∀ p r q record, insaddrGeneric host p route = some (r, q) → classAt r = .v4 →
    q.poolv4.read (slotAt r) = some record → Narrowed route.dstPlen record.dstPlen
  rte4s : ∀ p r q record, insaddrGeneric host p route = some (r, q) → classAt r = .v4ss →
    q.poolv4s.read (slotAt r) = some record →
    Narrowed route.srcPlen record.srcPlen ∧ Narrowed route.dstPlen record.dstPlen

theorem inserted_rte4 {p q : Pools} {route : Rte} {r : RteIdx} (class_ : classOf route = .v4)
    (inserted : insaddrGeneric host p route = some (r, q)) :
    q.poolv4.read (slotAt r) = some (rte2Rte4 host route) := by
  have stored := record_inserted host inserted
  rw [record, compact, (inserted_class host inserted).1, class_] at stored
  simpa using stored

theorem inserted_rte4s {p q : Pools} {route : Rte} {r : RteIdx} (class_ : classOf route = .v4ss)
    (inserted : insaddrGeneric host p route = some (r, q)) :
    q.poolv4s.read (slotAt r) = some (rte2Rte4s host route) := by
  have stored := record_inserted host inserted
  rw [record, compact, (inserted_class host inserted).1, class_] at stored
  simpa using stored

theorem classOf_v4ss (route : Rte) :
    classOf route = .v4ss ↔ V4Mapped route.dst ∧ route.src ≠ .zero := by
  by_cases mapped : V4Mapped route.dst <;> by_cases plain : route.src = .zero <;>
    simp [classOf, mapped, plain]

theorem v4Mapped_of_classOf (route : Rte) (class_ : classOf route = .v4 ∨ classOf route = .v4ss) :
    V4Mapped route.dst := by
  by_contra unmapped
  by_cases plain : route.src = .zero <;> simp [classOf, unmapped, plain] at class_

theorem narrowsSafely_iff (route : Rte) (prefixes : Prefixes route) :
    NarrowsSafely host route ↔
      (V4Mapped route.dst → route.src ≠ .zero → 96 ≤ route.srcPlen.toNat) := by
  -- the destination is v4-mapped in both classes, and its bit 95 keeps its length above 95
  have dst (class_ : classOf route = .v4 ∨ classOf route = .v4ss) :
      Narrowed route.dstPlen (route.dstPlen - 96) := by
    rw [narrowed_iff _ prefixes.dstPlen]
    exact plen_of_v4Mapped route.dst _ prefixes.dst (v4Mapped_of_classOf route class_)
  constructor
  · intro safe mapped specific
    have class_ : classOf route = .v4ss := (classOf_v4ss route).mpr ⟨mapped, specific⟩
    obtain ⟨p, r, q, inserted⟩ := exists_inserted host route
    have lengths := safe.rte4s p r q _ inserted
      ((inserted_class host inserted).1.trans class_) (inserted_rte4s host class_ inserted)
    exact (narrowed_iff _ prefixes.srcPlen).mp lengths.1
  · intro long
    constructor
    · intro p r q record inserted class_ read
      rw [(inserted_class host inserted).1] at class_
      rw [inserted_rte4 host class_ inserted] at read
      cases read
      exact dst (Or.inl class_)
    · intro p r q record inserted class_ read
      rw [(inserted_class host inserted).1] at class_
      rw [inserted_rte4s host class_ inserted] at read
      cases read
      obtain ⟨mapped, specific⟩ := (classOf_v4ss route).mp class_
      exact ⟨(narrowed_iff _ prefixes.srcPlen).mpr (long mapped specific), dst (Or.inr class_)⟩

theorem narrowsSafely_iff_v4s : NarrowsSafely .little v4s ↔
    (V4Mapped v4s.dst → v4s.src ≠ .zero → 96 ≤ v4s.srcPlen.toNat) :=
  narrowsSafely_iff .little v4s (by decide)

def documentationSource : Rte where
  src := ⟨[0x20, 0x01, 0x0D, 0xB8, 0, 0, 0, 0, 0, 0, 0, 0, 0, 0, 0, 0], rfl⟩
  dst := ⟨[0, 0, 0, 0, 0, 0, 0, 0, 0, 0, 0xFF, 0xFF, 10, 0, 0, 0], rfl⟩
  srcPlen := 32
  dstPlen := 96 + 8

theorem not_narrowsSafely_documentationSource :
    Prefixes documentationSource ∧ ¬NarrowsSafely .little documentationSource := by
  refine ⟨by decide, ?_⟩
  intro safe
  obtain ⟨p, r, q, inserted⟩ := exists_inserted .little documentationSource
  have lengths := safe.rte4s p r q _ inserted (inserted_class .little inserted).1
    (inserted_rte4s .little rfl inserted)
  exact absurd lengths.1 (by decide)

end Tabeld.Kdump
