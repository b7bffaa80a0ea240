import Tabeld.KernelNetlink.RouteMessages

set_option autoImplicit false

namespace Tabeld.KernelNetlink

open Attributes Decoder Kdump

variable {ρ : Type} (host : ByteOrder)

theorem lowTable_eq_self (table : BitVec 32) : lowTable table = table ↔ table.toNat < 256 := by
  rw [← BitVec.toNat_inj, lowTable, BitVec.toNat_ofNat, UInt8.toNat_ofNat']
  have bound := table.isLt
  omega

def RouteNames (m : Message) (id : BitVec 32) : Prop :=
  ∀ beyond importTables,
    ((parseKernelRouteRta host importTables 0 (m.hdr.len.toInt - 16)).result
      (Memory.ofBytes m.data beyond)).1 = 0 ↔ id ∈ importTables

theorem routeNames_iff (subtrees : Bool) (operation : Operation) (table id : BitVec 32)
    (r : RouteSpec) :
    RouteNames host (routeMessage host subtrees operation table r) id ↔ lowTable table = id := by
  have parsed (beyond : Memory) (importTables : List (BitVec 32)) :
      ((parseKernelRouteRta host importTables 0
          ((routeMessage host subtrees operation table r).hdr.len.toInt - 16)).result
        (Memory.ofBytes (routeMessage host subtrees operation table r).data beyond)).1 = 0 ↔
          lowTable table ∈ importTables := by
    rw [result, (routeMessage_carries host subtrees operation table r beyond).value_parse]
    simp
  constructor
  · intro names
    have both := (parsed Memory.zeroed [id]).symm.trans (names Memory.zeroed [id])
    simpa using both
  · intro same beyond importTables
    rw [parsed, same]

def ruleAttrs (prio : BitVec 32) (address : List UInt8) : List (Nat × List UInt8) :=
  [(fraPriority, host.store 4 prio.toNat), (fraSrc, address)]

structure CarriesRule (rtm : Rtmsg) (prio : BitVec 32) (address : List UInt8) (mem : Memory)
    (len : Int) : Prop where
  fields : rtm.At host mem 0
  attrs : mem.Holds 12 (images host (ruleAttrs host prio address))
  size : len - 16 - 12 = (images host (ruleAttrs host prio address)).length

theorem ruleBuffer_carries {rtm : Rtmsg} {prio : BitVec 32} {address : List UInt8} {m : Message}
    (whole : address.length % 4 = 0) (built : ruleBuffer host rtm prio address = some m)
    (beyond : Memory) :
    CarriesRule host rtm prio address (Memory.ofBytes m.data beyond) m.hdr.len.toInt := by
  obtain ⟨image, same⟩ : ∃ image, image = rtm.image host := ⟨_, rfl⟩
  have twelve : image.length = 12 := by rw [same, Rtmsg.length_image]
  have unpadded : (4 + address.length + 3) / 4 * 4 = 4 + address.length := by omega
  have size : (images host (ruleAttrs host prio address)).length = 8 + (4 + address.length) := by
    simp [ruleAttrs, align, unpadded]
  have clear (at_ : Nat) (low : 28 ≤ at_) : Memory.zeroed.write 16 image at_ = 0 := by
    rw [Memory.write_other _ (by omega)]
    rfl
  have laid : Laid host (Memory.zeroed.write 16 image) 28 (ruleAttrs host prio address)
      (putAt host (putAt host (Memory.zeroed.write 16 image) 28 fraPriority
        (host.store 4 prio.toNat)) 36 fraSrc address) :=
    ((laid_nil host clear).putAt host rfl _ _).putAt host (by simp [align]) _ _
  have header := (Memory.holds_write Memory.zeroed 16 image).congr fun at_ low high =>
    (laid.before at_ (by omega)).symm
  have contents := (Memory.holds_append _ 16 image _).mpr
    ⟨header, by rw [twelve]; exact laid.holds⟩
  rw [Memory.Holds] at contents
  simp only [ruleBuffer, ← same, Nat.reduceAdd] at built
  split at built
  next => contradiction
  next short =>
    have total : 36 + (4 + address.length) - 16 =
        (image ++ images host (ruleAttrs host prio address)).length := by
      rw [List.length_append, twelve, size]
      omega
    cases built
    simp only [total, contents]
    have holds := Memory.holds_ofBytes (image ++ images host (ruleAttrs host prio address)) beyond
    rw [Memory.holds_append, twelve] at holds
    refine ⟨Rtmsg.at_of_holds host (same ▸ holds.1), holds.2, ?_⟩
    rw [size, BitVec.toInt_eq_toNat_cond, BitVec.toNat_ofNat, if_pos] <;> omega

def RuleNames (m : Message) (id : BitVec 32) : Prop :=
  ∀ beyond rule,
    ((filterKernelRules host m.hdr rule).result (Memory.ofBytes m.data beyond)).2.table = id

theorem whole_ruleAttrs {isV4 : Bool} {prio : BitVec 32} {address : List UInt8}
    (size : address.length = addressSize isV4) :
    ∀ a ∈ ruleAttrs host prio address,
      Storable a.1 a.2 ∧ (a.1 = fraSrc → a.2.length = addressSize isV4) := by
  cases isV4 <;> simp [ruleAttrs, size, Storable, addressSize, fraPriority, fraSrc]

theorem table_of_rule {isV4 : Bool} {prio : BitVec 32} {address : List UInt8} {srcLen : UInt8}
    {table : BitVec 32} {mem : Memory} {nh : Nlmsghdr} (size : address.length = addressSize isV4)
    (carries : CarriesRule host (ruleRtm isV4 srcLen table) prio address mem nh.len.toInt)
    (rule : KernelRule) :
    ((filterKernelRules host nh rule).result mem).2.table = lowTable table := by
  have family : mem 0 = UInt8.ofNat (if isV4 then afInet else afInet6) := carries.fields.family
  have known : KnownFamily (mem 0).toNat ∧ familyIsV4 mem 0 = isV4 := by
    rw [familyIsV4, family]
    cases isV4 <;> decide
  have listed :=
    list_images host carries.attrs fun a member => (whole_ruleAttrs host size a member).1
  rw [← carries.size] at listed
  have whole : ∀ a ∈ list host mem 12 (nh.len.toInt - 16 - 12),
      a.type = fraSrc → ¬Truncated (familyIsV4 mem 0) a := by
    intro a member src
    rw [listed] at member
    obtain ⟨payload, found, same⟩ := mem_place member
    have exact_ := (whole_ruleAttrs host size _ found).2 src
    rw [Truncated, same, exact_, known.2]
    omega
  rw [result, value_filterKernelRules host nh rule mem known.1 whole, listed]
  have table_ : (mem 4).toNat = (UInt8.ofNat table.toNat).toNat := by rw [carries.fields.table]; rfl
  simp only [ruleAttrs, place, List.foldl_cons, List.foldl_nil]
  simp [ruleStep, ruleStart, fraUnspec, fraSrc, fraPriority, lowTable, table_]

theorem ruleNames_iff {prio : BitVec 32} {srcPrefix : Addr6} {srcPlen table : BitVec 32}
    {m : Message} (built : ruleMessage host prio srcPrefix srcPlen table = some m)
    (id : BitVec 32) : RuleNames host m id ↔ lowTable table = id := by
  have size : (if decide (V4Mapped srcPrefix) = true then srcPrefix.b.drop 12
      else srcPrefix.b).length = addressSize (decide (V4Mapped srcPrefix)) := by
    by_cases mapped : V4Mapped srcPrefix <;> simp [mapped, addressSize, srcPrefix.size]
  simp only [ruleMessage] at built
  generalize decide (V4Mapped srcPrefix) = isV4 at built size
  generalize (if isV4 = true then srcPrefix.b.drop 12 else srcPrefix.b) = address at built size
  generalize (if isV4 = true then srcPlen.toInt - 96 else srcPlen.toInt) = srcPlen at built
  split at built
  next => contradiction
  next =>
    have parsed (beyond : Memory) (rule : KernelRule) :
        ((filterKernelRules host m.hdr rule).result (Memory.ofBytes m.data beyond)).2.table =
          lowTable table := by
      refine table_of_rule host size (ruleBuffer_carries host ?_ built beyond) rule
      rw [size]
      cases isV4 <;> rfl
    constructor
    · intro names
      rw [← parsed Memory.zeroed ⟨0, .zero, 0, 0⟩, names]
    · intro same beyond rule
      rw [parsed, same]

theorem tableId_survives_iff (id : BitVec 32) :
    (∀ subtrees operation r,
      RouteNames host (routeMessage host subtrees operation id r) id ↔ id.toNat < 256) ∧
    (∀ prio srcPrefix srcPlen m, ruleMessage host prio srcPrefix srcPlen id = some m →
      (RuleNames host m id ↔ id.toNat < 256)) := by
  constructor
  · intro subtrees operation r
    rw [routeNames_iff, lowTable_eq_self]
  · intro prio srcPrefix srcPlen m built
    rw [ruleNames_iff host built, lowTable_eq_self]

theorem tableId_survives_main :
    (∀ subtrees operation r,
      RouteNames .little (routeMessage .little subtrees operation 254 r) 254 ↔
        (254 : BitVec 32).toNat < 256) ∧
    (∀ prio srcPrefix srcPlen m, ruleMessage .little prio srcPrefix srcPlen 254 = some m →
      (RuleNames .little m 254 ↔ (254 : BitVec 32).toNat < 256)) :=
  tableId_survives_iff .little 254

theorem not_routeNames_1000 :
    specificRoute.Consistent ∧ ¬specificRoute.Ignored ∧
      ¬RouteNames .little (routeMessage .little true .add 1000 specificRoute) 1000 := by
  refine ⟨by decide, by decide, ?_⟩
  rw [routeNames_iff, lowTable_eq_self]
  decide

end Tabeld.KernelNetlink
