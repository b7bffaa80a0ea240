import Tabeld.KernelNetlink.Encode
import Tabeld.KernelNetlink.Values

set_option autoImplicit false

namespace Tabeld.KernelNetlink

open Attributes Decoder Kdump

variable {ρ : Type} (host : ByteOrder) (subtrees : Bool)

structure Rtmsg.At (mem : Memory) (rtm : Nat) (r : Rtmsg) : Prop where
  family : mem rtm = r.family
  dstLen : mem (rtm + 1) = r.dstLen
  srcLen : mem (rtm + 2) = r.srcLen
  table : mem (rtm + 4) = r.table
  protocol : mem (rtm + 5) = r.protocol
  flags : mem.word host (rtm + 8) 4 = r.flags.toNat

theorem Rtmsg.at_of_holds {mem : Memory} {rtm : Nat} {r : Rtmsg}
    (holds : mem.Holds rtm (r.image host)) : r.At host mem rtm := by
  simp only [Rtmsg.image, List.cons_append, List.nil_append, Memory.holds_cons,
    Nat.add_assoc, Nat.reduceAdd] at holds
  obtain ⟨family, dstLen, srcLen, -, table, protocol, -, -, flags⟩ := holds
  exact ⟨family, dstLen, srcLen, table, protocol, flags.word r.flags.isLt⟩

theorem addr6At_of_holds {mem : Memory} {start : Nat} {a : Addr6}
    (holds : mem.Holds start a.b) : addr6At mem start = a := by
  obtain ⟨bytes, size⟩ := a
  rw [Memory.Holds, size] at holds
  simp only [addr6At, Addr6.mk.injEq]
  exact holds

theorem addr4At_of_holds {mem : Memory} {start : Nat} {a : Addr6}
    (holds : mem.Holds start (a.b.drop 12)) : addr4At mem start = toV4 a := by
  obtain ⟨bytes, size⟩ := a
  rw [Memory.Holds, List.length_drop, size] at holds
  simp only [addr4At, toV4, Addr4.mk.injEq]
  exact holds

theorem intAt_of_holds {mem : Memory} {start : Nat} {value : BitVec 32}
    (holds : mem.Holds start (host.store 4 value.toNat)) : intAt host mem start = value := by
  rw [intAt, holds.word value.isLt, BitVec.ofNat_toNat, BitVec.setWidth_eq]

theorem holds_payload {mem : Memory} {start : Nat} {type : Nat} {payload : List UInt8}
    (holds : mem.Holds start (image host type payload)) : mem.Holds (start + 4) payload := by
  simp only [image, Memory.holds_append, ByteOrder.length_store, List.length_append,
    Nat.reduceAdd] at holds
  exact holds.1.2

def received (v4 : Bool) (a : Addr6) : Addr6 := if v4 then toV6 (toV4 a) else a

theorem foldl_prefixAttrs {mem : Memory} {start : Nat} (r : RouteSpec) (s : RouteParse)
    (holds : mem.Holds start (images host (prefixAttrs subtrees r))) :
    (place start (prefixAttrs subtrees r)).foldl (fun s a => routeStep host mem 0 r.ipv4 a s) s =
      { s with route := { s.route with
        plen := getPlen (mem 1).toNat r.ipv4
        dstPrefix := received r.ipv4 r.dest
        srcPlen := if useSrc subtrees r then (mem 2).toNat else s.route.srcPlen
        srcPrefix := if useSrc subtrees r then r.src else s.route.srcPrefix } } := by
  have dest := r.dest.size
  cases v4 : r.ipv4
  · simp only [prefixAttrs, v4, Bool.false_eq_true, if_false, images_cons,
      Memory.holds_append, length_image] at holds ⊢
    have first := addr6At_of_holds (holds_payload host holds.1)
    cases specific : useSrc subtrees r
    · simp [place, routeStep, Attribute.data, addressAt, received, first, rtaDst]
    · simp only [specific, if_true, images_cons, Memory.holds_append] at holds ⊢
      have second := addr6At_of_holds (holds_payload host holds.2.1)
      simp [place, routeStep, Attribute.data, addressAt, received, first, second, rtaDst, rtaSrc,
        getPlen]
  · simp only [prefixAttrs, v4, if_true, images_cons, Memory.holds_append] at holds ⊢
    have first := addr4At_of_holds (holds_payload host holds.1)
    have plain : useSrc subtrees r = false := by simp [useSrc, kernelDisambiguate, v4]
    simp [place, routeStep, Attribute.data, addressAt, received, first, plain, rtaDst]

theorem clampMetric_reachable (metric : BitVec 32) (small : metric.toNat < kernelInfinity) :
    clampMetric metric = metric.toNat := by
  have plain : metric.toInt = metric.toNat := by
    rw [BitVec.toInt_eq_toNat_cond, if_pos]
    simp only [kernelInfinity] at small
    omega
  simp only [clampMetric, plain, kernelInfinity] at small ⊢
  rw [if_neg (by omega)]

-- the int -1
theorem clampMetric_unreachable : clampMetric 0xFFFFFFFF#32 = kernelInfinity := by
  decide

theorem foldl_nexthopAttrs {mem : Memory} {start : Nat} (r : RouteSpec) (s : RouteParse)
    (holds : mem.Holds start (images host (nexthopAttrs host r))) :
    (place start (nexthopAttrs host r)).foldl (fun s a => routeStep host mem 0 r.ipv4 a s) s =
      { s with route := { s.route with
        metric := min (r.metric.toNat : Int) kernelInfinity
        ifindex := if r.reachable then r.ifindex else s.route.ifindex
        gw := if r.reachable then received r.ipv4 r.gate else s.route.gw } } := by
  have gate := r.gate.size
  cases reachable : r.reachable
  · have far : min (r.metric.toNat : Int) kernelInfinity = kernelInfinity := by
      simp only [RouteSpec.reachable, decide_eq_false_iff_not] at reachable
      omega
    simp only [nexthopAttrs, reachable, Bool.false_eq_true, if_false, images_cons,
      Memory.holds_append] at holds ⊢
    have priority := intAt_of_holds host (holds_payload host holds.1)
    simp [place, routeStep, Attribute.data, priority, clampMetric_unreachable, far, rtaDst,
      rtaSrc, rtaGateway, rtaOif, rtaPriority]
  · have near : (r.metric.toNat : Int) < kernelInfinity := by
      simpa [RouteSpec.reachable] using reachable
    have metric : min (r.metric.toNat : Int) kernelInfinity = r.metric.toNat := by omega
    simp only [nexthopAttrs, reachable, if_true, images_cons, Memory.holds_append, length_image]
      at holds ⊢
    have priority := intAt_of_holds host (holds_payload host holds.1)
    have oif := intAt_of_holds host (holds_payload host holds.2.1)
    have gateway := holds_payload host holds.2.2.1
    cases v4 : r.ipv4
    · simp only [v4, Bool.false_eq_true, if_false] at gateway
      have address := addr6At_of_holds gateway
      simp only [ByteOrder.length_store] at oif address
      simp [place, routeStep, Attribute.data, priority, oif, address, addressAt, received,
        clampMetric_reachable, near, metric, rtaDst, rtaSrc, rtaGateway, rtaOif, rtaPriority]
    · simp only [v4, if_true] at gateway
      have address := addr4At_of_holds gateway
      simp only [ByteOrder.length_store] at oif address
      simp [place, routeStep, Attribute.data, priority, oif, address, addressAt, received,
        clampMetric_reachable, near, metric, rtaDst, rtaSrc, rtaGateway, rtaOif, rtaPriority]

/-- What `parse_kernel_route_rta` makes of the message for `r`. -/
def decodedRoute (r : RouteSpec) : KernelRoute where
  dstPrefix := received r.ipv4 r.dest
  srcPrefix := if useSrc subtrees r then r.src else if r.ipv4 then v4prefix else .zero
  plen := getPlen (if r.ipv4 then UInt8.ofNat r.plen.toNat - 96 else UInt8.ofNat r.plen.toNat).toNat
    r.ipv4
  srcPlen := if useSrc subtrees r then (UInt8.ofNat r.srcPlen.toNat).toNat else 0
  metric := min (r.metric.toNat : Int) kernelInfinity
  ifindex := if r.reachable then r.ifindex else 0
  proto := rtprotBabel
  gw := if r.reachable then received r.ipv4 r.gate else .zero

def lowTable (table : BitVec 32) : BitVec 32 := BitVec.ofNat 32 (UInt8.ofNat table.toNat).toNat

theorem whole_routeAttrs (r : RouteSpec) : ∀ a ∈ routeAttrs host subtrees r,
    Storable a.1 a.2 ∧ (IsRouteAddress a.1 → a.2.length = addressSize r.ipv4) := by
  have dest := r.dest.size
  have src := r.src.size
  have gate := r.gate.size
  unfold routeAttrs prefixAttrs nexthopAttrs
  cases v4 : r.ipv4 <;> cases specific : useSrc subtrees r <;> cases r.reachable <;>
    simp [Storable, IsRouteAddress, addressSize, dest, src, gate, rtaDst, rtaSrc, rtaGateway,
      rtaOif, rtaPriority]

/-- `mem` starts with the message for `r`, without its header; `len` counts the header too. -/
structure Carries (table : BitVec 32) (r : RouteSpec) (mem : Memory) (len : Int) : Prop where
  fields : (routeRtm subtrees table r).At host mem 0
  attrs : mem.Holds 12 (images host (routeAttrs host subtrees r))
  size : len - 16 - 12 = (images host (routeAttrs host subtrees r)).length

theorem routeMessage_carries (operation : Operation) (table : BitVec 32) (r : RouteSpec)
    (beyond : Memory) :
    Carries host subtrees table r
      (Memory.ofBytes (routeMessage host subtrees operation table r).data beyond)
      (routeMessage host subtrees operation table r).hdr.len.toInt := by
  obtain ⟨data, len⟩ := routeMessage_contents host subtrees operation table r
  have bound := length_routeAttrs host subtrees r
  have total := congrArg List.length data
  rw [List.length_append, Rtmsg.length_image] at total
  have holds := Memory.holds_ofBytes (routeMessage host subtrees operation table r).data beyond
  conv at holds => arg 3; rw [data]
  rw [Memory.holds_append, Rtmsg.length_image] at holds
  refine ⟨Rtmsg.at_of_holds host holds.1, holds.2, ?_⟩
  rw [BitVec.toInt_eq_toNat_cond, if_pos] <;> omega

theorem Carries.family {table : BitVec 32} {r : RouteSpec} {mem : Memory} {len : Int}
    (carries : Carries host subtrees table r mem len) : familyIsV4 mem 0 = r.ipv4 := by
  rw [familyIsV4, carries.fields.family]
  rcases Bool.eq_false_or_eq_true r.ipv4 with v4 | v4 <;> simp only [routeRtm, v4] <;> decide

theorem Carries.listed {table : BitVec 32} {r : RouteSpec} {mem : Memory} {len : Int}
    (carries : Carries host subtrees table r mem len) :
    list host mem (0 + 12) (len - 16 - 12) = place 12 (routeAttrs host subtrees r) := by
  rw [carries.size]
  exact list_images host carries.attrs fun a member => (whole_routeAttrs host subtrees r a member).1

theorem Carries.routeParse {table : BitVec 32} {r : RouteSpec} {mem : Memory} {len : Int}
    (carries : Carries host subtrees table r mem len) :
    routeParse host mem 0 (len - 16) =
      { route := decodedRoute subtrees r, table := lowTable table } := by
  have attrs := carries.attrs
  rw [routeAttrs, images_append, Memory.holds_append] at attrs
  rw [KernelNetlink.routeParse, carries.listed, carries.family, routeAttrs, place_append host,
    List.foldl_append, foldl_prefixAttrs host subtrees r _ attrs.1,
    foldl_nexthopAttrs host r _ attrs.2]
  have fields := carries.fields
  have zeroes : toV6 ⟨List.replicate 4 0, rfl⟩ = v4prefix := rfl
  simp only [Nat.zero_add, fields.dstLen, fields.srcLen, fields.protocol, fields.table, routeRtm,
    decodedRoute, lowTable, clearedFor, KernelRoute.cleared, zeroes]
  cases r.ipv4 <;> cases useSrc subtrees r <;> simp [rtprotBabel]

theorem Carries.value_parse {table : BitVec 32} {r : RouteSpec} {mem : Memory} {len : Int}
    (carries : Carries host subtrees table r mem len) (importTables : List (BitVec 32)) :
    (parseKernelRouteRta host importTables 0 (len - 16) : Decoder ρ _).value mem =
      .ok (if lowTable table ∈ importTables then 0 else -1, decodedRoute subtrees r) := by
  rw [value_parseKernelRouteRta, carries.routeParse]
  intro a member address
  rw [carries.listed] at member
  obtain ⟨payload, found, same⟩ := mem_place member
  have size := (whole_routeAttrs host subtrees r _ found).2 address
  rw [Truncated, same, size, carries.family]
  omega

structure RoundTrip (r : RouteSpec) (route : KernelRoute) : Prop where
  dst : route.dstPrefix = r.dest ∧ route.plen = r.plen.toNat
  metric : route.metric = min (r.metric.toNat : Int) kernelInfinity
  proto : route.proto = rtprotBabel
  nexthop : r.metric.toNat < kernelInfinity → route.ifindex = r.ifindex ∧ route.gw = r.gate
  unreachable : kernelInfinity ≤ r.metric.toNat → route.ifindex = 0 ∧ route.gw = .zero
  source : useSrc subtrees r = true → route.srcPrefix = r.src ∧ route.srcPlen = r.srcPlen.toNat
  anySource : useSrc subtrees r = false → Util.isDefault route.srcPrefix route.srcPlen = true

theorem RouteSpec.Consistent.ipv4_iff {r : RouteSpec} (consistent : r.Consistent) :
    r.ipv4 = true ↔ 96 ≤ r.plen.toNat ∧ V4Mapped r.dest := by
  unfold RouteSpec.Consistent at consistent
  split at consistent
  next inside => simp [RouteSpec.ipv4, inside, consistent]
  next outside =>
    rw [not_or] at consistent
    simp [RouteSpec.ipv4, outside, consistent]

theorem received_of_mapped {v4 : Bool} {a : Addr6} (mapped : v4 = true → V4Mapped a) :
    received v4 a = a := by
  cases v4
  · rfl
  · exact (toV6_toV4 a).mpr (mapped rfl)

theorem dstLen_routeRtm (table : BitVec 32) {r : RouteSpec} (consistent : r.Consistent)
    (plen : r.plen.toNat ≤ 128) :
    (routeRtm subtrees table r).dstLen.toNat + (if r.ipv4 then 96 else 0) = r.plen.toNat := by
  have long := consistent.ipv4_iff
  simp only [routeRtm]
  cases v4 : r.ipv4
  · simp only [Bool.false_eq_true, if_false, UInt8.toNat_ofNat']
    omega
  · have wrapped : (UInt8.ofNat r.plen.toNat - 96).toNat = (256 - 96 + r.plen.toNat % 256) % 256 :=
      UInt8.toNat_sub _ 96
    have low := (long.mp v4).1
    simp only [if_true, wrapped]
    omega

theorem decodedRoute_roundTrip {r : RouteSpec} (consistent : r.Consistent)
    (plen : r.plen.toNat ≤ 128) (srcPlen : r.srcPlen.toNat ≤ 128) :
    RoundTrip subtrees r (decodedRoute subtrees r) := by
  have length := dstLen_routeRtm subtrees 0 consistent plen
  have mapped : r.ipv4 = true → V4Mapped r.dest := fun v4 => (consistent.ipv4_iff.mp v4).2
  have gate : r.ipv4 = true → V4Mapped r.gate := fun v4 => by simpa [RouteSpec.ipv4] using v4
  refine ⟨⟨received_of_mapped mapped, ?_⟩, rfl, rfl, ?_, ?_, ?_, ?_⟩
  · simp only [decodedRoute, routeRtm, getPlen] at length ⊢
    split <;> simp_all
  · intro near
    have reachable : r.reachable = true := by simpa [RouteSpec.reachable] using near
    simp [decodedRoute, reachable, received_of_mapped gate]
  · intro far
    have unreachable : r.reachable = false := by simpa [RouteSpec.reachable] using far
    simp [decodedRoute, unreachable]
  · intro specific
    simp only [decodedRoute, specific, if_true, UInt8.toNat_ofNat', true_and]
    omega
  · intro plain
    simp [decodedRoute, plain, Util.isDefault]

theorem kernelRoute_roundTrip (importTables : List (BitVec 32)) (table : BitVec 32)
    (r : RouteSpec) (beyond : Memory) (consistent : r.Consistent)
    (plen : r.plen.toNat ≤ 128) (srcPlen : r.srcPlen.toNat ≤ 128) :
    let m := routeMessage host subtrees .add table r
    m.hdr.type = rtmNewroute ∧
      RoundTrip subtrees r
        ((parseKernelRouteRta host importTables 0 (m.hdr.len.toInt - 16)).result
          (Memory.ofBytes m.data beyond)).2 ∧
      (routeRtm subtrees table r).dstLen.toNat + (if r.ipv4 then 96 else 0) = r.plen.toNat := by
  have carries := routeMessage_carries host subtrees .add table r beyond
  refine ⟨rfl, ?_, dstLen_routeRtm subtrees table consistent plen⟩
  rw [result, carries.value_parse]
  exact decodedRoute_roundTrip subtrees consistent plen srcPlen

/-- A source is encoded whenever the route has one and the kernel has source-specific routes. -/
theorem source_encoded (table : BitVec 32) {r : RouteSpec} (specific : subtrees = true)
    (family : r.ipv4 = false) (source : Util.isDefault r.src r.srcPlen.toNat = false)
    (srcPlen : r.srcPlen.toNat ≤ 128) :
    (rtaSrc, r.src.b) ∈ routeAttrs host subtrees r ∧
      (routeRtm subtrees table r).srcLen.toNat = r.srcPlen.toNat ∧
      (decodedRoute subtrees r).srcPrefix = r.src ∧
      (decodedRoute subtrees r).srcPlen = r.srcPlen.toNat := by
  have used := (useSrc_iff subtrees r).mpr ⟨specific, family, source⟩
  have small : r.srcPlen.toNat < 256 := by omega
  refine ⟨?_, ?_, ?_, ?_⟩
  · simp [routeAttrs, prefixAttrs, family, used]
  · simp [routeRtm, used, small]
  · simp [decodedRoute, used]
  · simp [decodedRoute, used, small]

def specificRoute : RouteSpec where
  dest := ⟨[0x20, 1, 0x0D, 0xB8, 0, 1, 0, 0, 0, 0, 0, 0, 0, 0, 0, 0], rfl⟩
  plen := 48
  src := ⟨[0x20, 1, 0x0D, 0xB8, 0, 2, 0, 0, 0, 0, 0, 0, 0, 0, 0, 0], rfl⟩
  srcPlen := 48
  gate := ⟨[0xFE, 0x80, 0, 0, 0, 0, 0, 0, 0, 0, 0, 0, 0, 0, 0, 1], rfl⟩
  ifindex := 3
  metric := 256

def mappedRoute : RouteSpec where
  dest := ⟨[0, 0, 0, 0, 0, 0, 0, 0, 0, 0, 0xFF, 0xFF, 10, 1, 0, 0], rfl⟩
  plen := 112
  src := v4prefix
  srcPlen := 96
  gate := ⟨[0, 0, 0, 0, 0, 0, 0, 0, 0, 0, 0xFF, 0xFF, 192, 168, 0, 1], rfl⟩
  ifindex := 3
  metric := 256

theorem kernelRoute_roundTrip_bothFamilies :
    let m := routeMessage .little true .add 254 specificRoute
    let n := routeMessage .big false .add 10 mappedRoute
    (m.hdr.type = rtmNewroute ∧
      RoundTrip true specificRoute
        ((parseKernelRouteRta .little [254] 0 (m.hdr.len.toInt - 16)).result
          (Memory.ofBytes m.data Memory.zeroed)).2 ∧
      (routeRtm true 254 specificRoute).dstLen.toNat + (if specificRoute.ipv4 then 96 else 0) =
        specificRoute.plen.toNat) ∧
    n.hdr.type = rtmNewroute ∧
      RoundTrip false mappedRoute
        ((parseKernelRouteRta .big [254] 0 (n.hdr.len.toInt - 16)).result
          (Memory.ofBytes n.data Memory.zeroed)).2 ∧
      (routeRtm false 10 mappedRoute).dstLen.toNat + (if mappedRoute.ipv4 then 96 else 0) =
        mappedRoute.plen.toNat :=
  ⟨kernelRoute_roundTrip .little true [254] 254 specificRoute Memory.zeroed (by decide)
      (by decide) (by decide),
    kernelRoute_roundTrip .big false [254] 10 mappedRoute Memory.zeroed (by decide) (by decide)
      (by decide)⟩

example : [specificRoute, mappedRoute].map (fun r => (r.ipv4, useSrc true r)) =
    [(false, true), (true, false)] := by decide

end Tabeld.KernelNetlink
