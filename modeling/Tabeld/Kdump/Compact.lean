import Tabeld.Structures

set_option autoImplicit false

/-!
# The four compact records and the classifier

kdump.c stores a route in one of four record types. Its functions come first; after them, what
they compute without reference to the host's byte order.
-/

namespace Tabeld.Kdump

variable (host : ByteOrder)

def v4prefix : Addr6 where
  b := [0, 0, 0, 0, 0, 0, 0, 0, 0, 0, 0xFF, 0xFF, 0, 0, 0, 0]
  size := rfl

def v4mapped (address : Addr6) : Bool :=
  address.d host 0 == 0 && address.z host == v4prefix.z host

def fromRte6s (r : Rte6s) : Rte :=
  { src := r.src, dst := r.dst, srcPlen := r.srcPlen, dstPlen := r.dstPlen }

def fromRte6 (r : Rte6) : Rte :=
  { src := .zero, dst := r.dst, srcPlen := 0, dstPlen := r.dstPlen }

def fromRte4s (r : Rte4s) : Rte :=
  { src := .ofWords host 0 0 (htobe32 host 0xFFFF) (r.src.v host)
    dst := .ofWords host 0 0 (htobe32 host 0xFFFF) (r.dst.v host)
    srcPlen := r.srcPlen + 96
    dstPlen := r.dstPlen + 96 }

def fromRte4 (r : Rte4) : Rte :=
  { src := .zero
    dst := .ofWords host 0 0 (htobe32 host 0xFFFF) (r.dst.v host)
    srcPlen := 0
    dstPlen := r.dstPlen + 96 }

def rte2Rte6s (r : Rte) : Rte6s :=
  { src := r.src, dst := r.dst, srcPlen := r.srcPlen, dstPlen := r.dstPlen, via := 0, hh := 0 }

def rte2Rte6 (r : Rte) : Rte6 :=
  { dst := r.dst, dstPlen := r.dstPlen, via := 0, hh := 0 }

def rte2Rte4s (r : Rte) : Rte4s :=
  { src := .ofV host (r.src.w host)
    dst := .ofV host (r.dst.w host)
    srcPlen := r.srcPlen - 96
    dstPlen := r.dstPlen - 96
    via := 0
    hh := 0 }

def rte2Rte4 (r : Rte) : Rte4 :=
  { dst := .ofV host (r.dst.w host), dstPlen := r.dstPlen - 96, via := 0, hh := 0 }

def checkRteSs (r : Rte) : Bool :=
  if r.src.d host 0 ||| r.src.d host 1 ≠ 0 then true else false

def checkRteV6 (r : Rte) : Bool :=
  if r.dst.z host = htobe32 host 0xFFFF ∧ r.dst.d host 0 = 0 then false else true

def rteClassify (route : Rte) : RteIdx :=
  if checkRteV6 host route then
    if checkRteSs host route then isSs else 0
  else
    if checkRteSs host route then isV4ss else isV4

def V4Mapped (address : Addr6) : Prop := address.b.take 12 = v4prefix.b.take 12

instance (address : Addr6) : Decidable (V4Mapped address) :=
  inferInstanceAs (Decidable (_ = _))

def toV4 (address : Addr6) : Addr4 := ⟨address.b.drop 12, by simp [address.size]⟩

def toV6 (address : Addr4) : Addr6 where
  b := v4prefix.b.take 12 ++ address.b
  size := by simp [address.size, v4prefix]

@[simp] theorem toV4_toV6 (address : Addr4) : toV4 (toV6 address) = address := by
  simp [toV4, toV6, v4prefix]

@[simp] theorem v4Mapped_toV6 (address : Addr4) : V4Mapped (toV6 address) := by
  simp [V4Mapped, toV6, v4prefix]

theorem toV6_toV4 (address : Addr6) : toV6 (toV4 address) = address ↔ V4Mapped address := by
  obtain ⟨bytes, size⟩ := address
  simp only [toV6, toV4, V4Mapped, Addr6.mk.injEq]
  constructor
  · intro same
    rw [← same]
    simp [ v4prefix]
  · intro mapped
    rw [← mapped, List.take_append_drop]

theorem toV6_ne_zero (address : Addr4) : toV6 address ≠ .zero := by
  intro same
  have prefixes := congrArg (fun a => a.b.take 12) same
  simp [toV6, Addr6.zero, v4prefix] at prefixes

theorem d_eq_zero (a : Addr6) (i : Nat) (bound : i < 2) :
    a.d host i = 0 ↔ (a.b.drop (8 * i)).take 8 = List.replicate 8 0 := by
  have size := a.size
  rw [Addr6.d, host.load_eq_zero]
  have length : ((a.b.drop (8 * i)).take 8).length = 8 := by
    simp only [List.length_take, List.length_drop]
    omega
  rw [length]

theorem z_eq_ffff (a : Addr6) :
    a.z host = htobe32 host 0xFFFF ↔ (a.b.drop 8).take 4 = [0, 0, 0xFF, 0xFF] := by
  have size := a.size
  have length : ((a.b.drop 8).take 4).length = 4 := by
    simp only [List.length_take, List.length_drop]
    omega
  have words := host.load_eq_toBig ((a.b.drop 8).take 4) 0xFFFF (by rw [length]; decide)
  rw [length] at words
  exact words

theorem z_v4prefix : v4prefix.z host = htobe32 host 0xFFFF := by
  rw [z_eq_ffff]
  decide

theorem v4Mapped_iff (address : Addr6) :
    V4Mapped address ↔ (address.b.drop 8).take 4 = [0, 0, 0xFF, 0xFF] ∧
      (address.b.drop 0).take 8 = List.replicate 8 0 := by
  have size := address.size
  have split : address.b.take 12 = address.b.take 8 ++ (address.b.drop 8).take 4 := by
    rw [← List.take_add]
  have pattern : v4prefix.b.take 12 = List.replicate 8 0 ++ [0, 0, 0xFF, 0xFF] := by decide
  rw [V4Mapped, split, pattern, List.drop_zero]
  constructor
  · intro same
    have parts := List.append_inj same (by simp [size])
    exact ⟨parts.2, parts.1⟩
  · rintro ⟨high, low⟩
    rw [high, low]

theorem v4mapped_eq (address : Addr6) : v4mapped host address = decide (V4Mapped address) := by
  apply Bool.eq_iff_iff.mpr
  rw [decide_eq_true_iff, v4Mapped_iff, v4mapped, Bool.and_eq_true, beq_iff_eq, beq_iff_eq,
    z_v4prefix, z_eq_ffff, d_eq_zero host address 0 (by omega), and_comm]

theorem checkRteV6_eq (r : Rte) : checkRteV6 host r = !decide (V4Mapped r.dst) := by
  have words : (r.dst.z host = htobe32 host 0xFFFF ∧ r.dst.d host 0 = 0) ↔ V4Mapped r.dst := by
    rw [v4Mapped_iff, z_eq_ffff, d_eq_zero host r.dst 0 (by omega)]
  by_cases mapped : V4Mapped r.dst <;> simp [checkRteV6, words, mapped]

theorem eq_zero_iff (a : Addr6) :
    a = .zero ↔ (a.b.drop 0).take 8 = List.replicate 8 0 ∧
      (a.b.drop 8).take 8 = List.replicate 8 0 := by
  obtain ⟨bytes, size⟩ := a
  simp only [Addr6.zero, Addr6.mk.injEq, List.drop_zero]
  constructor
  · intro same
    simp [same]
  · rintro ⟨low, high⟩
    have whole : (bytes.drop 8).take 8 = bytes.drop 8 :=
      List.take_of_length_le (by simp [size])
    calc bytes = bytes.take 8 ++ bytes.drop 8 := (List.take_append_drop 8 bytes).symm
      _ = List.replicate 8 0 ++ List.replicate 8 0 := by rw [low, ← whole, high]
      _ = List.replicate 16 0 := rfl

theorem checkRteSs_eq (r : Rte) : checkRteSs host r = !decide (r.src = .zero) := by
  have words : (r.src.d host 0 ||| r.src.d host 1) = 0 ↔ r.src = .zero := by
    rw [Nat.or_eq_zero_iff, d_eq_zero host r.src 0 (by omega), d_eq_zero host r.src 1 (by omega),
      eq_zero_iff]
  by_cases zero : r.src = .zero
  · rw [checkRteSs, words.mpr zero]
    simp [zero]
  · simp [checkRteSs, words, zero]

theorem ofV_w (a : Addr6) : Addr4.ofV host (a.w host) = toV4 a := by
  have size := a.size
  have whole : (a.b.drop 12).take 4 = a.b.drop 12 := List.take_of_length_le (by simp [size])
  have length : (a.b.drop 12).length = 4 := by simp [size]
  have stored := host.store_load (a.b.drop 12)
  rw [length] at stored
  simp only [Addr4.ofV, Addr6.w, Addr6.f, toV4, whole, stored]

theorem ofWords_mapped (a : Addr4) :
    Addr6.ofWords host 0 0 (htobe32 host 0xFFFF) (a.v host) = toV6 a := by
  have stored := host.store_load a.b
  rw [a.size] at stored
  simp only [Addr6.ofWords, toV6, Addr6.mk.injEq, Addr4.v, stored, htobe32,
    ByteOrder.store_zero, ByteOrder.store_toBig]
  rfl

theorem fromRte4_eq (r : Rte4) : fromRte4 host r =
    { src := .zero, dst := toV6 r.dst, srcPlen := 0, dstPlen := r.dstPlen + 96 } := by
  rw [fromRte4, ofWords_mapped]

theorem fromRte4s_eq (r : Rte4s) : fromRte4s host r =
    { src := toV6 r.src, dst := toV6 r.dst
      srcPlen := r.srcPlen + 96, dstPlen := r.dstPlen + 96 } := by
  rw [fromRte4s, ofWords_mapped, ofWords_mapped]

theorem rte2Rte4_eq (r : Rte) : rte2Rte4 host r =
    { dst := toV4 r.dst, dstPlen := r.dstPlen - 96, via := 0, hh := 0 } := by
  rw [rte2Rte4, ofV_w]

theorem rte2Rte4s_eq (r : Rte) : rte2Rte4s host r =
    { src := toV4 r.src, dst := toV4 r.dst, srcPlen := r.srcPlen - 96, dstPlen := r.dstPlen - 96
      via := 0, hh := 0 } := by
  rw [rte2Rte4s, ofV_w, ofV_w]

inductive RouteClass where
  | v6
  | v4
  | ss
  | v4ss
  deriving DecidableEq

def RouteClass.tag : RouteClass → RteIdx
  | .v6 => isV6
  | .v4 => isV4
  | .ss => isSs
  | .v4ss => isV4ss

def classOf (route : Rte) : RouteClass :=
  if V4Mapped route.dst then
    if route.src = .zero then .v4 else .v4ss
  else
    if route.src = .zero then .v6 else .ss

theorem rteClassify_eq (route : Rte) : rteClassify host route = (classOf route).tag := by
  by_cases mapped : V4Mapped route.dst <;> by_cases plain : route.src = .zero <;>
    simp [rteClassify, checkRteV6_eq, checkRteSs_eq, classOf, mapped, plain, RouteClass.tag, isV6]

theorem tag_injective (c d : RouteClass) : c.tag = d.tag ↔ c = d := by
  cases c <;> cases d <;> decide

/-- What is left of a route that is stored in its class's record and expanded again. -/
def normalize (route : Rte) : Rte :=
  match classOf route with
  | .v6 => fromRte6 (rte2Rte6 route)
  | .v4 => fromRte4 host (rte2Rte4 host route)
  | .ss => fromRte6s (rte2Rte6s route)
  | .v4ss => fromRte4s host (rte2Rte4s host route)

theorem normalize_eq (route : Rte) : normalize host route =
    { src := if V4Mapped route.dst ∧ route.src ≠ .zero then toV6 (toV4 route.src) else route.src
      dst := route.dst
      srcPlen := if route.src = .zero then 0 else route.srcPlen
      dstPlen := route.dstPlen } := by
  have wrap (plen : UInt8) : plen - 96 + 96 = plen := by simp
  obtain ⟨src, dst, srcPlen, dstPlen⟩ := route
  by_cases mapped : V4Mapped dst <;> by_cases plain : src = .zero
  · simp [normalize, classOf, mapped, plain, fromRte4_eq, rte2Rte4_eq, wrap,
      (toV6_toV4 dst).mpr mapped]
  · simp [normalize, classOf, mapped, plain, fromRte4s_eq, rte2Rte4s_eq, wrap,
      (toV6_toV4 dst).mpr mapped]
  · simp [normalize, classOf, mapped, plain, fromRte6, rte2Rte6]
  · simp [normalize, classOf, mapped, plain, fromRte6s, rte2Rte6s]

structure Lossless (route : Rte) : Prop where
  plain : route.src = .zero → route.srcPlen = 0
  family : V4Mapped route.dst → route.src ≠ .zero → V4Mapped route.src

theorem normalize_eq_self (route : Rte) : normalize host route = route ↔ Lossless route := by
  have lossless : Lossless route ↔ (route.src = .zero → route.srcPlen = 0) ∧
      (V4Mapped route.dst → route.src ≠ .zero → V4Mapped route.src) :=
    ⟨fun h => ⟨h.plain, h.family⟩, fun h => ⟨h.1, h.2⟩⟩
  rw [lossless, normalize_eq]
  obtain ⟨src, dst, srcPlen, dstPlen⟩ := route
  by_cases mapped : V4Mapped dst <;> by_cases plain : src = .zero <;>
    simp [mapped, plain, toV6_toV4, eq_comm (a := (0 : UInt8))]

theorem classOf_normalize (route : Rte) : classOf (normalize host route) = classOf route := by
  rw [normalize_eq]
  by_cases mapped : V4Mapped route.dst <;> by_cases plain : route.src = .zero <;>
    simp [classOf, mapped, plain, toV6_ne_zero]

theorem lossless_normalize (route : Rte) : Lossless (normalize host route) := by
  rw [normalize_eq]
  constructor
  · intro plain
    by_cases source : route.src = .zero
    · simp [source]
    · by_cases mapped : V4Mapped route.dst <;> simp [mapped, source, toV6_ne_zero] at plain
  · intro mapped specific
    by_cases source : route.src = .zero
    · simp [source] at specific
    · have both : V4Mapped route.dst ∧ route.src ≠ .zero := ⟨mapped, source⟩
      simp [both]

end Tabeld.Kdump
