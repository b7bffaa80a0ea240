import Tabeld.Kdump.Buffers
import Tabeld.Kdump.PoolRuns
import Tabeld.Kdump.Records

set_option autoImplicit false

/-!
# Storing routes and printing them

Programs made of the statements of kdump.c's `main`: they store routes, print the indices, and
print what an index stands for. The strings of a printf lie in static buffers when it reads them.
-/

namespace Tabeld.Kdump

open Machine RingBuffer CString TaggedWord

variable (host : ByteOrder) (ntop : Ntop)

structure Listing where
  pools : Pools
  -- the indices that `main` keeps, here in the order of the insertions
  r : List RteIdx
  prefixes4 : Static
  prefixes6 : Static
  prefixes : Static
  prefixesStr : Static

/-- C leaves open which argument of a call is evaluated first. -/
inductive Order where
  | leftFirst
  | rightFirst

def say (text : String) : List UInt8 := chars text.toList

def number (n : Nat) : List UInt8 := chars (Nat.toDigits 10 n)

section

variable {Call : Type} (print : Static → Call → Option (Nat × Static))

def oneString (call : Call) (s : Static) : Option (List UInt8 × Static) := do
  let (start, s) ← print s call
  let string ← stringAt s.buf start slotSize
  some (string, s)

def twoStrings (order : Order) (left right : Call) (s : Static) :
    Option ((List UInt8 × List UInt8) × Static) :=
  let read (start next : Nat) (s : Static) := do
    let first ← stringAt s.buf start slotSize
    let second ← stringAt s.buf next slotSize
    some ((first, second), s)
  match order with
  | .leftFirst => do
    let (start, s) ← print s left
    let (next, s) ← print s right
    read start next s
  | .rightFirst => do
    let (next, s) ← print s right
    let (start, s) ← print s left
    read start next s

end

def print4 (s : Static) (call : Addr4 × UInt8) : Option (Nat × Static) :=
  s.formatPrefix4 ntop call.1 call.2

def print6 (s : Static) (call : Addr6 × UInt8) : Option (Nat × Static) :=
  s.formatPrefix6 ntop call.1 call.2

def printAny (s : Static) (call : Addr6 × UInt8) : Option (Nat × Static) :=
  s.formatPrefix host ntop call.1 call.2

def printStr (s : Static) (call : Addr6 × UInt8) : Option (Nat × Static) :=
  s.formatPrefixStr ntop call.1.b call.2

def routeType (order : Order) (r : RteIdx) (p : Listing) : Option (List UInt8 × Listing) :=
  let i := (r >>> rteTagSize).toNat
  let line := fun middle => say "Route " ++ number i ++ middle
  if r &&& 3 = isV6 then do
    let r1 ← p.pools.poolv6.read i
    let (dst, s) ← oneString (print6 ntop) (r1.dst, r1.dstPlen) p.prefixes6
    some (line (say " " ++ dst ++ say " is an IPv6 route\n"), { p with prefixes6 := s })
  else if r &&& 3 = isSs then do
    let r1 ← p.pools.poolv6s.read i
    let ((src, dst), s) ←
      twoStrings (print6 ntop) order (r1.src, r1.srcPlen) (r1.dst, r1.dstPlen) p.prefixes6
    some (line (say " from " ++ src ++ say " " ++ dst ++ say " is an IPv6 SADR route\n"),
      { p with prefixes6 := s })
  else if r &&& 3 = isV4 then do
    let r1 ← p.pools.poolv4.read i
    let (dst, s) ← oneString (print4 ntop) (r1.dst, r1.dstPlen) p.prefixes4
    some (line (say " " ++ dst ++ say " is an IPv4 route\n"), { p with prefixes4 := s })
  else if r &&& 3 = isV4ss then do
    let r1 ← p.pools.poolv4s.read i
    let ((src, dst), s) ←
      twoStrings (print4 ntop) order (r1.src, r1.srcPlen) (r1.dst, r1.dstPlen) p.prefixes4
    some (line (say " from " ++ src ++ say " " ++ dst ++ say " is an IPv4 SADR route\n"),
      { p with prefixes4 := s })
  else some ([], p)

def routeTypeless (order : Order) (r : RteIdx) (p : Listing) : Option (List UInt8 × Listing) := do
  let r1 ← getroute host p.pools r
  let ((src, dst), s) ←
    twoStrings (printAny host ntop) order (r1.src, r1.srcPlen) (r1.dst, r1.dstPlen) p.prefixes
  some (say "Route " ++ number (r >>> rteTagSize).toNat ++ say " " ++ src ++ say " to " ++ dst ++
      say " is a " ++ say (if r &&& isV4 ≠ 0 then "v4" else "v6") ++ say " " ++
      say (if r &&& isSs ≠ 0 then "SADR" else "not SADR") ++ say " route\n",
    { p with prefixes := s })

inductive Statement where
  | insert (route : Rte)
  | routeType (order : Order) (n : Nat)
  | routeTypeless (order : Order) (n : Nat)
  | looksLike (name : String) (address : Addr6) (plen : UInt8)
  | looksLikeFrom (order : Order) (name : String) (route : Rte)
  | puts (text : String)

/-- The output is what is printed. There is no step where `main` would use an index that it has
not got. -/
def Listing.step (p : Listing) : Statement → Option (List UInt8 × Listing)
  | .insert route =>
    (insaddrGeneric host p.pools route).map fun (r, pools) =>
      (say "pool " ++ number r.toNat ++ say "\n", { p with pools := pools, r := p.r ++ [r] })
  | .routeType order n => p.r[n]?.bind fun r => Kdump.routeType ntop order r p
  | .routeTypeless order n => p.r[n]?.bind fun r => Kdump.routeTypeless host ntop order r p
  | .looksLike name address plen =>
    (oneString (printStr ntop) (address, plen) p.prefixesStr).map fun (text, s) =>
      (say name ++ say " looks like: " ++ text ++ say "\n", { p with prefixesStr := s })
  | .looksLikeFrom order name route =>
    (twoStrings (printStr ntop) order (route.src, route.srcPlen) (route.dst, route.dstPlen)
      p.prefixesStr).map fun ((src, dst), s) =>
        (say name ++ say " looks like: from " ++ src ++ say " " ++ dst ++ say "\n",
          { p with prefixesStr := s })
  | .puts text => some (say text, p)

def Listing.start : Listing where
  pools := .empty
  r := []
  prefixes4 := ⟨Memory.zeroed, 0⟩
  prefixes6 := ⟨Memory.zeroed, 0⟩
  prefixes := ⟨Memory.zeroed, 0⟩
  prefixesStr := ⟨Memory.zeroed, 0⟩

def v4local : Addr6 := ⟨[0, 0, 0, 0, 0, 0, 0, 0, 0, 0, 0xFF, 0xFF, 127, 0, 0, 1], rfl⟩

def llprefix : Addr6 := ⟨[0xFE, 0x80, 0, 0, 0, 0, 0, 0, 0, 0, 0, 0, 0, 0, 0, 0], rfl⟩

def main (order : Order) : List Statement :=
  [.looksLike "V4local" v4local 96,
    .looksLike "V4mapped" v4prefix 96,
    .looksLike "LL" llprefix 64,
    .puts "Vs mine\n",
    .looksLike "V4" v4.dst v4.dstPlen,
    .looksLike "V6" v6.dst v6.dstPlen,
    .looksLikeFrom order "V4SS" v4s,
    .looksLikeFrom order "V6SS" v6s,
    .insert v4,
    .insert v4s,
    .insert v6,
    .insert v6s,
    -- from r[0] to r[3]
    .routeType order 3,
    .routeType order 2,
    .routeType order 1,
    .routeType order 0]

def text4 (address : Addr4) (plen : UInt8) : List Char :=
  ntop .inet address.b ++ '/' :: Nat.toDigits 10 plen.toNat

def text6 (address : Addr6) (plen : UInt8) : List Char :=
  ntop .inet6 address.b ++ '/' :: Nat.toDigits 10 plen.toNat

def lineOf (i : Nat) (route : Rte) : List Char :=
  "Route ".toList ++ Nat.toDigits 10 i ++
    match classOf route with
    | .v6 => " ".toList ++ text6 ntop route.dst route.dstPlen ++ " is an IPv6 route\n".toList
    | .ss => " from ".toList ++ text6 ntop route.src route.srcPlen ++ " ".toList ++
        text6 ntop route.dst route.dstPlen ++ " is an IPv6 SADR route\n".toList
    | .v4 => " ".toList ++ text4 ntop (toV4 route.dst) (route.dstPlen - 96) ++
        " is an IPv4 route\n".toList
    | .v4ss => " from ".toList ++ text4 ntop (toV4 route.src) (route.srcPlen - 96) ++ " ".toList ++
        text4 ntop (toV4 route.dst) (route.dstPlen - 96) ++ " is an IPv4 SADR route\n".toList

def typelessLine (i : Nat) (route : Rte) : List Char :=
  "Route ".toList ++ Nat.toDigits 10 i ++ " ".toList ++
    prefixText ntop 8 route.src route.srcPlen ++ " to ".toList ++
    prefixText ntop 8 route.dst route.dstPlen ++ " is a ".toList ++
    (if V4Mapped route.dst then "v4" else "v6").toList ++ " ".toList ++
    (if route.src = .zero then "not SADR" else "SADR").toList ++ " route\n".toList

/-- The program as a list of the routes that it has stored. -/
def listed (routes : List Rte) : Statement → Option (List Char × List Rte)
  | .insert route =>
    let i := ofClass (classOf route) routes
    if i < testRoutes then
      some ("pool ".toList ++ Nat.toDigits 10 (128 * i + (classOf route).tag.toNat) ++ "\n".toList,
        routes ++ [route])
    else none
  | .routeType _ n => routes[n]?.map fun route =>
    (lineOf ntop (ofClass (classOf route) (routes.take n)) route, routes)
  | .routeTypeless _ n => routes[n]?.map fun route =>
    (typelessLine ntop (ofClass (classOf route) (routes.take n)) (normalize host route), routes)
  | .looksLike name address plen =>
    some (name.toList ++ " looks like: ".toList ++ prefixText ntop 12 address plen ++ "\n".toList,
      routes)
  | .looksLikeFrom _ name route =>
    some (name.toList ++ " looks like: from ".toList ++
      prefixText ntop 12 route.src route.srcPlen ++ " ".toList ++
      prefixText ntop 12 route.dst route.dstPlen ++ "\n".toList, routes)
  | .puts text => some (text.toList, routes)

theorem say_eq (text : String) : say text = chars text.toList := rfl

theorem chars_append (first second : List Char) :
    chars (first ++ second) = chars first ++ chars second := List.map_append

section

variable {Call : Type} {print : Static → Call → Option (Nat × Static)} {text : Call → List Char}

theorem oneString_prints (prints : Prints print text) (call : Call) (s : Static) :
    ∃ t, oneString print call s = some (chars (text call), t) := by
  obtain ⟨start, t, called, printed⟩ := prints s call
  refine ⟨t, ?_⟩
  change (print s call).bind _ = _
  rw [called, Option.bind_some]
  change (stringAt t.buf start slotSize).bind _ = _
  rw [printed.string, Option.bind_some]

theorem twoCalls_print (prints : Prints print text) (first second : Call) (s : Static) :
    ∃ start t next u, print s first = some (start, t) ∧ print t second = some (next, u) ∧
      stringAt u.buf start slotSize = some (chars (text first)) ∧
      stringAt u.buf next slotSize = some (chars (text second)) := by
  obtain ⟨start, t, one, printed⟩ := prints s first
  obtain ⟨next, u, two, last⟩ := prints t second
  refine ⟨start, t, next, u, one, two, ?_, last.string⟩
  have kept := slots_rotates t.view [fun _ => some (chars (text second))]
    (by simp)
  have view : t.view.rotates [fun _ => some (chars (text second))] = u.view := last.view.symm
  have slot : slotStart t.view.current = start := by
    rw [printed.returned, ← printed.moved]
    rfl
  rw [view] at kept
  simp only [Static.view] at kept slot
  rw [slot, printed.string] at kept
  exact kept

theorem twoStrings_print (prints : Prints print text) (order : Order) (left right : Call)
    (s : Static) :
    ∃ t, twoStrings print order left right s =
      some ((chars (text left), chars (text right)), t) := by
  cases order with
  | leftFirst =>
    obtain ⟨start, t, next, u, one, two, first, second⟩ := twoCalls_print prints left right s
    refine ⟨u, ?_⟩
    simp only [twoStrings, one, two, first, second, Option.bind_eq_bind, Option.bind_some]
  | rightFirst =>
    obtain ⟨start, t, next, u, one, two, first, second⟩ := twoCalls_print prints right left s
    refine ⟨u, ?_⟩
    simp only [twoStrings, one, two, first, second, Option.bind_eq_bind, Option.bind_some]

end

section

variable {ntop} (strings : NtopStrings ntop)
include strings

theorem print4_prints : Prints (print4 ntop) fun call => text4 ntop call.1 call.2 :=
  fun s call => printPrefix_bytes strings .inet call.1.b call.1.size call.2 s

theorem print6_prints : Prints (print6 ntop) fun call => text6 ntop call.1 call.2 :=
  fun s call => printPrefix_bytes strings .inet6 call.1.b call.1.size call.2 s

theorem printAny_prints :
    Prints (printAny host ntop) fun call => prefixText ntop 8 call.1 call.2 :=
  fun s call => formatPrefix_printed host strings call.1 call.2 s

theorem printStr_prints : Prints (printStr ntop) fun call => prefixText ntop 12 call.1 call.2 :=
  fun s call => formatPrefixStr_printed strings call.1 call.2 s

end

section

variable {p : Pools} {slot : Nat} {route : Rte}

theorem poolv6_known (known : p.lookup host .v6 slot = some (normalize host route)) :
    ∃ r1, p.poolv6.read slot = some r1 ∧ r1.dst = route.dst ∧ r1.dstPlen = route.dstPlen := by
  obtain ⟨r1, read, expanded⟩ := Option.map_eq_some_iff.mp known
  rw [normalize_eq] at expanded
  exact ⟨r1, read, congrArg Rte.dst expanded, congrArg Rte.dstPlen expanded⟩

theorem poolv6s_known (class_ : classOf route = .ss)
    (known : p.lookup host .ss slot = some (normalize host route)) :
    ∃ r1, p.poolv6s.read slot = some r1 ∧ r1.src = route.src ∧ r1.dst = route.dst ∧
      r1.srcPlen = route.srcPlen ∧ r1.dstPlen = route.dstPlen := by
  obtain ⟨r1, read, expanded⟩ := Option.map_eq_some_iff.mp known
  have whole : normalize host route = fromRte6s (rte2Rte6s route) := by rw [normalize, class_]
  rw [whole] at expanded
  exact ⟨r1, read, congrArg Rte.src expanded, congrArg Rte.dst expanded,
    congrArg Rte.srcPlen expanded, congrArg Rte.dstPlen expanded⟩

theorem narrowed {wide narrow : UInt8} (wider : narrow + 96 = wide) : narrow = wide - 96 := by
  rw [← wider]
  simp

theorem poolv4_known (known : p.lookup host .v4 slot = some (normalize host route)) :
    ∃ r1, p.poolv4.read slot = some r1 ∧ r1.dst = toV4 route.dst ∧
      r1.dstPlen = route.dstPlen - 96 := by
  obtain ⟨r1, read, expanded⟩ := Option.map_eq_some_iff.mp known
  rw [normalize_eq, fromRte4_eq, Rte.mk.injEq] at expanded
  obtain ⟨-, dst, -, dstPlen⟩ := expanded
  exact ⟨r1, read, by rw [← dst, toV4_toV6], narrowed dstPlen⟩

theorem poolv4s_known (class_ : classOf route = .v4ss)
    (known : p.lookup host .v4ss slot = some (normalize host route)) :
    ∃ r1, p.poolv4s.read slot = some r1 ∧ r1.src = toV4 route.src ∧ r1.dst = toV4 route.dst ∧
      r1.srcPlen = route.srcPlen - 96 ∧ r1.dstPlen = route.dstPlen - 96 := by
  obtain ⟨r1, read, expanded⟩ := Option.map_eq_some_iff.mp known
  have whole : normalize host route = fromRte4s host (rte2Rte4s host route) := by
    rw [normalize, class_]
  rw [whole, fromRte4s_eq, fromRte4s_eq, rte2Rte4s_eq, Rte.mk.injEq] at expanded
  obtain ⟨src, dst, srcPlen, dstPlen⟩ := expanded
  refine ⟨r1, read, ?_, ?_, ?_, ?_⟩
  · rw [← toV4_toV6 r1.src, src, toV4_toV6]
  · rw [← toV4_toV6 r1.dst, dst, toV4_toV6]
  · exact narrowed (by rw [srcPlen, UInt8.sub_add_cancel])
  · exact narrowed (by rw [dstPlen, UInt8.sub_add_cancel])

end

theorem toNat_indexOf (c : RouteClass) {slot : Nat} (bound : slot < testRoutes) :
    (indexOf c slot).toNat = 128 * slot + c.tag.toNat := by
  apply pack_toNat
  · cases c <;> decide
  · simp only [testRoutes, rteTagSize] at *
    omega

theorem low_bit (r : RteIdx) {flag : RteIdx} (low : 3 &&& flag = flag) :
    r &&& flag = (classAt r).tag &&& flag := by
  rw [← masked_tag, BitVec.and_assoc, low]

theorem v4_bit {r : RteIdx} {route : Rte} (class_ : classAt r = classOf route) :
    r &&& isV4 ≠ 0 ↔ V4Mapped route.dst := by
  rw [low_bit r (by decide), class_]
  by_cases mapped : V4Mapped route.dst <;> by_cases plain : route.src = .zero <;>
    simp [classOf, mapped, plain, RouteClass.tag, isV6, isV4, isSs, isV4ss]

theorem ss_bit {r : RteIdx} {route : Rte} (class_ : classAt r = classOf route) :
    r &&& isSs ≠ 0 ↔ route.src ≠ .zero := by
  rw [low_bit r (by decide), class_]
  by_cases mapped : V4Mapped route.dst <;> by_cases plain : route.src = .zero <;>
    simp [classOf, mapped, plain, RouteClass.tag, isV6, isV4, isSs, isV4ss]

def SameRoutes (p q : Listing) : Prop := q.pools = p.pools ∧ q.r = p.r

section

variable {ntop} (strings : NtopStrings ntop)
include strings

theorem routeType_prints {p : Listing} {r : RteIdx} {route : Rte} (order : Order)
    (class_ : classAt r = classOf route)
    (known : getroute host p.pools r = some (normalize host route)) :
    ∃ q, routeType ntop order r p = some (chars (lineOf ntop (slotAt r) route), q) ∧
      SameRoutes p q := by
  -- the equation of lineOf is slow to make: it evaluates the literals
  delta lineOf
  rw [getroute_eq] at known
  have tag := masked_tag r
  rw [class_] at known tag
  cases family : classOf route <;> rw [family] at known tag
  case v6 =>
    obtain ⟨r1, read, dst, dstPlen⟩ := poolv6_known host known
    obtain ⟨t, printed⟩ := oneString_prints (print6_prints strings) (r1.dst, r1.dstPlen) p.prefixes6
    refine ⟨{ p with prefixes6 := t }, ?_, rfl, rfl⟩
    have slot : p.pools.poolv6.read (r >>> rteTagSize).toNat = some r1 := read
    simp only [routeType, tag, RouteClass.tag, if_true, slot, printed, Option.bind_eq_bind,
      Option.bind_some]
    simp only [dst, dstPlen, say_eq, number, chars_append, slotAt, List.append_assoc]
  case ss =>
    obtain ⟨r1, read, src, dst, srcPlen, dstPlen⟩ := poolv6s_known host family known
    obtain ⟨t, printed⟩ := twoStrings_print (print6_prints strings) order (r1.src, r1.srcPlen)
      (r1.dst, r1.dstPlen) p.prefixes6
    refine ⟨{ p with prefixes6 := t }, ?_, rfl, rfl⟩
    have slot : p.pools.poolv6s.read (r >>> rteTagSize).toNat = some r1 := read
    simp only [routeType, tag, RouteClass.tag, show ¬isSs = isV6 by decide, if_true, if_false, slot,
      printed, Option.bind_eq_bind, Option.bind_some]
    simp only [src, dst, srcPlen, dstPlen, say_eq, number, chars_append, slotAt, List.append_assoc]
  case v4 =>
    obtain ⟨r1, read, dst, dstPlen⟩ := poolv4_known host known
    obtain ⟨t, printed⟩ := oneString_prints (print4_prints strings) (r1.dst, r1.dstPlen) p.prefixes4
    refine ⟨{ p with prefixes4 := t }, ?_, rfl, rfl⟩
    have slot : p.pools.poolv4.read (r >>> rteTagSize).toNat = some r1 := read
    simp only [routeType, tag, RouteClass.tag, show ¬isV4 = isV6 by decide,
      show ¬isV4 = isSs by decide, if_true, if_false, slot, printed, Option.bind_eq_bind,
      Option.bind_some]
    simp only [dst, dstPlen, say_eq, number, chars_append, slotAt, List.append_assoc]
  case v4ss =>
    obtain ⟨r1, read, src, dst, srcPlen, dstPlen⟩ := poolv4s_known host family known
    obtain ⟨t, printed⟩ := twoStrings_print (print4_prints strings) order (r1.src, r1.srcPlen)
      (r1.dst, r1.dstPlen) p.prefixes4
    refine ⟨{ p with prefixes4 := t }, ?_, rfl, rfl⟩
    have slot : p.pools.poolv4s.read (r >>> rteTagSize).toNat = some r1 := read
    simp only [routeType, tag, RouteClass.tag, show ¬isV4ss = isV6 by decide,
      show ¬isV4ss = isSs by decide, show ¬isV4ss = isV4 by decide, if_true, if_false, slot,
      printed, Option.bind_eq_bind, Option.bind_some]
    simp only [src, dst, srcPlen, dstPlen, say_eq, number, chars_append, slotAt, List.append_assoc]

theorem routeTypeless_prints {p : Listing} {r : RteIdx} {route : Rte} (order : Order)
    (class_ : classAt r = classOf route) (known : getroute host p.pools r = some route) :
    ∃ q, routeTypeless host ntop order r p =
        some (chars (typelessLine ntop (slotAt r) route), q) ∧ SameRoutes p q := by
  obtain ⟨t, printed⟩ := twoStrings_print (printAny_prints host strings) order
    (route.src, route.srcPlen) (route.dst, route.dstPlen) p.prefixes
  refine ⟨{ p with prefixes := t }, ?_, rfl, rfl⟩
  have family : (if r &&& isV4 ≠ 0 then "v4" else "v6") =
      if V4Mapped route.dst then "v4" else "v6" := if_congr (v4_bit class_) rfl rfl
  have specific : (if r &&& isSs ≠ 0 then "SADR" else "not SADR") =
      if route.src = .zero then "not SADR" else "SADR" := by
    rw [if_congr (ss_bit class_) rfl rfl, ite_not]
  unfold typelessLine
  simp only [routeTypeless, known, printed, Option.bind_eq_bind, Option.bind_some, family, specific]
  generalize (if V4Mapped route.dst then "v4" else "v6") = family
  generalize (if route.src = .zero then "not SADR" else "SADR") = specific
  simp only [say_eq, number, chars_append, slotAt, List.append_assoc]

end

structure Remembers (p : Listing) (routes : List Rte) : Prop where
  used : ∀ c, p.pools.used c = ofClass c routes
  length : p.r.length = routes.length
  known : ∀ n route, routes[n]? = some route → ∃ r, p.r[n]? = some r ∧
    classAt r = classOf route ∧ slotAt r = ofClass (classOf route) (routes.take n) ∧
    issued host p.pools r = some (normalize host route)

theorem Remembers.same {p q : Listing} {routes : List Rte} (remembers : Remembers host p routes)
    (same : SameRoutes p q) : Remembers host q routes := by
  obtain ⟨pools, indices⟩ := same
  constructor
  case used => exact fun c => pools ▸ remembers.used c
  case length => exact indices ▸ remembers.length
  case known =>
    rw [pools, indices]
    exact remembers.known

theorem Remembers.index {p : Listing} {routes : List Rte} (remembers : Remembers host p routes)
    {n : Nat} (unknown : routes[n]? = none) : p.r[n]? = none := by
  rw [List.getElem?_eq_none_iff] at unknown ⊢
  rw [remembers.length]
  exact unknown

theorem Remembers.inserted {p : Listing} {routes : List Rte} {route : Rte} {r : RteIdx} {q : Pools}
    (remembers : Remembers host p routes)
    (inserted : insaddrGeneric host p.pools route = some (r, q)) :
    Remembers host { p with pools := q, r := p.r ++ [r] } (routes ++ [route]) := by
  obtain ⟨index, stored⟩ := insaddrGeneric_stored host inserted
  constructor
  case used =>
    intro c
    have before := remembers.used c
    by_cases same : classOf route = c
    · subst same
      simp only [ofClass, List.countP_append, List.countP_singleton, decide_true, if_true,
        stored.used_self] at before ⊢
      rw [before]
    · simp only [ofClass, List.countP_append, List.countP_singleton, same, decide_false,
        stored.used_other c (Ne.symm same)] at before ⊢
      simpa using before
  case length => simp [remembers.length]
  case known =>
    intro n other found
    simp only
    rcases Nat.lt_trichotomy n routes.length with old | rfl | beyond
    · rw [List.getElem?_append_left old] at found
      obtain ⟨s, index, class_, slot, known⟩ := remembers.known n other found
      refine ⟨s, ?_, class_, ?_, issued_kept host inserted s _ known⟩
      · rw [List.getElem?_append_left (remembers.length ▸ old), index]
      · rw [slot, List.take_append_of_le_length (Nat.le_of_lt old)]
    · simp only [List.getElem?_concat_length, Option.some.injEq] at found
      subst found
      obtain ⟨class_, slot⟩ := inserted_class host inserted
      refine ⟨r, ?_, class_, ?_, (issued_inserted host inserted).2⟩
      · rw [← remembers.length, List.getElem?_concat_length]
      · rw [slot, remembers.used, List.take_left]
    · rw [List.getElem?_eq_none (by simp; omega)] at found
      contradiction

theorem Remembers.printed {p : Listing} {routes : List Rte} (remembers : Remembers host p routes)
    (n : Nat) (print : RteIdx → Listing → Option (List UInt8 × Listing))
    (line : Nat → Rte → List Char)
    (prints : ∀ r route, classAt r = classOf route →
      getroute host p.pools r = some (normalize host route) →
        ∃ q, print r p = some (chars (line (slotAt r) route), q) ∧ SameRoutes p q) :
    ((routes[n]?.map fun route => (line (ofClass (classOf route) (routes.take n)) route, routes)) =
        none ∧ (p.r[n]?.bind fun r => print r p) = none) ∨
      ∃ text routes' q,
        (routes[n]?.map fun route =>
          (line (ofClass (classOf route) (routes.take n)) route, routes)) = some (text, routes') ∧
          (p.r[n]?.bind fun r => print r p) = some (chars text, q) ∧ Remembers host q routes' := by
  cases found : routes[n]? with
  | none => exact Or.inl ⟨rfl, by rw [remembers.index host found, Option.bind_none]⟩
  | some route =>
    obtain ⟨r, index, class_, slot, known⟩ := remembers.known n route found
    obtain ⟨q, printed, same⟩ := prints r route class_ (getroute_of_issued host known)
    rw [slot] at printed
    exact Or.inr ⟨_, routes, q, rfl, by rw [index, Option.bind_some, printed],
      remembers.same host same⟩

section

variable {ntop} (strings : NtopStrings ntop)
include strings

theorem step_listed {p : Listing} {routes : List Rte} (remembers : Remembers host p routes)
    (statement : Statement) :
    (listed host ntop routes statement = none ∧ p.step host ntop statement = none) ∨
      ∃ line routes' q, listed host ntop routes statement = some (line, routes') ∧
        p.step host ntop statement = some (chars line, q) ∧ Remembers host q routes' := by
  cases statement with
  | insert route =>
    have room := insaddrGeneric_isSome host p.pools route
    rw [remembers.used] at room
    by_cases full : ofClass (classOf route) routes < testRoutes
    · obtain ⟨⟨r, q⟩, inserted⟩ := Option.isSome_iff_exists.mp (room.mpr full)
      refine Or.inr ⟨_, _, _, if_pos full, ?_, remembers.inserted host inserted⟩
      have index : r.toNat = 128 * ofClass (classOf route) routes + (classOf route).tag.toNat := by
        rw [(insaddrGeneric_stored host inserted).1, remembers.used]
        exact toNat_indexOf _ full
      simp only [Listing.step, inserted, Option.map_some, chars_append, say_eq, number, index,
        List.append_assoc]
    · refine Or.inl ⟨if_neg full, ?_⟩
      have none_ : insaddrGeneric host p.pools route = none := by
        rw [← Option.not_isSome_iff_eq_none, room]
        exact full
      simp only [Listing.step, none_, Option.map_none]
  | routeType order n =>
    refine remembers.printed host n (routeType ntop order) (lineOf ntop)
      fun r route class_ known => ?_
    exact routeType_prints host strings order class_ known
  | routeTypeless order n =>
    refine remembers.printed host n (routeTypeless host ntop order)
      (fun i route => typelessLine ntop i (normalize host route)) fun r route class_ known => ?_
    exact routeTypeless_prints host strings order
      (class_.trans (classOf_normalize host route).symm) known
  | looksLike name address plen =>
    obtain ⟨t, printed⟩ := oneString_prints (printStr_prints strings) (address, plen) p.prefixesStr
    refine Or.inr ⟨_, _, { p with prefixesStr := t }, rfl, ?_, remembers.same host ⟨rfl, rfl⟩⟩
    simp only [Listing.step, printed, Option.map_some, chars_append, say_eq, List.append_assoc]
  | looksLikeFrom order name route =>
    obtain ⟨t, printed⟩ := twoStrings_print (printStr_prints strings) order
      (route.src, route.srcPlen) (route.dst, route.dstPlen) p.prefixesStr
    refine Or.inr ⟨_, _, { p with prefixesStr := t }, rfl, ?_, remembers.same host ⟨rfl, rfl⟩⟩
    simp only [Listing.step, printed, Option.map_some, chars_append, say_eq, List.append_assoc]
  | puts text => exact Or.inr ⟨_, _, p, rfl, rfl, remembers⟩

end

def zeroRun (groups : List (List Char)) : Nat × Nat :=
  (List.range groups.length).foldl (fun best i =>
    let length := ((groups.drop i).takeWhile (· == ['0'])).length
    if best.2 < length then (i, length) else best) (0, 0)

def colons (groups : List (List Char)) : List Char := [':'].intercalate groups

def usualNtop : Ntop
  | .inet, address => quad address
  -- as it is for an address without an IPv4 address in it
  | .inet6, address =>
    let run := zeroRun (groups address)
    if run.2 < 2 then colons (groups address)
    else
      colons ((groups address).take run.1) ++ "::".toList ++
        colons ((groups address).drop (run.1 + run.2))

theorem colons_groups {bytes : List UInt8} {parts : List (List Char)}
    (inside : parts ⊆ groups bytes) :
    (colons parts).length ≤ 5 * parts.length ∧ 0 ∉ chars (colons parts) := by
  constructor
  · apply length_intercalate
    intro part member
    obtain ⟨number, bound, rfl⟩ := mem_groups (inside member)
    exact (Nat.length_toDigits_le_iff (by decide) (by decide)).mpr bound
  · apply clean_intercalate (by decide)
    intro part member
    obtain ⟨number, -, rfl⟩ := mem_groups (inside member)
    exact clean_toDigits (by decide) number

theorem usualNtop_inet6 {bytes : List UInt8} (size : bytes.length = 16) :
    (usualNtop .inet6 bytes).length ≤ 42 ∧ 0 ∉ chars (usualNtop .inet6 bytes) := by
  have count := length_groups bytes
  simp only [usualNtop]
  generalize zeroRun (groups bytes) = run
  split
  · obtain ⟨short, clean⟩ := colons_groups (List.Subset.refl (groups bytes))
    exact ⟨by omega, clean⟩
  · obtain ⟨short, clean⟩ := colons_groups (List.take_subset run.1 (groups bytes))
    obtain ⟨short', clean'⟩ := colons_groups (List.drop_subset (run.1 + run.2) (groups bytes))
    constructor
    · simp only [List.length_append, List.length_take, List.length_drop] at short short' ⊢
      have two : "::".toList.length = 2 := by decide
      omega
    · have middle : 0 ∉ chars "::".toList := by decide
      simp only [chars_append, List.mem_append, not_or]
      exact ⟨⟨clean, middle⟩, clean'⟩

theorem ntopStrings_usual : NtopStrings usualNtop where
  short family bytes size := by
    cases family with
    | inet => exact ntopStrings_colon.short .inet bytes size
    | inet6 =>
      have short := (usualNtop_inet6 size).1
      simp only [inet6Addrstrlen]
      omega
  clean family bytes size := by
    cases family with
    | inet => exact ntopStrings_colon.clean .inet bytes size
    | inet6 => exact (usualNtop_inet6 size).2

end Tabeld.Kdump
