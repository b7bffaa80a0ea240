import Tabeld.KernelNetlink.Values

set_option autoImplicit false

namespace Tabeld.KernelNetlink

open Attributes Decoder Kdump

variable {ρ : Type} (host : ByteOrder) (debug : Nat)

@[simp] theorem within_int (start : Nat) (mem : Memory) (limit : Nat) :
    (int host start : Decoder ρ _).Within mem limit ↔ start + 4 ≤ limit := by
  simp [int]

@[simp] theorem within_in4 (start : Nat) (mem : Memory) (limit : Nat) :
    (in4 start : Decoder ρ _).Within mem limit ↔ start + 4 ≤ limit := by
  simp [in4]

@[simp] theorem within_in6 (start : Nat) (mem : Memory) (limit : Nat) :
    (in6 start : Decoder ρ _).Within mem limit ↔ start + 16 ≤ limit := by
  simp [in6]

@[simp] theorem within_debugging (level : Nat) (d : Decoder ρ Unit) (mem : Memory) (limit : Nat) :
    (debugging debug level d).Within mem limit ↔ (level ≤ debug → d.Within mem limit) := by
  unfold debugging
  split <;> simp_all

theorem within_copyAddr (rta : Attribute) (v4 : Bool) (truncated : ρ) (mem : Memory) (limit : Nat)
    (header : 4 ≤ rta.len) (inside : rta.offset + rta.len ≤ limit) :
    (copyAddr rta v4 truncated).Within mem limit := by
  unfold copyAddr
  cases v4 <;> simp only [within_ite, within_stop, within_in4, within_in6, Attribute.payload,
    Attribute.data, Bool.false_eq_true, if_false, if_true] <;> split <;> first | trivial | omega

def IsRouteInt (type : Nat) : Prop := type = rtaOif ∨ type = rtaPriority ∨ type = rtaTable

instance (type : Nat) : Decidable (IsRouteInt type) := inferInstanceAs (Decidable (_ ∨ _ ∨ _))

theorem within_routeRta (mem : Memory) (isV4 : Bool) (a : Attribute) (s : RouteParse) (limit : Nat)
    (fixed : 12 ≤ limit) (header : 4 ≤ a.len) (inside : a.offset + a.len ≤ limit) :
    (routeRta host 0 isV4 a s).Within mem limit ↔ (IsRouteInt a.type → a.data + 4 ≤ limit) := by
  have copy (t : Int × KernelRoute) := within_copyAddr a isV4 t mem limit header inside
  have two : 0 + 1 + 1 ≤ limit ∧ 0 + 2 + 1 ≤ limit := by omega
  unfold routeRta IsRouteInt
  by_cases dst : a.type = rtaDst
  · simp [dst, copy, two, rtaDst, rtaOif, rtaPriority, rtaTable]
  by_cases src : a.type = rtaSrc
  · simp [src, copy, two, rtaDst, rtaSrc, rtaOif, rtaPriority, rtaTable]
  by_cases gateway : a.type = rtaGateway
  · simp [gateway, copy, rtaDst, rtaSrc, rtaGateway, rtaOif, rtaPriority, rtaTable]
  by_cases oif : a.type = rtaOif
  · simp [oif, rtaDst, rtaSrc, rtaGateway, rtaOif]
  by_cases priority : a.type = rtaPriority
  · simp [priority, rtaDst, rtaSrc, rtaGateway, rtaOif, rtaPriority]
  by_cases table : a.type = rtaTable
  · simp [table, rtaDst, rtaSrc, rtaGateway, rtaOif, rtaPriority, rtaTable]
  · simp [dst, src, gateway, oif, priority, table]

def reachedRoutes (mem : Memory) (limit : Nat) : List Attribute :=
  upTo (fun a => decide (IsRouteAddress a.type ∧ Truncated (familyIsV4 mem 0) a))
    (list host mem 12 (limit - 12))

theorem within_parseKernelRouteRta (importTables : List (BitVec 32)) (mem : Memory) (limit : Nat)
    (fixed : 12 ≤ limit) :
    (parseKernelRouteRta host importTables 0 limit : Decoder ρ _).Within mem limit ↔
      ∀ a ∈ reachedRoutes host mem limit, IsRouteInt a.type → a.data + 4 ≤ limit := by
  have loop (s : RouteParse) :
      (each host (routeRta host 0 (familyIsV4 mem 0)) 12
        (limit - 12) s).Within mem limit ↔
      ∀ a ∈ reachedRoutes host mem limit, IsRouteInt a.type → a.data + 4 ≤ limit :=
    within_each_free host _ (fun a => IsRouteInt a.type → a.data + 4 ≤ limit) (by omega)
    (fun a member s => by
      obtain ⟨-, header, inside⟩ := mem_list host member
      exact within_routeRta host mem (familyIsV4 mem 0) a s limit fixed header (by omega))
    (fun a s => stops_routeRta host mem 0 (familyIsV4 mem 0) a s) s
  have family : decide ((mem 0).toNat = afInet) = familyIsV4 mem 0 := rfl
  have first : 0 + 4 + 1 ≤ limit ∧ 0 + 1 ≤ limit ∧ 0 + 5 + 1 ≤ limit := by omega
  simp only [parseKernelRouteRta, within_call, within_bind, within_word, value_word,
    Except.ok.injEq, forall_eq', within_pure, implies_true, and_true, Memory.word_one, first,
    true_and, family, Nat.zero_add, loop, reachedRoutes]

structure RouteFits (mem : Memory) (limit : Nat) : Prop where
  protocol : 6 ≤ limit
  fixed : (mem 5).toNat ≠ rtprotBabel → 12 ≤ limit
  attrs : (mem 5).toNat ≠ rtprotBabel → mem.word host 8 4 &&& rtmFCloned = 0 →
    ∀ a ∈ reachedRoutes host mem limit, IsRouteInt a.type → a.data + 4 ≤ limit

theorem within_filterKernelRoutes (importTables : List (BitVec 32)) (nh : Nlmsghdr)
    (route : KernelRoute) (mem : Memory) (limit : Nat) (len : nh.len.toInt - 16 = limit)
    (type : nh.type = rtmNewroute ∨ nh.type = rtmDelroute) :
    (filterKernelRoutes host debug importTables nh route : Decoder ρ _).Within mem limit ↔
      RouteFits host mem limit := by
  have same : RouteFits host mem limit ↔ 6 ≤ limit ∧ ((mem 5).toNat ≠ rtprotBabel →
      12 ≤ limit ∧ (mem.word host 8 4 &&& rtmFCloned = 0 →
        ∀ a ∈ reachedRoutes host mem limit, IsRouteInt a.type → a.data + 4 ≤ limit)) :=
    ⟨fun fits => ⟨fits.protocol, fun other => ⟨fits.fixed other, fits.attrs other⟩⟩,
      fun fits => ⟨fits.1, fun other => (fits.2 other).1, fun other => (fits.2 other).2⟩⟩
  have typed : ¬(nh.type ≠ rtmNewroute ∧ nh.type ≠ rtmDelroute) := by
    rwa [← Decidable.or_iff_not_not_and_not]
  rw [same]
  simp only [filterKernelRoutes, typed, if_false, len, within_bind, within_word, value_word,
    Except.ok.injEq, forall_eq', Nat.zero_add, Memory.word_one, within_ite, within_pure]
  apply and_congr_right
  intro _
  by_cases babel : (mem 5).toNat = rtprotBabel
  · simp [babel]
  · simp only [babel, if_false, ne_eq, not_false_eq_true, forall_const]
    apply and_congr_right
    intro fixed
    by_cases cloned : mem.word host 8 4 &&& rtmFCloned = 0
    · simp only [cloned, not_true_eq_false, if_false, forall_const,
        within_parseKernelRouteRta host importTables mem limit fixed]
      refine ⟨fun reads => reads.1, fun attrs => ⟨attrs, fun parsed _ => ?_⟩⟩
      -- what is read after the loop is inside the fixed part
      split
      next => trivial
      next =>
        split
        next => trivial
        next =>
          simp
          omega
    · simp [cloned]

def ifnameIn (mem : Memory) (limit : Nat) : Option Nat :=
  (list host mem 16 (limit - 16)).foldl
    (fun ifname a => if a.type = iflaIfname then some a.data else ifname) none

structure LinkFits (mem : Memory) (limit : Nat) : Prop where
  fixed : 12 ≤ limit
  -- the debugging output prints the name
  name : 3 ≤ debug → ∀ name, ifnameIn host mem limit = some name →
    ∃ stop < limit, name ≤ stop ∧ mem stop = 0

theorem value_parseIfnameRta (mem : Memory) (limit : Nat) :
    (parseIfnameRta host 0 limit : Decoder ρ _).value mem = .ok (ifnameIn host mem limit) := by
  apply value_each_ok host fun a ifname => if a.type = iflaIfname then some a.data else ifname
  intro a _ s
  simp only [ifnameRta, value_ite, value_pure]
  split <;> rfl

theorem within_parseIfnameRta (mem : Memory) (limit : Nat) :
    (parseIfnameRta host 0 limit : Decoder ρ _).Within mem limit := by
  rw [parseIfnameRta]
  refine (within_each_free host (fun _ => false) (fun _ => True) (by omega) ?_ ?_ none).mpr
    fun _ _ => trivial
  · intro a _ s
    simp [ifnameRta]
  · intro a s
    by_cases name : a.type = iflaIfname <;> simp [ifnameRta, name]

theorem within_filterLink (nh : Nlmsghdr) (link : KernelLink) (mem : Memory) (limit : Nat)
    (len : nh.len.toInt - 16 = limit) (type : nh.type = rtmNewlink ∨ nh.type = rtmDellink) :
    (filterLink host debug nh link : Decoder ρ _).Within mem limit ↔
      LinkFits host debug mem limit := by
  have same : LinkFits host debug mem limit ↔ 12 ≤ limit ∧ (3 ≤ debug → ∀ name,
      ifnameIn host mem limit = some name → ∃ stop < limit, name ≤ stop ∧ mem stop = 0) :=
    ⟨fun fits => ⟨fits.fixed, fits.name⟩, fun fits => ⟨fits.1, fits.2⟩⟩
  have typed : ¬(nh.type ≠ rtmNewlink ∧ nh.type ≠ rtmDellink) := by
    rwa [← Decidable.or_iff_not_not_and_not]
  rw [same]
  simp only [filterLink, typed, if_false, len, within_bind, within_int, value_int, Except.ok.injEq,
    forall_eq', value_parseIfnameRta]
  constructor
  · rintro ⟨-, fixed, -, rest⟩
    refine ⟨by omega, ?_⟩
    intro shown name named
    simpa [named, shown] using rest
  · rintro ⟨fixed, terminated⟩
    refine ⟨by omega, by omega, within_parseIfnameRta host mem limit, ?_⟩
    cases named : ifnameIn host mem limit with
    | none => simp
    | some name => simpa using fun shown => terminated shown name named

def reachedAddrs (mem : Memory) (limit : Nat) : List Attribute :=
  upTo (fun a => decide (IsIfAddress a.type ∧ (KnownFamily (mem 0).toNat → a.type = ifaLocal)))
    (list host mem 8 (limit - 8))

structure AddrFits (mem : Memory) (limit : Nat) : Prop where
  fixed : 8 ≤ limit
  attrs : KnownFamily (mem 0).toNat → ∀ a ∈ reachedAddrs host mem limit, IsIfAddress a.type →
    a.data + addressSize (familyIsV4 mem 0) ≤ limit

theorem within_addrRta (mem : Memory) (a : Attribute) (s : AddrParse) (limit : Nat)
    (family : 1 ≤ limit) :
    (addrRta host 0 a s).Within mem limit ↔
      (IsIfAddress a.type → KnownFamily (mem 0).toNat →
        a.data + addressSize (familyIsV4 mem 0) ≤ limit) := by
  unfold addrRta IsIfAddress KnownFamily
  by_cases address : a.type = ifaLocal ∨ a.type = ifaAddress
  · by_cases v4 : (mem 0).toNat = afInet
    · simp [address, v4, addressSize, familyIsV4, family]
    · by_cases v6 : (mem 0).toNat = afInet6
      · simp [address, v6, addressSize, familyIsV4, family, afInet, afInet6]
      · simp [address, v4, v6, family]
  · simp [address]

theorem within_parseAddrRta (mem : Memory) (limit : Nat) (res : Addr6) :
    (parseAddrRta host 0 limit res : Decoder ρ _).Within mem limit ↔
      ∀ a ∈ reachedAddrs host mem limit, IsIfAddress a.type → KnownFamily (mem 0).toNat →
        a.data + addressSize (familyIsV4 mem 0) ≤ limit := by
  have loop : (each host (addrRta host 0) 8 (limit - 8)
        { hasLocal := false, res := res }).Within mem limit ↔
      ∀ a ∈ reachedAddrs host mem limit, IsIfAddress a.type → KnownFamily (mem 0).toNat →
        a.data + addressSize (familyIsV4 mem 0) ≤ limit :=
    within_each host _ (fun a => IsIfAddress a.type → KnownFamily (mem 0).toNat →
      a.data + addressSize (familyIsV4 mem 0) ≤ limit)
    -- has_local is only set when the loop ends
    (fun s => s.hasLocal = false) (by omega)
    (fun a member s => by
      have position := mem_list host member
      exact within_addrRta host mem a s limit (by omega))
    (fun a _ s unset => stops_addrRta host mem 0 a s unset)
    (fun a _ s t unset reached => (hasLocal_addrRta host mem 0 a s t reached).trans unset)
    { hasLocal := false, res := res } rfl
  simp only [parseAddrRta, within_call, within_bind, Nat.zero_add, loop, within_pure, implies_true,
    and_true, reachedAddrs]

theorem within_filterAddresses (nh : Nlmsghdr) (addr : KernelAddr) (mem : Memory) (limit : Nat)
    (len : nh.len.toInt - 16 = limit) (type : nh.type = rtmNewaddr ∨ nh.type = rtmDeladdr) :
    (filterAddresses host nh addr : Decoder ρ _).Within mem limit ↔ AddrFits host mem limit := by
  have typed : ¬(nh.type ≠ rtmNewaddr ∧ nh.type ≠ rtmDeladdr) := by
    rwa [← Decidable.or_iff_not_not_and_not]
  simp only [filterAddresses, typed, if_false, len, within_bind, within_parseAddrRta, within_ite,
    within_pure, within_int]
  constructor
  · rintro ⟨attrs, index⟩
    refine ⟨?_, fun known a reached address => attrs a reached address known⟩
    by_contra short
    -- without an attribute parse_addr_rta returns 0
    have none : list host mem (0 + 8) ((limit : Int) - 8) = [] := by
      rw [list_eq, if_neg fun ok => by have room := ok.1; omega]
    have parsed : (parseAddrRta host 0 limit addr.addr : Decoder ρ _).value mem =
        .ok (0, addr.addr) := by
      simp only [parseAddrRta, value_call, result, value_bind, value_each, none, List.foldlM_nil]
      rfl
    have later := index _ parsed
    simp at later
    omega
  · intro fits
    refine ⟨fun a reached address known => fits.attrs known a reached address, ?_⟩
    intro parsed _
    have fixed := fits.fixed
    split
    next => trivial
    next => simpa using fixed

def reachedRules (mem : Memory) (limit : Nat) : List Attribute :=
  upTo (fun a => decide (a.type = fraSrc ∧ Truncated (familyIsV4 mem 0) a))
    (list host mem 12 (limit - 12))

def IsRuleInt (type : Nat) : Prop := type = fraPriority ∨ type = fraTable

instance (type : Nat) : Decidable (IsRuleInt type) := inferInstanceAs (Decidable (_ ∨ _))

structure RuleFits (mem : Memory) (limit : Nat) : Prop where
  fixed : 5 ≤ limit
  attrs : KnownFamily (mem 0).toNat → ∀ a ∈ reachedRules host mem limit, IsRuleInt a.type →
    a.data + 4 ≤ limit

theorem within_ruleRta (mem : Memory) (isV4 : Bool) (a : Attribute) (s : RuleParse) (limit : Nat)
    (fixed : 3 ≤ limit) (header : 4 ≤ a.len) (inside : a.offset + a.len ≤ limit) :
    (ruleRta host 0 isV4 a s).Within mem limit ↔ (IsRuleInt a.type → a.data + 4 ≤ limit) := by
  have copy (t : Int × KernelRule) := within_copyAddr a isV4 t mem limit header inside
  have two : 0 + 2 + 1 ≤ limit := by omega
  unfold ruleRta IsRuleInt
  by_cases unspec : a.type = fraUnspec
  · simp [unspec, fraUnspec, fraPriority, fraTable]
  by_cases src : a.type = fraSrc
  · simp [src, copy, two, fraUnspec, fraSrc, fraPriority, fraTable]
  by_cases priority : a.type = fraPriority
  · simp [priority, fraUnspec, fraSrc, fraPriority]
  by_cases table : a.type = fraTable
  · simp [table, fraUnspec, fraSrc, fraPriority, fraTable]
  · simp [unspec, src, priority, table]

theorem within_filterKernelRules (nh : Nlmsghdr) (rule : KernelRule) (mem : Memory) (limit : Nat)
    (len : nh.len.toInt - 16 = limit) :
    (filterKernelRules host nh rule : Decoder ρ _).Within mem limit ↔ RuleFits host mem limit := by
  have same : RuleFits host mem limit ↔ 5 ≤ limit ∧ (KnownFamily (mem 0).toNat →
      ∀ a ∈ reachedRules host mem limit, IsRuleInt a.type → a.data + 4 ≤ limit) :=
    ⟨fun fits => ⟨fits.fixed, fits.attrs⟩, fun fits => ⟨fits.1, fits.2⟩⟩
  have family : decide ((mem 0).toNat = afInet) = familyIsV4 mem 0 := rfl
  have tested : ((mem 0).toNat ≠ afInet ∧ (mem 0).toNat ≠ afInet6) ↔
      ¬KnownFamily (mem 0).toNat := by
    rw [KnownFamily, not_or]
  rw [same]
  simp only [filterKernelRules, within_call, within_bind, within_word, value_word,
    Except.ok.injEq, forall_eq', Nat.zero_add, Memory.word_one, within_ite, within_pure, tested,
    len, family]
  by_cases known : KnownFamily (mem 0).toNat
  · simp only [known, not_true_eq_false, if_false, forall_const]
    have loop (fixed : 5 ≤ limit) (s : RuleParse) :
        (each host (ruleRta host 0 (familyIsV4 mem 0)) 12 (limit - 12) s).Within mem limit ↔
          ∀ a ∈ reachedRules host mem limit, IsRuleInt a.type → a.data + 4 ≤ limit :=
      within_each_free host _ (fun a => IsRuleInt a.type → a.data + 4 ≤ limit) (by omega)
      (fun a member s => by
        obtain ⟨-, header, inside⟩ := mem_list host member
        exact within_ruleRta host mem (familyIsV4 mem 0) a s limit (by omega) header (by omega))
      (fun a s => stops_ruleRta host mem 0 (familyIsV4 mem 0) a s) s
    constructor
    · rintro ⟨-, fixed, -, attrs, -⟩
      exact ⟨by omega, (loop (by omega) _).mp attrs⟩
    · rintro ⟨fixed, attrs⟩
      refine ⟨by omega, by omega, by omega, (loop fixed _).mpr attrs, ?_⟩
      intro s _
      split <;> trivial
  · simp only [known, not_false_eq_true, if_true, and_true, false_implies]
    omega

end Tabeld.KernelNetlink
