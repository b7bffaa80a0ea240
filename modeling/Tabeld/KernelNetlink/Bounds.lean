import Tabeld.KernelNetlink.Reads

set_option autoImplicit false

namespace Tabeld.KernelNetlink

open Attributes Decoder

variable {ρ κ : Type} (host : ByteOrder) (debug : Nat)

theorem within_filterWith {R : Type} (callback : Option (R → κ → κ × Int))
    (decode : Decoder ρ (Int × R)) (wrap : R → Record) (closure : κ) (mem : Memory) (limit : Nat) :
    (filterWith callback decode wrap closure).Within mem limit ↔
      (callback.isSome → decode.Within mem limit) := by
  unfold filterWith
  cases callback with
  | none => simp
  | some call =>
    simp only [within_bind, Option.isSome_some, forall_const, and_iff_left_iff_imp]
    intro _ decoded _
    split <;> simp

structure FilterFits (filter : KernelFilter κ) (type : BitVec 16) (mem : Memory) (limit : Nat) :
    Prop where
  route : type = rtmNewroute ∨ type = rtmDelroute → filter.route.isSome → RouteFits host mem limit
  link : type = rtmNewlink ∨ type = rtmDellink → filter.link.isSome →
    LinkFits host debug mem limit
  addr : type = rtmNewaddr ∨ type = rtmDeladdr → filter.addr.isSome → AddrFits host mem limit
  rule : type = rtmNewrule ∨ type = rtmDelrule → filter.rule.isSome → RuleFits host mem limit

theorem within_filterNetlink (importTables : List (BitVec 32)) (u : Scratch)
    (filter : KernelFilter κ) (nh : Nlmsghdr) (closure : κ) (mem : Memory) (limit : Nat)
    (len : nh.len.toInt - 16 = limit) :
    (filterNetlink host debug importTables u filter nh closure : Decoder ρ _).Within mem limit ↔
      FilterFits host debug filter nh.type mem limit := by
  unfold filterNetlink
  by_cases route : nh.type = rtmNewroute ∨ nh.type = rtmDelroute
  · rw [if_pos route, within_filterWith,
      within_filterKernelRoutes host debug importTables nh u.route mem limit len route]
    refine ⟨fun reads => ⟨fun _ => reads, ?_, ?_, ?_⟩, fun fits => fits.route route⟩ <;>
      rcases route with type | type <;> rw [type] <;> exact fun other => absurd other (by decide)
  rw [if_neg route]
  by_cases link : nh.type = rtmNewlink ∨ nh.type = rtmDellink
  · rw [if_pos link, within_filterWith, within_filterLink host debug nh u.link mem limit len link]
    refine ⟨fun reads => ⟨fun other => absurd other route, fun _ => reads, ?_, ?_⟩,
      fun fits => fits.link link⟩ <;>
      rcases link with type | type <;> rw [type] <;> exact fun other => absurd other (by decide)
  rw [if_neg link]
  by_cases addr : nh.type = rtmNewaddr ∨ nh.type = rtmDeladdr
  · rw [if_pos addr, within_filterWith, within_filterAddresses host nh u.addr mem limit len addr]
    refine ⟨fun reads => ⟨fun other => absurd other route, fun other => absurd other link,
      fun _ => reads, ?_⟩, fun fits => fits.addr addr⟩
    rcases addr with type | type <;> rw [type] <;> exact fun other => absurd other (by decide)
  rw [if_neg addr]
  by_cases rule : nh.type = rtmNewrule ∨ nh.type = rtmDelrule
  · rw [if_pos rule, within_filterWith, within_filterKernelRules host nh u.rule mem limit len]
    exact ⟨fun reads => ⟨fun other => absurd other route, fun other => absurd other link,
      fun other => absurd other addr, fun _ => reads⟩, fun fits => fits.rule rule⟩
  · rw [if_neg rule]
    simp only [within_pure, true_iff]
    exact ⟨fun other => absurd other route, fun other => absurd other link,
      fun other => absurd other addr, fun other => absurd other rule⟩

theorem filterFits_control {filter : KernelFilter κ} {type : BitVec 16} {mem : Memory} {limit : Nat}
    (control : type = nlmsgDone ∨ type = nlmsgError) :
    FilterFits host debug filter type mem limit := by
  refine ⟨?_, ?_, ?_, ?_⟩ <;> rcases control with rfl | rfl <;>
    exact fun other => absurd other (by decide)

/-- NLMSG_OK for the header at `nh`, with `len` bytes left in the buffer. -/
def NlmsgOk (buf : Memory) (nh : Nat) (len : BitVec 32) : Prop :=
  16 ≤ len.toInt ∧ 16 ≤ buf.word host nh 4 ∧ buf.word host nh 4 ≤ len.toInt

instance (buf : Memory) (nh : Nat) (len : BitVec 32) : Decidable (NlmsgOk host buf nh len) :=
  inferInstanceAs (Decidable (_ ∧ _ ∧ _))

def nlmsgAt (buf : Memory) (nh : Nat) : Message where
  hdr :=
    { len := BitVec.ofNat 32 (buf.word host nh 4)
      type := BitVec.ofNat 16 (buf.word host (nh + 4) 2)
      flags := BitVec.ofNat 16 (buf.word host (nh + 6) 2)
      seq := BitVec.ofNat 32 (buf.word host (nh + 8) 4)
      pid := BitVec.ofNat 32 (buf.word host (nh + 12) 4) }
  data := buf.bytes (nh + 16) (buf.word host nh 4 - 16)

def bufferAfter (buf : Memory) (start : Nat) : Memory := fun address => buf (start + address)

theorem ofBytes_nlmsgAt (buf : Memory) (nh : Nat) (header : 16 ≤ buf.word host nh 4) :
    Memory.ofBytes (nlmsgAt host buf nh).data (bufferAfter buf (nh + buf.word host nh 4)) =
      bufferAfter buf (nh + 16) := by
  funext address
  simp only [Memory.ofBytes, nlmsgAt, Memory.length_bytes, bufferAfter]
  split
  next inside =>
    have held := (buf.holds_bytes (nh + 16) (buf.word host nh 4 - 16)).getD
      (by simpa using inside)
    exact held.symm
  next outside =>
    congr 1
    omega

section Dispatch

variable (nl : Netlink) (nlIgnore : Option Netlink) (answer : Bool)
  (importTables : List (BitVec 32)) (filter : Option (KernelFilter κ)) (u : Scratch)

def dispatchAt (buf : Memory) (nh : Nat) (s : Reading (Filtering κ) Message) :
    Flow × Reading (Filtering κ) Message :=
  let after := bufferAfter buf (nh + buf.word host nh 4)
  handle host id nl nlIgnore answer
    (filter.map fun f => asFilter host debug importTables f fun _ => ⟨u, after⟩)
    (nlmsgAt host buf nh) s

def ReadsInside (buf : Memory) (nh : Nat) (s : Reading (Filtering κ) Message) : Prop :=
  let out := dispatchAt host debug nl nlIgnore answer importTables filter u buf nh s
  out.1 ≠ .overread ∧
    ∀ entry ∈ out.2.closure.reads.drop s.closure.reads.length, ∀ access ∈ entry.2,
      access.Inside (bufferAfter buf (nh + 16)) (buf.word host nh 4 - 16)

structure MessageFits (buf : Memory) (nh : Nat) : Prop where
  error : Examined nl nlIgnore answer (nlmsgAt host buf nh).hdr →
    (nlmsgAt host buf nh).hdr.type = nlmsgError → 20 ≤ buf.word host nh 4
  filter : Examined nl nlIgnore answer (nlmsgAt host buf nh).hdr → ∀ f, filter = some f →
    FilterFits host debug f (nlmsgAt host buf nh).hdr.type (bufferAfter buf (nh + 16))
      (buf.word host nh 4 - 16)

theorem reads_deliver (f : KernelFilter κ) (around : Nat → Surroundings) (m : Message)
    (s : Reading (Filtering κ) Message) :
    (deliver id (some (asFilter host debug importTables f around)) m s).closure.reads =
      s.closure.reads ++ [(m, (filterNetlink host debug importTables
        (around s.closure.reads.length).u f m.hdr s.closure.closure :
          Decoder (Verdict κ) (Verdict κ)).accesses
        (Memory.ofBytes m.data (around s.closure.reads.length).beyond))] := by
  unfold deliver
  simp only [id_eq]
  split <;> rfl

theorem closure_deliver_none (m : Message) (s : Reading (Filtering κ) Message) :
    (deliver id none m s).closure = s.closure := by
  unfold deliver
  simp only [id_eq]
  split <;> rfl

theorem nlmsgerrError_none (m : Message) : nlmsgerrError host m = none ↔ m.data.length < 4 := by
  unfold nlmsgerrError
  split <;> simp <;> omega

def StaysInside (mem : Memory) (limit : Nat) (s : Reading (Filtering κ) Message)
    (out : Flow × Reading (Filtering κ) Message) : Prop :=
  out.1 ≠ .overread ∧ ∀ entry ∈ out.2.closure.reads.drop s.closure.reads.length,
    ∀ access ∈ entry.2, access.Inside mem limit

theorem staysInside_unfiltered {mem : Memory} {limit : Nat} {s : Reading (Filtering κ) Message}
    {out : Flow × Reading (Filtering κ) Message} (flow : out.1 ≠ .overread)
    (closure : out.2.closure = s.closure) : StaysInside mem limit s out := by
  refine ⟨flow, ?_⟩
  rw [closure, List.drop_length]
  simp

theorem staysInside_deliver {m : Message} {mem beyond : Memory} {limit : Nat}
    (length : m.hdr.len.toInt - 16 = limit) (whole : Memory.ofBytes m.data beyond = mem)
    {s t : Reading (Filtering κ) Message} (closure : t.closure = s.closure) :
    StaysInside mem limit s
        (.next, deliver id (filter.map fun f => asFilter host debug importTables f fun _ =>
          ⟨u, beyond⟩) m t) ↔
      ∀ f, filter = some f → FilterFits host debug f m.hdr.type mem limit := by
  cases filter with
  | none => exact iff_of_true (staysInside_unfiltered (by simp)
      ((closure_deliver_none m t).trans closure)) (by simp)
  | some f =>
    have within := within_filterNetlink (ρ := Verdict κ) host debug importTables u f m.hdr
      s.closure.closure mem limit length
    simp only [StaysInside, Option.map_some, reads_deliver, closure, List.drop_left,
      List.mem_singleton, forall_eq, whole, Option.some.injEq, forall_eq']
    exact (and_iff_right (by simp)).trans within

theorem staysInside_handle {m : Message} {mem beyond : Memory} {limit : Nat}
    (examined : Examined nl nlIgnore answer m.hdr) (size : m.data.length = limit)
    (length : m.hdr.len.toInt - 16 = limit) (whole : Memory.ofBytes m.data beyond = mem)
    (s : Reading (Filtering κ) Message) :
    StaysInside mem limit s (handle host id nl nlIgnore answer
        (filter.map fun f => asFilter host debug importTables f fun _ => ⟨u, beyond⟩) m s) ↔
      (m.hdr.type = nlmsgError → 4 ≤ limit) ∧
        ∀ f, filter = some f → FilterFits host debug f m.hdr.type mem limit := by
  rw [handle_examined host id nl nlIgnore answer _ examined]
  obtain ⟨t, entered⟩ : ∃ t, t = if answer then s else { s with done := true } := ⟨_, rfl⟩
  have closure : t.closure = s.closure := by
    rw [entered]
    split <;> rfl
  simp only [← entered, id_eq]
  by_cases done : m.hdr.type = nlmsgDone
  · have plain : m.hdr.type ≠ nlmsgError := by rw [done]; decide
    rw [if_pos done]
    exact iff_of_true (staysInside_unfiltered (by simp) closure)
      ⟨fun error => absurd error plain, fun f _ => filterFits_control host debug (Or.inl done)⟩
  rw [if_neg done]
  by_cases error : m.hdr.type = nlmsgError
  · rw [if_pos error]
    have short := nlmsgerrError_none host m
    cases found : nlmsgerrError host m with
    | none =>
      have missing := short.mp found
      refine iff_of_false (fun inside => inside.1 rfl) fun fits => ?_
      have long := fits.1 error
      omega
    | some code =>
      have present : ¬m.data.length < 4 := by simp [← short, found]
      refine iff_of_true ?_
        ⟨fun _ => by omega, fun f _ => filterFits_control host debug (Or.inr error)⟩
      simp only
      split <;> exact staysInside_unfiltered (by simp) closure
  · rw [if_neg error, staysInside_deliver host debug importTables filter u length whole closure]
    exact (and_iff_right fun isError => absurd isError error).symm

theorem readsInside_iff (buf : Memory) (nh : Nat) (len : BitVec 32)
    (ok : NlmsgOk host buf nh len) (s : Reading (Filtering κ) Message) :
    ReadsInside host debug nl nlIgnore answer importTables filter u buf nh s ↔
      MessageFits host debug nl nlIgnore answer filter buf nh := by
  obtain ⟨-, header, inside⟩ := ok
  have bound := len.toInt_lt
  have size : (nlmsgAt host buf nh).data.length = buf.word host nh 4 - 16 := by
    simp [nlmsgAt]
  have length : (nlmsgAt host buf nh).hdr.len.toInt - 16 = (buf.word host nh 4 - 16 : Nat) := by
    simp only [nlmsgAt]
    rw [BitVec.toInt_eq_toNat_cond, BitVec.toNat_ofNat, if_pos] <;> omega
  by_cases examined : Examined nl nlIgnore answer (nlmsgAt host buf nh).hdr
  · have handled := staysInside_handle host debug nl nlIgnore answer importTables filter u examined
      size length (ofBytes_nlmsgAt host buf nh header) s
    constructor
    · intro inside
      have fits := handled.mp inside
      refine ⟨fun _ error => ?_, fun _ => fits.2⟩
      have room := fits.1 error
      omega
    · intro fits
      refine handled.mpr ⟨fun error => ?_, fits.filter examined⟩
      have room := fits.error examined error
      omega
  · obtain ⟨flow, -, closure⟩ := handle_unexamined host id nl nlIgnore answer
      (filter.map fun f => asFilter host debug importTables f fun _ =>
        ⟨u, bufferAfter buf (nh + buf.word host nh 4)⟩) examined s
    have continues : (dispatchAt host debug nl nlIgnore answer importTables filter u buf nh s).1 ≠
        .overread := fun overread => absurd (flow.symm.trans overread) (by simp)
    exact iff_of_true (staysInside_unfiltered continues closure)
      ⟨fun passed => absurd passed examined, fun passed => absurd passed examined⟩

end Dispatch

def routesOnly : KernelFilter Unit where
  route := some fun _ closure => (closure, 0)
  addr := none
  link := none
  rule := none

def unread : Reading (Filtering Unit) Message where
  done := false
  skip := false
  errno := 0
  closure := { closure := (), calls := [], reads := [] }
  trace := []

def listening : Netlink := { seqno := 1, sock := 5, nlPid := 1000, socklen := 12 }

def routeWithOif (oif : UInt8) : Memory :=
  Memory.ofBytes
    ([28 + oif, 0, 0, 0, 24, 0, 0, 0, 0, 0, 0, 0, 0, 0, 0, 0] ++
      [10, 0, 0, 0, 254, 2, 0, 1, 0, 0, 0, 0] ++
      [oif, 0, 4, 0, 3, 0, 0, 0])
    Memory.zeroed

theorem readsInside_iff_wholeOif :
    ReadsInside .little 0 listening none false [254] (some routesOnly) Scratch.cleared
        (routeWithOif 8) 0 unread ↔
      MessageFits .little 0 listening none false (some routesOnly) (routeWithOif 8) 0 :=
  readsInside_iff .little 0 listening none false [254] (some routesOnly) Scratch.cleared
    (routeWithOif 8) 0 36 (by decide) unread

theorem not_readsInside_emptyOif :
    NlmsgOk .little (routeWithOif 4) 0 36 ∧
      ¬ReadsInside .little 0 listening none false [254] (some routesOnly) Scratch.cleared
        (routeWithOif 4) 0 unread := by
  refine ⟨by decide, ?_⟩
  rintro ⟨-, inside⟩
  revert inside
  decide

end Tabeld.KernelNetlink
