import Tabeld.KernelNetlink.Requests
import Tabeld.KernelNetlink.Tables

set_option autoImplicit false

namespace Tabeld.KernelNetlink

def einval : Int := 22

variable (host : ByteOrder) (subtrees : Bool)

def reopen (d : Dealing) (nl : Netlink) : Int × Netlink :=
  if nl.sock < 0 then netlinkSocket nl d.opening else (0, nl)

/-- The tests that come before everything else, whatever the operation. -/
def prepare (d : Dealing) (r : RouteSpec) (s : System) : System × Int :=
  if s.nlSetup = false then ({ s with errno := eio }, -1)
  else
    let opened := reopen d s.nl
    let s := { s with nl := opened.2 }
    if opened.1 < 0 then ({ s with errno := d.openErrno }, -1)
    else if ¬r.Consistent then ({ s with errno := einval }, -1)
    else (s, 0)

def changeRoute (operation : Operation) (d : Dealing) (table : BitVec 32) (r : RouteSpec)
    (s : System) : System × Option Int :=
  let prepared := prepare d r s
  if prepared.2 < 0 then (prepared.1, some (-1))
  else if r.Ignored then (prepared.1, some 0)
  else talk host d (routeMessage host subtrees operation table r) prepared.1

structure Replacement where
  gate : Addr6
  ifindex : BitVec 32
  metric : BitVec 32
  table : BitVec 32
  deriving DecidableEq

def RouteSpec.replaced (r : RouteSpec) (new : Replacement) : RouteSpec :=
  { r with gate := new.gate, ifindex := new.ifindex, metric := new.metric }

/-- The shortcut of ROUTE_MODIFY; it does not compare the tables. -/
def SameRoute (r : RouteSpec) (new : Replacement) : Prop :=
  new.metric = r.metric ∧ new.gate = r.gate ∧ new.ifindex = r.ifindex

instance (r : RouteSpec) (new : Replacement) : Decidable (SameRoute r new) :=
  inferInstanceAs (Decidable (_ ∧ _ ∧ _))

structure Dealings where
  -- for the outer call, and for the requests of the two inner ones
  first : Dealing
  flush : Dealing
  add : Dealing

def kernelRoute (operation : Operation) (d : Dealings) (table : BitVec 32) (r : RouteSpec)
    (new : Replacement) (s : System) : System × Option Int :=
  match operation with
  | .modify =>
    let prepared := prepare d.first r s
    if prepared.2 < 0 then (prepared.1, some (-1))
    else if SameRoute r new then (prepared.1, some 0)
    else
      -- the result is not looked at
      match changeRoute host subtrees .flush d.flush table r prepared.1 with
      | (s, none) => (s, none)
      | (s, some _) =>
        match changeRoute host subtrees .add d.add new.table (r.replaced new) s with
        | (s, none) => (s, none)
        | (s, some rc) => (s, some (if rc < 0 ∧ s.errno = eexist then 1 else rc))
  | other => changeRoute host subtrees other d.first table r s

theorem prepare_same (d : Dealing) (r : RouteSpec) (s : System) :
    (prepare d r s).1.routes = s.routes ∧ (prepare d r s).1.history = s.history := by
  unfold prepare
  split
  next => exact ⟨rfl, rfl⟩
  next =>
    simp only
    split
    next => exact ⟨rfl, rfl⟩
    next => split <;> exact ⟨rfl, rfl⟩

def FailsAtOnce (d : Dealing) (r : RouteSpec) (s : System) : Prop :=
  s.nlSetup = false ∨ s.nl.sock < 0 ∧ (netlinkSocket s.nl d.opening).1 < 0 ∨ ¬r.Consistent

theorem prepare_fails (d : Dealing) (r : RouteSpec) (s : System) :
    (prepare d r s).2 < 0 ↔ FailsAtOnce d r s := by
  unfold prepare FailsAtOnce reopen
  by_cases setup : s.nlSetup = false
  · simp [setup]
  by_cases closed : s.nl.sock < 0
  · by_cases refused : (netlinkSocket s.nl d.opening).1 < 0 <;>
      by_cases consistent : r.Consistent <;> simp [setup, closed, refused, consistent]
  · by_cases consistent : r.Consistent <;> simp [setup, closed, consistent]

theorem prepare_errno {d : Dealing} (undisturbed : d.Undisturbed) {r : RouteSpec} {s : System}
    (failed : (prepare d r s).2 < 0) : (prepare d r s).1.errno ≠ eexist := by
  unfold prepare at failed ⊢
  split at failed
  next unset =>
    rw [if_pos unset]
    exact show eio ≠ eexist by decide
  next set =>
    rw [if_neg set]
    simp only at failed ⊢
    split at failed
    next closed =>
      rw [if_pos closed]
      exact undisturbed.opening
    next opened =>
      rw [if_neg opened]
      split at failed
      next mixed =>
        rw [if_pos mixed]
        exact show einval ≠ eexist by decide
      next => exact absurd failed (Int.lt_irrefl 0)

theorem nlSetup_prepare (d : Dealing) (r : RouteSpec) (s : System) :
    (prepare d r s).1.nlSetup = s.nlSetup := by
  unfold prepare
  split
  next => rfl
  next =>
    simp only
    split
    next => rfl
    next => split <;> rfl

theorem changeRoute_fails {operation : Operation} {d : Dealing} {table : BitVec 32} {r : RouteSpec}
    {s : System} (fails : FailsAtOnce d r s) :
    changeRoute host subtrees operation d table r s = ((prepare d r s).1, some (-1)) := by
  rw [changeRoute]
  exact if_pos ((prepare_fails d r s).mpr fails)

theorem changeRoute_sent {operation : Operation} {d : Dealing} {table : BitVec 32} {r : RouteSpec}
    {s : System} (passes : ¬FailsAtOnce d r s) (sent : ¬r.Ignored) :
    changeRoute host subtrees operation d table r s =
      talk host d (routeMessage host subtrees operation table r) (prepare d r s).1 := by
  rw [changeRoute]
  exact (if_neg (mt (prepare_fails d r s).mp passes)).trans (if_neg sent)

theorem changeRoute_routes (operation : Operation) (d : Dealing) (table : BitVec 32)
    (r : RouteSpec) (s : System) :
    (changeRoute host subtrees operation d table r s).1.routes = s.routes ∨
      d.Accepts (routeMessage host subtrees operation table r) ∧
        (changeRoute host subtrees operation d table r s).1.routes =
          if operation = .add then insert (installed subtrees table r) s.routes
          else s.routes.erase (installed subtrees table r) := by
  have same := (prepare_same d r s).1
  unfold changeRoute
  simp only
  split
  · exact Or.inl same
  · split
    · exact Or.inl same
    · rw [routes_talk, same]
      by_cases accepts : d.Accepts (routeMessage host subtrees operation table r)
      · exact Or.inr ⟨accepts, if_pos accepts⟩
      · exact Or.inl (if_neg accepts)

theorem changeRoute_unacknowledged {operation : Operation} {d : Dealing} {table : BitVec 32}
    {r : RouteSpec} {s : System} {rc : Int}
    (returned : (changeRoute host subtrees operation d table r s).2 = some rc) (failed : rc < 0) :
    (changeRoute host subtrees operation d table r s).1.routes = s.routes ∨
      ∃ x, (changeRoute host subtrees operation d table r s).1.history = s.history ++ [x] ∧
        Unacknowledged x := by
  have same := prepare_same d r s
  unfold changeRoute at returned ⊢
  simp only at returned ⊢
  split at returned
  next stopped =>
    rw [if_pos stopped]
    exact Or.inl same.1
  next ready =>
    rw [if_neg ready]
    split at returned
    next =>
      cases returned
      contradiction
    next sent =>
      rw [if_neg sent]
      obtain ⟨x, history, -, unread⟩ := talk_unacknowledged host returned failed
      exact Or.inr ⟨x, by rw [history, same.2], unread⟩

def TwoCalls (d : Dealings) (table : BitVec 32) (r : RouteSpec) (new : Replacement) (s out : System)
    (rc : Int) : Prop :=
  ∃ mid flushRc addRc,
    changeRoute host subtrees .flush d.flush table r (prepare d.first r s).1 = (mid, some flushRc) ∧
    changeRoute host subtrees .add d.add new.table (r.replaced new) mid = (out, some addRc) ∧
    rc = if addRc < 0 ∧ out.errno = eexist then 1 else addRc

theorem kernelRoute_modify {d : Dealings} {table : BitVec 32} {r : RouteSpec} {new : Replacement}
    {s out : System} {rc : Int}
    (returned : kernelRoute host subtrees .modify d table r new s = (out, some rc)) :
    FailsAtOnce d.first r s ∧ rc = -1 ∧ out.routes = s.routes ∨
    ¬FailsAtOnce d.first r s ∧ SameRoute r new ∧ rc = 0 ∧ out.routes = s.routes ∨
    ¬FailsAtOnce d.first r s ∧ ¬SameRoute r new ∧
      TwoCalls host subtrees d table r new s out rc := by
  have same := (prepare_same d.first r s).1
  have fails_iff := prepare_fails d.first r s
  unfold kernelRoute at returned
  simp only at returned
  split at returned
  next fails =>
    obtain ⟨rfl, value⟩ := Prod.mk.inj returned
    exact Or.inl ⟨fails_iff.mp fails, (Option.some.inj value).symm, same⟩
  next passed =>
    have ready := fun fails => passed (fails_iff.mpr fails)
    split at returned
    next shortcut =>
      obtain ⟨rfl, value⟩ := Prod.mk.inj returned
      exact Or.inr (Or.inl ⟨ready, shortcut, (Option.some.inj value).symm, same⟩)
    next different =>
      refine Or.inr (Or.inr ⟨ready, different, ?_⟩)
      split at returned
      next => cases returned
      next mid flushRc flush =>
        split at returned
        next => cases returned
        next last addRc add =>
          obtain ⟨rfl, value⟩ := Prod.mk.inj returned
          exact ⟨mid, flushRc, addRc, flush, add, (Option.some.inj value).symm⟩

theorem installed_low {table : BitVec 32} (low : table.toNat < 256) (r : RouteSpec) :
    installed subtrees table r = { table := table, route := decodedRoute subtrees r } := by
  rw [installed, (lowTable_eq_self table).mpr low]

/-- The routes after a failure: as before, without the old route, or, if the kernel has carried out
an addition whose acknowledgement was not read, with the new one too. -/
def LeftBehind (old added : Installed) (accepted : Prop) (s out : System) : Prop :=
  out.routes = s.routes ∨ out.routes = s.routes.erase old ∨
    accepted ∧ (∃ x, out.history.getLast? = some x ∧ Unacknowledged x) ∧
      (out.routes = insert added s.routes ∨ out.routes = insert added (s.routes.erase old))

theorem modify_failed {d : Dealings} {table : BitVec 32} {r : RouteSpec} {new : Replacement}
    {s out : System} {rc : Int} (low : table.toNat < 256) (lowNew : new.table.toNat < 256)
    (returned : kernelRoute host subtrees .modify d table r new s = (out, some rc))
    (failed : rc < 0) :
    (FailsAtOnce d.first r s → out.routes = s.routes) ∧
      LeftBehind { table := table, route := decodedRoute subtrees r }
        { table := new.table, route := decodedRoute subtrees (r.replaced new) }
        (d.add.Accepts (routeMessage host subtrees .add new.table (r.replaced new))) s out := by
  rw [← installed_low subtrees low, ← installed_low subtrees lowNew]
  rcases kernelRoute_modify host subtrees returned with
    ⟨-, -, same⟩ | ⟨-, -, zero, -⟩ | ⟨ready, -, calls⟩
  · exact ⟨fun _ => same, Or.inl same⟩
  · omega
  refine ⟨fun fails => absurd fails ready, ?_⟩
  obtain ⟨mid, flushRc, addRc, flush, add, value⟩ := calls
  have errno : ¬(addRc < 0 ∧ out.errno = eexist) := by
    intro exists_
    rw [if_pos exists_] at value
    omega
  rw [if_neg errno] at value
  have before := (prepare_same d.first r s).1
  have flushed := changeRoute_routes host subtrees .flush d.flush table r (prepare d.first r s).1
  have added := changeRoute_routes host subtrees .add d.add new.table (r.replaced new) mid
  have returnedAdd :
      (changeRoute host subtrees .add d.add new.table (r.replaced new) mid).2 = some addRc := by
    rw [add]
  have unread := changeRoute_unacknowledged host subtrees returnedAdd (by omega)
  rw [flush, before] at flushed
  rw [add] at added unread
  simp only [reduceCtorEq, if_false] at flushed
  simp only [if_true] at added unread
  have middle : mid.routes = s.routes ∨ mid.routes = s.routes.erase (installed subtrees table r) :=
    flushed.imp_right And.right
  have unadded (same : out.routes = mid.routes) :
      out.routes = s.routes ∨ out.routes = s.routes.erase (installed subtrees table r) := by
    rwa [same]
  rcases added with same | ⟨accepted, routes⟩
  · exact (unadded same).imp_right Or.inl
  rcases unread with same | ⟨x, history, unacknowledged⟩
  · exact (unadded same).imp_right Or.inl
  refine Or.inr (Or.inr ⟨accepted, ⟨x, by rw [history]; simp, unacknowledged⟩, ?_⟩)
  exact middle.imp (fun same => by rw [routes, same]) fun erased => by rw [routes, erased]

/-- The kernel deletes a route that is there, refuses with EEXIST a second one of the same key, and
says so. -/
structure Obeys (d : Dealings) (table : BitVec 32) (r : RouteSpec) (new : Replacement)
    (s : System) : Prop where
  deletes : installed subtrees table r ∈ s.routes →
    (∀ nl, (netlinkSocket nl d.flush.opening).1 = 0) ∧
      d.flush.Accepts (routeMessage host subtrees .flush table r)
  exists_ : d.add.refusal = some eexist ↔
    ∃ e ∈ s.routes.erase (installed subtrees table r),
      SameKey e (installed subtrees new.table (r.replaced new))
  honest : d.add.Honest host
  undisturbed : d.add.Undisturbed

theorem flushed_routes {d : Dealings} {table : BitVec 32} {r : RouteSpec} {new : Replacement}
    {s : System} (obeys : Obeys host subtrees d table r new s) (ready : ¬FailsAtOnce d.first r s)
    (kept : ¬r.Ignored) :
    (changeRoute host subtrees .flush d.flush table r (prepare d.first r s).1).1.routes =
      s.routes.erase (installed subtrees table r) := by
  have before := (prepare_same d.first r s).1
  by_cases present : installed subtrees table r ∈ s.routes
  · obtain ⟨opens, accepts⟩ := obeys.deletes present
    rw [FailsAtOnce, not_or, not_or, Decidable.not_not] at ready
    have passes : ¬FailsAtOnce d.flush r (prepare d.first r s).1 := by
      rw [FailsAtOnce, nlSetup_prepare, opens]
      simp [ready.1, ready.2.2]
    rw [changeRoute_sent host subtrees passes kept, routes_talk, if_pos accepts,
      if_neg (by decide), (prepare_same d.flush r _).1, before]
  · have absent := Finset.erase_eq_of_notMem present
    rcases changeRoute_routes host subtrees .flush d.flush table r (prepare d.first r s).1
      with same | ⟨-, erased⟩
    · rw [same, before, absent]
    · rw [erased, if_neg (by decide), before]

theorem added_routes {d : Dealing} {table : BitVec 32} {r : RouteSpec} {s out : System} {rc : Int}
    (sent : ¬r.Ignored) (honest : d.Honest host) (undisturbed : d.Undisturbed)
    (exists_ : d.refusal = some eexist ↔ ∃ e ∈ s.routes, SameKey e (installed subtrees table r))
    (returned : changeRoute host subtrees .add d table r s = (out, some rc))
    (done : rc < 0 → out.errno = eexist) :
    out.routes = insert (installed subtrees table r) s.routes ∨
      out.routes = s.routes ∧ ∃ e ∈ s.routes, SameKey e (installed subtrees table r) := by
  by_cases passes : FailsAtOnce d r s
  · rw [changeRoute_fails host subtrees passes] at returned
    obtain ⟨rfl, failed⟩ := Prod.mk.inj returned
    cases failed
    have errno := prepare_errno undisturbed ((prepare_fails d r s).mpr passes)
    exact absurd (done (by decide)) errno
  rw [changeRoute_sent host subtrees passes sent] at returned
  have routes := routes_talk host subtrees .add d table r (prepare d r s).1
  have reply : (talk host d (routeMessage host subtrees .add table r) (prepare d r s).1).2 =
      some rc := by
    rw [returned]
  rw [returned, (prepare_same d r s).1] at routes
  by_cases failed : rc < 0
  · have errno := done failed
    have refusal := talk_exists host honest undisturbed reply failed (by rw [returned, errno])
    rw [if_neg fun accepts => by simp [accepts.2] at refusal] at routes
    exact Or.inr ⟨routes, exists_.mp refusal⟩
  · have zero : rc = 0 := (talk_rc host reply).resolve_right (by omega)
    rw [zero] at reply
    rw [if_pos (talk_accepted host honest reply), if_pos rfl] at routes
    exact Or.inl routes

theorem modify_done {d : Dealings} {table : BitVec 32} {r : RouteSpec} {new : Replacement}
    {s out : System} {rc : Int} (low : table.toNat < 256) (lowNew : new.table.toNat < 256)
    (sameTable : SameRoute r new → new.table = table) (kept : ¬r.Ignored)
    (keptNew : ¬(r.replaced new).Ignored) (obeys : Obeys host subtrees d table r new s)
    (returned : kernelRoute host subtrees .modify d table r new s = (out, some rc))
    (done : 0 ≤ rc) :
    let old : Installed := { table := table, route := decodedRoute subtrees r }
    let added : Installed := { table := new.table, route := decodedRoute subtrees (r.replaced new) }
    if SameRoute r new then out.routes = s.routes ∧ old = added
    else (old ≠ added → old ∉ out.routes) ∧
      (added ∈ out.routes ∨ ∃ e ∈ s.routes, e ≠ old ∧ SameKey e added ∧ e ∈ out.routes) := by
  rw [← installed_low subtrees low, ← installed_low subtrees lowNew]
  intro old added
  rcases kernelRoute_modify host subtrees returned with
    ⟨-, failed, -⟩ | ⟨-, shortcut, -, same⟩ | ⟨ready, different, calls⟩
  · omega
  · rw [if_pos shortcut]
    refine ⟨same, ?_⟩
    have unchanged : r.replaced new = r := by
      simp [RouteSpec.replaced, shortcut.1, shortcut.2.1, shortcut.2.2]
    simp only [old, added, unchanged, sameTable shortcut]
  rw [if_neg different]
  obtain ⟨mid, flushRc, addRc, flush, add, value⟩ := calls
  have middle := flushed_routes host subtrees obeys ready kept
  rw [flush] at middle
  have ended : addRc < 0 → out.errno = eexist := by
    intro failed
    by_contra other
    rw [if_neg fun both => other both.2] at value
    omega
  have exists_ := obeys.exists_
  rw [← middle] at exists_
  have gone : old ∉ s.routes.erase old := Finset.notMem_erase old s.routes
  rcases added_routes host subtrees keptNew obeys.honest obeys.undisturbed exists_ add ended with
    routes | ⟨routes, e, member, key⟩
  · rw [routes, middle]
    refine ⟨fun apart => ?_, Or.inl (Finset.mem_insert_self ..)⟩
    rw [Finset.mem_insert, not_or]
    exact ⟨apart, gone⟩
  · rw [middle] at routes member
    rw [routes]
    exact ⟨fun _ => gone, Or.inr ⟨e, Finset.mem_of_mem_erase member, Finset.ne_of_mem_erase member,
      key, member⟩⟩

def answering (refusal : Option Int) : Dealing where
  opening := .opened 1700000000 4 1000 12
  openErrno := 0
  send := { first := ⟨104, 0⟩, wait := 1, waitErrno := 0, second := ⟨104, 0⟩ }
  refusal := refusal
  script := fun request =>
    [{ first := .received
         { namelen := 12
           nlPid := 0
           msgs :=
             [{ hdr :=
                  { len := 36, type := nlmsgError, flags := 0, seq := request.hdr.seq, pid := 1000 }
                data := ByteOrder.little.store 4 (BitVec.ofInt 32 (-(refusal.getD 0))).toNat ++
                  List.replicate 16 0 }] }
       wait := 0
       waitErrno := 0
       second := .eof }]

def running (routes : Finset Installed) : System where
  nlSetup := true
  nl := { seqno := 6, sock := 4, nlPid := 1000, socklen := 12 }
  errno := 0
  routes := routes
  history := []

def otherGate : Addr6 := ⟨[0xFE, 0x80, 0, 0, 0, 0, 0, 0, 0, 0, 0, 0, 0, 0, 0, 2], rfl⟩

def viaOther : Replacement := { gate := otherGate, ifindex := 3, metric := 512, table := 254 }

def unreachableNexthop : Dealings where
  first := answering none
  flush := answering none
  add := answering (some 101)

theorem not_unchanged_unreachableNexthop :
    let s := running {installed true 254 specificRoute}
    let after := kernelRoute .little true .modify unreachableNexthop 254 specificRoute viaOther s
    installed true 254 specificRoute ∈ s.routes ∧ after.2 = some (-1) ∧
      after.1.routes ≠ s.routes := by
  decide +kernel

theorem modify_failed_unreachableNexthop :
    let s := running {installed true 254 specificRoute}
    let out := (kernelRoute .little true .modify unreachableNexthop 254 specificRoute viaOther s).1
    (FailsAtOnce unreachableNexthop.first specificRoute s → out.routes = s.routes) ∧
      LeftBehind { table := 254, route := decodedRoute true specificRoute }
        { table := 254, route := decodedRoute true (specificRoute.replaced viaOther) }
        (unreachableNexthop.add.Accepts
          (routeMessage .little true .add 254 (specificRoute.replaced viaOther))) s out :=
  have failed : kernelRoute .little true .modify unreachableNexthop 254 specificRoute viaOther
      (running {installed true 254 specificRoute}) = (_, some (-1)) :=
    Prod.ext rfl (by decide +kernel)
  modify_failed .little true (by decide) (by decide) failed (by decide)

theorem undisturbed_answering (refusal : Option Int) : (answering refusal).Undisturbed := by
  have success : (0 : Int) ≠ eexist := by decide
  refine ⟨success, success, ?_, ?_⟩
  · intro request attempt member
    rw [answering, List.mem_singleton] at member
    subst member
    intro failed
    cases failed
  · intro request attempt member datagram received
    rw [answering, List.mem_singleton] at member
    subst member
    cases received
    rfl

theorem honest_answering {refusal : Option Int} (known : refusal ∈ [none, some eexist]) :
    (answering refusal).Honest .little := by
  constructor
  · intro request m delivered _
    obtain ⟨attempt, member, datagram, received, -, found⟩ := delivered
    rw [answering, List.mem_singleton] at member
    subst member
    cases received
    rw [List.mem_singleton] at found
    subst found
    simp only [List.mem_cons, List.not_mem_nil, or_false] at known
    rcases known with rfl | rfl <;> exact ⟨rfl, rfl⟩
  · simp only [List.mem_cons, List.not_mem_nil, or_false] at known
    rcases known with rfl | rfl <;> decide

def foreign : Installed := installed true 254 { specificRoute with metric := 512 }

def refusedAddition : Dealings where
  first := answering none
  flush := answering none
  add := answering (some eexist)

theorem not_installed_foreign :
    let s := running {installed true 254 specificRoute, foreign}
    let after := kernelRoute .little true .modify refusedAddition 254 specificRoute viaOther s
    Obeys .little true refusedAddition 254 specificRoute viaOther s ∧ after.2 = some 1 ∧
      installed true 254 (specificRoute.replaced viaOther) ∉ after.1.routes := by
  refine ⟨⟨fun _ => ⟨fun _ => rfl, by decide +kernel⟩, ?_, honest_answering (by decide),
    undisturbed_answering _⟩, by decide +kernel, by decide +kernel⟩
  exact iff_of_true rfl ⟨foreign, by decide +kernel, by decide +kernel⟩

def acceptedAddition : Dealings where
  first := answering none
  flush := answering none
  add := answering none

theorem modify_done_acceptedAddition :
    let s := running {installed true 254 specificRoute}
    let out := (kernelRoute .little true .modify acceptedAddition 254 specificRoute viaOther s).1
    let old : Installed := { table := 254, route := decodedRoute true specificRoute }
    let added : Installed :=
      { table := 254, route := decodedRoute true (specificRoute.replaced viaOther) }
    if SameRoute specificRoute viaOther then out.routes = s.routes ∧ old = added
    else (old ≠ added → old ∉ out.routes) ∧
      (added ∈ out.routes ∨ ∃ e ∈ s.routes, e ≠ old ∧ SameKey e added ∧ e ∈ out.routes) := by
  have done : kernelRoute .little true .modify acceptedAddition 254 specificRoute viaOther
      (running {installed true 254 specificRoute}) = (_, some 0) :=
    Prod.ext rfl (by decide +kernel)
  refine modify_done .little true ?_ ?_ ?_ ?_ ?_ ?_ done ?_
  · decide
  · decide
  · decide
  · decide
  · decide
  · refine ⟨fun _ => ⟨fun _ => rfl, by decide +kernel⟩, ?_, honest_answering (by decide),
      undisturbed_answering _⟩
    refine iff_of_false (by decide) ?_
    rintro ⟨e, member, -⟩
    rw [Finset.mem_erase] at member
    exact member.1 (Finset.mem_singleton.mp member.2)
  · decide

end Tabeld.KernelNetlink
