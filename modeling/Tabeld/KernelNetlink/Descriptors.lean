import Mathlib.Logic.Relation
import Tabeld.KernelNetlink.Dump
import Tabeld.KernelNetlink.Listening
import Tabeld.KernelNetlink.Restore
import Tabeld.KernelNetlink.Rules
import Tabeld.Shared.Handles

set_option autoImplicit false

namespace Tabeld.KernelNetlink

open Machine

inductive FdEvent where
  -- socket returned this descriptor
  | socket (fd : Int)
  | close (fd : Int)
  deriving DecidableEq

def FdEvent.apply (live : Finset Int) : FdEvent → Finset Int
  | .socket fd => insert fd live
  -- there is nothing to close where `fd` is not a descriptor
  | .close fd => live.erase fd

/-- How `netlink_socket` goes, with the descriptor that `socket` returned to it. -/
inductive Socket where
  | refused
  | failed (now : Nat) (fd : Int)
  | opened (now : Nat) (fd : Int) (nlPid : BitVec 32) (socklen : Nat)

def Socket.opening : Socket → Opening
  | .refused => .refused
  | .failed now _ => .failed now
  | .opened now fd nlPid socklen => .opened now fd nlPid socklen

def Socket.events : Socket → List FdEvent
  | .refused => []
  | .failed _ fd => [.socket fd, .close fd]
  | .opened _ fd _ _ => [.socket fd]

/-- `netlink_read` sets the descriptor to -1 where it closes the socket, and nowhere else. -/
def closing (before after : Netlink) : List FdEvent :=
  if after.sock = before.sock then [] else [.close before.sock]

structure Process (σ : Type) where
  setup : Setup
  -- its `command` is the nl_command of `setup`
  monitor : Monitor σ
  live : Finset Int
  -- those that other code in the process has opened
  foreign : Finset Int

inductive Action (σ : Type) where
  | kernelSetup (setup skip : Bool) (dgram : Int) (socket : Socket) (proc : Proc)
  | setupSocket (setup : Bool) (socket : Socket)
  | callback (filter : Option (Filter σ)) (script : List (Attempt Message)) (before after : Socket)
  -- what kernel_route, kernel_dump and the functions for rules do on the command socket
  | reopen (socket : Socket)
  | talk (nh : Message) (send : Send) (script : List (Attempt Message))
  | dump (type : BitVec 16) (data : Option (List UInt8)) (send : Sendmsg)
      (filter : Option (Filter σ)) (script : List (Attempt Message)) (closure : σ)
  | elsewhere (event : FdEvent)

variable {σ : Type} (host : ByteOrder)

def readListenEvents (filter : Option (Filter σ)) (script : List (Attempt Message)) (after : Socket)
    (s : Monitor σ) : List FdEvent :=
  let read := netlinkRead host id s.listen (some s.command) false filter script s.errno s.closure
  closing s.listen read.nl ++
    match read.rc with
    | none => []
    | some rc => if rc < 0 ∧ read.nl.sock < 0 then after.events else []

def Process.events (s : Process σ) : Action σ → List FdEvent
  | .kernelSetup true _ dgram socket _ =>
    if dgram < 0 then [] else .socket dgram :: socket.events
  | .kernelSetup false _ _ _ _ => [.close s.setup.dgramSocket, .close s.setup.nlCommand.sock]
  | .setupSocket true socket => socket.events
  | .setupSocket false _ => [.close s.monitor.listen.sock]
  | .callback filter script before after =>
    let ready := reopenListen before.opening s.monitor
    (if s.monitor.listen.sock < 0 then before.events else []) ++
      if ready.1 < 0 then [] else readListenEvents host filter script after ready.2
  | .reopen socket => if s.setup.nlCommand.sock < 0 then socket.events else []
  | .talk nh send script =>
    closing s.setup.nlCommand (netlinkTalk host id s.setup.nlCommand nh send script).nl
  | .dump type data send filter script closure =>
    closing s.setup.nlCommand
      (dump host id s.setup.nlCommand type data send filter script closure).1.nl
  | .elsewhere event => [event]

def Process.variables (s : Process σ) : Action σ → Setup × Monitor σ
  | .kernelSetup setup skip dgram socket proc =>
    let called := (KernelNetlink.kernelSetup setup skip ⟨dgram, socket.opening, proc⟩ s.setup).1
    (called, { s.monitor with command := called.nlCommand })
  | .setupSocket setup socket => (s.setup, (kernelSetupSocket setup socket.opening s.monitor).2)
  | .callback filter script before after =>
    (s.setup, (kernelCallback host filter script before.opening after.opening s.monitor).1)
  | .reopen socket =>
    let nl :=
      if s.setup.nlCommand.sock < 0 then (netlinkSocket s.setup.nlCommand socket.opening).2
      else s.setup.nlCommand
    ({ s.setup with nlCommand := nl }, { s.monitor with command := nl })
  | .talk nh send script =>
    let x := netlinkTalk host id s.setup.nlCommand nh send script
    ({ s.setup with nlCommand := x.nl }, { s.monitor with command := x.nl, errno := x.errno })
  | .dump type data send filter script closure =>
    let x := (KernelNetlink.dump host id s.setup.nlCommand type data send filter script closure).1
    ({ s.setup with nlCommand := x.nl }, { s.monitor with command := x.nl, errno := x.errno })
  | .elsewhere _ => (s.setup, s.monitor)

def foreignAfter (foreign : Finset Int) : Action σ → Finset Int
  | .elsewhere event => event.apply foreign
  | _ => foreign

def FreshEvents : Finset Int → List FdEvent → Prop
  | _, [] => True
  | live, .socket fd :: rest => (0 ≤ fd ∧ fd ∉ live) ∧ FreshEvents (insert fd live) rest
  | live, .close fd :: rest => FreshEvents (live.erase fd) rest

instance decidableFreshEvents : (live : Finset Int) → (events : List FdEvent) →
    Decidable (FreshEvents live events)
  | _, [] => isTrue trivial
  | live, .socket fd :: rest =>
    have := decidableFreshEvents (insert fd live) rest
    inferInstanceAs (Decidable (_ ∧ _))
  | live, .close fd :: rest => decidableFreshEvents (live.erase fd) rest

def Owned (foreign : Finset Int) : Action σ → Prop
  | .elsewhere (.close fd) => fd ∈ foreign
  | _ => True

instance (foreign : Finset Int) : (a : Action σ) → Decidable (Owned foreign a)
  | .elsewhere (.close fd) => inferInstanceAs (Decidable (fd ∈ foreign))
  | .elsewhere (.socket _) | .kernelSetup .. | .setupSocket .. | .callback .. | .reopen ..
  | .talk .. | .dump .. => isTrue trivial

/-- There is no step where the system would return a descriptor that is in use. -/
def Process.step (s : Process σ) (a : Action σ) : Option (Unit × Process σ) :=
  let events := s.events host a
  let after := s.variables host a
  if FreshEvents s.live events ∧ Owned s.foreign a then
    some ((),
      { setup := after.1
        monitor := after.2
        live := events.foldl FdEvent.apply s.live
        foreign := foreignAfter s.foreign a })
  else none

open Handles

inductive Holder where
  | dgram
  | command
  | listen
  deriving DecidableEq

def held (sock : Int) : Option Int := if sock < 0 then none else some sock

theorem held_of_nonneg {sock : Int} (nonneg : 0 ≤ sock) : held sock = some sock :=
  if_neg (by omega)

theorem held_eq_none (sock : Int) : held sock = none ↔ sock < 0 := by
  unfold held
  split <;> simp_all

def sockets (dgram command listen : Int) : Holder → Option Int
  | .dgram => held dgram
  | .command => held command
  | .listen => held listen

def Process.view (s : Process σ) : State Holder Int where
  slots := sockets s.setup.dgramSocket s.setup.nlCommand.sock s.monitor.listen.sock
  live := s.live
  foreign := s.foreign

def Socket.ops (k : Holder) : Socket → List (Op Holder Int)
  | .refused => [.assign k none]
  | .failed _ fd => [.assign k (some fd), .release k]
  | .opened _ fd _ _ => [.assign k (some fd)]

def closingOps (k : Holder) (before after : Netlink) : List (Op Holder Int) :=
  if after.sock = before.sock then [] else [.release k]

structure Simulated (v : State Holder Int) (events : List FdEvent) (ops : List (Op Holder Int))
    (slots : Holder → Option Int) (free : Prop) : Prop where
  fresh : Along Handles.step Fresh v ops
  after : applyAll v ops = { v with slots := slots, live := events.foldl FdEvent.apply v.live }
  nonneg : ∀ fd ∈ events.foldl FdEvent.apply v.live, 0 ≤ fd
  keeps : Along Handles.step (fun v op => ¬Loses v op) v ops ↔ free

theorem freshEvents_append (live : Finset Int) (first second : List FdEvent) :
    FreshEvents live (first ++ second) ↔
      FreshEvents live first ∧ FreshEvents (first.foldl FdEvent.apply live) second := by
  induction first generalizing live with
  | nil => simp [FreshEvents]
  | cons event rest ih =>
    cases event with
    | socket fd => simp [FreshEvents, ih, FdEvent.apply, and_assoc]
    | close fd => simp [FreshEvents, ih, FdEvent.apply]

theorem run_ops (v : State Holder Int) (ops : List (Op Holder Int)) :
    ∃ units, run Handles.step v ops = some (units, applyAll v ops) := by
  induction ops generalizing v with
  | nil => exact ⟨[], rfl⟩
  | cons op ops ih =>
    obtain ⟨units, rest⟩ := ih (Handles.apply v op)
    exact ⟨() :: units, run_cons.mpr ⟨(), _, units, rfl, rest, rfl⟩⟩

theorem Simulated.nil (v : State Holder Int) (nonneg : ∀ fd ∈ v.live, 0 ≤ fd) :
    Simulated v [] [] v.slots True :=
  ⟨trivial, rfl, nonneg, Iff.rfl⟩

theorem Simulated.append {v : State Holder Int} {first second : List FdEvent}
    {ops more : List (Op Holder Int)} {slots last : Holder → Option Int} {free free' : Prop}
    (one : Simulated v first ops slots free)
    (two : Simulated { v with slots := slots, live := first.foldl FdEvent.apply v.live } second more
      last free') : Simulated v (first ++ second) (ops ++ more) last (free ∧ free') := by
  obtain ⟨units, ran⟩ := run_ops v ops
  rw [← one.after] at two
  constructor
  case fresh => exact (along_append more ran).mpr ⟨one.fresh, two.fresh⟩
  case after =>
    rw [applyAll, List.foldl_append]
    refine two.after.trans ?_
    rw [one.after, List.foldl_append]
  case nonneg =>
    rw [List.foldl_append]
    have last := two.nonneg
    rwa [one.after] at last
  case keeps => rw [along_append more ran, one.keeps, two.keeps]

theorem refused_simulated (k : Holder) {sock : Int} (negative : sock < 0) {v : State Holder Int}
    (nonneg : ∀ fd ∈ v.live, 0 ≤ fd) :
    Simulated v [] [.assign k none] (Function.update v.slots k (held sock))
      (v.slots k = none) := by
  rw [(held_eq_none sock).mpr negative]
  constructor
  case fresh => simp [Along, Fresh]
  case after => rfl
  case nonneg => exact nonneg
  case keeps => simp [Along, Loses]

theorem opened_simulated (k : Holder) {fd : Int} {v : State Holder Int}
    (nonneg : ∀ fd ∈ v.live, 0 ≤ fd) (positive : 0 ≤ fd) (new : fd ∉ v.live) :
    Simulated v [.socket fd] [.assign k (some fd)] (Function.update v.slots k (held fd))
      (v.slots k = none) := by
  rw [held_of_nonneg positive]
  constructor
  case fresh => simpa [Along, Fresh] using new
  case after => rfl
  case nonneg =>
    intro other member
    rcases Finset.mem_insert.mp member with rfl | before
    · exact positive
    · exact nonneg other before
  case keeps => simp [Along, Loses]

theorem close_simulated (k : Holder) (sock : Int) {v : State Holder Int}
    (nonneg : ∀ fd ∈ v.live, 0 ≤ fd) (slot : v.slots k = held sock) :
    Simulated v [.close sock] [.release k] (Function.update v.slots k none) True := by
  have live : (v.slots k).elim v.live (fun h => v.live.erase h) = v.live.erase sock := by
    rw [slot, held]
    split
    next negative =>
      refine (Finset.erase_eq_of_notMem fun member => ?_).symm
      have bound := nonneg sock member
      omega
    next => rfl
  constructor
  case fresh => simp [Along, Fresh]
  case after => simp [applyAll, Handles.apply, FdEvent.apply, live]
  case nonneg =>
    intro other member
    exact nonneg other (Finset.mem_of_mem_erase member)
  case keeps => simp [Along, Loses]

theorem socket_simulated (k : Holder) (socket : Socket) (nl : Netlink) {v : State Holder Int}
    (nonneg : ∀ fd ∈ v.live, 0 ≤ fd) (fresh : FreshEvents v.live socket.events) :
    Simulated v socket.events (socket.ops k)
      (Function.update v.slots k (held (netlinkSocket nl socket.opening).2.sock))
      (v.slots k = none) := by
  cases socket with
  | refused => exact refused_simulated k (show (-1 : Int) < 0 by decide) nonneg
  | failed now fd =>
    obtain ⟨⟨positive, new⟩, -⟩ := fresh
    have made := opened_simulated k nonneg positive new
    have both := made.append (close_simulated k fd made.nonneg
      (by simp only [Function.update_self]))
    rw [Function.update_idem, and_true] at both
    exact both
  | opened now fd nlPid socklen =>
    obtain ⟨⟨positive, new⟩, -⟩ := fresh
    exact opened_simulated k nonneg positive new

theorem closing_simulated (k : Holder) {before after : Netlink} {v : State Holder Int}
    (nonneg : ∀ fd ∈ v.live, 0 ≤ fd) (slot : v.slots k = held before.sock)
    (kept : after.sock = before.sock ∨ after.sock = -1) :
    Simulated v (closing before after) (closingOps k before after)
      (Function.update v.slots k (held after.sock)) True := by
  unfold closing closingOps
  split
  next same =>
    rw [same, ← slot, Function.update_eq_self]
    exact Simulated.nil v nonneg
  next other =>
    rw [kept.resolve_left other]
    exact close_simulated k before.sock nonneg slot

def readListenOps (filter : Option (Filter σ)) (script : List (Attempt Message)) (after : Socket)
    (s : Monitor σ) : List (Op Holder Int) :=
  let read := netlinkRead host id s.listen (some s.command) false filter script s.errno s.closure
  closingOps .listen s.listen read.nl ++
    match read.rc with
    | none => []
    | some rc => if rc < 0 ∧ read.nl.sock < 0 then after.ops .listen else []

def Process.ops (s : Process σ) : Action σ → List (Op Holder Int)
  | .kernelSetup true _ dgram socket _ =>
    if dgram < 0 then [.assign .dgram none]
    else .assign .dgram (some dgram) :: socket.ops .command
  | .kernelSetup false _ _ _ _ => [.release .dgram, .release .command]
  | .setupSocket true socket => socket.ops .listen
  | .setupSocket false _ => [.release .listen]
  | .callback filter script before after =>
    let ready := reopenListen before.opening s.monitor
    (if s.monitor.listen.sock < 0 then before.ops .listen else []) ++
      if ready.1 < 0 then [] else readListenOps host filter script after ready.2
  | .reopen socket => if s.setup.nlCommand.sock < 0 then socket.ops .command else []
  | .talk nh send script =>
    closingOps .command s.setup.nlCommand
      (netlinkTalk host id s.setup.nlCommand nh send script).nl
  | .dump type data send filter script closure =>
    closingOps .command s.setup.nlCommand
      (KernelNetlink.dump host id s.setup.nlCommand type data send filter script closure).1.nl
  | .elsewhere (.socket fd) => [.foreignOpen fd]
  | .elsewhere (.close fd) => [.foreignClose fd]

def Process.Overwrites (s : Process σ) : Action σ → Prop
  | .kernelSetup true _ dgram _ _ =>
    0 ≤ s.setup.dgramSocket ∨ 0 ≤ dgram ∧ 0 ≤ s.setup.nlCommand.sock
  | .setupSocket true _ => 0 ≤ s.monitor.listen.sock
  | _ => False

@[simp] theorem update_sockets_dgram (dgram command listen : Int) (new : Int) :
    Function.update (sockets dgram command listen) .dgram (held new) =
      sockets new command listen := by
  funext k
  cases k <;> rfl

@[simp] theorem update_sockets_command (dgram command listen : Int) (new : Int) :
    Function.update (sockets dgram command listen) .command (held new) =
      sockets dgram new listen := by
  funext k
  cases k <;> rfl

@[simp] theorem update_sockets_listen (dgram command listen : Int) (new : Int) :
    Function.update (sockets dgram command listen) .listen (held new) =
      sockets dgram command new := by
  funext k
  cases k <;> rfl

theorem sock_netlinkRead (nl : Netlink) (nlIgnore : Option Netlink) (answer : Bool)
    (filter : Option (Filter σ)) (script : List (Attempt Message)) (errno : Int) (closure : σ) :
    let after := (netlinkRead host id nl nlIgnore answer filter script errno closure).nl
    after.sock = nl.sock ∨ after.sock = -1 :=
  (receive_nl host id nl nlIgnore answer filter script _).imp (congrArg Netlink.sock)
    (congrArg Netlink.sock)

theorem sock_talk (nl : Netlink) (nh : Message) (send : Send) (script : List (Attempt Message)) :
    let after := (netlinkTalk host id nl nh send script).nl
    after.sock = nl.sock ∨ after.sock = -1 := by
  simp only [netlinkTalk]
  split
  next => exact Or.inl rfl
  next => exact sock_netlinkRead host { nl with seqno := nl.seqno + 1 } none true none script _ ()

theorem sock_dump (nl : Netlink) (type : BitVec 16) (data : Option (List UInt8)) (send : Sendmsg)
    (filter : Option (Filter σ)) (script : List (Attempt Message)) (closure : σ) :
    let after := (dump host id nl type data send filter script closure).1.nl
    after.sock = nl.sock ∨ after.sock = -1 := by
  have sent : (netlinkSendDump nl type data send).nl.sock = nl.sock := by
    simp only [netlinkSendDump]
    cases data with
    | none => rfl
    | some data =>
      simp only
      split
      next => rfl
      next => split <;> rfl
  simp only [dump]
  split
  next => exact Or.inl sent
  next =>
    rw [← sent]
    exact sock_netlinkRead host (netlinkSendDump nl type data send).nl none true filter script _
      closure

theorem sockets_kernelSetup (skip : Bool) (io : SetupIo) (s : Setup) :
    let after := (kernelSetup true skip io s).1
    after.dgramSocket = io.dgram ∧
      after.nlCommand.sock =
        if io.dgram < 0 then s.nlCommand.sock
        else (netlinkSocket s.nlCommand io.opening).2.sock := by
  simp only [kernelSetup, if_true]
  split
  next => exact ⟨rfl, rfl⟩
  next => split <;> first | exact ⟨rfl, rfl⟩ | (split <;> exact ⟨rfl, rfl⟩)

theorem sockets_kernelTeardown (skip : Bool) (io : SetupIo) (s : Setup) :
    let after := (kernelSetup false skip io s).1
    after.dgramSocket = -1 ∧ after.nlCommand.sock = -1 := by
  simp only [kernelSetup, Bool.false_eq_true, if_false]
  split <;> exact ⟨rfl, rfl⟩

theorem sock_kernelSetupSocket (opening : Opening) (s : Monitor σ) :
    (kernelSetupSocket true opening s).2.listen.sock = (netlinkSocket s.listen opening).2.sock := by
  simp only [kernelSetupSocket, if_true]
  split <;> rfl

variable (s : Process σ)

def Process.Simulates (a : Action σ) : Prop :=
  let after := s.variables host a
  Simulated s.view (s.events host a) (s.ops host a)
    (sockets after.1.dgramSocket after.1.nlCommand.sock after.2.listen.sock) ¬s.Overwrites a

variable {s} (nonneg : ∀ fd ∈ s.live, 0 ≤ fd)

include nonneg

theorem kernelSetup_simulates {skip : Bool} {dgram : Int} {socket : Socket} {proc : Proc}
    (fresh : FreshEvents s.live (s.events host (.kernelSetup true skip dgram socket proc))) :
    s.Simulates host (.kernelSetup true skip dgram socket proc) := by
  obtain ⟨first, command⟩ := sockets_kernelSetup skip ⟨dgram, socket.opening, proc⟩ s.setup
  unfold Process.Simulates
  simp only [Process.events, Process.ops, Process.variables, Process.Overwrites, first,
    command] at fresh ⊢
  by_cases failed : dgram < 0
  · have positive : ¬0 ≤ dgram := by omega
    have lost := refused_simulated .dgram failed (v := s.view) nonneg
    simp only [failed, if_true, positive, false_and, or_false]
    simpa only [Process.view, update_sockets_dgram, sockets, held_eq_none, not_le] using lost
  · have positive : 0 ≤ dgram := by omega
    simp only [failed, if_false, positive, true_and] at fresh ⊢
    obtain ⟨⟨-, new⟩, later⟩ := fresh
    have made := opened_simulated .dgram (v := s.view) nonneg positive new
    have both := made.append (socket_simulated .command socket s.setup.nlCommand made.nonneg later)
    simp only [Process.view, update_sockets_dgram, update_sockets_command, sockets,
      held_eq_none] at both
    simp only [not_or, not_le]
    exact both

theorem kernelTeardown_simulates (skip : Bool) (dgram : Int) (socket : Socket) (proc : Proc) :
    s.Simulates host (.kernelSetup false skip dgram socket proc) := by
  have first := close_simulated .dgram s.setup.dgramSocket (v := s.view) nonneg rfl
  have both := first.append (close_simulated .command s.setup.nlCommand.sock first.nonneg rfl)
  have closed : (none : Option Int) = held (-1) := rfl
  simp only [Process.view, closed, update_sockets_dgram, update_sockets_command] at both
  obtain ⟨dgramAfter, commandAfter⟩ :=
    sockets_kernelTeardown skip ⟨dgram, socket.opening, proc⟩ s.setup
  unfold Process.Simulates
  simp only [Process.variables, dgramAfter, commandAfter, Process.Overwrites, not_false_eq_true]
  rw [and_true] at both
  exact both

theorem setupSocket_simulates (setup : Bool) {socket : Socket}
    (fresh : FreshEvents s.live (s.events host (.setupSocket setup socket))) :
    s.Simulates host (.setupSocket setup socket) := by
  unfold Process.Simulates
  cases setup with
  | true =>
    have opened := socket_simulated .listen socket s.monitor.listen (v := s.view) nonneg fresh
    simp only [Process.view, update_sockets_listen, sockets, held_eq_none] at opened
    simp only [Process.variables, sock_kernelSetupSocket, Process.Overwrites, not_le]
    exact opened
  | false =>
    have closed := close_simulated .listen s.monitor.listen.sock (v := s.view) nonneg rfl
    rw [show (none : Option Int) = held (-1) from rfl] at closed
    simp only [Process.view, update_sockets_listen] at closed
    simp only [Process.variables, kernelSetupSocket, Process.Overwrites, not_false_eq_true]
    exact closed

theorem reopen_simulates {socket : Socket}
    (fresh : FreshEvents s.live (s.events host (.reopen socket))) :
    s.Simulates host (.reopen socket) := by
  unfold Process.Simulates
  simp only [Process.events, Process.ops, Process.variables, Process.Overwrites,
    not_false_eq_true] at fresh ⊢
  split
  next closed =>
    rw [if_pos closed] at fresh
    have opened := socket_simulated .command socket s.setup.nlCommand (v := s.view) nonneg fresh
    have free : s.view.slots .command = none := (held_eq_none _).mpr closed
    simp only [Process.view, update_sockets_command] at opened
    rw [show (True : Prop) = (s.view.slots .command = none) from (eq_true free).symm]
    exact opened
  next => exact Simulated.nil s.view nonneg

theorem talk_simulates (nh : Message) (send : Send) (script : List (Attempt Message)) :
    s.Simulates host (.talk nh send script) := by
  have closed := closing_simulated .command (v := s.view) nonneg rfl
    (sock_talk host s.setup.nlCommand nh send script)
  simp only [Process.view, update_sockets_command] at closed
  unfold Process.Simulates
  simp only [Process.variables, Process.Overwrites, not_false_eq_true]
  exact closed

theorem dump_simulates (type : BitVec 16) (data : Option (List UInt8)) (send : Sendmsg)
    (filter : Option (Filter σ)) (script : List (Attempt Message)) (closure : σ) :
    s.Simulates host (.dump type data send filter script closure) := by
  have closed := closing_simulated .command (v := s.view) nonneg rfl
    (sock_dump host s.setup.nlCommand type data send filter script closure)
  simp only [Process.view, update_sockets_command] at closed
  unfold Process.Simulates
  simp only [Process.variables, Process.Overwrites, not_false_eq_true]
  exact closed

theorem reopenListen_simulated (before : Socket)
    (fresh : FreshEvents s.live (if s.monitor.listen.sock < 0 then before.events else [])) :
    Simulated s.view (if s.monitor.listen.sock < 0 then before.events else [])
      (if s.monitor.listen.sock < 0 then before.ops .listen else [])
      (sockets s.setup.dgramSocket s.setup.nlCommand.sock
        (reopenListen before.opening s.monitor).2.listen.sock) True := by
  unfold reopenListen
  split
  next closed =>
    rw [if_pos closed] at fresh
    have opened := socket_simulated .listen before s.monitor.listen (v := s.view) nonneg fresh
    have free : s.view.slots .listen = none := (held_eq_none _).mpr closed
    simp only [Process.view, update_sockets_listen] at opened
    rw [sock_kernelSetupSocket, show True = (s.view.slots .listen = none) from (eq_true free).symm]
    exact opened
  next => exact Simulated.nil s.view nonneg

omit nonneg

theorem readListen_simulated (filter : Option (Filter σ)) (script : List (Attempt Message))
    (after : Socket) (m : Monitor σ) (dgram command : Int) {live foreign : Finset Int}
    (nonneg : ∀ fd ∈ live, 0 ≤ fd)
    (fresh : FreshEvents live (readListenEvents host filter script after m)) :
    Simulated ⟨sockets dgram command m.listen.sock, live, foreign⟩
      (readListenEvents host filter script after m) (readListenOps host filter script after m)
      (sockets dgram command (readListen host filter script after.opening m).1.listen.sock)
      True := by
  unfold readListenEvents at fresh ⊢
  unfold readListenOps readListen
  have kept := sock_netlinkRead host m.listen (some m.command) false filter script m.errno m.closure
  generalize netlinkRead host id m.listen (some m.command) false filter script m.errno
    m.closure = read at kept fresh
  have closed := closing_simulated .listen (v := ⟨sockets dgram command m.listen.sock, live,
    foreign⟩) nonneg rfl kept
  simp only [update_sockets_listen] at closed fresh ⊢
  have unopened := closed.append (Simulated.nil _ closed.nonneg)
  rw [and_true] at unopened
  cases code : read.rc with
  | none => exact unopened
  | some rc =>
    simp only [code] at fresh ⊢
    by_cases broken : rc < 0 ∧ read.nl.sock < 0
    · rw [if_pos broken, freshEvents_append] at fresh
      have both := closed.append (socket_simulated .listen after read.nl
        (v := ⟨sockets dgram command read.nl.sock, _, foreign⟩) closed.nonneg fresh.2)
      have free : sockets dgram command read.nl.sock .listen = none :=
        (held_eq_none _).mpr broken.2
      simp only [update_sockets_listen, free, and_true] at both
      simp only [if_pos broken, sock_kernelSetupSocket]
      exact both
    · simp only [if_neg broken]
      exact unopened

include nonneg

theorem callback_simulates {filter : Option (Filter σ)} {script : List (Attempt Message)}
    {before after : Socket}
    (fresh : FreshEvents s.live (s.events host (.callback filter script before after))) :
    s.Simulates host (.callback filter script before after) := by
  unfold Process.Simulates
  simp only [Process.events, Process.ops, Process.variables, kernelCallback, Process.Overwrites,
    not_false_eq_true] at fresh ⊢
  rw [freshEvents_append] at fresh
  have ready := reopenListen_simulated nonneg before fresh.1
  by_cases failed : (reopenListen before.opening s.monitor).1 < 0
  · have both := ready.append (Simulated.nil _ ready.nonneg)
    rw [and_true] at both
    simp only [if_pos failed]
    exact both
  · have later := fresh.2
    simp only [if_neg failed] at later ⊢
    have both := ready.append (readListen_simulated host filter script after
      (reopenListen before.opening s.monitor).2 s.setup.dgramSocket s.setup.nlCommand.sock
      ready.nonneg later)
    rw [and_true] at both
    exact both

omit nonneg

theorem command_kernelCallback (filter : Option (Filter σ)) (script : List (Attempt Message))
    (before after : Opening) (m : Monitor σ) :
    (kernelCallback host filter script before after m).1.command = m.command := by
  have setup (opening : Opening) (m : Monitor σ) :
      (kernelSetupSocket true opening m).2.command = m.command := by
    simp only [kernelSetupSocket, if_true]
    split <;> rfl
  have ready : (reopenListen before m).2.command = m.command := by
    unfold reopenListen
    split
    next => exact setup before m
    next => rfl
  unfold kernelCallback
  simp only
  split
  next => exact ready
  next =>
    unfold readListen
    simp only
    split
    next => exact ready
    next =>
      split
      next => exact (setup after _).trans ready
      next => exact ready

/-- `nl_command` is one variable, descriptors are not negative, and the open sockets are
descriptors of their own. -/
structure Process.Consistent (s : Process σ) : Prop where
  command : s.monitor.command = s.setup.nlCommand
  nonneg : ∀ fd ∈ s.live, 0 ≤ fd
  owns : Owns s.view

def Process.LeakFree (s : Process σ) : Prop := Tight s.view

theorem action_simulates (consistent : s.Consistent) {a : Action σ}
    (ours : ∀ event, a ≠ .elsewhere event) (fresh : FreshEvents s.live (s.events host a)) :
    s.Simulates host a := by
  have nonneg := consistent.nonneg
  cases a with
  | kernelSetup setup skip dgram socket proc =>
    cases setup with
    | true => exact kernelSetup_simulates host nonneg fresh
    | false => exact kernelTeardown_simulates host nonneg skip dgram socket proc
  | setupSocket setup socket => exact setupSocket_simulates host nonneg setup fresh
  | callback filter script before after => exact callback_simulates host nonneg fresh
  | reopen socket => exact reopen_simulates host nonneg fresh
  | talk nh send script => exact talk_simulates host nonneg nh send script
  | dump type data send filter script closure =>
    exact dump_simulates host nonneg type data send filter script closure
  | elsewhere event => exact absurd rfl (ours event)

theorem command_variables (consistent : s.Consistent) (a : Action σ) :
    (s.variables host a).2.command = (s.variables host a).1.nlCommand := by
  cases a with
  | setupSocket setup socket =>
    cases setup with
    | true =>
      simp only [Process.variables, kernelSetupSocket, if_true]
      split <;> exact consistent.command
    | false => exact consistent.command
  | callback filter script before after =>
    exact (command_kernelCallback host filter script before.opening after.opening
      s.monitor).trans consistent.command
  | elsewhere event => exact consistent.command
  | kernelSetup | reopen | talk | dump => rfl

theorem step_handles (consistent : s.Consistent) {a : Action σ} {t : Process σ}
    (stepped : s.step host a = some ((), t)) :
    Along Handles.step Fresh s.view (s.ops host a) ∧
      t.view = applyAll s.view (s.ops host a) ∧ (∀ fd ∈ t.live, 0 ≤ fd) ∧
      (Along Handles.step (fun v op => ¬Loses v op) s.view (s.ops host a) ↔ ¬s.Overwrites a) := by
  simp only [Process.step] at stepped
  split at stepped
  next allowed =>
    obtain ⟨fresh, owned⟩ := allowed
    simp only [Option.some.injEq, Prod.mk.injEq, true_and] at stepped
    subst stepped
    by_cases foreign : ∃ event, a = .elsewhere event
    · obtain ⟨event, rfl⟩ := foreign
      cases event with
      | socket fd =>
        obtain ⟨⟨positive, new⟩, -⟩ := fresh
        have unused : fd ∉ s.view.live := new
        refine ⟨by simpa [Process.ops, Along, Fresh] using unused, rfl, ?_, ?_⟩
        · intro other member
          rcases Finset.mem_insert.mp member with rfl | before
          · exact positive
          · exact consistent.nonneg other before
        · simp [Process.ops, Along, Loses, Process.Overwrites]
      | close fd =>
        have theirs : fd ∈ s.view.foreign := owned
        refine ⟨by simpa [Process.ops, Along, Fresh] using theirs, rfl, ?_, ?_⟩
        · intro other member
          exact consistent.nonneg other (Finset.mem_of_mem_erase member)
        · simp [Process.ops, Along, Loses, Process.Overwrites]
    · have ours := not_exists.mp foreign
      have simulates := action_simulates host consistent ours fresh
      have same : foreignAfter s.foreign a = s.foreign := by
        cases a <;> first | rfl | exact absurd rfl (ours _)
      exact ⟨simulates.fresh, by rw [simulates.after, same]; rfl, simulates.nonneg,
        simulates.keeps⟩
  next => cases stepped

theorem step_variables {a : Action σ} {t : Process σ}
    (stepped : s.step host a = some ((), t)) :
    t.setup = (s.variables host a).1 ∧ t.monitor = (s.variables host a).2 := by
  simp only [Process.step] at stepped
  split at stepped
  next =>
    simp only [Option.some.injEq, Prod.mk.injEq, true_and] at stepped
    rw [← stepped]
    exact ⟨rfl, rfl⟩
  next => cases stepped

theorem step_consistent (consistent : s.Consistent) {a : Action σ} {t : Process σ}
    (stepped : s.step host a = some ((), t)) :
    t.Consistent ∧ (t.LeakFree ↔ s.LeakFree ∧ ¬s.Overwrites a) := by
  obtain ⟨fresh, view, nonneg, keeps⟩ := step_handles host consistent stepped
  obtain ⟨owns, tight⟩ := applyAll_owns_tight consistent.owns fresh
  rw [keeps, ← view] at tight
  refine ⟨⟨?_, nonneg, view ▸ owns⟩, tight⟩
  obtain ⟨setup, monitor⟩ := step_variables host stepped
  rw [setup, monitor]
  exact command_variables host consistent a

/-- In every run, whatever fails, the open sockets are descriptors that are in use, three different
ones, and what other code has opened is never closed. -/
theorem descriptors_owned {s u : Process σ} (consistent : s.Consistent) {actions : List (Action σ)}
    {os : List Unit} (ran : run (Process.step host) s actions = some (os, u)) : u.Consistent :=
  run_invariant Process.Consistent
    (fun _ _ _ _ consistent stepped => (step_consistent host consistent stepped).1) consistent ran

theorem leakFree_run_iff {s u : Process σ} (consistent : s.Consistent) (tight : s.LeakFree)
    {actions : List (Action σ)} {os : List Unit}
    (ran : run (Process.step host) s actions = some (os, u)) :
    u.LeakFree ↔ Along (Process.step host) (fun s a => ¬s.Overwrites a) s actions := by
  -- what is lost once stays lost
  have lost : u.LeakFree ↔
      s.LeakFree ∧ Along (Process.step host) (fun s a => ¬s.Overwrites a) s actions := by
    clear tight
    induction actions generalizing s os with
    | nil =>
      simp only [run_nil, Option.some.injEq, Prod.mk.injEq] at ran
      simp [ran.2, Along]
    | cons a rest ih =>
      obtain ⟨⟨⟩, t, _, first, later, -⟩ := run_cons.mp ran
      obtain ⟨next, kept⟩ := step_consistent host consistent first
      rw [along_cons rest first, ih next later, kept, and_assoc]
  rw [lost, and_iff_right tight]

theorem slots_teardown {t v w : Process σ} {skip : Bool} {dgram : Int} {first second : Socket}
    {proc : Proc} {o p : Unit}
    (down : Process.step host t (.kernelSetup false skip dgram first proc) = some (o, v))
    (closed : Process.step host v (.setupSocket false second) = some (p, w)) (k : Holder) :
    w.view.slots k = none := by
  obtain ⟨setupFirst, -⟩ := step_variables host down
  obtain ⟨setupSecond, monitor⟩ := step_variables host closed
  obtain ⟨dgramClosed, commandClosed⟩ :=
    sockets_kernelTeardown skip ⟨dgram, first.opening, proc⟩ t.setup
  cases k with
  | dgram =>
    refine (held_eq_none _).mpr ?_
    rw [setupSecond]
    simp only [Process.variables]
    rw [setupFirst]
    exact dgramClosed ▸ (by decide)
  | command =>
    refine (held_eq_none _).mpr ?_
    rw [setupSecond]
    simp only [Process.variables]
    rw [setupFirst]
    exact commandClosed ▸ (by decide)
  | listen =>
    refine (held_eq_none _).mpr ?_
    rw [monitor]
    exact show (-1 : Int) < 0 by decide

/-- When everything is torn down, only the descriptors of other code are left exactly if no call of
`kernel_setup` or `kernel_setup_socket` has found its socket open. -/
theorem teardown_iff {s u : Process σ} (consistent : s.Consistent) (tight : s.LeakFree)
    {actions : List (Action σ)} {skip : Bool} {dgram : Int} {first second : Socket} {proc : Proc}
    {os : List Unit}
    (ran : run (Process.step host) s (actions ++
      [.kernelSetup false skip dgram first proc, .setupSocket false second]) = some (os, u)) :
    u.live = u.foreign ↔ Along (Process.step host) (fun s a => ¬s.Overwrites a) s actions := by
  obtain ⟨_, t, _, before, after, -⟩ := run_append.mp ran
  obtain ⟨⟨⟩, v, _, down, last, -⟩ := run_cons.mp after
  obtain ⟨⟨⟩, w, _, closed, done, -⟩ := run_cons.mp last
  simp only [run_nil, Option.some.injEq, Prod.mk.injEq] at done
  obtain ⟨-, rfl⟩ := done
  have middle : t.Consistent := run_invariant Process.Consistent
    (fun _ _ _ _ consistent stepped => (step_consistent host consistent stepped).1) consistent
    before
  obtain ⟨later, keptFirst⟩ := step_consistent host middle down
  obtain ⟨final, keptSecond⟩ := step_consistent host later closed
  rw [← leakFree_run_iff host consistent tight before]
  have same : w.LeakFree ↔ t.LeakFree := by
    rw [keptSecond, keptFirst]
    simp [Process.Overwrites]
  rw [← same]
  have empty := slots_teardown host down closed
  constructor
  · intro equal h live
    exact Or.inl (show h ∈ w.foreign from equal ▸ live)
  · intro leakFree
    refine Finset.Subset.antisymm ?_ final.owns.foreign
    intro h live
    rcases leakFree h live with theirs | ⟨k, holds⟩
    · exact theirs
    · rw [empty k] at holds
      contradiction

def unopened : Process Unit where
  setup := startup
  monitor :=
    { command := startup.nlCommand
      listen := { seqno := 0, sock := -1, nlPid := 0, socklen := 0 }
      kernelSocket := -1
      closure := ()
      errno := 0
      groups := 0
      queue := [] }
  live := {0, 1, 2}
  foreign := {0, 1, 2}

theorem consistent_unopened : unopened.Consistent where
  command := rfl
  nonneg := by decide
  owns :=
    { live := fun k h holds => by cases k <;> cases holds
      distinct := fun k l h holds _ => by cases k <;> cases holds
      foreign := fun _ known => known }

def brokenOnce : List (Action Unit) :=
  [.kernelSetup true true 3 (.opened 1700000000 4 1000 12) (procBut []),
    .setupSocket true (.opened 1700000000 5 1001 12),
    .elsewhere (.socket 6),
    .callback none [⟨.eof, 0, 0, .eof⟩] .refused (.opened 1700000001 5 1002 12)]

def closeAll : List (Action Unit) :=
  [.kernelSetup false true 0 .refused (procBut []), .setupSocket false .refused]

theorem run_brokenOnce :
    ∃ os u, run (Process.step .little) unopened (brokenOnce ++ closeAll) = some (os, u) := by
  have defined : (run (Process.step .little) unopened (brokenOnce ++ closeAll)).isSome = true := by
    decide +kernel
  obtain ⟨⟨os, u⟩, ran⟩ := Option.isSome_iff_exists.mp defined
  exact ⟨os, u, ran⟩

theorem descriptors_owned_brokenOnce :
    ∃ os u, run (Process.step .little) unopened (brokenOnce ++ closeAll) = some (os, u) ∧
      u.Consistent := by
  obtain ⟨os, u, ran⟩ := run_brokenOnce
  exact ⟨os, u, ran, descriptors_owned .little consistent_unopened ran⟩

theorem teardown_iff_brokenOnce :
    ∃ os u, run (Process.step .little) unopened (brokenOnce ++ closeAll) = some (os, u) ∧
      (u.live = u.foreign ↔
        Along (Process.step .little) (fun s a => ¬s.Overwrites a) unopened brokenOnce) := by
  obtain ⟨os, u, ran⟩ := run_brokenOnce
  exact ⟨os, u, ran, teardown_iff .little consistent_unopened (fun h live => Or.inl live) ran⟩

section Calls

/-- What may happen to `nl_command` between `kernel_setup(1)` and `kernel_setup(0)`. -/
inductive Use (nl : Netlink) : Netlink → Prop
  | reopen (closed : nl.sock < 0) (opening : Opening) : Use nl (netlinkSocket nl opening).2
  | talk (nh : Message) (send : Send) (script : List (Attempt Message)) :
      Use nl (netlinkTalk host id nl nh send script).nl
  | dump (type : BitVec 16) (data : Option (List UInt8)) (send : Sendmsg)
      (filter : Option (Filter σ)) (script : List (Attempt Message)) (closure : σ) :
      Use nl (dump host id nl type data send filter script closure).1.nl

variable (σ)

abbrev Uses : Netlink → Netlink → Prop := Relation.ReflTransGen (Use (σ := σ) host)

variable {σ}

theorem use_action (s : Process σ) {nl : Netlink} (use : Use (σ := σ) host s.setup.nlCommand nl) :
    ∃ (a : Action σ) (errno : Int), s.variables host a =
      ({ s.setup with nlCommand := nl }, { s.monitor with command := nl, errno := errno }) := by
  cases use with
  | reopen closed opening =>
    obtain ⟨socket, rfl⟩ : ∃ socket : Socket, socket.opening = opening := by
      cases opening with
      | refused => exact ⟨.refused, rfl⟩
      | failed now => exact ⟨.failed now 0, rfl⟩
      | opened now fd nlPid socklen => exact ⟨.opened now fd nlPid socklen, rfl⟩
    exact ⟨.reopen socket, s.monitor.errno, by simp only [Process.variables, if_pos closed]⟩
  | talk nh send script => exact ⟨.talk nh send script, _, rfl⟩
  | dump type data send filter script closure =>
    exact ⟨.dump type data send filter script closure, _, rfl⟩

theorem talk_uses (d : Dealing) (nh : Message) (s : System) :
    Uses σ host s.nl (talk host d nh s).1.nl :=
  .single (.talk nh d.send (d.script (stamped s.nl nh)))

theorem prepare_uses (d : Dealing) (r : RouteSpec) (s : System) :
    Uses σ host s.nl (prepare d r s).1.nl := by
  have reopened : Uses σ host s.nl (reopen d s.nl).2 := by
    unfold reopen
    split
    next closed => exact .single (.reopen closed d.opening)
    next => exact .refl
  unfold prepare
  split
  next => exact .refl
  next =>
    simp only
    split
    next => exact reopened
    next => split <;> exact reopened

theorem changeRoute_uses (subtrees : Bool) (operation : Operation) (d : Dealing)
    (table : BitVec 32) (r : RouteSpec) (s : System) :
    Uses σ host s.nl (changeRoute host subtrees operation d table r s).1.nl := by
  have prepared : Uses σ host s.nl (prepare d r s).1.nl := prepare_uses host d r s
  unfold changeRoute
  simp only
  split
  next => exact prepared
  next =>
    split
    next => exact prepared
    next => exact prepared.trans (talk_uses host d _ _)

theorem kernelRoute_uses (subtrees : Bool) (operation : Operation) (d : Dealings)
    (table : BitVec 32) (r : RouteSpec) (new : Replacement) (s : System) :
    Uses σ host s.nl (kernelRoute host subtrees operation d table r new s).1.nl := by
  unfold kernelRoute
  cases operation with
  | add | flush => exact changeRoute_uses host subtrees _ d.first table r s
  | modify =>
    have prepared : Uses σ host s.nl (prepare d.first r s).1.nl := prepare_uses host d.first r s
    simp only
    split
    next => exact prepared
    next =>
      split
      next => exact prepared
      next =>
        have flushed : Uses σ host (prepare d.first r s).1.nl _ :=
          changeRoute_uses host subtrees .flush d.flush table r (prepare d.first r s).1
        split
        next t called =>
          rw [called] at flushed
          exact prepared.trans flushed
        next t rc called =>
          rw [called] at flushed
          have added : Uses σ host t.nl _ :=
            changeRoute_uses host subtrees .add d.add new.table (r.replaced new) t
          split
          next v also =>
            rw [also] at added
            exact (prepared.trans flushed).trans added
          next v rc also =>
            rw [also] at added
            exact (prepared.trans flushed).trans added

theorem dumpIf_uses (filter : Option (Filter σ)) (io : Nat → DumpIo Message) (wanted : Bool)
    (type : BitVec 16) (family : Nat) (s : Dumping σ Message) :
    Uses σ host s.nl (dumpIf host id filter io wanted type family s).nl := by
  unfold dumpIf
  split
  next => exact .single (.dump type _ _ filter _ s.closure)
  next => exact .refl

theorem kernelDump_uses (filter : Option (Filter σ)) (io : Nat → DumpIo Message) (nlSetup : Bool)
    (opening : Opening) (openErrno : Int) (operation : Changes) (s : Dumping σ Message) :
    Uses σ host s.nl
      (kernelDump host id filter io nlSetup opening openErrno operation s).nl := by
  have opened : Uses σ host s.nl
      (if s.nl.sock < 0 then netlinkSocket s.nl opening else (0, s.nl)).2 := by
    split
    next closed => exact .single (.reopen closed opening)
    next => exact .refl
  simp only [kernelDump]
  generalize (if s.nl.sock < 0 then netlinkSocket s.nl opening else (0, s.nl)) = ready at opened
  split
  next => exact .refl
  next =>
    split
    next => exact opened
    next =>
      have one := fun wanted type family s => dumpIf_uses host filter io wanted type family s
      have start : Uses σ host s.nl
          ({ s with nl := ready.2, rc := some 0, exchanges := [] } : Dumping σ Message).nl := opened
      simp only [List.foldl_cons, List.foldl_nil]
      exact ((((start.trans (one _ _ _ _)).trans (one _ _ _ _)).trans (one _ _ _ _)).trans
        (one _ _ _ _)).trans (one _ _ _ _)

theorem addRule_uses (d : Dealing) (prio : BitVec 32) (srcPrefix : Addr6)
    (srcPlen table : BitVec 32) (s : RuleSystem) :
    Uses σ host s.nl (addRule host d prio srcPrefix srcPlen table s).1.nl := by
  unfold addRule
  split
  next => exact .refl
  next nh _ => exact .single (.talk nh d.send (d.script (stamped s.nl nh)))

theorem flushRule_uses (d : Dealing) (prio : BitVec 32) (family : Nat) (s : RuleSystem) :
    Uses σ host s.nl (flushRule host d prio family s).1.nl := by
  unfold flushRule
  split
  next => exact .refl
  next nh _ => exact .single (.talk nh d.send (d.script (stamped s.nl nh)))

theorem changeRule_uses (d : RuleDealings) (newPrio oldPrio : BitVec 32) (src : Addr6)
    (plen table : BitVec 32) (s : RuleSystem) :
    Uses σ host s.nl (changeRule host d newPrio oldPrio src plen table s).1.nl := by
  have added : Uses σ host s.nl (addRule host d.add newPrio src plen table s).1.nl :=
    addRule_uses host d.add newPrio src plen table s
  unfold changeRule
  split
  next t called =>
    rw [called] at added
    exact added
  next t rc called =>
    rw [called] at added
    split
    next => exact added
    next => exact added.trans (flushRule_uses host d.flush oldPrio _ t)

end Calls

end Tabeld.KernelNetlink
