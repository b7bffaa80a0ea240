import Mathlib.Data.List.Nodup
import Tabeld.KernelNetlink.Channels
import Tabeld.KernelNetlink.Modify

set_option autoImplicit false

namespace Tabeld.KernelNetlink.Interfaces

def ifnamsiz : Nat := 16
def eacces : Int := 13
def enodev : Int := 19
def enopkg : Int := 65
def eopnotsupp : Int := 95
def eaddrnotavail : Int := 99
def iffUp : BitVec 16 := 0x1
def iffRunning : BitVec 16 := 0x40

inductive AccessMode
  | rOk
  | fOk
  deriving DecidableEq

/-- The system calls of one question; one that fails has an `errno`. -/
structure Calls where
  access : List UInt8 → AccessMode → Except Int Unit
  -- the indices that BRCTL_GET_BRIDGES writes into an array of that size
  siocgifbr : Nat → Except Int (List Int)
  siocgifflags : List UInt8 → Except Int (BitVec 16)
  siocgifaddr : List UInt8 → Except Int (List UInt8)
  siocgifmtu : List UInt8 → Except Int (BitVec 32)
  siocgiwname : List UInt8 → Except Int Unit
  siocgiwfreq : List UInt8 → Except Int IwFreq

def utf8 (s : String) : List UInt8 := s.toUTF8.data.toList

/-- What strncpy makes of an array that memset has filled with zeros. -/
def ifrName (ifname : List UInt8) : List UInt8 :=
  (ifname ++ List.replicate ifnamsiz 0).take ifnamsiz

section Code

variable (calls : Calls)

def operationalFlags (linkDetect : Bool) : BitVec 16 :=
  if linkDetect then iffUp ||| iffRunning else iffUp

def kernelInterfaceOperational (linkDetect : Bool) (ifname : List UInt8) : Int :=
  match calls.siocgifflags (ifrName ifname) with
  | .error _ => -1
  | .ok ifrFlags =>
    if ifrFlags &&& operationalFlags linkDetect = operationalFlags linkDetect then 1 else 0

def kernelInterfaceIpv4 (ifname addrR : List UInt8) : Int × List UInt8 :=
  match calls.siocgifaddr (ifrName ifname) with
  | .error _ => (-1, addrR)
  | .ok sinAddr => (1, sinAddr.take 4 ++ addrR.drop 4)

def kernelInterfaceMtu (ifname : List UInt8) : Int :=
  match calls.siocgifmtu (ifrName ifname) with
  | .error _ => -1
  | .ok ifrMtu => ifrMtu.toInt

def classNet (ifname : List UInt8) : List UInt8 := utf8 "/sys/class/net/" ++ ifname

def bridgeDir (ifname : List UInt8) : List UInt8 := classNet ifname ++ utf8 "/bridge"

def meshDir (ifname : List UInt8) : List UInt8 :=
  utf8 "/sys/devices/virtual/net/" ++ ifname ++ utf8 "/mesh"

/-- The code after the label `fallback`. -/
def isbridgeFallback (ifindex : Int) : Int :=
  match calls.siocgifbr 256 with
  | .error errno => if errno = enopkg then 0 else -1
  | .ok indices => if indices.any (· == ifindex) then 1 else 0

def isbridge (ifname : List UInt8) (ifindex : Int) : Int :=
  if 256 ≤ (classNet ifname).length then isbridgeFallback calls ifindex
  else
    match calls.access (classNet ifname) .rOk with
    | .error _ => isbridgeFallback calls ifindex
    | .ok () =>
      if 256 ≤ (bridgeDir ifname).length then isbridgeFallback calls ifindex
      else
        match calls.access (bridgeDir ifname) .fOk with
        | .ok () => 1
        | .error errno => if errno = enoent then 0 else isbridgeFallback calls ifindex

def isbatman (ifname : List UInt8) : Int :=
  if 256 ≤ (meshDir ifname).length then -1
  else
    match calls.access (meshDir ifname) .fOk with
    | .ok () => 1
    | .error errno => if errno ≠ enoent then -1 else 0

def kernelInterfaceWireless (ifname : List UInt8) (ifindex : Int) : Int :=
  if isbridge calls ifname ifindex ≠ 0 ∨ isbatman calls ifname ≠ 0 then -1
  else
    match calls.siocgiwname (ifrName ifname) with
    | .error errno => if errno = eopnotsupp ∨ errno = einval then 0 else -1
    | .ok () => 1

def kernelInterfaceChannel (ifname : List UInt8) (errno : Int) : Option Int :=
  match calls.siocgiwfreq (ifrName ifname) with
  | .error _ => some (-1)
  | .ok freq => (freqToChan freq errno).map Prod.fst

end Code

def slash : UInt8 := 47
def colon : UInt8 := 58

/-- What the kernel asks of the name of a device, as far as it matters here. -/
structure ValidName (name : List UInt8) : Prop where
  short : name.length < ifnamsiz
  clean : 0 ∉ name
  plain : slash ∉ name
  whole : colon ∉ name

structure Device where
  name : List UInt8
  valid : ValidName name
  ifindex : Int
  bridge : Bool
  mesh : Bool
  -- the device answers SIOCGIWNAME
  wireless : Bool
  flags : BitVec 16
  mtu : BitVec 32
  address : Option (List UInt8)
  -- sin_addr
  width : ∀ bytes ∈ address, bytes.length = 4
  freq : Option IwFreq

structure Host where
  devices : List Device
  names : (devices.map Device.name).Nodup
  indices : (devices.map Device.ifindex).Nodup
  -- /sys is there
  sysfs : Bool

namespace Host

variable (s : Host)

/-- The device that an ioctl is about: the last byte of `ifr_name` is not looked at. -/
def find (ifrName : List UInt8) : Option Device :=
  s.devices.find? fun d => d.name == (ifrName.take (ifnamsiz - 1)).takeWhile (· != 0)

def Named (ifname : List UInt8) (d : Device) : Prop :=
  d ∈ s.devices ∧ d.name = ifname.take (ifnamsiz - 1)

def bridges : List Int := (s.devices.filter Device.bridge).map Device.ifindex

def Listed (d : Device) : Prop := d.bridge = true ∧ d.ifindex ∈ s.bridges.take 256

instance (d : Device) : Decidable (s.Listed d) := inferInstanceAs (Decidable (_ ∧ _))

end Host

/-- A call tells the truth or fails for a reason of its own. -/
def Reply {α : Type} (faults : Int → Prop) (truth got : Except Int α) : Prop :=
  got = truth ∨ ∃ errno, faults errno ∧ got = .error errno

def shown (s : Host) (present : Bool) : Except Int Unit :=
  if s.sysfs && present then .ok () else .error enoent

/-- An ioctl tells something about the device that it finds. A name with a colon is an alias. -/
def Answers {α : Type} (s : Host) (faults : Int → Prop) (read : Device → Except Int α)
    (ioctl : List UInt8 → Except Int α) : Prop :=
  ∀ ifr, colon ∉ ifr → Reply faults ((s.find ifr).elim (.error enodev) read) (ioctl ifr)

structure Serves (s : Host) (faults : Int → Prop) (calls : Calls) : Prop where
  classNet : ∀ d ∈ s.devices, Reply faults (shown s true) (calls.access (classNet d.name) .rOk)
  bridgeDir : ∀ d ∈ s.devices,
    Reply faults (shown s d.bridge) (calls.access (bridgeDir d.name) .fOk)
  meshDir : ∀ d ∈ s.devices, Reply faults (shown s d.mesh) (calls.access (meshDir d.name) .fOk)
  bridges : Reply faults (.ok (s.bridges.take 256)) (calls.siocgifbr 256) ∨
    s.bridges = [] ∧ calls.siocgifbr 256 = .error enopkg
  flags : Answers s faults (fun d => .ok d.flags) calls.siocgifflags
  mtu : Answers s faults (fun d => .ok d.mtu) calls.siocgifmtu
  address : Answers s faults (fun d => d.address.elim (.error eaddrnotavail) .ok) calls.siocgifaddr
  freq : Answers s faults (fun d => d.freq.elim (.error eopnotsupp) .ok) calls.siocgiwfreq
  wireless : ∀ ifr d, colon ∉ ifr → s.find ifr = some d → d.wireless = true →
    Reply faults (.ok ()) (calls.siocgiwname ifr)
  wired : ∀ ifr d, colon ∉ ifr → s.find ifr = some d → d.wireless = false →
    Reply faults (.error eopnotsupp) (calls.siocgiwname ifr) ∨
      Reply faults (.error einval) (calls.siocgiwname ifr)

def Telling (errno : Int) : Prop :=
  errno = enoent ∨ errno = enopkg ∨ errno = eopnotsupp ∨ errno = einval

theorem name_ifrName {ifname : List UInt8} (clean : 0 ∉ ifname) :
    ((ifrName ifname).take (ifnamsiz - 1)).takeWhile (· != 0) = ifname.take (ifnamsiz - 1) := by
  have bytes : ∀ byte ∈ ifname.take (ifnamsiz - 1), (byte != 0) = true := by
    intro byte member
    have nonzero : byte ≠ 0 := fun zero => clean (zero ▸ List.mem_of_mem_take member)
    simpa using nonzero
  have filled : (ifrName ifname).take (ifnamsiz - 1) =
      ifname.take (ifnamsiz - 1) ++
        (List.replicate ifnamsiz (0 : UInt8)).take (ifnamsiz - 1 - ifname.length) := by
    rw [ifrName, List.take_take, List.take_append]
    rfl
  rw [filled, List.takeWhile_append_of_pos bytes, List.take_replicate, List.takeWhile_replicate]
  simp

theorem whole_ifrName {ifname : List UInt8} (whole : colon ∉ ifname) : colon ∉ ifrName ifname := by
  intro member
  rcases List.mem_append.mp (List.mem_of_mem_take member) with inside | filling
  · exact whole inside
  · exact absurd (List.eq_of_mem_replicate filling) (by decide)

theorem find_ifrName (s : Host) {ifname : List UInt8} (clean : 0 ∉ ifname) :
    s.find (ifrName ifname) = s.devices.find? fun d => d.name == ifname.take (ifnamsiz - 1) := by
  rw [Host.find, name_ifrName clean]

theorem eq_of_name {s : Host} {d e : Device} (left : d ∈ s.devices) (right : e ∈ s.devices)
    (same : d.name = e.name) : d = e :=
  List.inj_on_of_nodup_map s.names left right same

theorem find_device {s : Host} {d : Device} (here : d ∈ s.devices) :
    s.find (ifrName d.name) = some d := by
  have whole : d.name.take (ifnamsiz - 1) = d.name :=
    List.take_of_length_le (Nat.le_sub_one_of_lt d.valid.short)
  rw [find_ifrName s d.valid.clean, whole]
  cases found : s.devices.find? fun e => e.name == d.name with
  | none => simpa using List.find?_eq_none.mp found d here
  | some e =>
    have same : e.name = d.name := by simpa using List.find?_some found
    rw [eq_of_name (List.mem_of_find?_eq_some found) here same]

theorem length_classNet {name : List UInt8} (short : name.length < ifnamsiz) :
    (classNet name).length < 256 := by
  have literal : (utf8 "/sys/class/net/").length = 15 := by decide
  have size : ifnamsiz = 16 := rfl
  rw [classNet, List.length_append, literal]
  omega

theorem length_bridgeDir {name : List UInt8} (short : name.length < ifnamsiz) :
    (bridgeDir name).length < 256 := by
  have literal : (utf8 "/sys/class/net/").length = 15 := by decide
  have suffix : (utf8 "/bridge").length = 7 := by decide
  have size : ifnamsiz = 16 := rfl
  rw [bridgeDir, classNet, List.length_append, List.length_append, literal, suffix]
  omega

theorem length_meshDir {name : List UInt8} (short : name.length < ifnamsiz) :
    (meshDir name).length < 256 := by
  have literal : (utf8 "/sys/devices/virtual/net/").length = 25 := by decide
  have suffix : (utf8 "/mesh").length = 5 := by decide
  have size : ifnamsiz = 16 := rfl
  rw [meshDir, List.length_append, List.length_append, literal, suffix]
  omega

def Host.HasFile (s : Host) (path : List UInt8) : Prop :=
  ∃ d ∈ s.devices, path = classNet d.name ∨ d.bridge = true ∧ path = bridgeDir d.name ∨
    d.mesh = true ∧ path = meshDir d.name

instance (s : Host) (path : List UInt8) : Decidable (s.HasFile path) :=
  inferInstanceAs (Decidable (∃ d ∈ s.devices, _))

def Host.calls (s : Host) : Calls where
  access path _ := shown s (s.HasFile path)
  siocgifbr size := .ok (s.bridges.take size)
  siocgifflags ifr := (s.find ifr).elim (.error enodev) fun d => .ok d.flags
  siocgifaddr ifr := (s.find ifr).elim (.error enodev) fun d =>
    d.address.elim (.error eaddrnotavail) .ok
  siocgifmtu ifr := (s.find ifr).elim (.error enodev) fun d => .ok d.mtu
  siocgiwname ifr := (s.find ifr).elim (.error enodev) fun d =>
    if d.wireless then .ok () else .error eopnotsupp
  siocgiwfreq ifr := (s.find ifr).elim (.error enodev) fun d =>
    d.freq.elim (.error eopnotsupp) .ok

theorem classNet_ne_meshDir (left right : List UInt8) : classNet left ≠ meshDir right := by
  intro same
  have letters := congrArg (fun path => path[5]?) same
  simp only [classNet, meshDir, List.append_assoc] at letters
  rw [List.getElem?_append_left (by decide), List.getElem?_append_left (by decide)] at letters
  exact absurd letters (by decide)

theorem bridgeDir_ne_meshDir (left right : List UInt8) : bridgeDir left ≠ meshDir right := by
  rw [bridgeDir, classNet, List.append_assoc]
  exact classNet_ne_meshDir _ right

theorem bridgeDir_ne_classNet (left : List UInt8) {right : List UInt8} (valid : ValidName right) :
    bridgeDir left ≠ classNet right := by
  intro same
  rw [bridgeDir, classNet, classNet, List.append_assoc] at same
  apply valid.plain
  rw [← List.append_cancel_left same]
  exact List.mem_append_right left (by decide)

section Files

variable {s : Host} {d : Device}

theorem hasFile_classNet (here : d ∈ s.devices) : s.HasFile (classNet d.name) :=
  ⟨d, here, Or.inl rfl⟩

theorem hasFile_bridgeDir (here : d ∈ s.devices) :
    s.HasFile (bridgeDir d.name) ↔ d.bridge = true := by
  constructor
  · rintro ⟨e, there, same | ⟨bridge, same⟩ | ⟨-, same⟩⟩
    · exact absurd same (bridgeDir_ne_classNet d.name e.valid)
    · have names := List.append_cancel_left (List.append_cancel_right same)
      rwa [eq_of_name here there names]
    · exact absurd same (bridgeDir_ne_meshDir d.name e.name)
  · exact fun bridge => ⟨d, here, Or.inr (Or.inl ⟨bridge, rfl⟩)⟩

theorem hasFile_meshDir (here : d ∈ s.devices) : s.HasFile (meshDir d.name) ↔ d.mesh = true := by
  constructor
  · rintro ⟨e, there, same | ⟨-, same⟩ | ⟨mesh, same⟩⟩
    · exact absurd same.symm (classNet_ne_meshDir e.name d.name)
    · exact absurd same.symm (bridgeDir_ne_meshDir e.name d.name)
    · have names := List.append_cancel_left (List.append_cancel_right same)
      rwa [eq_of_name here there names]
  · exact fun mesh => ⟨d, here, Or.inr (Or.inr ⟨mesh, rfl⟩)⟩

end Files

theorem serves_calls (s : Host) : Serves s (fun _ => False) s.calls where
  classNet d here := by
    left
    simp [Host.calls, hasFile_classNet here]
  bridgeDir d here := by
    left
    simp [Host.calls, hasFile_bridgeDir here]
  meshDir d here := by
    left
    simp [Host.calls, hasFile_meshDir here]
  bridges := Or.inl (Or.inl rfl)
  flags _ _ := Or.inl rfl
  mtu _ _ := Or.inl rfl
  address _ _ := Or.inl rfl
  freq _ _ := Or.inl rfl
  wireless ifr d _ found answer := by
    left
    simp [Host.calls, found, answer]
  wired ifr d _ found answer := by
    left
    left
    simp [Host.calls, found, answer]

def Calls.unreadable (calls : Calls) : Calls :=
  { calls with
    access := fun path mode =>
      match mode with
      | .rOk => .error eacces
      | .fOk => calls.access path mode }

theorem Reply.mono {α : Type} {faults more : Int → Prop} {truth got : Except Int α}
    (reply : Reply faults truth got) (fewer : ∀ errno, faults errno → more errno) :
    Reply more truth got :=
  reply.imp id fun ⟨errno, fault, failed⟩ => ⟨errno, fewer errno fault, failed⟩

theorem serves_unreadable (s : Host) : Serves s (· = eacces) s.calls.unreadable := by
  have serves := serves_calls s
  have fewer : ∀ errno, False → errno = eacces := fun _ => False.elim
  exact
    { classNet := fun _ _ => Or.inr ⟨eacces, rfl, rfl⟩
      bridgeDir := fun d here => (serves.bridgeDir d here).mono fewer
      meshDir := fun d here => (serves.meshDir d here).mono fewer
      bridges := serves.bridges.imp (fun reply => reply.mono fewer) id
      flags := fun ifr whole => (serves.flags ifr whole).mono fewer
      mtu := fun ifr whole => (serves.mtu ifr whole).mono fewer
      address := fun ifr whole => (serves.address ifr whole).mono fewer
      freq := fun ifr whole => (serves.freq ifr whole).mono fewer
      wireless := fun ifr d whole found answer =>
        (serves.wireless ifr d whole found answer).mono fewer
      wired := fun ifr d whole found answer =>
        (serves.wired ifr d whole found answer).imp (fun reply => reply.mono fewer)
          fun reply => reply.mono fewer }

def wlan0 : Device where
  name := utf8 "wlan0"
  valid := ⟨by decide, by decide, by decide, by decide⟩
  ifindex := 3
  bridge := false
  mesh := false
  wireless := true
  flags := iffUp ||| iffRunning
  mtu := 1500
  address := some [192, 168, 1, 1]
  width := by decide
  freq := some ⟨2412, 6⟩

def br0 : Device where
  name := utf8 "br0"
  valid := ⟨by decide, by decide, by decide, by decide⟩
  ifindex := 4
  bridge := true
  mesh := false
  wireless := false
  flags := iffUp
  mtu := 1500
  address := none
  width := by decide
  freq := none

def office : Device :=
  { wlan0 with
    name := utf8 "wireless-office"
    valid := ⟨by decide, by decide, by decide, by decide⟩
    ifindex := 5
    mtu := 1400 }

def longName : List UInt8 := utf8 "wireless-office2"

def accessPoint (sysfs : Bool) : Host where
  devices := [wlan0, br0, office]
  names := by decide
  indices := by decide
  sysfs := sysfs

theorem and_part {flags mask part : BitVec 16} (whole : flags &&& mask = mask)
    (within : mask &&& part = part) : flags &&& part = part := by
  calc flags &&& part = flags &&& mask &&& part := by rw [BitVec.and_assoc, within]
    _ = part := by rw [whole, within]

theorem and_operationalFlags (linkDetect : Bool) (flags : BitVec 16) :
    flags &&& operationalFlags linkDetect = operationalFlags linkDetect ↔
      flags &&& iffUp = iffUp ∧ (linkDetect = true → flags &&& iffRunning = iffRunning) := by
  cases linkDetect with
  | false => simp [operationalFlags]
  | true =>
    constructor
    · intro both
      exact ⟨and_part both (by decide), fun _ => and_part both (by decide)⟩
    · rintro ⟨up, running⟩
      rw [operationalFlags, if_pos rfl, BitVec.and_or_distrib_left, up, running rfl]

theorem take_ipv4 {sinAddr addrR : List UInt8} (width : sinAddr.length = 4) :
    (sinAddr.take 4 ++ addrR.drop 4).take 4 = sinAddr := by
  rw [List.take_of_length_le (Nat.le_of_eq width), List.take_append_of_le_length
    (Nat.le_of_eq width.symm), List.take_of_length_le (Nat.le_of_eq width)]

section Faults

variable {s : Host} {faults : Int → Prop} {calls : Calls} {d : Device}

theorem ok_of_reply {α : Type} {truth : Except Int α} {value : α}
    (reply : Reply faults truth (.ok value)) : truth = .ok value := by
  rcases reply with same | ⟨_, -, failed⟩
  · exact same.symm
  · cases failed

theorem error_of_reply {α : Type} {truth : Except Int α} {errno : Int}
    (reply : Reply faults truth (.error errno)) (telling : Telling errno)
    (silent : ∀ errno, faults errno → ¬Telling errno) : truth = .error errno := by
  rcases reply with same | ⟨_, fault, failed⟩
  · exact same.symm
  · cases failed
    exact absurd telling (silent errno fault)

theorem answered {α : Type} {read : Device → Except Int α} {ioctl : List UInt8 → Except Int α}
    (answers : Answers s faults read ioctl) {ifname : List UInt8} (clean : 0 ∉ ifname)
    (whole : colon ∉ ifname) {value : α} (got : ioctl (ifrName ifname) = .ok value) :
    ∃ d, s.Named ifname d ∧ read d = .ok value := by
  have reply := answers (ifrName ifname) (whole_ifrName whole)
  rw [got, find_ifrName s clean] at reply
  have truth := ok_of_reply reply
  cases found : s.devices.find? fun d => d.name == ifname.take (ifnamsiz - 1) with
  | none =>
    rw [found] at truth
    cases truth
  | some d =>
    rw [found] at truth
    have name : d.name = ifname.take (ifnamsiz - 1) := by simpa using List.find?_some found
    exact ⟨d, ⟨List.mem_of_find?_eq_some found, name⟩, truth⟩

theorem optional_eq_ok {α : Type} {value : Option α} {errno : Int} {result : α}
    (same : value.elim (.error errno) Except.ok = .ok result) : value = some result := by
  cases value with
  | none => cases same
  | some _ => rw [Except.ok.inj same]

theorem operational_answered (serves : Serves s faults calls) {ifname : List UInt8}
    (clean : 0 ∉ ifname) (whole : colon ∉ ifname) {linkDetect : Bool}
    (known : kernelInterfaceOperational calls linkDetect ifname ≠ -1) :
    ∃ d, s.Named ifname d ∧ (kernelInterfaceOperational calls linkDetect ifname = 1 ↔
      d.flags &&& iffUp = iffUp ∧ (linkDetect = true → d.flags &&& iffRunning = iffRunning)) := by
  unfold kernelInterfaceOperational at known ⊢
  split at known
  next => exact absurd rfl known
  next ifrFlags got =>
    obtain ⟨d, named, same⟩ := answered serves.flags clean whole got
    refine ⟨d, named, ?_⟩
    rw [Except.ok.inj same, ← and_operationalFlags]
    by_cases up : ifrFlags &&& operationalFlags linkDetect = operationalFlags linkDetect <;>
      simp [up]

theorem mtu_answered (serves : Serves s faults calls) {ifname : List UInt8} (clean : 0 ∉ ifname)
    (whole : colon ∉ ifname) (known : kernelInterfaceMtu calls ifname ≠ -1) :
    ∃ d, s.Named ifname d ∧ kernelInterfaceMtu calls ifname = d.mtu.toInt := by
  unfold kernelInterfaceMtu at known ⊢
  split at known
  next => exact absurd rfl known
  next ifrMtu got =>
    obtain ⟨d, named, same⟩ := answered serves.mtu clean whole got
    exact ⟨d, named, by rw [Except.ok.inj same]⟩

theorem ipv4_answered (serves : Serves s faults calls) {ifname : List UInt8} (clean : 0 ∉ ifname)
    (whole : colon ∉ ifname) {addrR : List UInt8}
    (known : (kernelInterfaceIpv4 calls ifname addrR).1 = 1) :
    ∃ d, s.Named ifname d ∧
      d.address = some ((kernelInterfaceIpv4 calls ifname addrR).2.take 4) := by
  unfold kernelInterfaceIpv4 at known ⊢
  split at known
  next => cases known
  next sinAddr got =>
    obtain ⟨d, named, same⟩ := answered serves.address clean whole got
    have address := optional_eq_ok same
    exact ⟨d, named, by rw [address, take_ipv4 (d.width sinAddr address)]⟩

theorem channel_answered (serves : Serves s faults calls) {ifname : List UInt8}
    (clean : 0 ∉ ifname) (whole : colon ∉ ifname) {errno channel : Int}
    (result : kernelInterfaceChannel calls ifname errno = some channel) (known : channel ≠ -1) :
    ∃ d, s.Named ifname d ∧
      ∃ freq, d.freq = some freq ∧ (freqToChan freq errno).map Prod.fst = some channel := by
  unfold kernelInterfaceChannel at result
  split at result
  next => exact absurd (Option.some.inj result).symm known
  next freq got =>
    obtain ⟨d, named, same⟩ := answered serves.freq clean whole got
    exact ⟨d, named, freq, optional_eq_ok same, result⟩

theorem shown_eq_ok {present : Bool} :
    shown s present = .ok () ↔ s.sysfs = true ∧ present = true := by
  unfold shown
  split <;> simp_all

theorem shown_eq_error {present : Bool} {errno : Int} (missing : shown s present = .error errno) :
    s.sysfs = true → present = false := by
  intro mounted
  by_contra exists_
  rw [shown_eq_ok.mpr ⟨mounted, by simpa using exists_⟩] at missing
  cases missing

theorem mem_bridges (here : d ∈ s.devices) (bridge : d.bridge = true) : d.ifindex ∈ s.bridges :=
  List.mem_map_of_mem (List.mem_filter.mpr ⟨here, bridge⟩)

theorem not_listed_fallback (serves : Serves s faults calls)
    (silent : ∀ errno, faults errno → ¬Telling errno) (here : d ∈ s.devices)
    (zero : isbridgeFallback calls d.ifindex = 0) : ¬s.Listed d := by
  rintro ⟨bridge, listed⟩
  unfold isbridgeFallback at zero
  split at zero
  next errno failed =>
    have unsupported : errno = enopkg := by
      by_contra other
      rw [if_neg other] at zero
      exact absurd zero (by decide)
    subst unsupported
    rcases serves.bridges with reply | ⟨none, -⟩
    · rw [failed] at reply
      cases error_of_reply reply (Or.inr (Or.inl rfl)) silent
    · have member := mem_bridges here bridge
      rw [none] at member
      cases member
  next indices got =>
    rcases serves.bridges with reply | ⟨-, failed⟩
    · rw [got] at reply
      have same := Except.ok.inj (ok_of_reply reply)
      have found : indices.any (· == d.ifindex) = true :=
        List.any_eq_true.mpr ⟨d.ifindex, same ▸ listed, beq_self_eq_true _⟩
      rw [found] at zero
      exact absurd zero (by decide)
    · rw [got] at failed
      cases failed

theorem not_listed_isbridge (serves : Serves s faults calls)
    (silent : ∀ errno, faults errno → ¬Telling errno) (here : d ∈ s.devices)
    (zero : isbridge calls d.name d.ifindex = 0) : ¬s.Listed d := by
  have fits := length_classNet d.valid.short
  have fitsToo := length_bridgeDir d.valid.short
  rw [isbridge, if_neg (by omega)] at zero
  split at zero
  next => exact not_listed_fallback serves silent here zero
  next mounted =>
    rw [if_neg (by omega)] at zero
    split at zero
    next => exact absurd zero (by decide)
    next errno failed =>
      split at zero
      next missing =>
        subst missing
        have classReply := serves.classNet d here
        rw [mounted] at classReply
        have bridgeReply := serves.bridgeDir d here
        rw [failed] at bridgeReply
        have sysfs := (shown_eq_ok.mp (ok_of_reply classReply)).1
        have plain := shown_eq_error (error_of_reply bridgeReply (Or.inl rfl) silent) sysfs
        rintro ⟨bridge, -⟩
        rw [plain] at bridge
        cases bridge
      next => exact not_listed_fallback serves silent here zero

theorem hidden_isbatman (serves : Serves s faults calls)
    (silent : ∀ errno, faults errno → ¬Telling errno) (here : d ∈ s.devices)
    (zero : isbatman calls d.name = 0) (mesh : d.mesh = true) : s.sysfs = false := by
  have fits := length_meshDir d.valid.short
  rw [isbatman, if_neg (by omega)] at zero
  have reply := serves.meshDir d here
  split at zero
  next => exact absurd zero (by decide)
  next errno failed =>
    have missing : errno = enoent := by
      by_contra other
      rw [if_pos other] at zero
      exact absurd zero (by decide)
    subst missing
    rw [failed] at reply
    have absent := shown_eq_error (error_of_reply reply (Or.inl rfl) silent)
    by_contra mounted
    rw [absent (by simpa using mounted)] at mesh
    cases mesh

theorem iwname_of_reply (serves : Serves s faults calls)
    (silent : ∀ errno, faults errno → ¬Telling errno) (here : d ∈ s.devices) :
    match calls.siocgiwname (ifrName d.name) with
    | .ok () => d.wireless = true
    | .error errno => errno = eopnotsupp ∨ errno = einval → d.wireless = false := by
  have found := find_device here
  cases answer : d.wireless with
  | true =>
    have reply := serves.wireless _ d (whole_ifrName d.valid.whole) found answer
    split
    next => rfl
    next errno failed =>
      rw [failed] at reply
      rintro (rfl | rfl)
      · cases error_of_reply reply (Or.inr (Or.inr (Or.inl rfl))) silent
      · cases error_of_reply reply (Or.inr (Or.inr (Or.inr rfl))) silent
  | false =>
    split
    next got =>
      rcases serves.wired _ d (whole_ifrName d.valid.whole) found answer with reply | reply
      · rw [got] at reply
        cases ok_of_reply reply
      · rw [got] at reply
        cases ok_of_reply reply
    next => exact fun _ => rfl

theorem questions_answered (serves : Serves s faults calls) {ifname : List UInt8}
    (clean : 0 ∉ ifname) (whole : colon ∉ ifname) :
    (∀ linkDetect, kernelInterfaceOperational calls linkDetect ifname ≠ -1 →
      ∃ d, s.Named ifname d ∧ (kernelInterfaceOperational calls linkDetect ifname = 1 ↔
        d.flags &&& iffUp = iffUp ∧ (linkDetect = true → d.flags &&& iffRunning = iffRunning))) ∧
      (kernelInterfaceMtu calls ifname ≠ -1 →
        ∃ d, s.Named ifname d ∧ kernelInterfaceMtu calls ifname = d.mtu.toInt) ∧
      (∀ addrR, (kernelInterfaceIpv4 calls ifname addrR).1 = 1 →
        ∃ d, s.Named ifname d ∧
          d.address = some ((kernelInterfaceIpv4 calls ifname addrR).2.take 4)) ∧
      ∀ errno channel, kernelInterfaceChannel calls ifname errno = some channel → channel ≠ -1 →
        ∃ d, s.Named ifname d ∧
          ∃ freq, d.freq = some freq ∧ (freqToChan freq errno).map Prod.fst = some channel :=
  ⟨fun _ => operational_answered serves clean whole, mtu_answered serves clean whole,
    fun _ => ipv4_answered serves clean whole, fun _ _ => channel_answered serves clean whole⟩

theorem questions_answered_longName :
    (∀ linkDetect, kernelInterfaceOperational (accessPoint true).calls linkDetect longName ≠ -1 →
      ∃ d, (accessPoint true).Named longName d ∧
        (kernelInterfaceOperational (accessPoint true).calls linkDetect longName = 1 ↔
          d.flags &&& iffUp = iffUp ∧
            (linkDetect = true → d.flags &&& iffRunning = iffRunning))) ∧
      (kernelInterfaceMtu (accessPoint true).calls longName ≠ -1 →
        ∃ d, (accessPoint true).Named longName d ∧
          kernelInterfaceMtu (accessPoint true).calls longName = d.mtu.toInt) ∧
      (∀ addrR, (kernelInterfaceIpv4 (accessPoint true).calls longName addrR).1 = 1 →
        ∃ d, (accessPoint true).Named longName d ∧
          d.address =
            some ((kernelInterfaceIpv4 (accessPoint true).calls longName addrR).2.take 4)) ∧
      ∀ errno channel,
        kernelInterfaceChannel (accessPoint true).calls longName errno = some channel →
          channel ≠ -1 → ∃ d, (accessPoint true).Named longName d ∧
            ∃ freq, d.freq = some freq ∧ (freqToChan freq errno).map Prod.fst = some channel :=
  questions_answered (serves_calls (accessPoint true)) (by decide) (by decide)

example : kernelInterfaceMtu (accessPoint true).calls longName = 1400 := by decide

/-- Whatever fails, an answer is about a device that is wireless or wired as it says. A bridge gets
one only past the first 256, a mesh only without /sys. -/
theorem kernelInterfaceWireless_safe (serves : Serves s faults calls)
    (silent : ∀ errno, faults errno → ¬Telling errno) (here : d ∈ s.devices)
    (known : kernelInterfaceWireless calls d.name d.ifindex ≠ -1) :
    kernelInterfaceWireless calls d.name d.ifindex = (if d.wireless then 1 else 0) ∧
      ¬s.Listed d ∧ (d.mesh = true → s.sysfs = false) := by
  unfold kernelInterfaceWireless at known ⊢
  split at known
  next => exact absurd rfl known
  next passed =>
    rw [if_neg passed]
    rw [not_or, not_not, not_not] at passed
    obtain ⟨noBridge, noMesh⟩ := passed
    refine ⟨?_, not_listed_isbridge serves silent here noBridge,
      hidden_isbatman serves silent here noMesh⟩
    have told := iwname_of_reply serves silent here
    split at told
    next got => rw [got, told]; rfl
    next errno failed =>
      rw [failed] at known ⊢
      simp only at known ⊢
      split at known
      next unsupported => rw [if_pos unsupported, told unsupported]; rfl
      next => exact absurd rfl known

theorem kernelInterfaceWireless_safe_unreadable :
    kernelInterfaceWireless (accessPoint true).calls.unreadable wlan0.name wlan0.ifindex = 1 ∧
      ¬(accessPoint true).Listed wlan0 ∧ (wlan0.mesh = true → (accessPoint true).sysfs = false) :=
  kernelInterfaceWireless_safe (serves_unreadable (accessPoint true))
    (by intro errno fault; subst fault; unfold Telling; decide) (List.mem_cons_self ..) (by decide)

end Faults

section Working

variable {s : Host} {calls : Calls} {d : Device}

theorem eq_of_reply {α : Type} {truth got : Except Int α}
    (reply : Reply (fun _ => False) truth got) : got = truth := by
  rcases reply with same | ⟨_, fault, -⟩
  · exact same
  · exact fault.elim

theorem isbridgeFallback_eq (serves : Serves s (fun _ => False) calls) (here : d ∈ s.devices) :
    isbridgeFallback calls d.ifindex = if s.Listed d then 1 else 0 := by
  have own : d.ifindex ∈ s.bridges.take 256 → d.bridge = true := by
    intro member
    obtain ⟨e, bridge, same⟩ := List.mem_map.mp (List.mem_of_mem_take member)
    obtain ⟨there, bridge⟩ := List.mem_filter.mp bridge
    rwa [← List.inj_on_of_nodup_map s.indices there here same]
  have listed : s.Listed d ↔ d.ifindex ∈ s.bridges.take 256 := ⟨And.right, fun h => ⟨own h, h⟩⟩
  unfold isbridgeFallback
  rcases serves.bridges with reply | ⟨none, failed⟩
  · simp [eq_of_reply reply, listed]
  · simp [failed, listed, none]

theorem isbridge_eq (serves : Serves s (fun _ => False) calls) (here : d ∈ s.devices) :
    isbridge calls d.name d.ifindex =
      if d.bridge = true ∧ s.sysfs = true ∨ s.Listed d then 1 else 0 := by
  have fits := length_classNet d.valid.short
  have fitsToo : ¬256 ≤ (bridgeDir d.name).length :=
    Nat.not_le_of_lt (length_bridgeDir d.valid.short)
  have dir := eq_of_reply (serves.bridgeDir d here)
  rw [isbridge, if_neg (by omega), eq_of_reply (serves.classNet d here),
    isbridgeFallback_eq serves here]
  cases mounted : s.sysfs with
  | false => simp [shown, mounted]
  | true =>
    cases bridge : d.bridge <;>
      simp [shown, mounted, fitsToo, dir, Host.Listed, bridge]

theorem isbatman_eq (serves : Serves s (fun _ => False) calls) (here : d ∈ s.devices) :
    isbatman calls d.name = if d.mesh = true ∧ s.sysfs = true then 1 else 0 := by
  have fits := length_meshDir d.valid.short
  rw [isbatman, if_neg (by omega), eq_of_reply (serves.meshDir d here)]
  cases mounted : s.sysfs with
  | false => simp [shown, mounted]
  | true => cases mesh : d.mesh <;> simp [shown, mounted]

theorem iwname_eq (serves : Serves s (fun _ => False) calls) (here : d ∈ s.devices) :
    (match calls.siocgiwname (ifrName d.name) with
      | .error errno => if errno = eopnotsupp ∨ errno = einval then 0 else -1
      | .ok () => 1) = if d.wireless then (1 : Int) else 0 := by
  have found := find_device here
  cases answer : d.wireless with
  | true => rw [eq_of_reply (serves.wireless _ d (whole_ifrName d.valid.whole) found answer)]; rfl
  | false =>
    rcases serves.wired _ d (whole_ifrName d.valid.whole) found answer with reply | reply
    · rw [eq_of_reply reply]; rfl
    · rw [eq_of_reply reply]; rfl

def Device.link (d : Device) : Int :=
  if d.bridge || d.mesh then -1 else if d.wireless then 1 else 0

theorem kernelInterfaceWireless_iff (serves : Serves s (fun _ => False) calls)
    (here : d ∈ s.devices) :
    kernelInterfaceWireless calls d.name d.ifindex = d.link ↔
      s.sysfs = true ∨ s.Listed d ∨ d.bridge = false ∧ d.mesh = false := by
  have bridged : s.Listed d → d.bridge = true := And.left
  rw [kernelInterfaceWireless, isbridge_eq serves here, isbatman_eq serves here,
    iwname_eq serves here]
  by_cases listed : s.Listed d
  · simp [Device.link, listed, bridged listed]
  · cases mounted : s.sysfs <;> cases bridge : d.bridge <;> cases mesh : d.mesh <;>
      cases wireless : d.wireless <;> simp [Device.link, listed, bridge, mesh, wireless]

theorem kernelInterfaceWireless_iff_accessPoint :
    kernelInterfaceWireless (accessPoint false).calls br0.name br0.ifindex = br0.link ↔
      (accessPoint false).sysfs = true ∨ (accessPoint false).Listed br0 ∨
        br0.bridge = false ∧ br0.mesh = false :=
  kernelInterfaceWireless_iff (serves_calls (accessPoint false)) (by simp [accessPoint])

end Working

end Tabeld.KernelNetlink.Interfaces
