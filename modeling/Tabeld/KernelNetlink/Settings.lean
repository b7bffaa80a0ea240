import Tabeld.KernelNetlink.Command
import Tabeld.Shared.KeyedTable

set_option autoImplicit false

/-!
# kernel_setup and kernel_setup_interface

The settings under /proc/sys are a map from paths to values. What the system calls of one call do
comes in with it.
-/

namespace Tabeld.KernelNetlink

def maxInterfaces : Nat := 20
def rtTableMain : BitVec 32 := 254

structure SysctlSetting where
  name : String
  want : Int
  deriving DecidableEq

def sysctlSettings : List SysctlSetting :=
  [⟨"/proc/sys/net/ipv6/conf/all/forwarding", 1⟩,
    ⟨"/proc/sys/net/ipv4/conf/all/forwarding", 1⟩,
    ⟨"/proc/sys/net/ipv6/conf/all/accept_redirects", 0⟩,
    ⟨"/proc/sys/net/ipv4/conf/all/rp_filter", 0⟩]

structure OldIf where
  ifname : String
  rpFilter : Int
  deriving DecidableEq

abbrev OldIfs : Type := KeyedTable OldIf.ifname maxInterfaces

structure Setup where
  exportTable : Int
  importTables : List (BitVec 32)
  dgramSocket : Int
  nlCommand : Netlink
  nlSetup : Bool
  -- the member `was` of a setting, by its name
  was : String → Int
  oldIf : OldIfs
  -- the settings themselves, by path
  sysctls : String → Int

/-- Which paths can be read and written during a call; a write that fails leaves the value. -/
structure Proc where
  reads : String → Bool
  writes : String → Bool

def readProc (proc : Proc) (sysctls : String → Int) (filename : String) : Int :=
  if proc.reads filename then sysctls filename else -1

def writeProc (proc : Proc) (sysctls : String → Int) (filename : String) (value : Int) :
    (String → Int) × Int :=
  if proc.writes filename then (Function.update sysctls filename value, 1) else (sysctls, -1)

def setupSettings (proc : Proc) : List SysctlSetting → (String → Int) → (String → Int) →
    (String → Int) × (String → Int) × Int
  | [], was, sysctls => (was, sysctls, 1)
  | s :: rest, was, sysctls =>
    let was := Function.update was s.name (readProc proc sysctls s.name)
    if was s.name < 0 then (was, sysctls, -1)
    else if was s.name ≠ s.want then
      let written := writeProc proc sysctls s.name s.want
      if written.2 < 0 then (was, written.1, -1) else setupSettings proc rest was written.1
    else setupSettings proc rest was sysctls

def restoreSettings (proc : Proc) : List SysctlSetting → (String → Int) → (String → Int) →
    (String → Int) × Int
  | [], _, sysctls => (sysctls, 1)
  | s :: rest, was, sysctls =>
    if 0 ≤ was s.name ∧ was s.name ≠ s.want then
      let written := writeProc proc sysctls s.name (was s.name)
      if written.2 < 0 then (written.1, -1) else restoreSettings proc rest was written.1
    else restoreSettings proc rest was sysctls

structure SetupIo where
  dgram : Int
  opening : Opening
  proc : Proc

def kernelSetup (setup : Bool) (skipKernelSetup : Bool) (io : SetupIo) (s : Setup) : Setup × Int :=
  if setup then
    let s := { s with
      exportTable := if s.exportTable < 0 then rtTableMain.toInt else s.exportTable
      importTables := if s.importTables.length < 1 then [rtTableMain] else s.importTables
      dgramSocket := io.dgram }
    if s.dgramSocket < 0 then (s, -1)
    else
      let opened := netlinkSocket s.nlCommand io.opening
      let s := { s with nlCommand := opened.2 }
      if opened.1 < 0 then (s, -1)
      else
        let s := { s with nlSetup := true }
        if skipKernelSetup then (s, 1)
        else
          let changed := setupSettings io.proc sysctlSettings s.was s.sysctls
          ({ s with was := changed.1, sysctls := changed.2.1 }, changed.2.2)
  else
    let s := { s with
      dgramSocket := -1, nlCommand := { s.nlCommand with sock := -1 }, nlSetup := false }
    if skipKernelSetup then (s, 1)
    else
      let restored := restoreSettings io.proc sysctlSettings s.was s.sysctls
      ({ s with sysctls := restored.1 }, restored.2)

def getOldIf (strdup : Bool) (oldIf : OldIfs) (ifname : String) : Int × OldIfs :=
  match found : oldIf.position ifname with
  | some i => (i, oldIf)
  | none =>
    if full : maxInterfaces ≤ oldIf.entries.length then (-1, oldIf)
    else if strdup then
      (oldIf.entries.length,
        oldIf.append { ifname := ifname, rpFilter := -1 } (KeyedTable.position_none found)
          (Nat.lt_of_not_le full))
    else (-1, oldIf)

def OldIfs.setRpFilter (oldIf : OldIfs) (i : Nat) (value : Int) : OldIfs :=
  oldIf.modify i (fun old => { old with rpFilter := value }) fun _ => rfl

def OldIfs.rpFilter (oldIf : OldIfs) (i : Int) : Option Int :=
  if i < 0 then none else oldIf.entries[i.toNat]?.map OldIf.rpFilter

def rpFilterPath (ifname : String) : String :=
  "/proc/sys/net/ipv4/conf/" ++ ifname ++ "/rp_filter"

structure InterfaceCall where
  setup : Bool
  ifname : String
  -- strdup succeeds
  strdup : Bool
  proc : Proc

/-- There is no result after a look at `old_if[-1]`. -/
def kernelSetupInterface (c : InterfaceCall) (s : Setup) : Setup × Option Int :=
  let buf := rpFilterPath c.ifname
  if 100 ≤ buf.utf8ByteSize then (s, some (-1))
  else
    let found := getOldIf c.strdup s.oldIf c.ifname
    let i := found.1
    let s := { s with oldIf := found.2 }
    if c.setup then
      let s :=
        if 0 ≤ i then
          { s with oldIf := s.oldIf.setRpFilter i.toNat (readProc c.proc s.sysctls buf) }
        else s
      -- the warning for i < 0 does not keep the code from looking there
      match s.oldIf.rpFilter i with
      | none => (s, none)
      | some old =>
        if old ≠ 0 then
          let written := writeProc c.proc s.sysctls buf 0
          ({ s with sysctls := written.1 }, some (if written.2 < 0 then -1 else 1))
        else (s, some 1)
    else
      match s.oldIf.rpFilter i with
      | some old =>
        if 0 < old then ({ s with sysctls := (writeProc c.proc s.sysctls buf old).1 }, some 1)
        else (s, some 1)
      | none => (s, some 1)

def setupInterfaces : List InterfaceCall → Setup → Option Setup
  | [], s => some s
  | c :: rest, s =>
    match kernelSetupInterface c s with
    | (_, none) => none
    | (s, some _) => setupInterfaces rest s

end Tabeld.KernelNetlink
