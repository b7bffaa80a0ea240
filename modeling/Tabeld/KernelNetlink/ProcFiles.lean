import Tabeld.KernelNetlink.Settings
import Tabeld.Shared.Decimal

set_option autoImplicit false

/-!
# The files of the settings

`read_proc` and `write_proc` on the text of a file under /proc/sys. The kernel shows a setting as a
number and a line break, and takes a number from the text that is written.
-/

namespace Tabeld.KernelNetlink

open Decimal

structure FileIo where
  fd : Int
  openErrno : Int
  rc : Int
  rcErrno : Int
  -- close may change errno
  closeErrno : Int

structure FileResult where
  rc : Int
  errno : Int
  opened : List Int
  closed : List Int

def readProcFile (io : FileIo) (content : List Char) : FileResult :=
  if io.fd < 0 then { rc := -1, errno := io.openErrno, opened := [], closed := [] }
  else if io.rc < 0 then
    { rc := -1, errno := io.rcErrno, opened := [io.fd], closed := [io.fd] }
  else
    { rc := if io.rc = 0 then -1 else atoi (content.take io.rc.toNat ++ ['\x00'])
      errno := io.closeErrno
      opened := [io.fd]
      closed := [io.fd] }

def writeProcFile (io : FileIo) (value : Int) : FileResult × List Char :=
  let buf := text value
  if io.fd < 0 then ({ rc := -1, errno := io.openErrno, opened := [], closed := [] }, [])
  else if io.rc < buf.length then
    ({ rc := -1, errno := io.rcErrno, opened := [io.fd], closed := [io.fd] }, buf)
  else ({ rc := 1, errno := io.closeErrno, opened := [io.fd], closed := [io.fd] }, buf)

structure PathIo where
  fd : Int
  openErrno : Int
  readFails : Bool
  -- what write returns instead of the whole length
  writeFails : Option Int
  rcErrno : Int
  closeErrno : Int

def PathIo.read (p : PathIo) (content : List Char) : FileIo where
  fd := p.fd
  openErrno := p.openErrno
  rc := if p.readFails then -1 else min 99 content.length
  rcErrno := p.rcErrno
  closeErrno := p.closeErrno

def PathIo.write (p : PathIo) (buf : List Char) : FileIo where
  fd := p.fd
  openErrno := p.openErrno
  rc := match p.writeFails with
    | none => buf.length
    | some rc => min rc (buf.length - 1)
  rcErrno := p.rcErrno
  closeErrno := p.closeErrno

variable (io : String → PathIo) (stored : List Char → List Char)

/-- `write_proc` and the kernel: a text that is taken whole is what the file shows from then on, in
the form that `stored` gives it. -/
def writeProcFiles (files : String → List Char) (filename : String) (value : Int) :
    (String → List Char) × Int :=
  let (result, buf) := writeProcFile ((io filename).write (text value)) value
  (if result.rc < 0 then files else Function.update files filename (stored buf), result.rc)

def readProcFiles (files : String → List Char) (filename : String) : Int :=
  (readProcFile ((io filename).read (files filename)) (files filename)).rc

def setupSettingsFiles : List SysctlSetting → (String → Int) → (String → List Char) →
    (String → Int) × (String → List Char) × Int
  | [], was, files => (was, files, 1)
  | s :: rest, was, files =>
    let was := Function.update was s.name (readProcFiles io files s.name)
    if was s.name < 0 then (was, files, -1)
    else if was s.name ≠ s.want then
      let written := writeProcFiles io stored files s.name s.want
      if written.2 < 0 then (was, written.1, -1) else setupSettingsFiles rest was written.1
    else setupSettingsFiles rest was files

def restoreSettingsFiles : List SysctlSetting → (String → Int) → (String → List Char) →
    (String → List Char) × Int
  | [], _, files => (files, 1)
  | s :: rest, was, files =>
    if 0 ≤ was s.name ∧ was s.name ≠ s.want then
      let written := writeProcFiles io stored files s.name (was s.name)
      if written.2 < 0 then (written.1, -1) else restoreSettingsFiles rest was written.1
    else restoreSettingsFiles rest was files

def shown (value : Int) : List Char := text value ++ ['\n']

def procOf : Proc where
  reads path := decide (0 ≤ (io path).fd) && !(io path).readFails
  writes path := decide (0 ≤ (io path).fd) && (io path).writeFails.isNone

theorem atoi_shown {value : Int} (range : InRange value) :
    atoi (shown value ++ ['\x00']) = value := by
  rw [shown, List.append_assoc]
  refine atoi_text range ?_
  intro c first
  cases first
  rfl

theorem rc_readProcFile (io : FileIo) (content : List Char) :
    (readProcFile io content).rc =
      if io.fd < 0 ∨ io.rc ≤ 0 then -1 else atoi (content.take io.rc.toNat ++ ['\x00']) := by
  unfold readProcFile
  by_cases closed : io.fd < 0
  · simp [closed]
  · by_cases failed : io.rc < 0
    · have nothing : io.rc ≤ 0 := by omega
      simp [closed, failed, nothing]
    · by_cases empty : io.rc = 0
      · simp [closed, empty]
      · have some_ : ¬io.rc ≤ 0 := by omega
        simp [closed, failed, empty, some_]

theorem readProcFiles_shown {sysctls : String → Int} {filename : String}
    (range : InRange (sysctls filename)) :
    readProcFiles io (fun path => shown (sysctls path)) filename =
      readProc (procOf io) sysctls filename := by
  have short := (length_text range).2
  have length : (shown (sysctls filename)).length = (text (sysctls filename)).length + 1 := by
    rw [shown, List.length_append, List.length_singleton]
  rw [readProcFiles, rc_readProcFile, readProc]
  simp only [PathIo.read, procOf, Bool.and_eq_true, decide_eq_true_eq]
  by_cases opened : 0 ≤ (io filename).fd
  · have open_ : ¬(io filename).fd < 0 := by omega
    by_cases fails : (io filename).readFails = true
    · simp [fails]
    · have whole : min 99 ((shown (sysctls filename)).length : Int) =
          (shown (sysctls filename)).length := by omega
      have nonempty : ¬((shown (sysctls filename)).length : Int) ≤ 0 := by omega
      simp only [Bool.not_eq_true] at fails
      simp only [fails, Bool.false_eq_true, if_false, whole, open_, nonempty, or_self, opened,
        Bool.not_false, and_self, if_true, Int.toNat_natCast, List.take_length]
      exact atoi_shown range
  · have closed : (io filename).fd < 0 := by omega
    simp [closed, opened]

theorem inRange_writeProc {proc : Proc} {sysctls : String → Int} {filename : String} {value : Int}
    (range : ∀ path, InRange (sysctls path)) (also : InRange value) (path : String) :
    InRange ((writeProc proc sysctls filename value).1 path) := by
  unfold writeProc
  split
  · simp only [Function.update_apply]
    split
    · exact also
    · exact range path
  · exact range path

variable {stored} (takes : ∀ value, InRange value → stored (text value) = shown value)

include takes

theorem writeProcFiles_shown (sysctls : String → Int) (filename : String) {value : Int}
    (range : InRange value) :
    let out := writeProc (procOf io) sysctls filename value
    writeProcFiles io stored (fun path => shown (sysctls path)) filename value =
      (fun path => shown (out.1 path), out.2) := by
  have some_ := (length_text range).1
  simp only [writeProcFiles, writeProcFile, PathIo.write, writeProc, procOf, Bool.and_eq_true,
    decide_eq_true_eq]
  by_cases opened : 0 ≤ (io filename).fd
  · have open_ : ¬(io filename).fd < 0 := by omega
    rcases Option.eq_none_or_eq_some (io filename).writeFails with whole | ⟨rc, fails⟩
    · simp only [whole, open_, if_false, Int.lt_irrefl, opened, Option.isNone_none, and_self,
        if_true, show ¬(1 : Int) < 0 by decide, takes value range, Prod.mk.injEq, and_true]
      funext path
      by_cases here : path = filename
      · rw [here, Function.update_self, Function.update_self]
      · rw [Function.update_of_ne here, Function.update_of_ne here]
    · have less : min rc ((text value).length - 1 : Int) < (text value).length := by omega
      simp [fails, open_, less]
  · have closed : (io filename).fd < 0 := by omega
    simp [closed, opened]

theorem setupSettingsFiles_shown (settings : List SysctlSetting) (was sysctls : String → Int)
    (wants : ∀ s ∈ settings, InRange s.want) (range : ∀ path, InRange (sysctls path)) :
    let out := setupSettings (procOf io) settings was sysctls
    setupSettingsFiles io stored settings was (fun path => shown (sysctls path)) =
      (out.1, fun path => shown (out.2.1 path), out.2.2) := by
  induction settings generalizing was sysctls with
  | nil => rfl
  | cons s rest ih =>
    have want := wants s (by simp)
    have later := fun was sysctls => ih was sysctls fun t member => wants t (by simp [member])
    have written := writeProcFiles_shown io takes sysctls s.name want
    simp only [setupSettingsFiles, setupSettings, readProcFiles_shown io (range s.name), written]
    split
    next => rfl
    next =>
      split
      next =>
        split
        next => rfl
        next => exact later _ _ (inRange_writeProc range want)
      next => exact later _ _ range

theorem restoreSettingsFiles_shown (settings : List SysctlSetting) (was sysctls : String → Int)
    (wasRange : ∀ s ∈ settings, InRange (was s.name)) (range : ∀ path, InRange (sysctls path)) :
    let out := restoreSettings (procOf io) settings was sysctls
    restoreSettingsFiles io stored settings was (fun path => shown (sysctls path)) =
      (fun path => shown (out.1 path), out.2) := by
  induction settings generalizing sysctls with
  | nil => rfl
  | cons s rest ih =>
    have old := wasRange s (by simp)
    have later := fun sysctls => ih sysctls fun t member => wasRange t (by simp [member])
    have written := writeProcFiles_shown io takes sysctls s.name old
    simp only [restoreSettingsFiles, restoreSettings, written]
    split
    next =>
      split
      next => rfl
      next => exact later _ (inRange_writeProc range old)
    next => exact later _ range

omit takes

def oneReadOnly : String → PathIo := fun path =>
  { fd := 7
    openErrno := 0
    readFails := false
    writeFails :=
      if path = "/proc/sys/net/ipv4/conf/all/forwarding" then some (-1) else none
    rcErrno := 13
    closeErrno := 0 }

def kernelStores (buf : List Char) : List Char := shown (strtol buf)

theorem takes_kernelStores (value : Int) (range : InRange value) :
    kernelStores (text value) = shown value := by
  have read : strtol (text value ++ []) = value := strtol_text range (by simp)
  rw [List.append_nil] at read
  rw [kernelStores, read]

end Tabeld.KernelNetlink
