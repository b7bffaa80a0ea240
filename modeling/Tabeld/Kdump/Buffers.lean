import Tabeld.Kdump.Format
import Tabeld.Shared.CString
import Tabeld.Shared.Machine

set_option autoImplicit false

/-!
# The static buffers behind the printed prefixes

Each printer of kdump.c has four slots of its own, one after the other in memory, and the index
of the slot it used last.
-/

namespace Tabeld.Kdump

open RingBuffer CString

variable (host : ByteOrder)

def slotSize : Nat := inet6Addrstrlen + 4

def slotStart (k : Fin 4) : Nat := slotSize * k

structure Static where
  buf : Memory
  i : Fin 4

def chars (text : List Char) : List UInt8 := text.map fun c => UInt8.ofNat c.toNat

variable (ntop : Ntop)

namespace Static

def inetNtop (family : Family) (address : List UInt8) (buf : Memory) (dst : Nat) : Memory :=
  let text := chars (ntop family (address.take family.size))
  if text.length < inet6Addrstrlen then put buf dst text else buf

/-- Undefined if `strlen` finds no end within the slot. -/
def printPrefix (family : Family) (address : List UInt8) (plen : Nat) (s : Static) :
    Option (Nat × Static) := do
  let i : Fin 4 := ⟨(s.i + 1) % 4, Nat.mod_lt _ (by decide)⟩
  let dst := slotStart i
  let buf := inetNtop ntop family address s.buf dst
  let n ← strlen buf dst slotSize
  let buf := putn buf (dst + n) (inet6Addrstrlen + 4 - n) (chars ('/' :: Nat.toDigits 10 plen))
  some (dst, { buf, i })

def formatPrefix4 (address : Addr4) (plen : UInt8) (s : Static) : Option (Nat × Static) :=
  printPrefix ntop .inet address.b plen.toNat s

def formatPrefix6 (address : Addr6) (plen : UInt8) (s : Static) : Option (Nat × Static) :=
  printPrefix ntop .inet6 address.b plen.toNat s

def formatPrefix (address : Addr6) (plen : UInt8) (s : Static) : Option (Nat × Static) :=
  if 96 ≤ plen ∧ v4mapped host address then
    printPrefix ntop .inet (address.b.drop 8) (plen.toNat - 96) s
  else
    printPrefix ntop .inet6 address.b plen.toNat s

def formatPrefixStr (address : List UInt8) (plen : UInt8) (s : Static) :
    Option (Nat × Static) :=
  if 96 ≤ plen ∧ v4mappedStr address then
    printPrefix ntop .inet (address.drop 12) (plen.toNat - 96) s
  else
    printPrefix ntop .inet6 address plen.toNat s

def view (s : Static) : RingBuffer (Option (List UInt8)) 4 where
  slots := fun k => stringAt s.buf (slotStart k) slotSize
  current := s.i

end Static

/-- The documented texts of `inet_ntop`: they fit and are strings. -/
structure NtopStrings : Prop where
  short : Short ntop
  clean : ∀ family bytes, bytes.length = family.size → 0 ∉ chars (ntop family bytes)

structure Printed (s : Static) (text : List Char) (start : Nat) (t : Static) : Prop where
  returned : start = slotStart s.view.following
  moved : t.i = s.view.following
  string : stringAt t.buf start slotSize = some (chars text)
  outside : ∀ address, address < start ∨ start + slotSize ≤ address →
    t.buf address = s.buf address

@[simp] theorem length_chars (text : List Char) : (chars text).length = text.length :=
  List.length_map ..

theorem slotStart_apart {j k : Fin 4} (other : j ≠ k) :
    slotStart j + slotSize ≤ slotStart k ∨ slotStart k + slotSize ≤ slotStart j := by
  have different : (j : Nat) ≠ k := fun same => other (Fin.ext same)
  simp only [slotStart, slotSize, inet6Addrstrlen]
  omega

theorem Printed.view {s t : Static} {text : List Char} {start : Nat}
    (printed : Printed s text start t) :
    t.view = (s.view.rotate fun _ => some (chars text)).2 := by
  have slots : t.view.slots =
      Function.update s.view.slots s.view.following (some (chars text)) := by
    funext k
    by_cases same : k = s.view.following
    · rw [same, Function.update_self, ← printed.string, printed.returned, Static.view]
    · rw [Function.update_of_ne same]
      apply stringAt_congr
      intro address low high
      apply printed.outside
      rw [printed.returned]
      have apart := slotStart_apart same
      omega
  rw [rotate, ← slots, ← printed.moved, Static.view]

theorem code_digitChar (digit : Nat) : UInt8.ofNat (Nat.digitChar digit).toNat ≠ 0 := by
  by_cases small : digit < 16
  · have each : ∀ d < 16, UInt8.ofNat (Nat.digitChar d).toNat ≠ 0 := by decide
    exact each digit small
  · rw [Nat.digitChar_eq_star.mpr (Nat.le_of_not_lt small)]
    decide

theorem clean_toDigits {base : Nat} (big : 1 < base) (number : Nat) :
    0 ∉ chars (Nat.toDigits base number) := by
  induction number using Nat.strongRecOn with
  | ind number ih =>
    rw [Nat.toDigits_eq_if big]
    split
    next => simpa [chars, eq_comm] using code_digitChar number
    next large =>
      have smaller : number / base < number := Nat.div_lt_self (by omega) big
      have last := code_digitChar (number % base)
      have rest := ih (number / base) smaller
      simp only [chars, List.map_append, List.mem_append, List.map_cons, List.map_nil,
        List.mem_singleton] at rest ⊢
      rintro (zero | zero)
      · exact rest zero
      · exact last zero.symm

theorem clean_plen (length : Nat) : 0 ∉ chars ('/' :: Nat.toDigits 10 length) := by
  intro zero
  rcases List.mem_cons.mp zero with slash | digit
  · exact absurd slash (by decide)
  · exact clean_toDigits (by decide) length digit

theorem printed_puts (s : Static) {text more : List Char} (cleanText : 0 ∉ chars text)
    (cleanMore : 0 ∉ chars more) (room : text.length + more.length < slotSize) :
    let dst := slotStart s.view.following
    Printed s (text ++ more) dst
      { buf := put (put s.buf dst (chars text)) (dst + text.length) (chars more)
        i := s.view.following } := by
  intro dst
  have first : stringAt (put s.buf dst (chars text)) dst slotSize = some (chars text) :=
    stringAt_put s.buf dst (by rw [length_chars]; omega) cleanText
  refine ⟨rfl, rfl, ?_, ?_⟩
  · have fits : (chars text).length + (chars more).length < slotSize := by
      simpa only [length_chars] using room
    have appended := stringAt_put_end first fits cleanMore
    rw [length_chars] at appended
    rw [appended, chars, chars, chars, List.map_append]
  · intro address outside
    have inner : put s.buf dst (chars text) address = s.buf address :=
      put_other s.buf (by rw [length_chars]; omega)
    rw [← inner]
    exact put_other _ (by rw [length_chars]; omega)

section

variable {ntop} (strings : NtopStrings ntop)
include strings

theorem inetNtop_text (family : Family) (address : List UInt8)
    (long : family.size ≤ address.length) (buf : Memory) (dst : Nat) :
    Static.inetNtop ntop family address buf dst =
      put buf dst (chars (ntop family (address.take family.size))) := by
  have fits := strings.short family (address.take family.size) (List.length_take_of_le long)
  simp [Static.inetNtop, fits]

theorem printPrefix_printed (family : Family) (address : List UInt8)
    (long : family.size ≤ address.length) (plen : Nat) (small : plen < 256) (s : Static) :
    ∃ start t, Static.printPrefix ntop family address plen s = some (start, t) ∧
      Printed s (ntop family (address.take family.size) ++ '/' :: Nat.toDigits 10 plen)
        start t := by
  let dst := slotStart s.view.following
  let text := ntop family (address.take family.size)
  let more := '/' :: Nat.toDigits 10 plen
  have size : (address.take family.size).length = family.size := List.length_take_of_le long
  have cleanText := strings.clean family _ size
  have room : text.length + more.length < inet6Addrstrlen + 4 :=
    length_ntop_plen strings.short family _ size plen small
  have printed := printed_puts s cleanText (clean_plen plen) room
  refine ⟨_, _, ?_, printed⟩
  have ends : strlen (put s.buf dst (chars text)) dst slotSize = some text.length := by
    have fits : (chars text).length < slotSize := by
      rw [length_chars, slotSize]
      omega
    rw [strlen, stringAt_put s.buf dst fits cleanText, Option.map_some, length_chars]
  have whole : putn (put s.buf dst (chars text)) (dst + text.length)
      (inet6Addrstrlen + 4 - text.length) (chars more) =
        put (put s.buf dst (chars text)) (dst + text.length) (chars more) :=
    putn_of_short _ _ (by rw [length_chars]; omega)
  rw [Static.printPrefix, inetNtop_text strings family address long]
  change (strlen (put s.buf dst (chars text)) dst slotSize).bind _ = _
  rw [ends, Option.bind_some]
  exact congrArg (fun buf => some (dst, Static.mk buf s.view.following)) whole

theorem printPrefix_word (address : Addr6) (offset : Nat) (bound : offset ≤ 12) (plen : UInt8)
    (s : Static) :
    ∃ start t, Static.printPrefix ntop .inet (address.b.drop offset) (plen.toNat - 96) s =
        some (start, t) ∧
      Printed s (ntop .inet ((address.b.drop offset).take 4) ++
        '/' :: Nat.toDigits 10 (plen.toNat - 96)) start t := by
  have small := plen.toNat_lt
  exact printPrefix_printed strings .inet _ (length_word address bound) _ (by omega) s

theorem printPrefix_bytes (family : Family) (address : List UInt8)
    (size : address.length = family.size) (plen : UInt8) (s : Static) :
    ∃ start t, Static.printPrefix ntop family address plen.toNat s = some (start, t) ∧
      Printed s (ntop family address ++ '/' :: Nat.toDigits 10 plen.toNat) start t := by
  have printed := printPrefix_printed strings family address (Nat.le_of_eq size.symm) plen.toNat
    plen.toNat_lt s
  rwa [List.take_of_length_le (Nat.le_of_eq size)] at printed

theorem formatPrefix_printed (address : Addr6) (plen : UInt8) (s : Static) :
    ∃ start t, s.formatPrefix host ntop address plen = some (start, t) ∧
      Printed s (prefixText ntop 8 address plen) start t := by
  simp only [Static.formatPrefix, prefixText, v4mapped_eq, decide_eq_true_iff]
  split
  · exact printPrefix_word strings address 8 (by decide) plen s
  · exact printPrefix_bytes strings .inet6 address.b address.size plen s

theorem formatPrefixStr_printed (address : Addr6) (plen : UInt8) (s : Static) :
    ∃ start t, s.formatPrefixStr ntop address.b plen = some (start, t) ∧
      Printed s (prefixText ntop 12 address plen) start t := by
  simp only [Static.formatPrefixStr, prefixText, v4mappedStr_eq, decide_eq_true_iff]
  split
  · exact printPrefix_word strings address 12 (by decide) plen s
  · exact printPrefix_bytes strings .inet6 address.b address.size plen s

end

def Shows (s : Static) (buf : Buf) : Prop := s.view = buf.map fun text => some (chars text)

theorem shows_zeroed : Shows ⟨Memory.zeroed, 0⟩ ⟨fun _ => [], 0⟩ := rfl

theorem Shows.next {s : Static} {buf : Buf} (shows : Shows s buf) {change : List Char → List Char}
    {called : Option (Nat × Static)}
    (prints : ∃ start t, called = some (start, t) ∧
      Printed s (result (buf.rotate change)) start t) :
    ∃ t, called = some (slotStart (buf.rotate change).1, t) ∧ Shows t (buf.rotate change).2 := by
  obtain ⟨start, t, one, printed⟩ := prints
  refine ⟨t, ?_, ?_⟩
  · rw [one, printed.returned, shows]
    rfl
  · rw [Shows, printed.view, shows, rotate_map, ← rotate_eq]

section

variable {ntop} (strings : NtopStrings ntop)
include strings

theorem formatPrefix_shows {s : Static} {buf : Buf} (shows : Shows s buf) (address : Addr6)
    (plen : UInt8) :
    ∃ t, s.formatPrefix host ntop address plen =
        some (slotStart (formatPrefix host ntop address plen buf).1, t) ∧
      Shows t (formatPrefix host ntop address plen buf).2 := by
  have printed := formatPrefix_printed host strings address plen s
  rw [← result_formatPrefix host strings.short address plen buf] at printed
  exact shows.next printed

theorem formatPrefixStr_shows {s : Static} {buf : Buf} (shows : Shows s buf) (address : Addr6)
    (plen : UInt8) :
    ∃ t, s.formatPrefixStr ntop address.b plen =
        some (slotStart (formatPrefixStr ntop address.b plen buf).1, t) ∧
      Shows t (formatPrefixStr ntop address.b plen buf).2 := by
  have printed := formatPrefixStr_printed strings address plen s
  rw [← result_formatPrefixStr strings.short address plen buf] at printed
  exact shows.next printed

end

def groups : List UInt8 → List (List Char)
  | high :: low :: rest => Nat.toDigits 16 (256 * high.toNat + low.toNat) :: groups rest
  | _ => []

def colonNtop : Ntop
  | .inet, address => quad address
  -- as it is for an address that has no two zero groups in a row
  | .inet6, address => [':'].intercalate (groups address)

theorem length_groups (bytes : List UInt8) : (groups bytes).length ≤ bytes.length / 2 := by
  fun_induction groups bytes with
  | case1 high low rest ih =>
    simp only [List.length_cons]
    omega
  | case2 => exact Nat.zero_le _

theorem mem_groups {bytes : List UInt8} {group : List Char} (member : group ∈ groups bytes) :
    ∃ number < 65536, group = Nat.toDigits 16 number := by
  fun_induction groups bytes with
  | case1 high low rest ih =>
    rcases List.mem_cons.mp member with here | later
    · have highBound := high.toNat_lt
      have lowBound := low.toNat_lt
      exact ⟨256 * high.toNat + low.toNat, by omega, here⟩
    · exact ih later
  | case2 => exact absurd member List.not_mem_nil

theorem length_intercalate (separator : Char) {size : Nat} {parts : List (List Char)}
    (small : ∀ part ∈ parts, part.length ≤ size) :
    ([separator].intercalate parts).length ≤ (size + 1) * parts.length := by
  induction parts with
  | nil => simp
  | cons part rest ih =>
    have here := small part (by simp)
    have later := ih fun other member => small other (List.mem_cons_of_mem part member)
    cases rest with
    | nil =>
      simp
      omega
    | cons next rest =>
      rw [List.intercalate_cons_cons]
      simp only [List.length_append, List.length_cons, List.length_nil] at later ⊢
      rw [Nat.mul_succ]
      omega

theorem clean_intercalate {separator : Char} (clean : UInt8.ofNat separator.toNat ≠ 0)
    {parts : List (List Char)} (each : ∀ part ∈ parts, 0 ∉ chars part) :
    0 ∉ chars ([separator].intercalate parts) := by
  induction parts with
  | nil => simp [chars]
  | cons part rest ih =>
    have here := each part (by simp)
    have later := ih fun other member => each other (List.mem_cons_of_mem part member)
    cases rest with
    | nil => simpa using here
    | cons next rest =>
      rw [List.intercalate_cons_cons]
      simp only [chars, List.map_append, List.mem_append, not_or, List.map_cons, List.map_nil,
        List.mem_singleton] at here later ⊢
      exact ⟨⟨here, Ne.symm clean⟩, later⟩

theorem ntopStrings_colon : NtopStrings colonNtop where
  short family bytes size := by
    cases family with
    | inet =>
      have short := length_quad bytes size
      simp only [colonNtop, inet6Addrstrlen]
      omega
    | inet6 =>
      have sixteen : bytes.length = 16 := size
      have count := length_groups bytes
      have short : ∀ group ∈ groups bytes, group.length ≤ 4 := by
        intro group member
        obtain ⟨number, bound, rfl⟩ := mem_groups member
        exact (Nat.length_toDigits_le_iff (by decide) (by decide)).mpr bound
      have length := length_intercalate ':' short
      simp only [colonNtop, inet6Addrstrlen]
      omega
  clean family bytes _ := by
    cases family with
    | inet =>
      apply clean_intercalate (by decide)
      intro part member
      obtain ⟨byte, -, rfl⟩ := List.mem_map.mp member
      exact clean_toDigits (by decide) byte.toNat
    | inet6 =>
      apply clean_intercalate (by decide)
      intro group member
      obtain ⟨number, -, rfl⟩ := mem_groups member
      exact clean_toDigits (by decide) number

structure InSlot (s : Static) (start : Nat) (t : Static) : Prop where
  slot : ∃ k, start = slotStart k
  outside : ∀ address, address < start ∨ start + slotSize ≤ address →
    t.buf address = s.buf address

section

variable {Call : Type} (step : Static → Call → Option (Nat × Static)) (text : Call → List Char)

def Prints : Prop := ∀ s call, ∃ start t,
  step s call = some (start, t) ∧ Printed s (text call) start t

/-- Each call of a sequence returns its whole text, written in one slot, and three more calls
leave it there. -/
def Lasting : Prop := ∀ s before call, ∃ earlier mid start t,
  Machine.run step s before = some (earlier, mid) ∧ step mid call = some (start, t) ∧
    InSlot mid start t ∧
    ∀ after, after.length ≤ 3 → ∃ later u, Machine.run step t after = some (later, u) ∧
      stringAt u.buf start slotSize = some (chars (text call))

variable {step text}

theorem Prints.run (prints : Prints step text) (s : Static) (calls : List Call) :
    ∃ starts t, Machine.run step s calls = some (starts, t) ∧
      t.view = s.view.rotates (calls.map fun call _ => some (chars (text call))) := by
  induction calls generalizing s with
  | nil => exact ⟨[], s, rfl, rfl⟩
  | cons call rest ih =>
    obtain ⟨start, t, first, printed⟩ := prints s call
    obtain ⟨starts, u, later, view⟩ := ih t
    refine ⟨start :: starts, u, Machine.run_cons.mpr ⟨start, t, starts, first, later, rfl⟩, ?_⟩
    rw [view, printed.view]
    rfl

theorem Prints.lasting (prints : Prints step text) : Lasting step text := by
  intro s before call
  obtain ⟨earlier, mid, ran, -⟩ := prints.run s before
  obtain ⟨start, t, one, printed⟩ := prints mid call
  refine ⟨earlier, mid, start, t, ran, one, ⟨⟨_, printed.returned⟩, printed.outside⟩, ?_⟩
  intro after few
  obtain ⟨later, u, more, view⟩ := prints.run t after
  refine ⟨later, u, more, ?_⟩
  have kept := slots_rotates t.view (after.map fun call _ => some (chars (text call)))
    (by rw [List.length_map]; omega)
  rw [← view] at kept
  have slot : slotStart t.view.current = start := by
    rw [printed.returned, ← printed.moved]
    rfl
  simp only [Static.view] at kept slot
  rw [slot] at kept
  rw [kept, printed.string]

theorem Shows.run {texts : Buf → Call → Fin 4 × Buf}
    (one : ∀ s buf call, Shows s buf →
      ∃ t, step s call = some (slotStart (texts buf call).1, t) ∧ Shows t (texts buf call).2)
    {s : Static} {buf final : Buf} {calls : List Call} {slots : List (Fin 4)}
    (shows : Shows s buf)
    (ran : Machine.run (fun buf call => some (texts buf call)) buf calls = some (slots, final)) :
    ∃ t, Machine.run step s calls = some (slots.map slotStart, t) ∧ Shows t final := by
  refine Machine.run_simulates Shows slotStart ?_ shows ran
  intro s buf call slot next shows called
  obtain ⟨rfl, rfl⟩ := (Prod.mk.injEq ..).mp (Option.some.inj called)
  exact one s buf call shows

end

variable {ntop}

theorem formatted_runs (strings : NtopStrings ntop) {s : Static} {buf final : Buf}
    (shows : Shows s buf) {calls : List (Addr6 × UInt8)} {slots : List (Fin 4)} :
    (Machine.run (fun buf call => some (formatPrefixStr ntop call.1.b call.2 buf)) buf calls =
        some (slots, final) →
      ∃ t, Machine.run (fun s call => s.formatPrefixStr ntop call.1.b call.2) s calls =
        some (slots.map slotStart, t) ∧ Shows t final) ∧
    (Machine.run (fun buf call => some (formatPrefix host ntop call.1 call.2 buf)) buf calls =
        some (slots, final) →
      ∃ t, Machine.run (fun s call => s.formatPrefix host ntop call.1 call.2) s calls =
        some (slots.map slotStart, t) ∧ Shows t final) := by
  constructor
  · exact Shows.run (fun s buf call shown => formatPrefixStr_shows strings shown call.1 call.2)
      shows
  · exact Shows.run (fun s buf call shown => formatPrefix_shows host strings shown call.1 call.2)
      shows

theorem formatted_prefixes_last (strings : NtopStrings ntop) :
    Lasting (fun s (call : Addr6 × UInt8) => s.formatPrefixStr ntop call.1.b call.2)
        (fun call => prefixText ntop 12 call.1 call.2) ∧
      Lasting (fun s (call : Addr6 × UInt8) => s.formatPrefix host ntop call.1 call.2)
        (fun call => prefixText ntop 8 call.1 call.2) ∧
      Lasting (fun s (call : Addr4 × UInt8) => s.formatPrefix4 ntop call.1 call.2)
        (fun call => ntop .inet call.1.b ++ '/' :: Nat.toDigits 10 call.2.toNat) ∧
      Lasting (fun s (call : Addr6 × UInt8) => s.formatPrefix6 ntop call.1 call.2)
        (fun call => ntop .inet6 call.1.b ++ '/' :: Nat.toDigits 10 call.2.toNat) := by
  refine ⟨Prints.lasting ?_, Prints.lasting ?_, Prints.lasting ?_, Prints.lasting ?_⟩
  · exact fun s call => formatPrefixStr_printed strings call.1 call.2 s
  · exact fun s call => formatPrefix_printed host strings call.1 call.2 s
  · exact fun s call => printPrefix_bytes strings .inet call.1.b call.1.size call.2 s
  · exact fun s call => printPrefix_bytes strings .inet6 call.1.b call.1.size call.2 s

def site : Addr6 :=
  ⟨[0x20, 0x01, 0x0D, 0xB8, 0, 1, 0, 2, 0, 3, 0, 4, 0, 5, 0, 6], rfl⟩

theorem formatted_prefixes_last_site :
    let step := fun (s : Static) (call : Addr6 × UInt8) =>
      s.formatPrefixStr colonNtop call.1.b call.2
    ∃ earlier mid start t later u,
      Machine.run step ⟨Memory.zeroed, 0⟩ [(lan, 128)] = some (earlier, mid) ∧
        step mid (site, 64) = some (start, t) ∧
        Machine.run step t [(lan, 120), (site, 0), (lan, 96)] = some (later, u) ∧
        stringAt u.buf start slotSize = some (chars "2001:db8:1:2:3:4:5:6/64".toList) := by
  intro step
  have last := (formatted_prefixes_last .little ntopStrings_colon).1
  obtain ⟨earlier, mid, start, t, ran, one, -, stays⟩ :=
    last ⟨Memory.zeroed, 0⟩ [(lan, 128)] (site, 64)
  obtain ⟨later, u, more, reads⟩ := stays [(lan, 120), (site, 0), (lan, 96)] (by decide)
  have text : prefixText colonNtop 12 site 64 = "2001:db8:1:2:3:4:5:6/64".toList := by decide
  rw [← text]
  exact ⟨earlier, mid, start, t, later, u, ran, one, more, reads⟩

end Tabeld.Kdump
