import Lager.Lib.Run
import Lager.Py.Text
import Mathlib.Data.Char
import Mathlib.Data.List.Lex
import Mathlib.Data.List.Sort
import Mathlib.Data.List.Infix
import Mathlib.Tactic.FinCases

/-!
# GDB servers of several debug probes

`debug/probes.py` and `debug/gdbserver.py` for J-Link probes with a serial. A probe's slot is the rank of its serial
among the serials of the debug nets saved at that moment, and its ports are counted from the slot. A server is
started with these ports on its command line and keeps them. Servers are stopped with `pkill -f`, which takes a
regular expression and searches every command line for it: once for the serial (`USB=<serial>` after the program's
name), and at a start also for the port about to be bound.

Texts are lists of characters. The start is that of `start_jlink_gdbserver`, with the ports `_resolve_probe` gives
it; `script` is a script file that exists below `/tmp`.
-/

namespace Lager.Debug.GdbServer

open Lager.Lib Lager.Py

abbrev Text := List Char

/-! ### Probes, nets and ports -/

/-- `[A-Za-z0-9._-]` -/
def isSerialChar (c : Char) : Bool := c.isAlphanum || c = '.' || c = '_' || c = '-'

/-- A serial of the form `BINDABLE_SERIAL_RE` accepts. -/
structure Serial where
  text : Text
  nonempty : text ≠ []
  accepted : ∀ c ∈ text, isSerialChar c = true

instance : DecidableEq Serial := fun a b =>
  decidable_of_iff (a.text = b.text) ⟨fun h => by cases a; cases b; cases h; rfl, fun h => h ▸ rfl⟩

/-- A saved net; `serial` is what `parse_probe_serial` reads in its address. -/
structure SavedNet where
  name : String
  role : String
  serial : Option Text
  deriving DecidableEq

/-- `all_serials` in `_resolve_probe`. -/
def allSerials (saved : List SavedNet) : List Text :=
  saved.filterMap fun n => if n.role = "debug" then n.serial else none

/-- `compute_slot` -/
def computeSlot (serial : Text) (allSerials : List Text) : Nat :=
  let sortedSerials := (allSerials.filter (· ≠ [])).insertionSort (· ≤ ·)
  if serial ∈ sortedSerials then sortedSerials.idxOf serial else 0

def gdbPortForSlot (slot : Nat) : Nat := 2331 + slot * 3
def swoPortForSlot (slot : Nat) : Nat := 2331 + slot * 3 + 1
def telnetPortForSlot (slot : Nat) : Nat := 2331 + slot * 3 + 2
def rttPortForSlot (slot : Nat) : Nat := 9090 + slot * 2

/-- The ports of a server of a slot: the three of the GDB side and two RTT channels. -/
def ports (slot : Nat) : List Nat :=
  [gdbPortForSlot slot, swoPortForSlot slot, telnetPortForSlot slot, rttPortForSlot slot, rttPortForSlot slot + 1]

/-! ### Command lines -/

def programName : Text := "JLinkGDBServerCLExe".toList

/-- `JLINK_GDB_SERVER_PATHS`, without the name at their end. -/
def programDirs : List Text :=
  ["/tmp/lager-jlink-bin/", "/opt/SEGGER/JLink_V794e/", "/home/www-data/third_party/jlink/",
    "/home/www-data/third_party/JLink_V884/", "/home/www-data/third_party/JLink_Linux_V794a_x86_64/",
    "/usr/bin/"].map String.toList

/-- What a server is started with. -/
structure Start where
  dir : Text
  serial : Serial
  device : Text
  transport : Text
  speed : Text
  halt : Bool
  script : Option Text
  dir_mem : dir ∈ programDirs

def number (n : Nat) : Text := textOfNat n

/-- `fs_slug` leaves an accepted serial as it is. -/
def logfile (serial : Serial) : Text := "/tmp/jlink_gdbserver_".toList ++ serial.text ++ ".log".toList

/-- An argument that begins with a dash. -/
def flag (name : String) : Text := '-' :: name.toList

/-- The argument list from `-port` on. -/
def portArgs (p : Start) (slot : Nat) : List Text :=
  [flag "port", number (gdbPortForSlot slot), flag "swoport", number (swoPortForSlot slot), flag "telnetport",
    number (telnetPortForSlot slot), flag "RTTTelnetPort", number (rttPortForSlot slot), flag "LocalhostOnly",
    "0".toList, flag "stayrunning", "1".toList, flag "nogui", flag "logtofile", flag "log", logfile p.serial] ++
  match p.script with
  | none => []
  | some file => [flag "JLinkScriptFile", file]

/-- The argument list before the probe is selected, without the program. -/
def deviceArgs (p : Start) : List Text :=
  [flag (if p.halt then "halt" else "nohalt"), flag "device", p.device, flag "if", p.transport, flag "speed", p.speed,
    flag "select"]

/-- `cmd` -/
def args (p : Start) (slot : Nat) : List Text :=
  (p.dir ++ programName) :: deviceArgs p ++ ("USB=".toList ++ p.serial.text) :: portArgs p slot

/-- The command line `pkill -f` searches: the arguments with a blank between two of them. -/
def commandLine (p : Start) (slot : Nat) : Text := [' '].intercalate (args p slot)

/-! ### Patterns -/

/-- A text matches the beginning of another as a regular expression of characters that stand for themselves,
and dots. -/
def matchesAt : Text → Text → Bool
  | [], _ => true
  | _ :: _, [] => false
  | p :: ps, c :: cs => (p == '.' || p == c) && matchesAt ps cs

/-- It matches somewhere in the text. -/
def found (pattern text : Text) : Bool := text.tails.any (matchesAt pattern)

/-- The pattern `JLinkGDBServerCLExe.*<rest>`. -/
def matchesLine (rest line : Text) : Bool :=
  line.tails.any fun t => matchesAt programName t && found rest (t.drop programName.length)

/-- What `_gdbserver_pkill_pattern` puts behind the program's name. -/
def selectPattern (serial : Serial) : Text := "USB=".toList ++ serial.text

/-- What `_free_gdb_port` puts there. -/
def portPattern (port : Nat) : Text := ' ' :: flag "port" ++ ' ' :: number port ++ [' ']

/-! ### The box -/

/-- A running server. -/
structure Server where
  start : Start
  /-- The slot of its probe when it was started. -/
  slot : Nat

def Server.serial (q : Server) : Serial := q.start.serial
def Server.line (q : Server) : Text := commandLine q.start q.slot

structure Box where
  saved : List SavedNet
  running : List Server

inductive Event where
  /-- The saved nets are edited. -/
  | edit (saved : List SavedNet)
  /-- `spawned`: the program starts and is still there after a second. -/
  | start (p : Start) (spawned : Bool)
  | stop (serial : Serial)
  /-- A server ends by itself. -/
  | ends (serial : Serial)

/-- `pkill -f`. A server obeys the signals. -/
def pkill (rest : Text) (running : List Server) : List Server := running.filter fun q => !matchesLine rest q.line

/-- `stop_jlink_gdbserver`, in each of its ways. -/
def stopServer (serial : Serial) (running : List Server) : List Server := pkill (selectPattern serial) running

/-- `_free_gdb_port` -/
def freeGdbPort (port : Nat) (running : List Server) : List Server := pkill (portPattern port) running

/-- `speed` is the default or an integer. -/
def speedOk (speed : Text) : Bool := speed == "adaptive".toList || (intOfText speed).isSome

/-- `start_jlink_gdbserver` -/
def startServer (p : Start) (spawned : Bool) (slot : Nat) (running : List Server) : List Server :=
  let cleared := freeGdbPort (gdbPortForSlot slot) (stopServer p.serial running)
  if spawned && speedOk p.speed then cleared ++ [⟨p, slot⟩] else cleared

/-- The slot `_resolve_probe` finds. -/
def Box.slot (s : Box) (serial : Serial) : Nat := computeSlot serial.text (allSerials s.saved)

def step (s : Box) : Event → Option Box
  | .edit saved => some { s with saved }
  | .start p spawned => some { s with running := startServer p spawned (s.slot p.serial) s.running }
  | .stop serial => some { s with running := stopServer serial s.running }
  | .ends serial => some { s with running := s.running.filter fun q => q.serial ≠ serial }

/-! ### What has to hold -/

/-- The servers that run use disjoint ports. -/
def PortsDisjoint (s : Box) : Prop := s.running.Pairwise fun q r => (ports q.slot).Disjoint (ports r.slot)

/-- The probe whose server a step starts or stops. -/
def Event.probe : Event → Option Serial
  | .start p _ => some p.serial
  | .stop serial => some serial
  | _ => none

/-- The step kills no running server of another probe. -/
def Spares (s t : Box) (e : Event) : Prop :=
  ∀ serial, e.probe = some serial → ∀ q ∈ s.running, q.serial ≠ serial → q ∈ t.running

/-- What is asked of a step. -/
def Undisturbed (s : Box) (e : Event) : Prop := ∀ t, step s e = some t → Spares s t e ∧ PortsDisjoint t

/-! ### The condition -/

/-- What follows `USB=` on the command line of a server. -/
def Server.selected (q : Server) : Text := [' '].intercalate (q.serial.text :: portArgs q.start q.slot)

/-- The serial, with a dot for any character, does not match the beginning of what another server selects. -/
def NotSelected (serial : Serial) (q : Server) : Prop := matchesAt serial.text q.selected = false

/-- The step gets along with every running server of another probe: neither its serial nor, at a start, the slot
the probe has now hits it, and the ports of a server that is started are free. -/
def Apart (s : Box) (e : Event) : Prop :=
  match e with
  | .stop serial => ∀ q ∈ s.running, q.serial ≠ serial → NotSelected serial q
  | .start p spawned => ∀ q ∈ s.running, q.serial ≠ p.serial →
      NotSelected p.serial q ∧ q.slot ≠ s.slot p.serial ∧
        (spawned = true → speedOk p.speed = true → (ports (s.slot p.serial)).Disjoint (ports q.slot))
  | _ => True

instance decidableApart (s : Box) : ∀ e, Decidable (Apart s e)
  | .stop serial => inferInstanceAs (Decidable (∀ q ∈ s.running, q.serial ≠ serial → matchesAt serial.text q.selected = false))
  | .start p spawned => decidable_of_iff
      (∀ q ∈ s.running, q.serial ≠ p.serial → matchesAt p.serial.text q.selected = false ∧ q.slot ≠ s.slot p.serial ∧
        (spawned = true → speedOk p.speed = true → ∀ n ∈ ports (s.slot p.serial), n ∉ ports q.slot)) Iff.rfl
  | .edit _ => isTrue trivial
  | .ends _ => isTrue trivial

/-- No blank and no `=` in a text. -/
def Plain (text : Text) : Prop := ' ' ∉ text ∧ '=' ∉ text

/-- The texts a server is started with are plain. -/
def Start.Plain (p : Start) : Prop :=
  GdbServer.Plain p.device ∧ GdbServer.Plain p.transport ∧ GdbServer.Plain p.speed ∧
    ∀ file ∈ p.script, GdbServer.Plain file

def PlainEvent : Event → Prop
  | .start p _ => p.Plain
  | _ => True

/-! ### Patterns and texts -/

theorem matchesAt_self (pattern rest : Text) : matchesAt pattern (pattern ++ rest) = true := by
  induction pattern with
  | nil => rfl
  | cons p ps ih => simp [matchesAt, ih]

/-- A text without dots stands for itself. -/
theorem matchesAt_literal {lit pattern text : Text} (hdot : '.' ∉ lit) :
    matchesAt (lit ++ pattern) text = true ↔ ∃ rest, text = lit ++ rest ∧ matchesAt pattern rest = true := by
  induction lit generalizing text with
  | nil => simp
  | cons p ps ih =>
    rw [List.mem_cons, not_or] at hdot
    cases text with
    | nil => simp [matchesAt]
    | cons c cs =>
      have hp : (p == '.') = false := beq_false_of_ne (Ne.symm hdot.1)
      simp only [List.cons_append, matchesAt, hp, Bool.false_or, Bool.and_eq_true, beq_iff_eq, ih hdot.2]
      constructor
      · rintro ⟨rfl, rest, rfl, hrest⟩
        exact ⟨rest, rfl, hrest⟩
      · rintro ⟨rest, heq, hrest⟩
        obtain ⟨rfl, rfl⟩ := List.cons.inj heq
        exact ⟨rfl, rest, rfl, hrest⟩

theorem found_iff {pattern text : Text} : found pattern text = true ↔ ∃ x y, text = x ++ y ∧ matchesAt pattern y = true := by
  simp only [found, List.any_eq_true, List.mem_tails]
  constructor
  · rintro ⟨y, ⟨x, rfl⟩, hy⟩
    exact ⟨x, y, rfl, hy⟩
  · rintro ⟨x, y, rfl, hy⟩
    exact ⟨y, ⟨x, rfl⟩, hy⟩

theorem programName_no_dot : '.' ∉ programName := by decide

theorem matchesLine_iff {rest line : Text} :
    matchesLine rest line = true ↔ ∃ x y z, line = x ++ programName ++ y ++ z ∧ matchesAt rest z = true := by
  simp only [matchesLine, List.any_eq_true, List.mem_tails, Bool.and_eq_true]
  constructor
  · rintro ⟨t, ⟨x, rfl⟩, hname, hfound⟩
    rw [← List.append_nil programName, matchesAt_literal programName_no_dot] at hname
    obtain ⟨t', rfl, -⟩ := hname
    rw [List.drop_left] at hfound
    obtain ⟨y, z, rfl, hz⟩ := found_iff.mp hfound
    exact ⟨x, y, z, by simp only [List.append_assoc], hz⟩
  · rintro ⟨x, y, z, rfl, hz⟩
    refine ⟨programName ++ y ++ z, ⟨x, by simp only [List.append_assoc]⟩, ?_, ?_⟩
    · rw [List.append_assoc]
      exact matchesAt_self programName _
    · rw [List.append_assoc, List.drop_left]
      exact found_iff.mpr ⟨y, z, rfl, hz⟩

theorem number_inj {m n : Nat} (h : number m = number n) : m = n := by
  have hm := digitsFrom_textOfNat m
  rw [show textOfNat m = textOfNat n from h, digitsFrom_textOfNat] at hm
  exact (Option.some.inj hm).symm

theorem mem_number {n : Nat} {c : Char} (h : c ∈ number n) : 48 ≤ c.toNat ∧ c.toNat ≤ 57 := mem_textOfNat h

theorem number_ne_flag (n : Nat) (name : String) : number n ≠ flag name := by
  intro h
  have hdash := mem_number (n := n) (c := '-') (by rw [h, flag]; exact List.mem_cons_self)
  exact absurd hdash.1 (by decide)

theorem flag_inj {a b : String} : flag a = flag b ↔ a = b := by
  rw [flag, flag, List.cons.injEq, String.toList_inj]
  exact and_iff_right rfl

theorem mem_intercalate {sep c : Char} {ls : List Text} (h : c ∈ [sep].intercalate ls) : c = sep ∨ ∃ l ∈ ls, c ∈ l := by
  induction ls with
  | nil => cases h
  | cons l ls ih =>
    cases ls with
    | nil =>
      rw [List.intercalate_singleton] at h
      exact Or.inr ⟨l, List.mem_cons_self, h⟩
    | cons m ls =>
      rw [List.intercalate_cons_cons, List.mem_append, List.mem_append, List.mem_singleton] at h
      rcases h with (hl | hsep) | htail
      · exact Or.inr ⟨l, List.mem_cons_self, hl⟩
      · exact Or.inl hsep
      · exact (ih htail).imp_right fun ⟨m', hm', hc⟩ => ⟨m', List.mem_cons_of_mem l hm', hc⟩

theorem intercalate_append (sep : Char) {ls ms : List Text} (hl : ls ≠ []) (hm : ms ≠ []) :
    [sep].intercalate (ls ++ ms) = [sep].intercalate ls ++ sep :: [sep].intercalate ms := by
  induction ls with
  | nil => exact absurd rfl hl
  | cons l ls ih =>
    cases ls with
    | nil =>
      rw [List.singleton_append, List.intercalate_cons_of_ne_nil hm, List.intercalate_singleton, List.append_assoc,
        List.singleton_append]
    | cons l' ls =>
      have hne : l' :: ls ≠ [] := List.cons_ne_nil _ _
      have hne' : l' :: ls ++ ms ≠ [] := List.append_ne_nil_of_left_ne_nil hne ms
      rw [List.cons_append, List.intercalate_cons_of_ne_nil hne', ih hne, List.intercalate_cons_of_ne_nil hne]
      simp only [List.append_assoc]

theorem intercalate_head (sep : Char) (u l : Text) (ls : List Text) :
    [sep].intercalate ((u ++ l) :: ls) = u ++ [sep].intercalate (l :: ls) := by
  cases ls with
  | nil => rw [List.intercalate_singleton, List.intercalate_singleton]
  | cons m ls => rw [List.intercalate_cons_cons, List.intercalate_cons_cons]; simp

/-- Where a text is cut at the only place a character has in it. -/
theorem append_cons_unique {c : Char} {a b x y : Text} (ha : c ∉ a) (hb : c ∉ b) (h : x ++ c :: y = a ++ c :: b) :
    y = b := by
  have hsplit := congrArg (List.splitOn c) h
  rw [List.splitOn_append_cons_self, List.splitOn_append_cons_self, List.splitOn_eq_singleton ha,
    List.splitOn_eq_singleton hb] at hsplit
  obtain ⟨x', xs, hx⟩ := List.exists_cons_of_ne_nil (List.splitOn_ne_nil c x)
  rw [hx, List.cons_append, List.singleton_append, List.cons.injEq] at hsplit
  -- what is left of the pieces of `x` is empty, for those of `y` are not
  cases xs with
  | nil =>
    rw [List.nil_append] at hsplit
    rw [← @List.intercalate_splitOn _ y _ _ c, hsplit.2, List.intercalate_singleton]
  | cons x'' xs =>
    have hlen := congrArg List.length hsplit.2
    have hpos : 0 < (y.splitOn c).length := List.length_pos_iff.mpr (List.splitOn_ne_nil c y)
    rw [List.length_append, List.length_cons, List.length_singleton] at hlen
    omega

/-! ### The two patterns on a command line -/

theorem commandLine_eq (p : Start) (slot : Nat) :
    commandLine p slot = p.dir ++ programName ++ (' ' :: [' '].intercalate (deviceArgs p) ++ [' ']) ++
      ("USB=".toList ++ [' '].intercalate (p.serial.text :: portArgs p slot)) := by
  have hdev : deviceArgs p ≠ [] := by simp [deviceArgs]
  rw [commandLine, args, List.cons_append, List.intercalate_cons_of_ne_nil (by simp), intercalate_append ' ' hdev (by simp),
    intercalate_head]
  simp

/-- The serial of a server's own probe finds it. -/
theorem selects_own (q : Server) : matchesLine (selectPattern q.serial) q.line = true := by
  rw [matchesLine_iff, Server.line, commandLine_eq]
  refine ⟨_, _, _, rfl, ?_⟩
  rw [selectPattern, matchesAt_literal (by decide)]
  refine ⟨_, rfl, ?_⟩
  cases hports : portArgs q.start q.slot with
  | nil => simp [portArgs] at hports
  | cons a as =>
    rw [List.intercalate_cons_cons, List.append_assoc]
    exact matchesAt_self _ _

theorem serialChar_plain {c : Char} (h : isSerialChar c = true) : c ≠ ' ' ∧ c ≠ '=' := by
  constructor
  · rintro rfl
    exact absurd h (by decide)
  · rintro rfl
    exact absurd h (by decide)

theorem Serial.plain (serial : Serial) : Plain serial.text :=
  ⟨fun h => (serialChar_plain (serial.accepted _ h)).1 rfl, fun h => (serialChar_plain (serial.accepted _ h)).2 rfl⟩

theorem number_plain (n : Nat) : Plain (number n) :=
  ⟨fun h => absurd (mem_number h).1 (by decide), fun h => absurd (mem_number h).2 (by decide)⟩

theorem Plain.append {a b : Text} (ha : Plain a) (hb : Plain b) : Plain (a ++ b) := by
  simp only [Plain, List.mem_append, not_or]
  exact ⟨⟨ha.1, hb.1⟩, ha.2, hb.2⟩

theorem logfile_plain (serial : Serial) : Plain (logfile serial) :=
  (Plain.append ⟨by decide, by decide⟩ serial.plain).append ⟨by decide, by decide⟩

theorem portArgs_plain {p : Start} (hp : p.Plain) (slot : Nat) : ∀ a ∈ portArgs p slot, Plain a := by
  intro a ha
  rw [portArgs, List.mem_append] at ha
  rcases ha with ha | ha
  · fin_cases ha <;> first | exact number_plain _ | exact logfile_plain _ | exact ⟨by decide, by decide⟩
  · cases hs : p.script with
    | none =>
      rw [hs] at ha
      cases ha
    | some file =>
      rw [hs] at ha
      rcases List.mem_cons.mp ha with rfl | ha
      · exact ⟨by decide, by decide⟩
      · rw [List.mem_singleton.mp ha]
        exact hp.2.2.2 file hs

theorem deviceArgs_plain {p : Start} (hp : p.Plain) : ∀ a ∈ deviceArgs p, Plain a := by
  intro a ha
  obtain ⟨hdevice, htransport, hspeed, -⟩ := hp
  have hhalt : Plain (flag (if p.halt then "halt" else "nohalt")) := by
    cases p.halt
    · exact ⟨by decide, by decide⟩
    · exact ⟨by decide, by decide⟩
  rw [deviceArgs] at ha
  fin_cases ha <;> first | exact hhalt | exact hdevice | exact htransport | exact hspeed | exact ⟨by decide, by decide⟩

theorem dir_plain (p : Start) : Plain p.dir := by
  have hall : ∀ d ∈ programDirs, ' ' ∉ d ∧ '=' ∉ d := by decide
  exact hall p.dir p.dir_mem

theorem not_mem_intercalate {c : Char} {ls : List Text} (hc : c ≠ ' ') (hls : ∀ l ∈ ls, c ∉ l) :
    c ∉ [' '].intercalate ls := by
  intro h
  rcases mem_intercalate h with hsep | ⟨l, hl, hcl⟩
  · exact hc hsep
  · exact hls l hl hcl

/-- **The serial's pattern.** On a plain command line it matches where the serial matches the beginning of what is
selected, and nowhere else. -/
theorem select_matches_iff {q : Server} (hq : q.start.Plain) (serial : Serial) :
    matchesLine (selectPattern serial) q.line = true ↔ matchesAt serial.text q.selected = true := by
  have hline := commandLine_eq q.start q.slot
  constructor
  · intro h
    obtain ⟨x, y, z, heq, hz⟩ := matchesLine_iff.mp h
    rw [selectPattern, matchesAt_literal (by decide)] at hz
    obtain ⟨rest, rfl, hrest⟩ := hz
    have hbefore : '=' ∉ q.start.dir ++ programName ++ (' ' :: [' '].intercalate (deviceArgs q.start) ++ [' ']) ++
        ['U', 'S', 'B'] := by
      have hdev := not_mem_intercalate (c := '=') (by decide) fun a ha => (deviceArgs_plain hq a ha).2
      have hname : '=' ∉ programName := by decide
      simp [(dir_plain q.start).2, hname, hdev]
    have hafter : '=' ∉ q.selected := by
      refine not_mem_intercalate (by decide) fun a ha => ?_
      rcases List.mem_cons.mp ha with rfl | ha
      · exact q.serial.plain.2
      · exact (portArgs_plain hq _ a ha).2
    have hcut : (x ++ programName ++ y ++ ['U', 'S', 'B']) ++ '=' :: rest =
        (q.start.dir ++ programName ++ (' ' :: [' '].intercalate (deviceArgs q.start) ++ [' ']) ++ ['U', 'S', 'B']) ++
          '=' :: q.selected := by
      rw [Server.line, hline] at heq
      simp only [List.append_assoc] at heq ⊢
      exact heq.symm
    rw [append_cons_unique hbefore hafter hcut] at hrest
    exact hrest
  · intro h
    refine matchesLine_iff.mpr ⟨_, _, _, hline, ?_⟩
    rw [selectPattern, matchesAt_literal (by decide)]
    exact ⟨_, rfl, h⟩

/-- Two arguments that stand next to each other. -/
def Adjacent (a b : Text) : List Text → Prop
  | x :: y :: rest => (x = a ∧ y = b) ∨ Adjacent a b (y :: rest)
  | _ => False

theorem adjacent_append {a b : Text} (xs ys : List Text) : Adjacent a b (xs ++ a :: b :: ys) := by
  induction xs with
  | nil => exact Or.inl ⟨rfl, rfl⟩
  | cons x xs ih =>
    cases xs with
    | nil => exact Or.inr (Or.inl ⟨rfl, rfl⟩)
    | cons x' xs => exact Or.inr ih

theorem adjacent_port {p : Start} {slot n : Nat} (h : Adjacent (flag "port") (number n) (args p slot)) :
    gdbPortForSlot slot = n := by
  have hflag : ∀ name, flag name = number n ↔ False := fun name => ⟨fun h => number_ne_flag n name h.symm, False.elim⟩
  have hnumber : ∀ m, number m = flag "port" ↔ False := fun m => ⟨number_ne_flag m "port", False.elim⟩
  have hport : number (gdbPortForSlot slot) = number n := by
    cases hs : p.script with
    | none => simpa [args, deviceArgs, portArgs, hs, Adjacent, hflag, hnumber, flag_inj] using h
    | some file => simpa [args, deviceArgs, portArgs, hs, Adjacent, hflag, hnumber, flag_inj] using h
  exact number_inj hport

theorem args_plain {p : Start} (hp : p.Plain) (slot : Nat) : ∀ a ∈ args p slot, ' ' ∉ a := by
  intro a ha
  rw [args, List.mem_append, List.mem_cons, List.mem_cons] at ha
  rcases ha with (rfl | ha) | rfl | ha
  · exact ((dir_plain p).append ⟨by decide, by decide⟩).1
  · exact (deviceArgs_plain hp a ha).1
  · have hprefix : ' ' ∉ "USB=".toList := by decide
    simp only [List.mem_append, not_or]
    exact ⟨ hprefix, p.serial.plain.1⟩
  · exact (portArgs_plain hp slot a ha).1

/-- **The port's pattern.** On a plain command line it matches if the server was started for that port. -/
theorem port_matches_iff {q : Server} (hq : q.start.Plain) (port : Nat) :
    matchesLine (portPattern port) q.line = true ↔ gdbPortForSlot q.slot = port := by
  have hdot : '.' ∉ portPattern port := by
    have hnum : '.' ∉ number port := fun h => absurd (mem_number h).1 (by decide)
    simp [portPattern, flag, hnum]
  constructor
  · intro h
    obtain ⟨x, y, z, heq, hz⟩ := matchesLine_iff.mp h
    rw [← List.append_nil (portPattern port), matchesAt_literal hdot] at hz
    obtain ⟨rest, rfl, -⟩ := hz
    have hflag : ' ' ∉ flag "port" := by decide
    -- cut at the blanks, the line is the argument list again
    have hsplit : q.line.splitOn ' ' = args q.start q.slot :=
      List.splitOn_intercalate ' ' (args_plain hq q.slot) (by simp [args])
    have hcut : q.line = (x ++ programName ++ y) ++ ' ' :: (flag "port" ++ ' ' :: (number port ++ ' ' :: rest)) := by
      rw [heq, portPattern]
      simp only [List.append_assoc, List.cons_append, List.nil_append]
    rw [hcut, List.splitOn_append_cons_self, List.splitOn_append_cons_self_of_not_mem hflag,
      List.splitOn_append_cons_self_of_not_mem (number_plain port).1] at hsplit
    apply adjacent_port (p := q.start)
    rw [← hsplit]
    exact adjacent_append _ _
  · rintro rfl
    have hline := commandLine_eq q.start q.slot
    have hsel : [' '].intercalate (q.start.serial.text :: portArgs q.start q.slot) = q.start.serial.text ++
        (portPattern (gdbPortForSlot q.slot) ++
          [' '].intercalate (flag "swoport" :: (portArgs q.start q.slot).drop 3)) := by
      simp [portArgs, portPattern]
    rw [hsel] at hline
    refine matchesLine_iff.mpr ⟨q.start.dir, (' ' :: [' '].intercalate (deviceArgs q.start) ++ [' ']) ++
      ("USB=".toList ++ q.start.serial.text), portPattern (gdbPortForSlot q.slot) ++
        [' '].intercalate (flag "swoport" :: (portArgs q.start q.slot).drop 3), ?_, matchesAt_self _ _⟩
    rw [Server.line, hline]
    simp only [List.append_assoc]

/-! ### One step -/

theorem mem_pkill {rest : Text} {running : List Server} {q : Server} :
    q ∈ pkill rest running ↔ q ∈ running ∧ matchesLine rest q.line = false := by
  simp [pkill]

theorem serial_ne_of_mem_stop {serial : Serial} {running : List Server} {q : Server}
    (h : q ∈ stopServer serial running) : q.serial ≠ serial := by
  rintro rfl
  have hno := (mem_pkill.mp h).2
  rw [selects_own] at hno
  cases hno

theorem mem_stop_iff {serial : Serial} {running : List Server} {q : Server} (hq : q.start.Plain) :
    q ∈ stopServer serial running ↔ q ∈ running ∧ NotSelected serial q := by
  rw [stopServer, mem_pkill, NotSelected, ← Bool.not_eq_true, select_matches_iff hq, Bool.not_eq_true]

theorem gdbPort_inj {a b : Nat} : gdbPortForSlot a = gdbPortForSlot b ↔ a = b := by
  rw [gdbPortForSlot, gdbPortForSlot]
  omega

/-- The servers that a start leaves running. -/
theorem mem_cleared_iff {serial : Serial} {slot : Nat} {running : List Server} {q : Server} (hq : q.start.Plain) :
    q ∈ freeGdbPort (gdbPortForSlot slot) (stopServer serial running) ↔
      q ∈ running ∧ NotSelected serial q ∧ q.slot ≠ slot := by
  rw [freeGdbPort, mem_pkill, mem_stop_iff hq, ← Bool.not_eq_true, port_matches_iff hq, gdbPort_inj, and_assoc]

/-- Every server's texts are plain, and the ports are disjoint. -/
structure Inv (s : Box) : Prop where
  plain : ∀ q ∈ s.running, q.start.Plain
  disjoint : PortsDisjoint s

theorem sublist_cleared (port : Nat) (serial : Serial) (running : List Server) :
    (freeGdbPort port (stopServer serial running)).Sublist running :=
  List.filter_sublist.trans List.filter_sublist

theorem undisturbed_stop_iff {s : Box} (h : Inv s) (serial : Serial) :
    Undisturbed s (.stop serial) ↔ Apart s (.stop serial) := by
  constructor
  · intro hund q hq hne
    have hkept := (hund _ rfl).1 serial rfl q hq hne
    exact ((mem_stop_iff (h.plain q hq)).mp hkept).2
  · intro hapart t ht
    obtain rfl := Option.some.inj ht
    refine ⟨fun serial' hserial q hq hne => ?_, h.disjoint.sublist List.filter_sublist⟩
    obtain rfl := Option.some.inj hserial
    exact (mem_stop_iff (h.plain q hq)).mpr ⟨hq, hapart q hq hne⟩

theorem undisturbed_start_iff {s : Box} (h : Inv s) (p : Start) (spawned : Bool) :
    Undisturbed s (.start p spawned) ↔ Apart s (.start p spawned) := by
  have hcleared : ∀ {q}, q ∈ s.running → (q ∈ freeGdbPort (gdbPortForSlot (s.slot p.serial)) (stopServer p.serial s.running) ↔
      q ∈ s.running ∧ NotSelected p.serial q ∧ q.slot ≠ s.slot p.serial) := fun hq => mem_cleared_iff (h.plain _ hq)
  have hsub := sublist_cleared (gdbPortForSlot (s.slot p.serial)) p.serial s.running
  constructor
  · intro hund q hq hne
    obtain ⟨hspares, hdisjoint⟩ := hund _ rfl
    have hkept : q ∈ startServer p spawned (s.slot p.serial) s.running := hspares p.serial rfl q hq hne
    rw [startServer] at hkept
    split_ifs at hkept with hrun
    · rcases List.mem_append.mp hkept with hold | hnew
      · obtain ⟨-, hsel, hslot⟩ := (hcleared hq).mp hold
        refine ⟨hsel, hslot, fun _ _ => ?_⟩
        replace hdisjoint : (startServer p spawned (s.slot p.serial) s.running).Pairwise
            fun q r => (ports q.slot).Disjoint (ports r.slot) := hdisjoint
        rw [startServer, if_pos hrun, List.pairwise_append] at hdisjoint
        exact fun _ hnew hq' => hdisjoint.2.2 q hold _ (List.mem_singleton_self _) hq' hnew
      · rw [List.mem_singleton.mp hnew] at hne
        exact absurd rfl hne
    · obtain ⟨-, hsel, hslot⟩ := (hcleared hq).mp hkept
      exact ⟨hsel, hslot, fun hs hok => absurd (by rw [hs, hok]; rfl) hrun⟩
  · intro hapart t ht
    obtain rfl := Option.some.inj ht
    have hold : ∀ q ∈ s.running, q.serial ≠ p.serial →
        q ∈ freeGdbPort (gdbPortForSlot (s.slot p.serial)) (stopServer p.serial s.running) := by
      intro q hq hne
      obtain ⟨hsel, hslot, -⟩ := hapart q hq hne
      exact (hcleared hq).mpr ⟨hq, hsel, hslot⟩
    constructor
    · intro serial' hserial q hq hne
      obtain rfl := Option.some.inj hserial
      show q ∈ startServer p spawned (s.slot p.serial) s.running
      rw [startServer]
      split_ifs with hrun
      · exact List.mem_append_left _ (hold q hq hne)
      · exact hold q hq hne
    · show (startServer p spawned (s.slot p.serial) s.running).Pairwise fun q r => (ports q.slot).Disjoint (ports r.slot)
      rw [startServer]
      split_ifs with hrun
      · refine List.pairwise_append.mpr ⟨h.disjoint.sublist hsub, List.pairwise_singleton _ _, fun q hq r hr => ?_⟩
        rw [List.mem_singleton.mp hr]
        rw [Bool.and_eq_true] at hrun
        have hne : q.serial ≠ p.serial := serial_ne_of_mem_stop (mem_pkill.mp hq).1
        exact fun _ hq' hnew => (hapart q (hsub.subset hq) hne).2.2 hrun.1 hrun.2 hnew hq'
      · exact h.disjoint.sublist hsub

theorem undisturbed_iff {s : Box} (h : Inv s) (e : Event) : Undisturbed s e ↔ Apart s e := by
  cases e with
  | edit saved =>
    refine iff_of_true (fun t ht => ?_) trivial
    obtain rfl := Option.some.inj ht
    exact ⟨fun _ hserial => (by cases hserial), h.disjoint⟩
  | ends serial =>
    refine iff_of_true (fun t ht => ?_) trivial
    obtain rfl := Option.some.inj ht
    exact ⟨fun _ hserial => (by cases hserial), h.disjoint.sublist List.filter_sublist⟩
  | stop serial => exact undisturbed_stop_iff h serial
  | start p spawned => exact undisturbed_start_iff h p spawned

/-! ### Whole runs -/

theorem Inv.step {s t : Box} {e : Event} (h : Inv s) (hplain : PlainEvent e) (hund : Undisturbed s e)
    (hstep : step s e = some t) : Inv t := by
  refine ⟨fun q hq => ?_, (hund t hstep).2⟩
  cases e with
  | edit saved =>
    obtain rfl := Option.some.inj hstep
    exact h.plain q hq
  | ends serial =>
    obtain rfl := Option.some.inj hstep
    exact h.plain q (List.filter_sublist.subset hq)
  | stop serial =>
    obtain rfl := Option.some.inj hstep
    exact h.plain q (List.filter_sublist.subset hq)
  | start p spawned =>
    obtain rfl := Option.some.inj hstep
    replace hq : q ∈ startServer p spawned (s.slot p.serial) s.running := hq
    rw [startServer] at hq
    split_ifs at hq
    · rcases List.mem_append.mp hq with hold | hnew
      · exact h.plain q ((sublist_cleared _ _ _).subset hold)
      · rw [List.mem_singleton.mp hnew]
        exact hplain
    · exact h.plain q ((sublist_cleared _ _ _).subset hq)

theorem along_iff {s : Box} (h : Inv s) {es : List Event} (hplain : ∀ e ∈ es, PlainEvent e) :
    Along step Undisturbed s es ↔ Along step Apart s es := by
  induction es generalizing s with
  | nil => exact Iff.rfl
  | cons e es ih =>
    have hrest : Undisturbed s e → ∀ t, step s e = some t → (Along step Undisturbed t es ↔ Along step Apart t es) :=
      fun hund t ht => ih (h.step (hplain e List.mem_cons_self) hund ht) fun e' he' => hplain e' (List.mem_cons_of_mem e he')
    constructor
    · rintro ⟨hund, hnext⟩
      exact ⟨(undisturbed_iff h e).mp hund, fun t ht => (hrest hund t ht).mp (hnext t ht)⟩
    · rintro ⟨hapart, hnext⟩
      have hund := (undisturbed_iff h e).mpr hapart
      exact ⟨hund, fun t ht => (hrest hund t ht).mpr (hnext t ht)⟩

/-- A box on which no server runs. -/
def initial : Box := ⟨[], []⟩

/-- **Debug servers of different probes.** On plain texts, no start or stop of a run kills a running server of
another probe and the servers always use disjoint ports exactly if every start and stop gets along with the servers
that run: its serial matches the beginning of no other one's, and it gets a slot, and ports, that no other has. -/
theorem servers_undisturbed_iff {es : List Event} (hplain : ∀ e ∈ es, PlainEvent e) :
    Along step Undisturbed initial es ↔ Along step Apart initial es := by
  have hinv : Inv initial := by
    refine ⟨fun q hq => ?_, ?_⟩
    · cases hq
    · show List.Pairwise _ []
      exact List.Pairwise.nil
  exact along_iff hinv hplain

/-! ### Two probes -/

/-- The serials of the servers that run. -/
def Box.serials (s : Box) : List Text := s.running.map fun q => q.serial.text

theorem disturbed_of_killed {es : List Event} {e : Event} (serial : Serial) (a : Text) (after : List Text)
    (hprobe : e.probe = some serial) (hne : a ≠ serial.text)
    (hbefore : (run step initial es).map Box.serials = some [a])
    (hafter : (run step initial (es ++ [e])).map Box.serials = some after) (hgone : a ∉ after) :
    ¬ Along step Undisturbed initial (es ++ [e]) := by
  intro hal
  obtain ⟨s, hs, hserials⟩ := Option.map_eq_some_iff.mp hbefore
  obtain ⟨t, ht, hserials'⟩ := Option.map_eq_some_iff.mp hafter
  obtain ⟨s', hs', hlast⟩ := run_append_some ht
  obtain rfl : s = s' := Option.some.inj (hs.symm.trans hs')
  rw [run_cons] at hlast
  obtain ⟨t', hstep, hnil⟩ := Option.bind_eq_some_iff.mp hlast
  cases hnil
  have hspares := (((hal.append hs).2.1) t hstep).1 serial hprobe
  obtain ⟨q, hq, hqa⟩ : ∃ q ∈ s.running, q.serial.text = a :=
    List.mem_map.mp (show a ∈ s.serials by rw [hserials]; exact List.mem_singleton_self a)
  have hkept := hspares q hq fun heq => hne (hqa.symm.trans (congrArg Serial.text heq))
  exact hgone (hserials' ▸ hqa ▸ List.mem_map_of_mem hkept)

def probe100 : Serial := ⟨"100".toList, by decide, List.all_eq_true.mp (by decide)⟩
def probe200 : Serial := ⟨"200".toList, by decide, List.all_eq_true.mp (by decide)⟩
def probe20 : Serial := ⟨"20".toList, by decide, List.all_eq_true.mp (by decide)⟩

def startOf (serial : Serial) : Start :=
  ⟨"/usr/bin/".toList, serial, "R7FA0E107".toList, "SWD".toList, "4000".toList, false, none, by decide⟩

def netOf (name : String) (serial : Serial) : SavedNet := ⟨name, "debug", some serial.text⟩

/-- Probe 200 is alone and runs on slot 0. -/
def alone : List Event := [.edit [netOf "dut" probe200], .start (startOf probe200) true]

/-- A net of probe 100 is added and probe 100 started: it has slot 0 now, and the server of probe 200 is killed. And
stopping probe 20 kills it, too. -/
theorem new_net_kills_server :
    ¬ Along step Undisturbed initial (alone ++ [.edit [netOf "dut" probe200, netOf "aux" probe100]] ++
      [.start (startOf probe100) true]) ∧
    ¬ Along step Undisturbed initial (alone ++ [.stop probe20]) :=
  ⟨disturbed_of_killed probe100 "200".toList ["100".toList] rfl (by decide) (by decide +kernel) (by decide +kernel)
      (by decide),
    disturbed_of_killed probe20 "200".toList [] rfl (by decide) (by decide +kernel) (by decide +kernel) (by decide)⟩

theorem startOf_plain (serial : Serial) : (startOf serial).Plain := by
  have hdevice : Plain "R7FA0E107".toList := ⟨by decide, by decide⟩
  have htransport : Plain "SWD".toList := ⟨by decide, by decide⟩
  have hspeed : Plain "4000".toList := ⟨by decide, by decide⟩
  refine ⟨hdevice, htransport, hspeed, fun file hfile => ?_⟩
  cases hfile

/-- With both nets saved from the start, the two servers leave each other alone. -/
theorem two_servers_undisturbed :
    Along step Undisturbed initial [.edit [netOf "dut" probe200, netOf "aux" probe100],
      .start (startOf probe200) true, .start (startOf probe100) true, .stop probe200] := by
  refine (servers_undisturbed_iff fun e he => ?_).mpr ?_
  · fin_cases he
    · trivial
    · exact startOf_plain _
    · exact startOf_plain _
    · trivial
  · decide +kernel

end Lager.Debug.GdbServer
