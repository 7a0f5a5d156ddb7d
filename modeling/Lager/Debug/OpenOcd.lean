import Lager.Py.Lossy
import Lager.Lib.Fold
import Mathlib.Algebra.Group.Int.Defs

/-!
# OpenOCD's command channel

`OpenOcdRpc` of `debug/openocd.py`: one connection a command, the command and the reply each ended by one byte, and
errors told only by the text of the reply. A connection is what `recv` returns on it, chunk after chunk, and how it
goes on after them: closed by the daemon, or an exception of `recv`. `exc` is the exception's text.

`upper` is `str.upper` and `alphanumeric` is `str.isalnum`.
-/

namespace Lager.Debug.OpenOcd

open Lager.Lib Lager.Py

abbrev Text := List Char

/-- `_TCL_TERMINATOR` -/
def TCL_TERMINATOR : UInt8 := 0x1a

/-! ### The connection -/

/-- How a connection goes on after what was received. -/
inductive Ending where
  | closed
  | failed (exc : String)
  deriving DecidableEq

/-- What `recv(4096)` returns on one connection. -/
structure Received where
  chunks : List Bytes
  sized : ∀ chunk ∈ chunks, 0 < chunk.length ∧ chunk.length ≤ 4096
  ending : Ending

/-- A command's connection: `create_connection` or `sendall` fails, or the reply is read. -/
inductive Connection where
  | unreached (exc : String)
  | reached (r : Received)

/-- The bytes the daemon sends. -/
def Received.stream (r : Received) : Bytes := r.chunks.flatten

/-- The reply: the bytes before the first terminator. -/
def Received.reply (r : Received) : Bytes := r.stream.takeWhile (· ≠ TCL_TERMINATOR)

def Received.Complete (r : Received) : Prop := TCL_TERMINATOR ∈ r.stream

instance (r : Received) : Decidable r.Complete := inferInstanceAs (Decidable (TCL_TERMINATOR ∈ r.stream))

/-! ### The client -/

/-- `OpenOcdRpcError` and its subclass `OpenOcdNoFlashDriverError`, with their messages. -/
inductive RpcError where
  | rpc (message : String)
  | noFlashDriver (message : String)
  deriving DecidableEq

structure OpenOcdRpc where
  host : String
  port : Nat
  device : Option String

/-- What the daemon does on a connection where it was sent these bytes. -/
abbrev Daemon := Bytes → Connection

/-- `hex` -/
def hex (n : Int) : String :=
  (if n < 0 then "-0x" else "0x") ++ String.ofList (Nat.toDigits 16 n.natAbs)

/-- The loop of `cmd` around `recv`. -/
def receive (ending : Ending) (chunks : List Bytes) : List Bytes → Except String (List Bytes)
  | [] =>
    match ending with
    | .closed => .ok chunks
    | .failed exc => .error exc
  | chunk :: rest =>
    if chunk = [] then .ok chunks
    else if TCL_TERMINATOR ∈ chunk then .ok (chunks ++ [chunk.takeWhile (· ≠ TCL_TERMINATOR)])
    else receive ending (chunks ++ [chunk]) rest

/-- `command.encode('utf-8') + _TCL_TERMINATOR` -/
def payload (command : String) : Bytes := encode command.toList ++ [TCL_TERMINATOR]

def cmd (rpc : OpenOcdRpc) (daemon : Daemon) (command : String) : Except RpcError Text :=
  let received : Except String (List Bytes) := match daemon (payload command) with
    | .unreached exc => .error exc
    | .reached r => receive r.ending [] r.chunks
  match received with
  | .ok chunks => .ok (decodeReplace chunks.flatten)
  | .error exc => .error (.rpc s!"OpenOCD TCL RPC ({rpc.host}:{rpc.port}) error: {exc}")

/-! ### Errors in the text of a reply -/

section Patterns

variable (alphanumeric : Char → Bool)

/-- `\w` -/
def isWord (c : Char) : Bool := alphanumeric c || c == '_'

/-- `\bError:\s` at this place, behind `before`. -/
def errorHere (before : Option Char) (text : Text) : Bool :=
  !before.any (isWord alphanumeric) && "Error:".toList.isPrefixOf text && (text.drop 6).head?.any isSpace

/-- The search of `_ERROR_LINE_RE`, from a place behind `before`: `^[^\n]*` reaches any place of a line. -/
def searchError (before : Option Char) : Text → Bool
  | [] => false
  | c :: rest =>
    errorHere alphanumeric before (c :: rest) || searchError (some c) rest

/-- `re.IGNORECASE` of the letters in `Failed`: an `i` also matches the dotted capital and the dotless small one. -/
def sameLetter (pattern c : Char) : Bool :=
  c.toLower == pattern.toLower || (pattern == 'i' && (c.toNat == 0x130 || c.toNat == 0x131))

/-- `Failed\s\*\*` at this place. -/
def failedHere (text : Text) : Bool :=
  (decide ((text.take 6).length = 6) && ("Failed".toList.zip (text.take 6)).all fun p => sameLetter p.1 p.2) &&
    match text.drop 6 with
    | [] => false
    | t :: rest => isSpace t && "**".toList.isPrefixOf rest

/-- `.*Failed\s\*\*` at this place. -/
def failedOnLine : Text → Bool
  | [] => false
  | c :: rest => failedHere (c :: rest) || (c != '\n' && failedOnLine rest)

/-- `\*\*\s.*Failed\s\*\*` at this place. -/
def failureHere (text : Text) : Bool :=
  "**".toList.isPrefixOf text &&
    match text.drop 2 with
    | [] => false
    | s :: line => isSpace s && failedOnLine line

/-- The search of `_PROGRAM_FAILURE_RE`. -/
def searchFailure : Text → Bool
  | [] => false
  | c :: rest => failureHere (c :: rest) || searchFailure rest

end Patterns

/-- `out.rstrip()` -/
def rstrip (out : Text) : Text := (out.reverse.dropWhile isSpace).reverse

def checkForTclError (alphanumeric : Char → Bool) (out : Text) (command : Option String) : Except RpcError Unit :=
  if searchError alphanumeric none out then
    let start := match command with
      | some command => s!"OpenOCD {command} failed"
      | none => "OpenOCD command failed"
    .error (.rpc s!"{start}:\n{String.ofList (rstrip out)}")
  else .ok ()

def cmdChecked (alphanumeric : Char → Bool) (rpc : OpenOcdRpc) (daemon : Daemon) (command label : String) :
    Except RpcError Text := do
  let out ← cmd rpc daemon command
  checkForTclError alphanumeric out (some label)
  return out

/-! ### The commands -/

/-- The methods that send one command and check its reply. `mdw`, `reg_read` and `bp_list` go on to read values in the
reply that is returned here. -/
inductive Method where
  | reset (halted : Bool)
  | halt
  | resume (address : Option Int)
  | waitHalt (timeoutMs : Int)
  | sleepMs (ms : Int)
  | mww (address value : Int)
  | mwb (address value : Int)
  | mdw (address count : Int)
  | loadImage (filePath : String) (address : Int) (fmt : String)
  | regWrite (name : String) (value : Int)
  | regRead (name : String)
  | bp (address length : Int) (hw : Bool)
  | rbp (address : Int)
  | bpList
  | flashEraseRange (start length : Int)

/-- The command and its label. -/
def Method.request : Method → String × String
  | reset halted => (if halted then "reset halt" else "reset run", "reset")
  | halt => ("halt", "halt")
  | resume address =>
    (match address with
      | none => "resume"
      | some address => s!"resume {hex address}", "resume")
  | waitHalt timeoutMs => (s!"wait_halt {timeoutMs}", "wait_halt")
  | sleepMs ms => (s!"sleep {ms}", "sleep")
  | mww address value => (s!"mww {hex address} {hex (value % 2 ^ 32)}", "mww")
  | mwb address value => (s!"mwb {hex address} {hex (value % 2 ^ 8)}", "mwb")
  | mdw address count => (s!"mdw {hex address} {count}", "mdw")
  | loadImage filePath address fmt => (s!"load_image \"{filePath}\" {hex address} {fmt}", "load_image")
  | regWrite name value => (s!"reg {name} {hex (value % 2 ^ 32)}", "reg")
  | regRead name => (s!"reg {name}", "reg")
  | bp address length hw => (s!"bp {hex address} {length}" ++ if hw then " hw" else "", "bp")
  | rbp address => (s!"rbp {hex address}", "rbp")
  | bpList => ("bp", "bp list")
  | flashEraseRange start length =>
    (s!"flash erase_address {hex start} {hex (start + length - 1)}", "flash erase_address")

section Commands

variable (upper : Text → Text) (alphanumeric : Char → Bool) (rpc : OpenOcdRpc) (daemon : Daemon)

/-- `is_da1469x` -/
def isDa1469x (device : Option String) : Bool :=
  (upper (device.getD "").toList).tails.any ("DA1469".toList.isPrefixOf ·)

def refuseWithoutFlashDriver (operation : String) : Except RpcError Unit :=
  if isDa1469x upper rpc.device then
    .error (.noFlashDriver (rpc.device.getD "" ++ " is a DA1469x: it executes from external QSPI flash " ++
      "at 0x16000000, and mainline OpenOCD has no flash driver for " ++
      "that QSPI, so OpenOCD's generic '" ++ operation ++ "' cannot reach it. " ++
      "Route the operation through lager.debug.openocd_flash, which " ++
      "drives the RAM-resident DA1469x flash_loader instead."))
  else .ok ()

/-- What a method does before it sends anything. -/
def Method.guard : Method → Except RpcError Unit
  | flashEraseRange _ _ => refuseWithoutFlashDriver upper rpc "flash erase_address"
  | _ => .ok ()

def Method.run (m : Method) : Except RpcError Text := do
  m.guard upper rpc
  cmdChecked alphanumeric rpc daemon m.request.1 m.request.2

/-- The arguments of `program`. -/
structure Program where
  filePath : String
  verify : Bool
  resetAfter : Bool
  address : Option Int

def Program.command (p : Program) : String :=
  " ".intercalate (["program", s!"\"{p.filePath}\""] ++ (p.address.map hex).toList ++
    (if p.verify then ["verify"] else []) ++ if p.resetAfter then ["reset"] else [])

def program (p : Program) : Except RpcError Text := do
  refuseWithoutFlashDriver upper rpc "program"
  let out ← cmd rpc daemon p.command
  if searchFailure out then
    throw (.rpc s!"OpenOCD program failed for {p.filePath}:\n{String.ofList (rstrip out)}")
  checkForTclError alphanumeric out (some s!"program {p.filePath}")
  return out

end Commands

/-! ### What the patterns find -/

/-- An error line, as `_ERROR_LINE_RE` describes it: at the start of a line some text that ends at the edge of a word,
`Error:` and a blank. -/
def ErrorLine (alphanumeric : Char → Bool) (text : Text) : Prop :=
  ∃ before line after c, text = before ++ line ++ "Error:".toList ++ c :: after ∧
    (before = [] ∨ before.getLast? = some '\n') ∧ '\n' ∉ line ∧
    (∀ e, (before ++ line).getLast? = some e → isWord alphanumeric e = false) ∧ isSpace c = true

/-- A failure marker, as `_PROGRAM_FAILURE_RE` describes it. -/
def FailureMarker (text : Text) : Prop :=
  ∃ before s line failed t after, text = before ++ "**".toList ++ s :: line ++ failed ++ t :: "**".toList ++ after ∧
    isSpace s = true ∧ '\n' ∉ line ∧ List.Forall₂ (fun a b => sameLetter a b = true) "Failed".toList failed ∧
    isSpace t = true

section Searches

variable {alphanumeric : Char → Bool}

theorem errorHere_iff {before : Option Char} {text : Text} :
    errorHere alphanumeric before text = true ↔ (∀ e, before = some e → isWord alphanumeric e = false) ∧
      ∃ c after, text = "Error:".toList ++ c :: after ∧ isSpace c = true := by
  rw [errorHere, Bool.and_eq_true, Bool.and_eq_true, and_assoc]
  apply and_congr
  · cases before with
    | none => simp
    | some e => simp
  · rw [List.isPrefixOf_iff_prefix]
    constructor
    · rintro ⟨⟨rest, rfl⟩, hspace⟩
      rw [List.drop_left' (by decide)] at hspace
      cases rest with
      | nil => cases hspace
      | cons c after => exact ⟨c, after, rfl, hspace⟩
    · rintro ⟨c, after, rfl, hspace⟩
      rw [List.drop_left' (by decide)]
      exact ⟨⟨_, rfl⟩, hspace⟩

/-- Induction over the text; `start` is what the search has passed. -/
theorem searchError_iff {start text : Text} : searchError alphanumeric start.getLast? text = true ↔
    ∃ passed c after, text = passed ++ "Error:".toList ++ c :: after ∧
      (∀ e, (start ++ passed).getLast? = some e → isWord alphanumeric e = false) ∧ isSpace c = true := by
  induction text generalizing start with
  | nil =>
    constructor
    · nofun
    · rintro ⟨passed, c, after, htext, -⟩
      cases passed <;> cases htext
  | cons d text ih =>
    have hnext : some d = (start ++ [d]).getLast? := List.getLast?_concat.symm
    rw [searchError, Bool.or_eq_true, errorHere_iff, hnext, ih]
    constructor
    · rintro (⟨hedge, c, after, htext, hspace⟩ | ⟨passed, c, after, rfl, hedge, hspace⟩)
      · exact ⟨[], c, after, htext, by rwa [List.append_nil], hspace⟩
      · refine ⟨d :: passed, c, after, rfl, ?_, hspace⟩
        rwa [List.append_assoc] at hedge
    · rintro ⟨passed, c, after, htext, hedge, hspace⟩
      cases passed with
      | nil =>
        rw [List.append_nil] at hedge
        exact Or.inl ⟨hedge, c, after, htext, hspace⟩
      | cons e passed =>
        cases htext
        refine Or.inr ⟨passed, c, after, rfl, ?_, hspace⟩
        rwa [List.append_assoc]

/-- Every text ends in a line. -/
theorem exists_line (text : Text) :
    ∃ before line, text = before ++ line ∧ (before = [] ∨ before.getLast? = some '\n') ∧ '\n' ∉ line := by
  induction text with
  | nil => exact ⟨[], [], rfl, Or.inl rfl, List.not_mem_nil⟩
  | cons c text ih =>
    obtain ⟨before, line, rfl, hbefore, hline⟩ := ih
    rcases hbefore with rfl | hlast
    · by_cases hc : c = '\n'
      · exact ⟨[c], line, rfl, Or.inr (by rw [hc]; rfl), hline⟩
      · refine ⟨[], c :: line, rfl, Or.inl rfl, fun hmem => ?_⟩
        rcases List.mem_cons.mp hmem with heq | hmem
        · exact hc heq.symm
        · exact hline hmem
    · refine ⟨c :: before, line, rfl, Or.inr ?_, hline⟩
      rw [List.getLast?_cons, hlast]
      rfl

/-- The search finds the error lines. -/
theorem searchError_iff_errorLine {text : Text} :
    searchError alphanumeric none text = true ↔ ErrorLine alphanumeric text := by
  have hsearch := @searchError_iff alphanumeric [] text
  rw [List.getLast?_nil] at hsearch
  rw [hsearch]
  constructor
  · rintro ⟨passed, c, after, rfl, hedge, hspace⟩
    obtain ⟨before, line, rfl, hstart, hline⟩ := exists_line passed
    exact ⟨before, line, after, c, rfl, hstart, hline, hedge, hspace⟩
  · rintro ⟨before, line, after, c, rfl, -, -, hedge, hspace⟩
    exact ⟨before ++ line, c, after, rfl, hedge, hspace⟩

theorem failedHere_iff {text : Text} : failedHere text = true ↔ ∃ failed t after,
    text = failed ++ t :: "**".toList ++ after ∧
      List.Forall₂ (fun a b => sameLetter a b = true) "Failed".toList failed ∧ isSpace t = true := by
  rw [failedHere, Bool.and_eq_true, Bool.and_eq_true, decide_eq_true_iff, List.all_eq_true]
  constructor
  · rintro ⟨⟨hlength, hletters⟩, hrest⟩
    have hsame : List.Forall₂ (fun a b => sameLetter a b = true) "Failed".toList (text.take 6) :=
      List.forall₂_iff_zip.mpr ⟨hlength.symm, fun hmem => hletters _ hmem⟩
    cases hdrop : text.drop 6 with
    | nil =>
      rw [hdrop] at hrest
      cases hrest
    | cons t rest =>
      rw [hdrop] at hrest
      obtain ⟨hspace, hstars⟩ := Bool.and_eq_true_iff.mp hrest
      obtain ⟨after, rfl⟩ := List.isPrefixOf_iff_prefix.mp hstars
      refine ⟨text.take 6, t, after, ?_, hsame, hspace⟩
      rw [List.append_assoc, List.cons_append, ← hdrop, List.take_append_drop]
  · rintro ⟨failed, t, after, rfl, hsame, hspace⟩
    have hlength : failed.length = 6 := (List.Forall₂.length_eq hsame).symm
    rw [List.append_assoc, List.take_left' hlength, List.drop_left' hlength]
    refine ⟨⟨hlength, fun p hp => (List.forall₂_iff_zip.mp hsame).2 hp⟩, ?_⟩
    exact Bool.and_eq_true_iff.mpr ⟨hspace, List.isPrefixOf_iff_prefix.mpr ⟨after, rfl⟩⟩

theorem failedOnLine_iff {text : Text} : failedOnLine text = true ↔ ∃ line failed t after,
    text = line ++ failed ++ t :: "**".toList ++ after ∧ '\n' ∉ line ∧
      List.Forall₂ (fun a b => sameLetter a b = true) "Failed".toList failed ∧ isSpace t = true := by
  induction text with
  | nil =>
    constructor
    · nofun
    · rintro ⟨line, failed, t, after, htext, -⟩
      have hlength := congrArg List.length htext
      simp at hlength
  | cons c text ih =>
    rw [failedOnLine, Bool.or_eq_true, failedHere_iff, Bool.and_eq_true, ih, bne_iff_ne]
    constructor
    · rintro (⟨failed, t, after, htext, hsame, hspace⟩ | ⟨hc, line, failed, t, after, rfl, hline, hsame, hspace⟩)
      · exact ⟨[], failed, t, after, htext, List.not_mem_nil, hsame, hspace⟩
      · refine ⟨c :: line, failed, t, after, rfl, fun hmem => ?_, hsame, hspace⟩
        rcases List.mem_cons.mp hmem with heq | hmem
        · exact hc heq.symm
        · exact hline hmem
    · rintro ⟨line, failed, t, after, htext, hline, hsame, hspace⟩
      cases line with
      | nil => exact Or.inl ⟨failed, t, after, htext, hsame, hspace⟩
      | cons d line =>
        cases htext
        have hc : c ≠ '\n' := fun heq => hline (heq ▸ List.mem_cons_self)
        have hrest : '\n' ∉ line := fun hmem => hline (List.mem_cons_of_mem c hmem)
        exact Or.inr ⟨hc, line, failed, t, after, rfl, hrest, hsame, hspace⟩

theorem failureHere_iff {text : Text} : failureHere text = true ↔ ∃ s line failed t after,
    text = "**".toList ++ s :: line ++ failed ++ t :: "**".toList ++ after ∧ isSpace s = true ∧ '\n' ∉ line ∧
      List.Forall₂ (fun a b => sameLetter a b = true) "Failed".toList failed ∧ isSpace t = true := by
  rw [failureHere, Bool.and_eq_true, List.isPrefixOf_iff_prefix]
  constructor
  · rintro ⟨⟨rest, rfl⟩, hrest⟩
    rw [List.drop_left' (by decide)] at hrest
    cases rest with
    | nil => cases hrest
    | cons s line =>
      obtain ⟨hs, hline⟩ := Bool.and_eq_true_iff.mp hrest
      obtain ⟨line, failed, t, after, rfl, hline, hsame, hspace⟩ := failedOnLine_iff.mp hline
      exact ⟨s, line, failed, t, after, by simp, hs, hline, hsame, hspace⟩
  · rintro ⟨s, line, failed, t, after, rfl, hs, hline, hsame, hspace⟩
    have hassoc : "**".toList ++ s :: line ++ failed ++ t :: "**".toList ++ after =
        "**".toList ++ s :: (line ++ failed ++ t :: "**".toList ++ after) := by simp
    rw [hassoc, List.drop_left' (by decide)]
    refine ⟨⟨_, rfl⟩, Bool.and_eq_true_iff.mpr ⟨hs, ?_⟩⟩
    exact failedOnLine_iff.mpr ⟨line, failed, t, after, rfl, hline, hsame, hspace⟩

/-- The search finds the failure markers. -/
theorem searchFailure_iff_failureMarker {text : Text} : searchFailure text = true ↔ FailureMarker text := by
  induction text with
  | nil =>
    constructor
    · nofun
    · rintro ⟨before, s, line, failed, t, after, htext, -⟩
      have hlength := congrArg List.length htext
      simp at hlength
  | cons c text ih =>
    rw [searchFailure, Bool.or_eq_true, failureHere_iff, ih]
    constructor
    · rintro (⟨s, line, failed, t, after, htext, hrest⟩ | ⟨before, s, line, failed, t, after, rfl, hrest⟩)
      · exact ⟨[], s, line, failed, t, after, htext, hrest⟩
      · exact ⟨c :: before, s, line, failed, t, after, rfl, hrest⟩
    · rintro ⟨before, s, line, failed, t, after, htext, hrest⟩
      cases before with
      | nil => exact Or.inl ⟨s, line, failed, t, after, htext, hrest⟩
      | cons d before =>
        cases htext
        exact Or.inr ⟨before, s, line, failed, t, after, rfl, hrest⟩

end Searches

/-! ### The reply -/

section Replies

variable {ending : Ending} {rest : List Bytes} {rpc : OpenOcdRpc} {daemon : Daemon} {command : String} {r : Received}
  {out : Text}

/-- Induction over the chunks: the terminator is in the first one or behind it. -/
theorem receive_complete (hsized : ∀ chunk ∈ rest, 0 < chunk.length) (h : TCL_TERMINATOR ∈ rest.flatten)
    (chunks : List Bytes) : ∃ received, receive ending chunks rest = .ok received ∧
      received.flatten = chunks.flatten ++ rest.flatten.takeWhile (· ≠ TCL_TERMINATOR) := by
  induction rest generalizing chunks with
  | nil => cases h
  | cons chunk rest ih =>
    have hne : chunk ≠ [] := List.ne_nil_of_length_pos (hsized chunk List.mem_cons_self)
    rw [receive, if_neg hne, List.flatten_cons]
    by_cases hhere : TCL_TERMINATOR ∈ chunk
    · rw [if_pos hhere]
      refine ⟨_, rfl, ?_⟩
      have hstop : ¬(chunk.takeWhile (· ≠ TCL_TERMINATOR)).length = chunk.length := fun hlength => by
        have hall := (List.takeWhile_prefix (· ≠ TCL_TERMINATOR)).eq_of_length hlength
        rw [← hall] at hhere
        have hpass := List.all_eq_true.mp List.all_takeWhile _ hhere
        exact of_decide_eq_true hpass rfl
      rw [List.flatten_append, List.flatten_singleton, List.takeWhile_append, if_neg hstop]
    · rw [if_neg hhere]
      have hlater : TCL_TERMINATOR ∈ rest.flatten := by
        rw [List.flatten_cons, List.mem_append] at h
        exact h.resolve_left hhere
      have hpass : ∀ b ∈ chunk, decide (b ≠ TCL_TERMINATOR) = true := fun b hb =>
        decide_eq_true fun heq => hhere (heq ▸ hb)
      obtain ⟨received, hok, hflat⟩ := ih (fun c hc => hsized c (List.mem_cons_of_mem _ hc)) hlater (chunks ++ [chunk])
      refine ⟨received, hok, ?_⟩
      rw [hflat, List.takeWhile_append_of_pos hpass, List.flatten_append, List.flatten_singleton, List.append_assoc]

theorem receive_incomplete (hsized : ∀ chunk ∈ rest, 0 < chunk.length) (h : TCL_TERMINATOR ∉ rest.flatten)
    (chunks : List Bytes) : receive ending chunks rest = receive ending (chunks ++ rest) [] := by
  induction rest generalizing chunks with
  | nil => rw [List.append_nil]
  | cons chunk rest ih =>
    have hne : chunk ≠ [] := List.ne_nil_of_length_pos (hsized chunk List.mem_cons_self)
    rw [List.flatten_cons, List.mem_append, not_or] at h
    rw [receive, if_neg hne, if_neg h.1, ih (fun c hc => hsized c (List.mem_cons_of_mem _ hc)) h.2, List.append_assoc,
      List.singleton_append]

theorem cmd_complete (hr : daemon (payload command) = .reached r) (h : r.Complete) :
    cmd rpc daemon command = .ok (decodeReplace r.reply) := by
  obtain ⟨received, hok, hflat⟩ := @receive_complete r.ending r.chunks (fun c hc => (r.sized c hc).1) h []
  have hreply : received.flatten = r.reply := hflat
  unfold cmd
  rw [hr, ← hreply]
  dsimp only
  rw [hok]

/-- A connection that the daemon closes before a terminator looks like a reply. -/
theorem cmd_severed (hr : daemon (payload command) = .reached r) (h : ¬r.Complete) (hclosed : r.ending = .closed) :
    cmd rpc daemon command = .ok (decodeReplace r.stream) := by
  have hreceive := @receive_incomplete r.ending r.chunks (fun c hc => (r.sized c hc).1) h []
  unfold cmd
  rw [hr]
  dsimp only
  rw [hreceive, hclosed]
  rfl

theorem cmd_ok (h : cmd rpc daemon command = .ok out) :
    ∃ r, daemon (payload command) = .reached r ∧ (r.Complete ∨ r.ending = .closed) := by
  unfold cmd at h
  cases hr : daemon (payload command) with
  | unreached exc =>
    rw [hr] at h
    cases h
  | reached r =>
    refine ⟨r, rfl, ?_⟩
    by_cases hcomplete : r.Complete
    · exact Or.inl hcomplete
    · have hreceive := @receive_incomplete r.ending r.chunks (fun c hc => (r.sized c hc).1) hcomplete []
      rw [hr] at h
      dsimp only at h
      rw [hreceive] at h
      cases hending : r.ending with
      | closed => exact Or.inr rfl
      | failed exc =>
        rw [hending] at h
        cases h

end Replies

/-! ### What a command's success says -/

section Success

variable {upper : Text → Text} {alphanumeric : Char → Bool} {rpc : OpenOcdRpc} {daemon : Daemon} {command : String}
  {out : Text}

theorem checkForTclError_ok {label : Option String} (h : checkForTclError alphanumeric out label = .ok ()) :
    ¬ErrorLine alphanumeric out := by
  rw [← searchError_iff_errorLine]
  intro hfound
  unfold checkForTclError at h
  rw [if_pos hfound] at h
  cases h

theorem cmdChecked_ok {label : String} (h : cmdChecked alphanumeric rpc daemon command label = .ok out) :
    cmd rpc daemon command = .ok out ∧ ¬ErrorLine alphanumeric out := by
  obtain ⟨reply, hreply, h⟩ := bind_eq_ok h
  obtain ⟨_, hcheck, h⟩ := bind_eq_ok h
  cases h
  exact ⟨hreply, checkForTclError_ok hcheck⟩

theorem method_ok {m : Method} (h : m.run upper alphanumeric rpc daemon = .ok out) :
    cmd rpc daemon m.request.1 = .ok out ∧ ¬ErrorLine alphanumeric out := by
  obtain ⟨_, -, h⟩ := bind_eq_ok h
  exact cmdChecked_ok h

theorem program_ok {p : Program} (h : program upper alphanumeric rpc daemon p = .ok out) :
    cmd rpc daemon p.command = .ok out ∧ ¬ErrorLine alphanumeric out ∧ ¬FailureMarker out := by
  obtain ⟨_, -, h⟩ := bind_eq_ok h
  obtain ⟨reply, hreply, h⟩ := bind_eq_ok h
  by_cases hfound : searchFailure reply = true
  · rw [if_pos hfound] at h
    cases h
  · rw [if_neg hfound] at h
    obtain ⟨_, hcheck, h⟩ := bind_eq_ok h
    cases h
    rw [searchFailure_iff_failureMarker] at hfound
    exact ⟨hreply, checkForTclError_ok hcheck, hfound⟩

/-- The connection brought the whole reply, and `out` is its text. -/
def Whole (c : Connection) (out : Text) : Prop :=
  ∃ r, c = .reached r ∧ r.Complete ∧ out = decodeReplace r.reply

/-- The daemon closed the connection before a terminator. -/
def Severed (c : Connection) : Prop := ∃ r, c = .reached r ∧ ¬r.Complete ∧ r.ending = .closed

/-- Success of a command means a complete, clean reply. -/
structure Honest (upper : Text → Text) (alphanumeric : Char → Bool) (rpc : OpenOcdRpc) (daemon : Daemon)
    (command : String) : Prop where
  complete : ∀ r, daemon (payload command) = .reached r → r.Complete →
    cmd rpc daemon command = .ok (decodeReplace r.reply)
  returned : ∀ out, cmd rpc daemon command = .ok out → Whole (daemon (payload command)) out
  checked : ∀ m : Method, m.request.1 = command → ∀ out, m.run upper alphanumeric rpc daemon = .ok out →
    Whole (daemon (payload command)) out ∧ ¬ErrorLine alphanumeric out
  programmed : ∀ p : Program, p.command = command → ∀ out, program upper alphanumeric rpc daemon p = .ok out →
    Whole (daemon (payload command)) out ∧ ¬ErrorLine alphanumeric out ∧ ¬FailureMarker out

theorem whole_of_ok (hsevered : ¬Severed (daemon (payload command))) (h : cmd rpc daemon command = .ok out) :
    Whole (daemon (payload command)) out := by
  obtain ⟨r, hr, hcomplete⟩ := cmd_ok h
  have hwhole : r.Complete := by
    by_contra hnot
    exact hsevered ⟨r, hr, hnot, hcomplete.resolve_left hnot⟩
  rw [cmd_complete hr hwhole] at h
  cases h
  exact ⟨r, hr, hwhole, rfl⟩

/-- **Success of a command.** It means that the daemon's whole reply came and is clean, unless the daemon closed the
connection before the terminator. -/
theorem honest_iff (upper : Text → Text) (alphanumeric : Char → Bool) (rpc : OpenOcdRpc) (daemon : Daemon)
    (command : String) :
    Honest upper alphanumeric rpc daemon command ↔ ¬Severed (daemon (payload command)) := by
  constructor
  · rintro hhonest ⟨r, hr, hnot, hclosed⟩
    obtain ⟨r', hr', hcomplete, -⟩ := hhonest.returned _ (cmd_severed hr hnot hclosed)
    rw [hr] at hr'
    cases hr'
    exact hnot hcomplete
  · intro hsevered
    refine ⟨fun r hr hcomplete => cmd_complete hr hcomplete, fun out h => whole_of_ok hsevered h, ?_, ?_⟩
    · rintro m rfl out h
      obtain ⟨hcmd, hclean⟩ := method_ok h
      exact ⟨whole_of_ok hsevered hcmd, hclean⟩
    · rintro p rfl out h
      obtain ⟨hcmd, hclean⟩ := program_ok h
      exact ⟨whole_of_ok hsevered hcmd, hclean⟩

end Success

/-! ### A daemon that dies -/

/-- What `program` prints before it begins to write. -/
def started : Text := "** Programming Started **\n".toList

/-- The daemon dies while it programs the flash. -/
def died : Received := ⟨[encode started], by decide, .closed⟩

/-- `program` of a file, with the defaults. -/
def firmware : Program := ⟨"/tmp/firmware.bin", true, true, none⟩

/-- Programming that the daemon did not survive returns as programming that succeeded. -/
theorem died_programmed :
    ¬∀ upper alphanumeric rpc daemon command, Honest upper alphanumeric rpc daemon command := by
  intro h
  let rpc : OpenOcdRpc := ⟨"127.0.0.1", 6666, none⟩
  have hcmd : cmd rpc (fun _ => .reached died) firmware.command = .ok started := by
    have hsevered := @cmd_severed rpc (fun _ => .reached died) firmware.command died rfl (by decide) rfl
    rwa [Received.stream, died, List.flatten_singleton, decodeReplace_encode] at hsevered
  have hprogram : program id Char.isAlphanum rpc (fun _ => .reached died) firmware = .ok started := by
    have hrefuse : refuseWithoutFlashDriver id rpc "program" = .ok () := by decide
    have hmarker : searchFailure started = false := by decide
    have hcheck : checkForTclError Char.isAlphanum started (some s!"program {firmware.filePath}") = .ok () := by decide
    rw [program, hrefuse, ok_bind, hcmd, ok_bind, hmarker]
    exact congrArg (· >>= fun _ => pure started) hcheck
  obtain ⟨⟨r, hr, hcomplete, -⟩, -⟩ := (h _ _ _ _ _).programmed firmware rfl started hprogram
  cases hr
  exact absurd hcomplete (by decide)

end Lager.Debug.OpenOcd
