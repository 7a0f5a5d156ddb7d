import Lager.Lib.Run

/-!
# SCPI over a raw socket

`TcpScpi` of `daemon/src/oscilloscope/rigol/scpi.rs`. The socket is a pipe of bytes without any marks: what the
instrument has answered and the link has not read, whether it has arrived or not. A call is given how many more bytes
arrive before one of its reads times out; what the call has read by then is gone, and the rest stays in the pipe.

Nothing empties the pipe between two queries. A query that starts with an empty pipe can only return its own reply,
and one that finds the rest of an earlier reply returns that.
-/

namespace Lager.Scope.Scpi

def NEWLINE : UInt8 := 10
def HASH : UInt8 := 35
def DIGIT : UInt8 := 48

/-! ### Reading -/

/-- `read_exact`: the bytes, or none of them and all that has arrived is gone; with what may still arrive and the
pipe. -/
def readExact (count arrived : Nat) (pipe : List UInt8) : Option (List UInt8) × Nat × List UInt8 :=
  if count ≤ arrived ∧ count ≤ pipe.length then (some (pipe.take count), arrived - count, pipe.drop count)
  else (none, 0, pipe.drop arrived)

def isDigit (byte : UInt8) : Bool := decide (DIGIT ≤ byte) && decide (byte ≤ 57)

def number (digits : List UInt8) : Nat := digits.foldl (fun n digit => 10 * n + (digit - DIGIT).toNat) 0

/-- `parse::<usize>` of at most nine characters. -/
def parseUsize (text : List UInt8) : Option Nat :=
  let digits := if text.head? = some 43 then text.tail else text
  if digits ≠ [] ∧ digits.all isDigit then some (number digits) else none

def readBlockData (message length_text : List UInt8) (arrived : Nat) (pipe : List UInt8) :
    Option (List UInt8) × List UInt8 :=
  match parseUsize length_text with
  | none => (none, pipe)
  | some length =>
    match readExact (length + 1) arrived pipe with
    | (some data, _, rest) => (some (message ++ length_text ++ data), rest)
    | (none, _, rest) => (none, rest)

/-- The number of digits that the header says. -/
def digitsOf (second : UInt8) : Nat := (second - DIGIT).toNat

def readSocketBlock (message : List UInt8) (second : UInt8) (arrived : Nat) (pipe : List UInt8) :
    Option (List UInt8) × List UInt8 :=
  let digits := digitsOf second
  if digits = 0 ∨ 9 < digits then (none, pipe)
  else
    match readExact digits arrived pipe with
    | (some length_text, left, rest) => readBlockData message length_text left rest
    | (none, _, rest) => (none, rest)

def readLoop (message : List UInt8) : Nat → List UInt8 → Option (List UInt8) × List UInt8
  | 0, pipe => (none, pipe)
  | _ + 1, [] => (none, [])
  | arrived + 1, byte :: pipe =>
    let message := message ++ [byte]
    if message.length = 2 ∧ message.head? = some HASH then readSocketBlock message byte arrived pipe
    else if byte = NEWLINE then (some message, pipe)
    else readLoop message arrived pipe

def readMessage (arrived : Nat) (pipe : List UInt8) : Option (List UInt8) × List UInt8 := readLoop [] arrived pipe

/-! ### Queries -/

/-- The data of a block that starts at the hash. -/
def blockData : List UInt8 → Option (List UInt8)
  | _ :: second :: body =>
    if isDigit second then
      if digitsOf second = 0 then some (body.reverse.dropWhile (· = NEWLINE)).reverse
      else if digitsOf second ≤ body.length then
        (parseUsize (body.take (digitsOf second))).bind fun length =>
          let data := body.drop (digitsOf second)
          if length ≤ data.length then some (data.take length) else none
      else none
    else none
  | _ => none

def ieeeBlock (reply : List UInt8) : Option (List UInt8) := blockData (reply.dropWhile (· ≠ HASH))

inductive Answer where
  | text (text : String)
  | block (data : List UInt8)
  deriving DecidableEq

/-- `query` or `query_block`. -/
inductive Kind where
  | text
  | block
  deriving DecidableEq

variable (lossy : List UInt8 → String) (instrument : List (List UInt8) → List UInt8)

/-- What the call makes of a message: `lossy` is the text of the bytes, trimmed. -/
def Kind.parse : Kind → List UInt8 → Option Answer
  | text, message => some (.text (lossy message))
  | block, message => (ieeeBlock message).map .block

/-- A query that was sent, the reply that the instrument gives to it, and what the call returned. -/
structure Exchange where
  kind : Kind
  reply : List UInt8
  returned : Option Answer
  deriving DecidableEq

structure Link where
  /-- What the instrument has been sent, call by call. -/
  lines : List (List UInt8)
  pipe : List UInt8
  log : List Exchange

def Link.start : Link := ⟨[], [], []⟩

inductive Call where
  | write (command : List UInt8) (written : Nat)
  | query (kind : Kind) (command : List UInt8) (written arrived : Nat)

def line (command : List UInt8) : List UInt8 :=
  if command.getLast? = some NEWLINE then command else command ++ [NEWLINE]

/-- `write`: `written` bytes are taken before the socket times out. -/
def Link.write (l : Link) (command : List UInt8) (written : Nat) : Bool × Link :=
  if (line command).length ≤ written then
    let lines := l.lines ++ [line command]
    (true, { l with lines, pipe := l.pipe ++ instrument lines })
  else (false, { l with lines := l.lines ++ [(line command).take written] })

def Link.query (l : Link) (kind : Kind) (command : List UInt8) (written arrived : Nat) : Link :=
  match l.write instrument command written with
  | (false, l) => l
  | (true, l) =>
    let (message, pipe) := readMessage arrived l.pipe
    { l with pipe, log := l.log ++ [⟨kind, instrument l.lines, message.bind (kind.parse lossy)⟩] }

def Link.step (l : Link) : Call → Option Link
  | .write command written => some (l.write instrument command written).2
  | .query kind command written arrived => some (l.query lossy instrument kind command written arrived)

/-- What the call returned, if it returned anything, is what it makes of the reply to its own query. -/
def Exchange.Own (x : Exchange) : Prop := ∀ answer, x.returned = some answer → x.kind.parse lossy x.reply = some answer

/-- Nothing of an earlier reply is unread or still to come when a query is sent. -/
def Clear (l : Link) : Call → Prop
  | .query .. => l.pipe = []
  | .write .. => True

instance (l : Link) : ∀ call, Decidable (Clear l call)
  | .query .. => inferInstanceAs (Decidable (l.pipe = []))
  | .write .. => inferInstanceAs (Decidable True)

/-! ### Messages -/

/-- One reply message of an instrument. -/
inductive Framed : List UInt8 → Prop
  /-- What was sent was not a query. -/
  | silent : Framed []
  | line {text : List UInt8} (hline : NEWLINE ∉ text) (hhead : text.head? ≠ some HASH) : Framed (text ++ [NEWLINE])
  | block {second : UInt8} {length_text data : List UInt8} (hdigits : digitsOf second = length_text.length)
      (hlength : parseUsize length_text = some data.length) : Framed (HASH :: second :: (length_text ++ data ++ [NEWLINE]))
  /-- An indefinite block, or a text that looks like a block. -/
  | other {second : UInt8} {rest : List UInt8} (hdigits : digitsOf second = 0 ∨ 9 < digitsOf second) :
      Framed (HASH :: second :: rest)

/-- What a link does with a line that comes in: it is returned when it has arrived, or else lost as far as it has. -/
theorem readLoop_line {text : List UInt8} (hline : NEWLINE ∉ text) (message rest : List UInt8)
    (hhead : (message ++ text).head? ≠ some HASH) (arrived : Nat) :
    readLoop message arrived (text ++ NEWLINE :: rest) =
      if text.length < arrived then (some (message ++ text ++ [NEWLINE]), rest)
      else (none, (text ++ NEWLINE :: rest).drop arrived) := by
  induction text generalizing message arrived with
  | nil =>
    cases arrived with
    | zero => rfl
    | succ arrived =>
      have hnot : ¬ ((message ++ [NEWLINE]).length = 2 ∧ (message ++ [NEWLINE]).head? = some HASH) := by
        rintro ⟨-, hhash⟩
        cases message with
        | nil => cases hhash
        | cons first message => exact hhead hhash
      rw [List.nil_append, readLoop, if_neg hnot, if_pos rfl, List.append_nil]
      rfl
  | cons byte text ih =>
    have hbyte : byte ≠ NEWLINE := fun heq => hline (heq ▸ List.mem_cons_self)
    cases arrived with
    | zero => rfl
    | succ arrived =>
      have hnot : ¬ ((message ++ [byte]).length = 2 ∧ (message ++ [byte]).head? = some HASH) := by
        rintro ⟨-, hhash⟩
        cases message with
        | nil => exact hhead hhash
        | cons first message => exact hhead hhash
      have hrest := ih (fun hmem => hline (List.mem_cons_of_mem _ hmem)) (message ++ [byte])
        (by rwa [List.append_assoc]) arrived
      simp only [List.cons_append, readLoop, hnot, hbyte, if_false, hrest, List.length_cons, Nat.succ_lt_succ_iff,
        List.append_assoc, List.drop_succ_cons, List.nil_append]

theorem readExact_append {bytes rest : List UInt8} {arrived : Nat} (h : bytes.length ≤ arrived) :
    readExact bytes.length arrived (bytes ++ rest) = (some bytes, arrived - bytes.length, rest) := by
  have hle : bytes.length ≤ (bytes ++ rest).length := by simp
  rw [readExact, if_pos ⟨h, hle⟩, List.take_left, List.drop_left]

/-- `read_exact` gives the first bytes of the pipe. -/
theorem readExact_some {count arrived left : Nat} {pipe bytes rest : List UInt8}
    (h : readExact count arrived pipe = (some bytes, left, rest)) : pipe = bytes ++ rest ∧ bytes.length = count := by
  unfold readExact at h
  split at h
  · rename_i hcount
    cases h
    exact ⟨(List.take_append_drop _ _).symm, List.length_take_of_le hcount.2⟩
  · cases h

theorem readMessage_hash (second : UInt8) (rest : List UInt8) (arrived : Nat) :
    readMessage (arrived + 2) (HASH :: second :: rest) = readSocketBlock [HASH, second] second arrived rest := by
  unfold readMessage
  rw [readLoop, if_neg (by simp), if_neg (by decide), readLoop, if_pos ⟨rfl, rfl⟩]
  rfl

theorem readMessage_short {second : UInt8} {rest message : List UInt8} {arrived : Nat}
    (h : (readMessage arrived (HASH :: second :: rest)).1 = some message) : ∃ left, arrived = left + 2 := by
  rcases arrived with _ | _ | left
  · cases h
  · cases h
  · exact ⟨left, rfl⟩

/-- A block that has arrived is returned whole. -/
theorem readMessage_block {second : UInt8} {length_text data : List UInt8}
    (hdigits : digitsOf second = length_text.length) (hsmall : length_text.length ≤ 9)
    (hlength : parseUsize length_text = some data.length) (rest : List UInt8) {arrived : Nat}
    (harrived : (HASH :: second :: (length_text ++ data ++ [NEWLINE])).length ≤ arrived) :
    readMessage arrived (HASH :: second :: (length_text ++ data ++ [NEWLINE]) ++ rest) =
      (some (HASH :: second :: (length_text ++ data ++ [NEWLINE])), rest) := by
  simp only [List.length_cons, List.length_append, List.length_nil] at harrived
  obtain ⟨left, rfl⟩ : ∃ left, arrived = left + 2 := ⟨arrived - 2, by omega⟩
  have hpos : length_text ≠ [] := by
    rintro rfl
    cases hlength
  have hnonzero : ¬ (length_text.length = 0 ∨ 9 < length_text.length) := by
    have := List.length_pos_iff.mpr hpos
    omega
  have hexact : readExact length_text.length left (length_text ++ (data ++ [NEWLINE] ++ rest)) =
      (some length_text, left - length_text.length, data ++ [NEWLINE] ++ rest) := readExact_append (by omega)
  have hdata : readExact (data.length + 1) (left - length_text.length) (data ++ [NEWLINE] ++ rest) =
      (some (data ++ [NEWLINE]), left - length_text.length - (data.length + 1), rest) := by
    have h := @readExact_append (data ++ [NEWLINE]) rest (left - length_text.length)
      (by simp only [List.length_append, List.length_cons, List.length_nil]; omega)
    simpa using h
  rw [List.cons_append, List.cons_append, readMessage_hash, readSocketBlock, hdigits, if_neg hnonzero,
    List.append_assoc, List.append_assoc, ← List.append_assoc data, hexact]
  simp only [readBlockData, hlength, hdata]
  simp

/-- A block that is read is what its header says. -/
theorem readSocketBlock_some {second : UInt8} {length_text data message : List UInt8}
    (hdigits : digitsOf second = length_text.length) (hlength : parseUsize length_text = some data.length)
    {arrived : Nat} (h : (readSocketBlock [HASH, second] second arrived (length_text ++ data ++ [NEWLINE])).1 = some message) :
    message = HASH :: second :: (length_text ++ data ++ [NEWLINE]) := by
  unfold readSocketBlock at h
  simp only at h
  split at h
  · cases h
  split at h
  · rename_i text left rest hexact
    obtain ⟨hpipe, hcount⟩ := readExact_some hexact
    rw [List.append_assoc] at hpipe
    obtain ⟨rfl, rfl⟩ := List.append_inj hpipe (by rw [hcount, hdigits])
    unfold readBlockData at h
    rw [hlength] at h
    simp only at h
    split at h
    · rename_i bytes left' rest' hexact'
      obtain ⟨hpipe', hcount'⟩ := readExact_some hexact'
      have hall : data ++ [NEWLINE] = bytes ∧ [] = rest' := by
        rw [← List.append_nil (data ++ [NEWLINE])] at hpipe'
        exact List.append_inj hpipe' (by rw [hcount']; simp)
      cases h
      rw [← hall.1]
      simp
    · cases h
  · cases h

/-- From a pipe that holds one reply, nothing but that reply is read. -/
theorem Framed.read {reply : List UInt8} (hreply : Framed reply) {arrived : Nat} {message : List UInt8}
    (h : (readMessage arrived reply).1 = some message) : message = reply := by
  cases hreply with
  | silent => cases arrived <;> cases h
  | @line text hline hhead =>
    rw [readMessage, readLoop_line hline [] [] hhead] at h
    split at h
    · cases h
      rfl
    · cases h
  | block hdigits hlength =>
    obtain ⟨left, rfl⟩ := readMessage_short h
    rw [readMessage_hash] at h
    exact readSocketBlock_some hdigits hlength h
  | other hdigits =>
    obtain ⟨left, rfl⟩ := readMessage_short h
    rw [readMessage_hash, readSocketBlock, if_pos hdigits] at h
    cases h

/-! ### Whole runs -/

variable {lossy instrument}

/-- What a query does that gets through to the instrument. -/
theorem query_sent {l : Link} {kind : Kind} {command : List UInt8} {written : Nat} (arrived : Nat)
    (hsent : (line command).length ≤ written) :
    l.query lossy instrument kind command written arrived =
      let reply := instrument (l.lines ++ [line command])
      let read := readMessage arrived (l.pipe ++ reply)
      ⟨l.lines ++ [line command], read.2, l.log ++ [⟨kind, reply, read.1.bind (kind.parse lossy)⟩]⟩ := by
  simp only [Link.query, Link.write, if_pos hsent]

theorem query_not_sent {l : Link} {kind : Kind} {command : List UInt8} {written : Nat} (arrived : Nat)
    (hsent : ¬ (line command).length ≤ written) :
    l.query lossy instrument kind command written arrived =
      { l with lines := l.lines ++ [(line command).take written] } := by
  simp only [Link.query, Link.write, if_neg hsent]

theorem step_own (hframed : ∀ lines, Framed (instrument lines)) {l l' : Link} {call : Call} (hclear : Clear l call)
    (h : ∀ x ∈ l.log, x.Own lossy) (hstep : l.step lossy instrument call = some l') : ∀ x ∈ l'.log, x.Own lossy := by
  cases call with
  | write command written =>
    cases hstep
    unfold Link.write
    split <;> exact h
  | query kind command written arrived =>
    cases hstep
    by_cases hsent : (line command).length ≤ written
    · rw [query_sent arrived hsent]
      intro x hx
      rcases List.mem_append.mp hx with hold | hnew
      · exact h x hold
      · obtain rfl := List.mem_singleton.mp hnew
        intro answer hanswer
        obtain ⟨message, hmessage, hparse⟩ := Option.bind_eq_some_iff.mp hanswer
        have hempty : l.pipe = [] := hclear
        rw [hempty, List.nil_append] at hmessage
        rw [(hframed _).read hmessage] at hparse
        exact hparse
    · rw [query_not_sent arrived hsent]
      exact h

/-- **A query that finds nothing of an earlier reply returns its own.** In every run of calls on one link to an
instrument that answers in whole messages, with every read that may time out and every write that may be cut short:
as long as each query is sent when nothing of an earlier reply is unread or still to come, what a query returns is
the instrument's reply to it. A read that times out leaves its reply to come, and nothing takes it away. -/
theorem query_returns_own_reply (hframed : ∀ lines, Framed (instrument lines)) {calls : List Call} {l : Link}
    (hrun : Lib.run (Link.step lossy instrument) .start calls = some l)
    (hclear : Lib.Along (Link.step lossy instrument) Clear .start calls) : ∀ x ∈ l.log, x.Own lossy :=
  Lib.run_invariant (fun l => ∀ x ∈ l.log, x.Own lossy) (fun _ _ _ hclear h hstep => step_own hframed hclear h hstep)
    hclear (by simp [Link.start]) hrun

/-- The whole reply, as a line or as a definite block, before a read times out. -/
def Prompt (reply : List UInt8) (arrived : Nat) : Prop :=
  reply.length ≤ arrived ∧
    ((∃ text, NEWLINE ∉ text ∧ text.head? ≠ some HASH ∧ reply = text ++ [NEWLINE]) ∨
      ∃ second length_text data, digitsOf second = length_text.length ∧ length_text.length ≤ 9 ∧
        parseUsize length_text = some data.length ∧ reply = HASH :: second :: (length_text ++ data ++ [NEWLINE]))

theorem Prompt.read {reply : List UInt8} {arrived : Nat} (h : Prompt reply arrived) :
    readMessage arrived reply = (some reply, []) := by
  obtain ⟨harrived, ⟨text, hline, hhead, rfl⟩ | ⟨second, length_text, data, hdigits, hsmall, hlength, rfl⟩⟩ := h
  · rw [List.length_append, List.length_singleton] at harrived
    rw [readMessage, readLoop_line hline [] [] hhead, if_pos (Nat.lt_of_succ_le harrived)]
    rfl
  · have h := readMessage_block hdigits hsmall hlength [] harrived
    rwa [List.append_nil] at h

/-- What is sent is not a query, or it is one whose reply comes in time. -/
def InTime (instrument : List (List UInt8) → List UInt8) (l : Link) : Call → Prop
  | .write command written => (line command).length ≤ written → instrument (l.lines ++ [line command]) = []
  | .query _ command written arrived =>
    (line command).length ≤ written → Prompt (instrument (l.lines ++ [line command])) arrived

theorem step_clear {l l' : Link} {call : Call} (htime : InTime instrument l call) (h : l.pipe = [])
    (hstep : l.step lossy instrument call = some l') : l'.pipe = [] := by
  cases call with
  | write command written =>
    cases hstep
    unfold Link.write
    split
    · rename_i hsent
      show l.pipe ++ instrument (l.lines ++ [line command]) = []
      rw [h, htime hsent]
      rfl
    · exact h
  | query kind command written arrived =>
    cases hstep
    by_cases hsent : (line command).length ≤ written
    · rw [query_sent arrived hsent]
      show (readMessage arrived (l.pipe ++ _)).2 = []
      rw [h, List.nil_append, (htime hsent).read]
    · rw [query_not_sent arrived hsent]
      exact h

/-- The pipe is empty before every call, as long as replies come in time. -/
theorem clear_of_inTime {l : Link} (h : l.pipe = []) {calls : List Call}
    (htime : Lib.Along (Link.step lossy instrument) (InTime instrument) l calls) :
    Lib.Along (Link.step lossy instrument) Clear l calls := by
  induction calls generalizing l with
  | nil => exact trivial
  | cons call calls ih =>
    refine ⟨?_, fun l' hstep => ih (step_clear htime.1 h hstep) (htime.2 l' hstep)⟩
    cases call with
    | write command written => exact trivial
    | query kind command written arrived => exact h

/-! ### A late reply -/

/-- Text of ASCII bytes, without the white space around it. -/
def asciiTrim (bytes : List UInt8) : String :=
  let chars := (bytes.map fun byte => Char.ofNat byte.toNat).dropWhile Char.isWhitespace
  String.ofList (chars.reverse.dropWhile Char.isWhitespace).reverse

/-- An instrument that answers its first query with `1` and every other one with `2`. -/
def counting (lines : List (List UInt8)) : List UInt8 := if lines.length ≤ 1 then [49, NEWLINE] else [50, NEWLINE]

theorem counting_framed (lines : List (List UInt8)) : Framed (counting lines) := by
  unfold counting
  split
  · exact @Framed.line [49] (by decide) (by decide)
  · exact @Framed.line [50] (by decide) (by decide)

/-- `A?` and then `B?`, the reply to the first one after `arrived` bytes. -/
def twoQueries (arrived : Nat) : List Call := [.query .text [65, 63] 3 arrived, .query .text [66, 63] 3 2]

theorem twoQueries_own : ∃ l, Lib.run (Link.step asciiTrim counting) .start (twoQueries 2) = some l ∧
    l.log.map (·.returned) = [some (.text "1"), some (.text "2")] ∧ ∀ x ∈ l.log, x.Own asciiTrim := by
  have hrun : (Lib.run (Link.step asciiTrim counting) .start (twoQueries 2)).map (fun l => l.log.map (·.returned)) =
      some [some (.text "1"), some (.text "2")] := by
    decide +kernel
  obtain ⟨l, hl, hreturned⟩ := Option.map_eq_some_iff.mp hrun
  exact ⟨l, hl, hreturned, query_returns_own_reply counting_framed hl (by decide +kernel)⟩

/-- The reply to `A?` comes after its read has timed out, and is returned for `B?`. -/
theorem late_reply_is_taken : ∃ l, Lib.run (Link.step asciiTrim counting) .start (twoQueries 0) = some l ∧
    l.log = [⟨.text, [49, NEWLINE], none⟩, ⟨.text, [50, NEWLINE], some (.text "1")⟩] ∧
    ¬ ∀ x ∈ l.log, x.Own asciiTrim := by
  have hrun : (Lib.run (Link.step asciiTrim counting) .start (twoQueries 0)).map (·.log) =
      some [⟨.text, [49, NEWLINE], none⟩, ⟨.text, [50, NEWLINE], some (.text "1")⟩] := by
    decide +kernel
  obtain ⟨l, hl, hlog⟩ := Option.map_eq_some_iff.mp hrun
  refine ⟨l, hl, hlog, fun h => ?_⟩
  have hown := h ⟨.text, [50, NEWLINE], some (.text "1")⟩ (by rw [hlog]; exact List.mem_cons_of_mem _ List.mem_cons_self)
  have htext : Kind.text.parse asciiTrim [50, NEWLINE] ≠ some (.text "1") := by decide +kernel
  exact htext (hown _ rfl)

end Lager.Scope.Scpi
