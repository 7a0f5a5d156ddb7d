import Lager.Debug.OpenOcd
import Lager.Lib.Split
import Lager.Py.Loads

/-!
# The uncached verify

`_verify_bin_uncached` of `debug/jlink.py`. J-Link's own compare of a DA1469x image goes through the cache and can fail
on flash that is right, so the image is read back once more behind the cache, chunk by chunk, and where it matches the
failure lines of the loadfile output are dropped. How much is compared is capped by an environment variable.

`jl` is the Commander session: the answer to the `n`-th command. `int0` is `int(text, 0)`, `none` for a `ValueError`.
The flash is what the cached window maps.
-/

namespace Lager.Debug.UncachedVerify

open Lager.Lib Lager.Py Lager.Debug.OpenOcd

def DA1469X_QSPI_UNCACHED_OFFSET : Nat := 0x20000000

def DA1469X_CACHE_CTRL1_REG : Nat := 0x100C0000

/-- `_UNCACHED_VERIFY_CHUNK` -/
def CHUNK : Nat := 4096

def UNCACHED_VERIFY_MISMATCH : String := "(uncached QSPI read-back mismatch after cache flush)"

/-- The answer to the `n`-th command: Commander's output, or the exception as `type: text`. -/
abbrev Session := Nat → String → Except String Text

/-! ### Reading a line -/

/-- `[0-9A-Fa-f]{2}`, wherever it matches next. -/
def hexPairs : Text → Bytes
  | a :: b :: rest =>
    match hexDigit? a, hexDigit? b with
    | some x, some y => UInt8.ofNat (16 * x + y) :: hexPairs rest
    | _, _ => hexPairs (b :: rest)
  | _ => []

def parseMem8Bytes (output : Text) (length : Nat) : Bytes :=
  ((output.splitOn '\n').flatMap fun line =>
    if '=' ∈ line then hexPairs ((line.dropWhile (· ≠ '=')).drop 1) else []).take length

/-- The letters of a pattern in any case, at this place. -/
def lettersHere (pattern text : Text) : Bool :=
  decide ((text.take pattern.length).length = pattern.length) &&
    (pattern.zip (text.take pattern.length)).all fun p => sameLetter p.1 p.2

/-- `\s+failed` -/
def failedHere (text : Text) : Bool :=
  text.head?.any isSpace && lettersHere "failed".toList (text.dropWhile isSpace)

/-- `verif(?:y|ication)\s+failed` at this place. -/
def verifyFailedHere (text : Text) : Bool :=
  lettersHere "verif".toList text &&
    (lettersHere "y".toList (text.drop 5) && failedHere (text.drop 6) ||
      lettersHere "ication".toList (text.drop 5) && failedHere (text.drop 12))

/-- `_VERIFY_FAILED_RE.search(line)` -/
def verifyFailed : Text → Bool
  | [] => false
  | c :: rest => verifyFailedHere (c :: rest) || verifyFailed rest

/-! ### The verify -/

/-- What the read-back says. -/
inductive Verdict where
  | mismatch (address : Nat)
  | inconclusive (reason : String)
  | matched
  deriving DecidableEq

/-- The first place where two texts of bytes differ. -/
def firstDifference (got want : Bytes) : Nat := (got.zip want).findIdx fun p => p.1 != p.2

/-- What the verify is called with and what it finds: the image and how reading the file fails, if it does, and the
text of `LAGER_DA1469_UNCACHED_VERIFY_BYTES`. -/
structure Call where
  path : String
  image : Bytes
  readError : Option String
  address : Nat
  raw : Text
  capturedOutput : Text

/-- The texts of the success note. -/
def noteOk : Text := "Uncached read-back OK: ".toList
def noteOf : Text := " of ".toList
def noteBytes : Text := " bytes @ ".toList
def noteMatch : Text := " match flash via ".toList
def noteEnd : Text :=
  (" after cache flush " ++
    "(a stale-cache false negative from the J-Link compare, if printed, was dropped)").toList

section Verify

variable (int0 : Text → Option Int) (jl : Session) (call : Call)

def Call.cap : Int := (int0 (strip call.raw)).getD 0

/-- How many bytes are compared. -/
def Call.total : Nat :=
  if call.cap int0 ≤ 0 then call.image.length else min call.image.length (call.cap int0).toNat

def Call.mirror : Nat := call.address + DA1469X_QSPI_UNCACHED_OFFSET

/-- `range(0, total, _UNCACHED_VERIFY_CHUNK)` -/
def Call.offsets : List Nat := (List.range ((call.total int0 + CHUNK - 1) / CHUNK)).map (· * CHUNK)

def Call.size (offset : Nat) : Nat := min CHUNK (call.total int0 - offset)

def Call.want (offset : Nat) : Bytes := (call.image.drop offset).take (call.size int0 offset)

/-- The read of the chunk at an offset. Before the reads comes one command, the flush. -/
def Call.read (offset : Nat) : Except String Text :=
  jl (1 + offset / CHUNK) s!"mem8 {hex ((call.mirror + offset : Nat) : Int)} {call.size int0 offset}"

/-- The loop over the offsets. -/
def compareChunks : List Nat → Verdict
  | [] => .matched
  | offset :: rest =>
    match call.read int0 jl offset with
    | .error e => .inconclusive e
    | .ok output =>
      let got := parseMem8Bytes output (call.size int0 offset)
      if got.length ≠ call.size int0 offset then
        .inconclusive (s!"short read at {hex ((call.mirror + offset : Nat) : Int)} " ++
          s!"({got.length}/{call.size int0 offset} bytes)")
      else if got ≠ call.want int0 offset then
        .mismatch (call.address + offset + firstDifference got (call.want int0 offset))
      else compareChunks rest

def verdict : Verdict :=
  match jl 0 s!"w4 {hex (DA1469X_CACHE_CTRL1_REG : Int)} 1" with
  | .error e => .inconclusive e
  | .ok _ => compareChunks int0 jl call (call.offsets int0)

/-- The success note. -/
def Call.note : Text :=
  noteOk ++ (textOfNat (call.total int0) ++ (noteOf ++ (textOfNat call.image.length ++ (noteBytes ++
    ((hex (call.address : Int)).toList ++ (noteMatch ++ ((hex (call.mirror : Int)).toList ++ noteEnd)))))))

/-- The lines that are yielded. -/
def verifyBinUncached : List Text :=
  match call.readError with
  | some e =>
    [call.capturedOutput,
      s!"WARNING: uncached verify skipped - could not read {call.path} on disk ({e})".toList]
  | none =>
    match verdict int0 jl call with
    | .mismatch address =>
      [call.capturedOutput, s!"Verification failed @ {hex (address : Int)} {UNCACHED_VERIFY_MISMATCH}".toList]
    | .inconclusive reason =>
      [call.capturedOutput, (s!"WARNING: uncached verify could not complete ({reason}); " ++
        "see loadfile output above").toList]
    | .matched =>
      [['\n'].intercalate ((call.capturedOutput.splitOn '\n').filter fun line => !verifyFailed line),
        call.note int0]

end Verify

/-! ### What the verify must not hide -/

/-- A line of the text is a verification failure. -/
def Reported (text : Text) : Prop := ∃ line ∈ text.splitOn '\n', verifyFailed line = true

/-- The flash differs from the image. -/
def Call.Bad (call : Call) (flash : Nat → UInt8) : Prop :=
  ∃ i, ∃ h : i < call.image.length, flash (call.address + i) ≠ call.image[i]

/-- A failure that loadfile reported of a bad flash is still among the lines. -/
def Shows (int0 : Text → Option Int) (jl : Session) (call : Call) (flash : Nat → UInt8) : Prop :=
  call.Bad flash → Reported call.capturedOutput → ∃ y ∈ verifyBinUncached int0 jl call, Reported y

/-- The chunk at an offset is read back as the image has it. -/
def Call.Shown (int0 : Text → Option Int) (jl : Session) (call : Call) (offset : Nat) : Prop :=
  ∃ output, call.read int0 jl offset = .ok output ∧
    parseMem8Bytes output (call.size int0 offset) = call.want int0 offset

/-! ### The compare -/

section Compare

variable {int0 : Text → Option Int} {jl : Session} {call : Call}

theorem total_le : call.total int0 ≤ call.image.length := by
  unfold Call.total
  split_ifs
  · exact Nat.le_refl _
  · exact Nat.min_le_left _ _

theorem length_want (offset : Nat) : (call.want int0 offset).length = call.size int0 offset := by
  have htotal := @total_le int0 call
  have hsize : call.size int0 offset ≤ call.total int0 - offset := Nat.min_le_right _ _
  rw [Call.want, List.length_take, List.length_drop]
  omega

/-- Induction over the offsets: the loop comes to its end where every chunk is shown. -/
theorem compareChunks_matched_iff (offsets : List Nat) :
    compareChunks int0 jl call offsets = .matched ↔ ∀ offset ∈ offsets, call.Shown int0 jl offset := by
  induction offsets with
  | nil => exact ⟨fun _ => by simp, fun _ => rfl⟩
  | cons offset rest ih =>
    rw [List.forall_mem_cons, ← ih, Call.Shown, compareChunks]
    cases hread : call.read int0 jl offset with
    | error e => simp
    | ok output =>
      by_cases hgot : parseMem8Bytes output (call.size int0 offset) = call.want int0 offset
      · have hlength : (parseMem8Bytes output (call.size int0 offset)).length = call.size int0 offset := by
          rw [hgot, length_want]
        dsimp only
        rw [if_neg (not_not_intro hlength), if_neg (not_not_intro hgot)]
        exact ⟨fun h => ⟨⟨output, rfl, hgot⟩, h⟩, fun h => h.2⟩
      · constructor
        · intro h
          dsimp only at h
          rw [if_pos hgot] at h
          split_ifs at h
        · rintro ⟨⟨output', heq, hgot'⟩, -⟩
          cases heq
          exact absurd hgot' hgot

theorem verdict_matched_iff : verdict int0 jl call = .matched ↔
    (∃ out, jl 0 s!"w4 {hex (DA1469X_CACHE_CTRL1_REG : Int)} 1" = .ok out) ∧
      ∀ offset ∈ call.offsets int0, call.Shown int0 jl offset := by
  unfold verdict
  cases jl 0 s!"w4 {hex (DA1469X_CACHE_CTRL1_REG : Int)} 1" with
  | error e => simp
  | ok out => simp [compareChunks_matched_iff]

/-- Whatever the verdict, all but a match keep the output of loadfile. -/
theorem mem_verifyBinUncached (h : call.readError ≠ none ∨ verdict int0 jl call ≠ .matched) :
    call.capturedOutput ∈ verifyBinUncached int0 jl call := by
  unfold verifyBinUncached
  cases herror : call.readError with
  | some e => exact List.mem_cons_self
  | none =>
    rw [herror] at h
    cases hverdict : verdict int0 jl call with
    | mismatch address => exact List.mem_cons_self
    | inconclusive reason => exact List.mem_cons_self
    | matched => exact absurd hverdict (h.resolve_left (by simp))

end Compare

/-! ### The success note -/

section Note

theorem verifyFailed_append {start : Text} (h : ∀ c ∈ start, sameLetter 'v' c = false) (rest : Text) :
    verifyFailed (start ++ rest) = verifyFailed rest := by
  induction start with
  | nil => rfl
  | cons c start ih =>
    have hhere : verifyFailedHere (c :: (start ++ rest)) = false := by
      have hletters : lettersHere "verif".toList (c :: (start ++ rest)) = false := by
        simp [lettersHere, h c List.mem_cons_self]
      rw [verifyFailedHere, hletters, Bool.false_and]
    rw [List.cons_append, verifyFailed, hhere, Bool.false_or, ih fun d hd => h d (List.mem_cons_of_mem c hd)]

theorem verifyFailed_cons {c d : Char} (h : sameLetter 'e' d = false) (rest : Text) :
    verifyFailed (c :: d :: rest) = verifyFailed (d :: rest) := by
  have hletters : lettersHere "verif".toList (c :: d :: rest) = false := by
    simp [lettersHere, h]
  rw [verifyFailed, verifyFailedHere, hletters, Bool.false_and, Bool.false_or]

theorem mem_toDigits {b n : Nat} {c : Char} (hb : 1 < b) (h : c ∈ Nat.toDigits b n) :
    ∃ k < b, c = Nat.digitChar k := by
  induction n using Nat.strongRecOn with
  | ind n ih =>
    rw [Nat.toDigits_eq_if hb] at h
    split_ifs at h with hlt
    · exact ⟨n, hlt, List.mem_singleton.mp h⟩
    · rcases List.mem_append.mp h with h | h
      · exact ih (n / b) (Nat.div_lt_self (by omega) hb) h
      · exact ⟨n % b, Nat.mod_lt n (by omega), List.mem_singleton.mp h⟩

theorem sameLetter_digit {b n : Nat} {c : Char} (hb : 1 < b) (hle : b ≤ 16) (h : c ∈ Nat.toDigits b n) :
    sameLetter 'v' c = false := by
  obtain ⟨k, hk, rfl⟩ := mem_toDigits hb h
  have hall : ∀ k < 16, sameLetter 'v' (Nat.digitChar k) = false := by decide
  exact hall k (by omega)

/-- A character that no match of the pattern starts with, and no newline. -/
def Plain (c : Char) : Prop := sameLetter 'v' c = false ∧ c ≠ '\n'

instance : DecidablePred Plain := fun c => inferInstanceAs (Decidable (sameLetter 'v' c = false ∧ c ≠ '\n'))

theorem plain_toDigits {b n : Nat} (hb : 1 < b) (hle : b ≤ 16) : ∀ c ∈ Nat.toDigits b n, Plain c := by
  intro c hc
  obtain ⟨k, hk, rfl⟩ := mem_toDigits hb hc
  have hall : ∀ k < 16, Plain (Nat.digitChar k) := by decide
  exact hall k (by omega)

theorem plain_textOfNat (n : Nat) : ∀ c ∈ textOfNat n, Plain c := plain_toDigits (by decide) (by decide)

theorem plain_hex (n : Nat) : ∀ c ∈ (hex (n : Int)).toList, Plain c := by
  intro c hc
  rw [hex, if_neg (by omega), String.toList_append] at hc
  rcases List.mem_append.mp hc with hc | hc
  · exact @forall_char_mem ['0', 'x'] Plain _ (by decide) c hc
  · rw [String.toList_ofList] at hc
    exact plain_toDigits (by decide) (Nat.le_refl 16) c hc

theorem plain_noteOk : ∀ c ∈ noteOk, Plain c := forall_char_mem (by decide)

theorem plain_noteOf : ∀ c ∈ noteOf, Plain c := forall_char_mem (by decide)

theorem plain_noteBytes : ∀ c ∈ noteBytes, Plain c := forall_char_mem (by decide)

theorem noteMatch_eq : noteMatch = " match flash ".toList ++ 'v' :: 'i' :: "a ".toList := by decide

theorem verifyFailed_noteMatch (rest : Text) : verifyFailed (noteMatch ++ rest) = verifyFailed rest := by
  have hstart : ∀ c ∈ " match flash ".toList, Plain c := forall_char_mem (by decide)
  have hend : ∀ c ∈ 'i' :: "a ".toList, Plain c := forall_char_mem (by decide)
  rw [noteMatch_eq, List.append_assoc, verifyFailed_append fun c hc => (hstart c hc).1]
  show verifyFailed ('v' :: 'i' :: _) = _
  rw [verifyFailed_cons (by decide)]
  exact verifyFailed_append (fun c hc => (hend c hc).1) rest

theorem verifyFailed_noteEnd : verifyFailed noteEnd = false := by decide +kernel

/-- The note is no failure: it has no `v` that an `e` and an `r` follow. -/
theorem verifyFailed_note (int0 : Text → Option Int) (call : Call) : verifyFailed (call.note int0) = false := by
  rw [Call.note, verifyFailed_append fun c hc => (plain_noteOk c hc).1,
    verifyFailed_append fun c hc => (plain_textOfNat _ c hc).1, verifyFailed_append fun c hc => (plain_noteOf c hc).1,
    verifyFailed_append fun c hc => (plain_textOfNat _ c hc).1,
    verifyFailed_append fun c hc => (plain_noteBytes c hc).1, verifyFailed_append fun c hc => (plain_hex _ c hc).1,
    verifyFailed_noteMatch, verifyFailed_append fun c hc => (plain_hex _ c hc).1, verifyFailed_noteEnd]

theorem not_reported_note (int0 : Text → Option Int) (call : Call) : ¬Reported (call.note int0) := by
  have hmatch : '\n' ∉ noteMatch := by decide
  have hend : '\n' ∉ noteEnd := by decide
  have hline : '\n' ∉ call.note int0 := by
    simp only [Call.note, List.mem_append, not_or]
    exact ⟨fun h => (plain_noteOk _ h).2 rfl, fun h => (plain_textOfNat _ _ h).2 rfl,
      fun h => (plain_noteOf _ h).2 rfl, fun h => (plain_textOfNat _ _ h).2 rfl,
      fun h => (plain_noteBytes _ h).2 rfl, fun h => (plain_hex _ _ h).2 rfl, hmatch,
      fun h => (plain_hex _ _ h).2 rfl, hend⟩
  rintro ⟨line, hmem, hfailed⟩
  rw [List.splitOn_eq_singleton hline, List.mem_singleton] at hmem
  rw [hmem, verifyFailed_note] at hfailed
  cases hfailed

end Note

/-! ### When a failure is shown -/

section Shown

variable {int0 : Text → Option Int} {jl : Session} {call : Call} {flash : Nat → UInt8}

/-- A match drops every failure. -/
theorem not_reported_of_matched (herror : call.readError = none) (hmatched : verdict int0 jl call = .matched) :
    ∀ y ∈ verifyBinUncached int0 jl call, ¬Reported y := by
  intro y hy
  unfold verifyBinUncached at hy
  rw [herror, hmatched] at hy
  rcases List.mem_cons.mp hy with rfl | hy
  · rintro ⟨line, hmem, hfailed⟩
    have hkept := forall_mem_splitOn_filter rfl hmem
    rw [hfailed] at hkept
    cases hkept
  · rw [List.mem_singleton.mp hy]
    exact not_reported_note int0 call

/-- **Failures of a bad flash.** They are shown exactly where the flash is good or loadfile reports none, the file
cannot be read, the flush fails, or a chunk of the compared part is not read back as the image has it. -/
theorem shows_iff (int0 : Text → Option Int) (jl : Session) (call : Call) (flash : Nat → UInt8) :
    Shows int0 jl call flash ↔ ¬call.Bad flash ∨ ¬Reported call.capturedOutput ∨ call.readError ≠ none ∨
      (∀ out, jl 0 s!"w4 {hex (DA1469X_CACHE_CTRL1_REG : Int)} 1" ≠ .ok out) ∨
      ∃ offset ∈ call.offsets int0, ¬call.Shown int0 jl offset := by
  constructor
  · intro hshows
    by_contra hnot
    push Not at hnot
    obtain ⟨hbad, hreported, herror, hflush, hall⟩ := hnot
    have hmatched := verdict_matched_iff.mpr ⟨hflush, hall⟩
    obtain ⟨y, hy, hyes⟩ := hshows hbad hreported
    exact not_reported_of_matched herror hmatched y hy hyes
  · intro hcondition hbad hreported
    refine ⟨call.capturedOutput, mem_verifyBinUncached ?_, hreported⟩
    rcases hcondition with hgood | hnone | herror | hflush | ⟨offset, hoffset, hshown⟩
    · exact absurd hbad hgood
    · exact absurd hreported hnone
    · exact Or.inl herror
    · refine Or.inr fun hmatched => ?_
      obtain ⟨out, hout⟩ := (verdict_matched_iff.mp hmatched).1
      exact hflush out hout
    · exact Or.inr fun hmatched => hshown ((verdict_matched_iff.mp hmatched).2 offset hoffset)

/-- A read that is complete shows what the flash holds. -/
def Call.Truthful (int0 : Text → Option Int) (jl : Session) (call : Call) (flash : Nat → UInt8) : Prop :=
  ∀ offset ∈ call.offsets int0, ∀ output, call.read int0 jl offset = .ok output →
    (parseMem8Bytes output (call.size int0 offset)).length = call.size int0 offset →
      parseMem8Bytes output (call.size int0 offset) =
        (List.range (call.size int0 offset)).map fun i => flash (call.address + (offset + i))

/-- The chunk of a place in the compared part. -/
theorem exists_offset {i : Nat} (h : i < call.total int0) :
    ∃ offset ∈ call.offsets int0, offset ≤ i ∧ i - offset < call.size int0 offset := by
  have hdiv := Nat.div_add_mod i CHUNK
  have hmod := Nat.mod_lt i (show 0 < CHUNK by decide)
  refine ⟨i / CHUNK * CHUNK, List.mem_map_of_mem (List.mem_range.mpr ?_), ?_, ?_⟩
  · apply (Nat.div_lt_iff_lt_mul (show 0 < CHUNK by decide)).mpr
    have hceil := Nat.div_add_mod (call.total int0 + CHUNK - 1) CHUNK
    have hlt := Nat.mod_lt (call.total int0 + CHUNK - 1) (show 0 < CHUNK by decide)
    rw [Nat.mul_comm]
    omega
  · exact Nat.div_mul_le_self i CHUNK
  · rw [Nat.mul_comm] at hdiv
    unfold Call.size
    omega

/-- Reads that tell the truth: a difference in the compared part is never hidden. -/
theorem shows_of_truthful (htruth : call.Truthful int0 jl flash) {i : Nat} (hi : i < call.total int0)
    (hdiffers : ∀ h : i < call.image.length, flash (call.address + i) ≠ call.image[i]) :
    Shows int0 jl call flash := by
  have hlength : i < call.image.length := Nat.lt_of_lt_of_le hi total_le
  obtain ⟨offset, hoffset, hle, hinside⟩ := exists_offset hi
  rw [shows_iff]
  refine Or.inr (Or.inr (Or.inr (Or.inr ⟨offset, hoffset, ?_⟩)))
  rintro ⟨output, hread, hparsed⟩
  have hflash := htruth offset hoffset output hread (by rw [hparsed, length_want])
  rw [hparsed] at hflash
  have hbyte := congrArg (fun bytes : Bytes => bytes[i - offset]?) hflash
  simp only [Call.want, List.getElem?_take, List.getElem?_drop, List.getElem?_map, List.getElem?_range hinside,
    if_pos hinside, Option.map_some, Nat.add_sub_of_le hle, List.getElem?_eq_getElem hlength] at hbyte
  exact hdiffers hlength (Option.some.inj hbyte).symm

/-- Without a cap nothing is hidden by reads that tell the truth. -/
theorem shows_uncapped (htruth : call.Truthful int0 jl flash) (hcap : call.cap int0 ≤ 0) :
    Shows int0 jl call flash := by
  intro hbad
  obtain ⟨i, hi, hdiffers⟩ := hbad
  have htotal : call.total int0 = call.image.length := if_pos hcap
  exact shows_of_truthful htruth (htotal ▸ hi) (fun _ => hdiffers) ⟨i, hi, hdiffers⟩

end Shown

/-! ### A cap that hides a failure -/

/-- Eight bytes, of which the last was not programmed. -/
def cappedFlash (address : Nat) : UInt8 := if address = 0x16000007 then 0xff else 0x11

/-- The first four bytes are compared. -/
def capped : Call where
  path := "/tmp/image.bin"
  image := List.replicate 8 0x11
  readError := none
  address := 0x16000000
  raw := "4".toList
  capturedOutput := "Verification failed @ address 0x16000007.".toList

def cappedSession : Session := fun n _ =>
  if n = 0 then .ok [] else .ok "36000000 = 11 11 11 11".toList

/-- The reads tell the truth, and the failure is dropped. -/
theorem capped_hides : ¬∀ int0 jl call flash, Shows int0 jl call flash := by
  intro h
  have hbad : capped.Bad cappedFlash := ⟨7, by decide, by decide⟩
  have hreported : Reported capped.capturedOutput := by
    refine ⟨_, List.mem_singleton_self _, ?_⟩
    decide +kernel
  obtain ⟨y, hy, hyes⟩ := h intOfText cappedSession capped cappedFlash hbad hreported
  refine not_reported_of_matched rfl (verdict_matched_iff.mpr ⟨⟨[], rfl⟩, ?_⟩) y hy hyes
  have hoffsets : capped.offsets intOfText = [0] := by decide +kernel
  rw [hoffsets, List.forall_mem_singleton]
  exact ⟨"36000000 = 11 11 11 11".toList, rfl, by decide +kernel⟩

end Lager.Debug.UncachedVerify
