import Lager.RunRecord.Retention
import Lager.RunRecord.System

/-!
# Retained bytes have their hash

What keeps the blobs right is that no two parties write to one inode: a log belongs to the run that captures it, a
temporary file to the run that made it, and a blob to nobody. `Role` says which, `Apart` that a step of one run leaves
what belongs to others alone. Two things break it. Where a script's process changes an output file between the pass
that hashes it and the one that copies it, the copy is stored under the hash of other bytes; where a run begins under
the id of one whose log is not stored yet, both write to one file. Without these, every blob has the content that its
name says, and every retained entry has its blob (`retained_bytes_match`).
-/

namespace Lager.RunRecord.Retention

open Lager.Py

variable {w : World}

/-! ### Who writes to an inode -/

inductive Role
  | free
  | log (runId : RunId)
  /-- A temporary file of a run. -/
  | temp (i : Nat)
  | blob
  deriving DecidableEq

structure Named (w : World) (role : Inode → Role) (f : Files) : Prop where
  free : ∀ m, f.next ≤ m → role m = .free
  blob : ∀ h m, f.blobs h = some m → role m = .blob ∧ w.sha256 (f.content m) = h
  log : ∀ runId m, f.logs runId = some m → role m = .log runId

/-- A blob of this hash and size. -/
def Stored (f : Files) (h : String) (size : Nat) : Prop := ∃ m, f.blobs h = some m ∧ (f.content m).length = size

/-- A step of run `i`, which may write to the log of its own id, changes nothing of any other run. -/
structure Apart (i : Nat) (own : Option RunId) (role role' : Inode → Role) (f f' : Files) : Prop where
  kept : ∀ m, role m ≠ .free → role m ≠ .temp i → (∀ runId ∈ own, role m ≠ .log runId) →
    f'.content m = f.content m ∧ role' m = role m
  logs : ∀ runId, runId ∉ own → f'.logs runId = f.logs runId
  stored : ∀ h size, Stored f h size → Stored f' h size

theorem Apart.refl (i : Nat) (own : Option RunId) (role : Inode → Role) (f : Files) : Apart i own role role f f :=
  ⟨fun _ _ _ _ => ⟨rfl, rfl⟩, fun _ _ => rfl, fun _ _ => id⟩

theorem Apart.trans {i : Nat} {own : Option RunId} {role : Inode → Role} {f f' f'' : Files}
    (h : Apart i own role role f f') (h' : Apart i own role role f' f'') : Apart i own role role f f'' := by
  refine ⟨fun m hfree htemp hlog => ?_, fun id hid => (h'.logs id hid).trans (h.logs id hid), fun hash size hs => ?_⟩
  · exact ⟨((h'.kept m hfree htemp hlog).1).trans (h.kept m hfree htemp hlog).1, rfl⟩
  · exact h'.stored hash size (h.stored hash size hs)

section

variable {role : Inode → Role} {f : Files} {i : Nat} {own : Option RunId} {runId : RunId}

theorem setContent_ne (f : Files) {m m' : Inode} (bytes : Bytes) (h : m' ≠ m) :
    (f.setContent m bytes).content m' = f.content m' :=
  Function.update_of_ne h _ _

theorem setContent_self (f : Files) (m : Inode) (bytes : Bytes) : (f.setContent m bytes).content m = bytes :=
  Function.update_self _ _ _

theorem named_setContent (hn : Named w role f) {m : Inode} (hm : role m ≠ .blob) (bytes : Bytes) :
    Named w role (f.setContent m bytes) := by
  refine ⟨hn.free, fun h m' hblob => ?_, hn.log⟩
  obtain ⟨hrole, hsha⟩ := hn.blob h m' hblob
  have hne : m' ≠ m := by
    rintro rfl
    exact hm hrole
  exact ⟨hrole, by rw [setContent_ne f bytes hne, hsha]⟩

theorem stored_setContent (hn : Named w role f) {m : Inode} (hm : role m ≠ .blob) (bytes : Bytes) (h : String)
    (size : Nat) (hs : Stored f h size) : Stored (f.setContent m bytes) h size := by
  obtain ⟨m', hblob, hlength⟩ := hs
  have hne : m' ≠ m := by
    rintro rfl
    exact hm (hn.blob h m' hblob).1
  exact ⟨m', hblob, by rw [setContent_ne f bytes hne, hlength]⟩

/-- A write to the run's own log. -/
theorem apart_writeLog (hn : Named w role f) {m : Inode} (hlog : f.logs runId = some m) (i : Nat) (bytes : Bytes) :
    Apart i (some runId) role role f (f.setContent m bytes) := by
  have hrole := hn.log runId m hlog
  refine ⟨fun m' _ _ hown => ⟨?_, rfl⟩, fun _ _ => rfl, stored_setContent hn (by simp [hrole]) bytes⟩
  refine setContent_ne f bytes ?_
  rintro rfl
  exact hown runId rfl hrole

theorem apart_writeTemp (hn : Named w role f) {m : Inode} (hrole : role m = .temp i) (bytes : Bytes) :
    Apart i own role role f (f.setContent m bytes) := by
  refine ⟨fun m' _ htemp _ => ⟨?_, rfl⟩, fun _ _ => rfl, stored_setContent hn (by simp [hrole]) bytes⟩
  refine setContent_ne f bytes ?_
  rintro rfl
  exact htemp hrole

theorem named_unlinkLog (hn : Named w role f) (runId : RunId) : Named w role (f.unlinkLog runId) := by
  refine ⟨hn.free, hn.blob, fun id m hlog => ?_⟩
  simp only [Files.unlinkLog, Function.update_apply] at hlog
  split at hlog
  · cases hlog
  · exact hn.log id m hlog

theorem apart_unlinkLog (i : Nat) (role : Inode → Role) (f : Files) (runId : RunId) :
    Apart i (some runId) role role f (f.unlinkLog runId) := by
  refine ⟨fun _ _ _ _ => ⟨rfl, rfl⟩, fun id hid => ?_, fun _ _ => id⟩
  refine Function.update_of_ne ?_ _ _
  rintro rfl
  exact hid rfl

/-- A name of the log becomes a temporary file of the run. -/
theorem move_sound (hn : Named w role f) {m : Inode} (hlog : f.logs runId = some m) (i : Nat) :
    Named w (Function.update role m (.temp i)) (f.unlinkLog runId) ∧
      Apart i (some runId) role (Function.update role m (.temp i)) f (f.unlinkLog runId) := by
  have hrole := hn.log runId m hlog
  have hunlink := named_unlinkLog hn runId
  have hother : ∀ m', role m' ≠ .log runId → Function.update role m (.temp i) m' = role m' := by
    intro m' hne
    refine Function.update_of_ne ?_ _ _
    rintro rfl
    exact hne hrole
  refine ⟨⟨fun m' hm' => ?_, fun h m' hblob => ?_, fun id m' hlog' => ?_⟩, fun m' _ _ hown => ⟨rfl, ?_⟩, ?_, ?_⟩
  · rw [hother m' (by simp [hn.free m' hm'])]
    exact hn.free m' hm'
  · obtain ⟨hblob', hsha⟩ := hn.blob h m' hblob
    exact ⟨by rw [hother m' (by simp [hblob']), hblob'], hsha⟩
  · have hid : id ≠ runId := by
      rintro rfl
      simp [Files.unlinkLog] at hlog'
    have hrole' := hunlink.log id m' hlog'
    rw [hother m' (by simp [hrole', hid]), hrole']
  · exact hother m' (hown runId rfl)
  · exact (apart_unlinkLog i role f runId).logs
  · exact fun _ _ => id

theorem next_free (hn : Named w role f) : role f.next = .free := hn.free f.next (Nat.le_refl _)

theorem ne_next (hn : Named w role f) {m : Inode} (h : role m ≠ .free) : m ≠ f.next := by
  rintro rfl
  exact h (next_free hn)

/-- A new file gets a role. -/
theorem named_create (hn : Named w role f) (r : Role) (hr : r ≠ .blob) :
    Named w (Function.update role f.next r) f.create.1 := by
  refine ⟨fun m hm => ?_, fun h m hblob => ?_, fun id m hlog => ?_⟩
  · have hlt : f.next < m := hm
    rw [Function.update_of_ne (Nat.ne_of_gt hlt)]
    exact hn.free m (Nat.le_of_lt hlt)
  · obtain ⟨hblob', hsha⟩ := hn.blob h m hblob
    have hne := ne_next hn (by simp [hblob'] : role m ≠ .free)
    exact ⟨by rw [Function.update_of_ne hne, hblob'], by rw [← hsha]; exact congrArg w.sha256 (setContent_ne f [] hne)⟩
  · have hrole := hn.log id m hlog
    rw [Function.update_of_ne (ne_next hn (by simp [hrole])), hrole]

theorem apart_create (hn : Named w role f) (r : Role) :
    Apart i own role (Function.update role f.next r) f f.create.1 := by
  refine ⟨fun m hfree _ _ => ?_, fun _ _ => rfl, fun h size hs => ?_⟩
  · have hne := ne_next hn hfree
    exact ⟨setContent_ne f [] hne, Function.update_of_ne hne _ _⟩
  · obtain ⟨m, hblob, hlength⟩ := hs
    have hne := ne_next hn (by simp [(hn.blob h m hblob).1] : role m ≠ .free)
    exact ⟨m, hblob, by rw [← hlength]; exact congrArg List.length (setContent_ne f [] hne)⟩

/-- A temporary file becomes the blob of its hash; one that is there has the same bytes. -/
theorem replace_sound (hn : Named w role f) {tmp : Inode} {h : String} (hrole : role tmp = .temp i)
    (hsha : w.sha256 (f.content tmp) = h) (hsame : ∀ m, f.blobs h = some m → f.content m = f.content tmp) :
    Named w (Function.update role tmp .blob) (f.replace tmp h) ∧
      Apart i own role (Function.update role tmp .blob) f (f.replace tmp h) := by
  have hother : ∀ m, role m ≠ .temp i → Function.update role tmp .blob m = role m := by
    intro m hne
    refine Function.update_of_ne ?_ _ _
    rintro rfl
    exact hne hrole
  refine ⟨⟨fun m hm => ?_, fun h' m hblob => ?_, fun id m hlog => ?_⟩, fun m _ htemp _ => ⟨rfl, hother m htemp⟩,
    fun _ _ => rfl, fun h' size hs => ?_⟩
  · have hfree := hn.free m hm
    rw [hother m (by simp [hfree]), hfree]
  · simp only [Files.replace, Function.update_apply] at hblob
    split at hblob
    · rename_i heq
      cases hblob
      exact ⟨Function.update_self _ _ _, heq ▸ hsha⟩
    · obtain ⟨hblob', hsha'⟩ := hn.blob h' m hblob
      exact ⟨by rw [hother m (by simp [hblob']), hblob'], hsha'⟩
  · have hlog' := hn.log id m hlog
    rw [hother m (by simp [hlog']), hlog']
  · obtain ⟨m, hblob, hlength⟩ := hs
    by_cases heq : h' = h
    · subst heq
      refine ⟨tmp, Function.update_self _ _ _, ?_⟩
      rw [← hlength, hsame m hblob]
      rfl
    · exact ⟨m, by simpa [Files.replace, Function.update_of_ne heq] using hblob, hlength⟩

end

/-! ### What a run has so far -/

def LogKept (f : Files) (entry : LogEntry) : Prop := entry.retained = true → Stored f entry.sha256 entry.size

def OutputKept (f : Files) (entry : OutputEntry) : Prop :=
  entry.retained = true → ∃ h size, entry.sha256 = some h ∧ entry.size = some size ∧ Stored f h size

/-- Every entry that says so is retained. -/
def Kept (f : Files) (log : LogEntry) (outputs : List OutputEntry) : Prop :=
  LogKept f log ∧ ∀ entry ∈ outputs, OutputKept f entry

/-- The file has what was hashed, unless the entry is not going to be retained. -/
def Faithful (blobMax : Int) (log : LogCapture) : Prop :=
  log.logSize = log.hashed.length ∧
    (log.broken = false → (log.logSize : Int) ≤ blobMax → log.logFile = some log.hashed)

/-- The log of the run is the one its entry describes. -/
def LogHeld (w : World) (f : Files) (runId : RunId) (entry : LogEntry) : Prop :=
  ∃ m, f.logs runId = some m ∧ w.sha256 (f.content m) = entry.sha256 ∧ (f.content m).length = entry.size

/-- What was hashed is still there to be copied, or was copied. -/
def CopySound (role : Inode → Role) (f : Files) (outputs : Outputs) (i : Nat) (name : String) : Copy → Prop
  | .resolving => True
  | .hashing src seen => outputs.inode name = some src ∧ (outputs.content src).take seen.length = seen
  | .testing src seen | .opening src seen => outputs.inode name = some src ∧ outputs.content src = seen
  | .copying seen src tmp copied => role tmp = .temp i ∧ copied ≤ seen.length ∧
      (outputs.content src).drop copied = seen.drop copied ∧ f.content tmp = seen.take copied
  | .placing seen tmp => role tmp = .temp i ∧ f.content tmp = seen

def RunSound (w : World) (role : Inode → Role) (f : Files) (outputs : Outputs) (i : Nat) (runId : RunId) : Phase → Prop
  | .capturing log fd flushed => Faithful w.blobMax log ∧ ∀ written, log.logFile = some written →
      f.logs runId = some fd ∧ flushed ≤ written.length ∧ f.content fd = written.take flushed
  | .closed log => Faithful w.blobMax log ∧ ∀ written, log.logFile = some written →
      ∃ m, f.logs runId = some m ∧ f.content m = written
  | .testingLog entry | .movingLog entry => LogHeld w f runId entry
  | .droppingLog entry | .listing entry => LogKept f entry
  | .placingLog entry tmp => role tmp = .temp i ∧ w.sha256 (f.content tmp) = entry.sha256 ∧
      (f.content tmp).length = entry.size
  | .output log done name _ copy => Kept f log done ∧ CopySound role f outputs i name copy
  | .assembled log outputs => Kept f log outputs
  | .finished => True

/-- The run has still to store or remove its log. -/
def Phase.logOpen : Phase → Bool
  | .capturing .. | .closed _ | .testingLog _ | .droppingLog _ | .movingLog _ => true
  | _ => false

theorem Kept.mono {f f' : Files} {log : LogEntry} {outputs : List OutputEntry} (h : Kept f log outputs)
    (hstored : ∀ h size, Stored f h size → Stored f' h size) : Kept f' log outputs := by
  refine ⟨fun hret => hstored _ _ (h.1 hret), fun entry hentry hret => ?_⟩
  obtain ⟨sha, size, hsha, hsize, hs⟩ := h.2 entry hentry hret
  exact ⟨sha, size, hsha, hsize, hstored sha size hs⟩

section

variable {role role' : Inode → Role} {f f' : Files} {outputs : Outputs} {i j : Nat} {own : Option RunId} {runId : RunId}

theorem Apart.log (h : Apart i own role role' f f') (hn : Named w role f) (hown : runId ∉ own) {m : Inode}
    (hlog : f.logs runId = some m) : f'.logs runId = some m ∧ f'.content m = f.content m := by
  have hrole := hn.log runId m hlog
  refine ⟨(h.logs runId hown).trans hlog, (h.kept m (by simp [hrole]) (by simp [hrole]) fun id hid => ?_).1⟩
  rw [hrole]
  rintro ⟨⟩
  exact hown hid

theorem Apart.temp (h : Apart i own role role' f f') (hij : j ≠ i) {m : Inode} (hrole : role m = .temp j) :
    role' m = .temp j ∧ f'.content m = f.content m := by
  obtain ⟨hcontent, hrole'⟩ := h.kept m (by simp [hrole]) (by simp [hrole, hij]) (by simp [hrole])
  exact ⟨hrole'.trans hrole, hcontent⟩

theorem Apart.logHeld (h : Apart i own role role' f f') (hn : Named w role f) (hown : runId ∉ own) {entry : LogEntry}
    (hheld : LogHeld w f runId entry) : LogHeld w f' runId entry := by
  obtain ⟨m, hlog, hsha, hsize⟩ := hheld
  obtain ⟨hlog', hcontent⟩ := h.log hn hown hlog
  exact ⟨m, hlog', by rw [hcontent, hsha], by rw [hcontent, hsize]⟩

/-- What one run does keeps the others as they are. -/
theorem Apart.runSound (h : Apart i own role role' f f') (hn : Named w role f) (hij : j ≠ i) {p : Phase}
    (hown : p.logOpen = true → runId ∉ own) (hp : RunSound w role f outputs j runId p) :
    RunSound w role' f' outputs j runId p := by
  cases p with
  | capturing log fd flushed =>
    refine ⟨hp.1, fun written hwritten => ?_⟩
    obtain ⟨hlog, hflushed, hcontent⟩ := hp.2 written hwritten
    obtain ⟨hlog', hsame⟩ := h.log hn (hown rfl) hlog
    exact ⟨hlog', hflushed, hsame.trans hcontent⟩
  | closed log =>
    refine ⟨hp.1, fun written hwritten => ?_⟩
    obtain ⟨m, hlog, hcontent⟩ := hp.2 written hwritten
    obtain ⟨hlog', hsame⟩ := h.log hn (hown rfl) hlog
    exact ⟨m, hlog', hsame.trans hcontent⟩
  | testingLog entry => exact h.logHeld hn (hown rfl) hp
  | movingLog entry => exact h.logHeld hn (hown rfl) hp
  | droppingLog entry => exact fun hret => h.stored _ _ (hp hret)
  | listing entry => exact fun hret => h.stored _ _ (hp hret)
  | placingLog entry tmp =>
    obtain ⟨hrole, hsha, hsize⟩ := hp
    obtain ⟨hrole', hcontent⟩ := h.temp hij hrole
    exact ⟨hrole', by rw [hcontent, hsha], by rw [hcontent, hsize]⟩
  | output log done name rest copy =>
    refine ⟨hp.1.mono h.stored, ?_⟩
    have hcopy := hp.2
    cases copy with
    | copying seen src tmp copied =>
      obtain ⟨hrole, hle, hdrop, htmp⟩ := hcopy
      obtain ⟨hrole', hcontent⟩ := h.temp hij hrole
      exact ⟨hrole', hle, hdrop, hcontent.trans htmp⟩
    | placing seen tmp =>
      obtain ⟨hrole, htmp⟩ := hcopy
      obtain ⟨hrole', hcontent⟩ := h.temp hij hrole
      exact ⟨hrole', hcontent.trans htmp⟩
    | _ => exact hcopy
  | assembled log outputs => exact hp.mono h.stored
  | finished => trivial

end

/-! ### Conditions -/

/-- A blob under the hash of these bytes has these bytes. -/
def NoClash (w : World) (f : Files) (bytes : Bytes) : Prop :=
  ∀ m, f.blobs (w.sha256 bytes) = some m → w.sha256 (f.content m) = w.sha256 bytes → f.content m = bytes

/-- What a run looks for among the blobs, or is about to put there. -/
def Phase.storing? (f : Files) (runId : RunId) : Phase → Option Bytes
  | .testingLog _ => (f.logs runId).map f.content
  | .placingLog _ tmp => some (f.content tmp)
  | .output _ _ _ _ (.testing _ seen) | .output _ _ _ _ (.placing seen _) => some seen
  | _ => none

/-- The scripts leave alone what was read of the file, and what is still to be read of it a second time. -/
def Copy.Steady (name : String) (before after : Outputs) : Copy → Prop
  | .hashing src seen => after.inode name = before.inode name ∧
      (after.content src).take seen.length = (before.content src).take seen.length
  | .testing src _ | .opening src _ =>
    after.inode name = before.inode name ∧ after.content src = before.content src
  | .copying _ src _ copied => (after.content src).drop copied = (before.content src).drop copied
  | .resolving | .placing .. => True

def Phase.Steady (before after : Outputs) : Phase → Prop
  | .output _ _ name _ copy => copy.Steady name before after
  | _ => True

/-- No run begins under the id of one whose log is not stored yet, the scripts leave an output file alone from the
time it is hashed until it is copied, and no two byte strings with one hash meet. -/
def Undisturbed (w : World) (s : Bench) : Event → Prop
  | .begin _ runId => ∀ j r, s.runs j = some r → r.phase.logOpen = true → r.runId ≠ runId
  | .run i _ => ∀ r, s.runs i = some r → ∀ bytes ∈ r.phase.storing? s.files r.runId, NoClash w s.files bytes
  | .scripts outputs => ∀ i r, s.runs i = some r → r.phase.Steady s.outputs outputs
  | .publish .. | .crash => True

theorem Copy.Steady.sound {role : Inode → Role} {f : Files} {before after : Outputs} {i : Nat} {name : String}
    {copy : Copy} (h : copy.Steady name before after) (hcopy : CopySound role f before i name copy) :
    CopySound role f after i name copy := by
  cases copy with
  | resolving => trivial
  | hashing src seen => exact ⟨h.1.trans hcopy.1, h.2.trans hcopy.2⟩
  | testing src seen => exact ⟨h.1.trans hcopy.1, h.2.trans hcopy.2⟩
  | opening src seen => exact ⟨h.1.trans hcopy.1, h.2.trans hcopy.2⟩
  | copying seen src tmp copied => exact ⟨hcopy.1, hcopy.2.1, Eq.trans h hcopy.2.2.1, hcopy.2.2.2⟩
  | placing seen tmp => exact hcopy

theorem Phase.Steady.sound {role : Inode → Role} {f : Files} {before after : Outputs} {i : Nat} {runId : RunId}
    {p : Phase} (h : p.Steady before after) (hp : RunSound w role f before i runId p) :
    RunSound w role f after i runId p := by
  cases p with
  | output log done name rest copy => exact ⟨hp.1, Copy.Steady.sound h hp.2⟩
  | _ => exact hp

/-! ### The log -/

theorem faithful_logFrame {blobMax : Int} {log : LogCapture} (h : Faithful blobMax log) (disk : Disk) (fileno : Int)
    (chunk : Bytes) : Faithful blobMax (log.logFrame blobMax disk fileno chunk) := by
  obtain ⟨hsize, hfile⟩ := h
  unfold LogCapture.logFrame
  split
  · exact ⟨hsize, hfile⟩
  · have hgrow : (log.logSize : Int) ≤ blobMax ∨ ¬ ((log.logSize + (frameBytes fileno chunk).length : Nat) : Int) ≤
        blobMax := by omega
    have hlength : log.logSize + (frameBytes fileno chunk).length = (log.hashed ++ frameBytes fileno chunk).length := by
      rw [List.length_append, hsize]
    dsimp only
    cases hlog : log.logFile with
    | none =>
      refine ⟨hlength, fun hbroken hle => ?_⟩
      have hbefore := hfile hbroken (hgrow.resolve_right (not_not.mpr hle))
      rw [hlog] at hbefore
      cases hbefore
    | some written =>
      dsimp only
      split
      · rename_i hle
        cases disk with
        | fails => exact ⟨hlength, nofun⟩
        | ok =>
          refine ⟨hlength, fun hbroken _ => ?_⟩
          have hbefore := hfile hbroken (hgrow.resolve_right (not_not.mpr hle))
          rw [hlog] at hbefore
          cases hbefore
          rfl
      · rename_i hgt
        cases disk <;> exact ⟨hlength, fun _ hle => absurd hle hgt⟩

/-- A frame is added to the file, or nothing is. -/
theorem logFile_logFrame {blobMax : Int} {log : LogCapture} {disk : Disk} {fileno : Int} {chunk written' : Bytes}
    (h : (log.logFrame blobMax disk fileno chunk).logFile = some written') :
    ∃ written, log.logFile = some written ∧ written <+: written' := by
  unfold LogCapture.logFrame at h
  split at h
  · exact ⟨written', h, List.prefix_refl _⟩
  · dsimp only at h
    cases hlog : log.logFile with
    | none => simp [hlog] at h
    | some written =>
      simp only [hlog] at h
      split at h
      · cases disk with
        | ok =>
          cases h
          exact ⟨written, rfl, List.prefix_append _ _⟩
        | fails =>
          cases h
          exact ⟨_, rfl, List.prefix_refl _⟩
      · cases disk <;> cases h

theorem overwrite_drop {bytes : Bytes} {k : Nat} (hk : k ≤ bytes.length) :
    overwrite (bytes.take k) k (bytes.drop k) = bytes := by
  have htail : (bytes.take k).drop (k + (bytes.drop k).length) = [] := by
    rw [List.drop_eq_nil_iff, List.length_take]
    omega
  have hgap : k - (bytes.take k).length = 0 := by
    rw [List.length_take]
    omega
  rw [overwrite, hgap, htail, List.take_take, Nat.min_self]
  simp

section

variable {role : Inode → Role} {f : Files} {outputs : Outputs} {i : Nat} {runId : RunId}

/-- What a step of a run leaves: every name is right, the other runs are left alone, and the run is where it should
be. -/
def Goes (w : World) (role : Inode → Role) (f : Files) (i : Nat) (own : Option RunId) (f' : Files)
    (now : (Inode → Role) → Prop) : Prop :=
  ∃ role', Named w role' f' ∧ Apart i own role role' f f' ∧ now role'

theorem Goes.same {own : Option RunId} {now : (Inode → Role) → Prop} (hn : Named w role f) (h : now role) :
    Goes w role f i own f now :=
  ⟨role, hn, .refl _ _ _ _, h⟩

/-- The file of the log has all that was written up to here. -/
theorem pour_content {fd : Inode} {flushed : Nat} {written : Bytes} (hle : flushed ≤ written.length)
    (hcontent : f.content fd = written.take flushed) : (f.pour fd flushed written).content fd = written := by
  rw [Files.pour, setContent_self, hcontent, overwrite_drop hle]

theorem capturing_frame (hn : Named w role f) {log : LogCapture} {fd : Inode} {flushed : Nat}
    (hp : RunSound w role f outputs i runId (.capturing log fd flushed)) {disk : Disk} {fileno : Int} {chunk : Bytes}
    {f' : Files} {p : Phase} (h : logStep w f runId (.capturing log fd flushed) (.frame disk fileno chunk) = some (f', p)) :
    Goes w role f i (some runId) f' fun role' => RunSound w role' f' outputs i runId p := by
  have hfaithful := faithful_logFrame hp.1 disk fileno chunk
  simp only [logStep] at h
  split at h
  · rename_i written hwritten hgone
    obtain ⟨hlog, -⟩ := hp.2 written hwritten
    cases h
    have hpoured : Named w role (if disk = .ok then f.pour fd flushed written else f) ∧
        Apart i (some runId) role role f (if disk = .ok then f.pour fd flushed written else f) := by
      split
      · exact ⟨named_setContent hn (by simp [hn.log runId fd hlog]) _, apart_writeLog hn hlog i _⟩
      · exact ⟨hn, .refl _ _ _ _⟩
    refine ⟨role, named_unlinkLog hpoured.1 runId, hpoured.2.trans (apart_unlinkLog i role _ runId), hfaithful, ?_⟩
    intro written' hwritten'
    rw [hgone] at hwritten'
    cases hwritten'
  · cases h
    refine .same hn ⟨hfaithful, fun written' hwritten' => ?_⟩
    obtain ⟨written, hwritten, tail, rfl⟩ := logFile_logFrame hwritten'
    obtain ⟨hlog, hle, hcontent⟩ := hp.2 written hwritten
    refine ⟨hlog, by rw [List.length_append]; omega, ?_⟩
    rw [hcontent, List.take_append_of_le_length hle]

/-- `finalize` finds the log that the entry describes, if it is to be retained. -/
theorem closed_entry {log : LogCapture} (hp : RunSound w role f outputs i runId (.closed log))
    (hret : (log.entry w.sha256 w.blobMax (f.logs runId).isSome).retained = true) :
    LogHeld w f runId (log.entry w.sha256 w.blobMax (f.logs runId).isSome) := by
  simp only [LogCapture.entry, Bool.and_eq_true, Bool.not_eq_true', decide_eq_true_eq] at hret
  obtain ⟨⟨⟨-, hbroken⟩, hle⟩, -⟩ := hret
  obtain ⟨⟨hsize, hfile⟩, hwritten⟩ := hp
  obtain ⟨m, hlog, hcontent⟩ := hwritten log.hashed (hfile hbroken hle)
  exact ⟨m, hlog, by rw [hcontent]; rfl, by rw [hcontent]; exact hsize.symm⟩

theorem kept_goOn {log : LogEntry} {done : List OutputEntry} (h : Kept f log done) (rest : List String) :
    RunSound w role f outputs i runId (goOn log done rest) := by
  cases rest with
  | nil => exact h
  | cons name rest => exact ⟨h, trivial⟩

theorem capturing_flush (hn : Named w role f) {log : LogCapture} {fd : Inode} {flushed n : Nat}
    (hp : RunSound w role f outputs i runId (.capturing log fd flushed)) {f' : Files} {p : Phase}
    (h : logStep w f runId (.capturing log fd flushed) (.flush n) = some (f', p)) :
    Goes w role f i (some runId) f' fun role' => RunSound w role' f' outputs i runId p := by
  simp only [logStep] at h
  split at h
  · rename_i written hwritten
    split at h
    · rename_i hn'
      cases h
      obtain ⟨hlog, hle, hcontent⟩ := hp.2 written hwritten
      have hbefore : f.content fd = (written.take n).take flushed := by
        rw [hcontent, List.take_take, Nat.min_eq_left hn'.1]
      have hlength : flushed ≤ (written.take n).length := by
        rw [List.length_take]
        omega
      refine ⟨role, named_setContent hn (by simp [hn.log runId fd hlog]) _, apart_writeLog hn hlog i _, hp.1, ?_⟩
      intro written' hwritten'
      cases hwritten.symm.trans hwritten'
      exact ⟨hlog, hn'.2, pour_content hlength hbefore⟩
    · cases h
  · cases h

theorem capturing_close (hn : Named w role f) {log : LogCapture} {fd : Inode} {flushed : Nat} {ok : Bool}
    (hp : RunSound w role f outputs i runId (.capturing log fd flushed)) {f' : Files} {p : Phase}
    (h : logStep w f runId (.capturing log fd flushed) (.close ok) = some (f', p)) :
    Goes w role f i (some runId) f' fun role' => RunSound w role' f' outputs i runId p := by
  simp only [logStep] at h
  split at h
  · rename_i written hwritten
    obtain ⟨hlog, hle, hcontent⟩ := hp.2 written hwritten
    cases ok with
    | false =>
      cases h
      exact .same hn trivial
    | true =>
      cases h
      refine ⟨role, named_setContent hn (by simp [hn.log runId fd hlog]) _, apart_writeLog hn hlog i _, hp.1, ?_⟩
      intro written' hwritten'
      cases hwritten.symm.trans hwritten'
      exact ⟨fd, hlog, pour_content hle hcontent⟩
  · rename_i hnone
    cases h
    refine .same hn ⟨hp.1, fun written hwritten => ?_⟩
    cases hnone.symm.trans hwritten

/-- A blob under the hash of the log is the log. -/
theorem testingLog_stored (hn : Named w role f) {entry : LogEntry} (hheld : LogHeld w f runId entry)
    (hclash : ∀ bytes ∈ (Phase.testingLog entry).storing? f runId, NoClash w f bytes) {m : Inode}
    (hblob : f.blobs entry.sha256 = some m) : Stored f entry.sha256 entry.size := by
  obtain ⟨log, hlog, hsha, hsize⟩ := hheld
  have hsame : f.content m = f.content log := by
    refine hclash (f.content log) (by simp [Phase.storing?, hlog]) m (by rw [hsha, hblob]) ?_
    rw [(hn.blob _ m hblob).2, hsha]
  exact ⟨m, hblob, by rw [hsame, hsize]⟩

/-- One operation on the log: it may write to the log of the run's own id while the run still has one. -/
theorem logStep_sound (hn : Named w role f) {p p' : Phase} (hp : RunSound w role f outputs i runId p) {e : RunEvent}
    {f' : Files} (hclash : ∀ bytes ∈ p.storing? f runId, NoClash w f bytes)
    (h : logStep w f runId p e = some (f', p')) :
    Goes w role f i (if p.logOpen then some runId else none) f' fun role' => RunSound w role' f' outputs i runId p' := by
  cases p with
  | capturing log fd flushed =>
    cases e with
    | frame disk fileno chunk => exact capturing_frame hn hp h
    | flush n => exact capturing_flush hn hp h
    | close ok => exact capturing_close hn hp h
    | _ => simp [logStep] at h
  | closed log =>
    cases e with
    | testLog =>
      cases h
      refine .same hn ?_
      split
      · rename_i hret
        exact closed_entry hp hret
      · rename_i hret
        exact fun hret' => absurd hret' hret
    | _ => simp [logStep] at h
  | testingLog entry =>
    cases e with
    | testLogBlob =>
      cases h
      refine .same hn ?_
      split
      · rename_i hsome
        obtain ⟨m, hblob⟩ := Option.isSome_iff_exists.mp hsome
        exact fun _ => testingLog_stored hn hp hclash hblob
      · exact hp
    | _ => simp [logStep] at h
  | droppingLog entry =>
    cases e with
    | dropLog ok =>
      cases h
      cases ok with
      | false => exact .same hn hp
      | true => exact ⟨role, named_unlinkLog hn runId, apart_unlinkLog i role f runId, hp⟩
    | _ => simp [logStep] at h
  | movingLog entry =>
    cases e with
    | moveLog ok =>
      simp only [logStep] at h
      split at h
      · rename_i m hlog
        cases h
        obtain ⟨m', hlog', hsha, hsize⟩ := hp
        cases hlog.symm.trans hlog'
        obtain ⟨hnamed, hapart⟩ := move_sound hn hlog i
        exact ⟨_, hnamed, hapart, Function.update_self _ _ _, hsha, hsize⟩
      · cases h
        exact .same hn trivial
    | _ => simp [logStep] at h
  | placingLog entry tmp =>
    cases e with
    | placeLog ok =>
      obtain ⟨hrole, hsha, hsize⟩ := hp
      cases ok with
      | false =>
        cases h
        exact .same hn trivial
      | true =>
        cases h
        have hsame : ∀ m, f.blobs entry.sha256 = some m → f.content m = f.content tmp := by
          intro m hblob
          refine hclash (f.content tmp) rfl m (by rw [hsha, hblob]) ?_
          rw [(hn.blob _ m hblob).2, hsha]
        obtain ⟨hnamed, hapart⟩ := replace_sound hn hrole hsha hsame
        exact ⟨_, hnamed, hapart, fun _ => ⟨tmp, Function.update_self _ _ _, hsize⟩⟩
    | _ => simp [logStep] at h
  | listing entry =>
    cases e with
    | list names =>
      cases h
      exact .same hn (kept_goOn ⟨hp, by simp⟩ names)
    | _ => simp [logStep] at h
  | _ => simp [logStep] at h

/-! ### The outputs -/

def NextSound (role : Inode → Role) (f : Files) (outputs : Outputs) (i : Nat) (name : String) : Next → Prop
  | .stays copy => CopySound role f outputs i name copy
  | .ends entry => OutputKept f entry

theorem not_retained {entry : OutputEntry} (h : entry.retained = false) : OutputKept f entry := by
  intro hret
  rw [h] at hret
  cases hret

/-- What was read up to a point, and the next piece. -/
theorem take_append_piece (bytes : Bytes) (k n : Nat) :
    bytes.take k ++ (bytes.drop k).take n = bytes.take (k + ((bytes.drop k).take n).length) := by
  have hpiece : (bytes.drop k).take n = (bytes.drop k).take ((bytes.drop k).take n).length := by
    rw [List.take_eq_take_iff, List.length_take]
    omega
  rw [List.take_add, ← hpiece]

/-- The pass that hashes a file. -/
theorem hashing_read (hn : Named w role f) {name : String} {src : Inode} {seen : Bytes}
    (hcopy : CopySound role f outputs i name (.hashing src seen)) {ok : Bool} {n : Nat} {f' : Files} {next : Next}
    (h : copyStep w f outputs name (.hashing src seen) (.read ok n) = some (f', next)) :
    Goes w role f i none f' fun role' => NextSound role' f' outputs i name next := by
  obtain ⟨hinode, htake⟩ := hcopy
  simp only [copyStep] at h
  split at h
  · cases h
    exact .same hn (not_retained rfl)
  · split at h
    · cases h
      refine .same hn ⟨hinode, ?_⟩
      rw [List.length_append, ← take_append_piece, htake]
    · rename_i hend
      have hall : outputs.content src = seen := by
        have hdrop : (outputs.content src).drop seen.length = [] := by
          cases hrest : (outputs.content src).drop seen.length with
          | nil => rfl
          | cons b rest => simp [hrest] at hend
        rw [← List.take_append_drop seen.length (outputs.content src), htake, hdrop, List.append_nil]
      split at h
      · cases h
        exact .same hn ⟨hinode, hall⟩
      · cases h
        exact .same hn (not_retained rfl)

/-- The pass that copies it. -/
theorem copying_copy (hn : Named w role f) {name : String} {src tmp : Inode} {seen : Bytes} {copied : Nat}
    (hcopy : CopySound role f outputs i name (.copying seen src tmp copied)) {ok : Bool} {n : Nat} {f' : Files}
    {next : Next} (h : copyStep w f outputs name (.copying seen src tmp copied) (.copy ok n) = some (f', next)) :
    Goes w role f i none f' fun role' => NextSound role' f' outputs i name next := by
  obtain ⟨hrole, hle, hdrop, htmp⟩ := hcopy
  simp only [copyStep, hdrop] at h
  split at h
  · cases h
    exact .same hn (not_retained rfl)
  · split at h
    · cases h
      refine ⟨role, named_setContent hn (by simp [hrole]) _, apart_writeTemp hn hrole _, hrole, ?_, ?_, ?_⟩
      · rw [List.length_take, List.length_drop]
        omega
      · rw [← List.drop_drop, ← List.drop_drop, hdrop]
      · rw [setContent_self, htmp, take_append_piece]
    · rename_i hend
      cases h
      have hrest : seen.drop copied = [] := by
        cases hseen : seen.drop copied with
        | nil => rfl
        | cons b rest => simp [hseen] at hend
      refine .same hn ⟨hrole, ?_⟩
      rw [htmp, List.take_of_length_le (List.drop_eq_nil_iff.mp hrest)]

/-- One operation on an output file. -/
theorem copyStep_sound (hn : Named w role f) {name : String} {copy : Copy}
    (hcopy : CopySound role f outputs i name copy) {e : RunEvent} {f' : Files} {next : Next}
    {log : LogEntry} {done : List OutputEntry} {rest : List String}
    (hclash : ∀ bytes ∈ (Phase.output log done name rest copy).storing? f runId, NoClash w f bytes)
    (h : copyStep w f outputs name copy e = some (f', next)) :
    Goes w role f i none f' fun role' => NextSound role' f' outputs i name next := by
  cases copy with
  | resolving =>
    cases e with
    | resolve ok =>
      simp only [copyStep] at h
      split at h
      · rename_i src hinode
        cases h
        refine .same hn ?_
        split
        · exact ⟨hinode, rfl⟩
        · exact not_retained rfl
      · cases h
        exact .same hn (not_retained rfl)
      · cases h
    | _ => simp [copyStep] at h
  | hashing src seen =>
    cases e with
    | read ok n => exact hashing_read hn hcopy h
    | _ => simp [copyStep] at h
  | testing src seen =>
    cases e with
    | testBlob =>
      cases h
      refine .same hn ?_
      split
      · rename_i hsome
        obtain ⟨m, hblob⟩ := Option.isSome_iff_exists.mp hsome
        have hsame := hclash seen rfl m hblob (hn.blob _ m hblob).2
        exact fun _ => ⟨_, _, rfl, rfl, m, hblob, by rw [hsame]⟩
      · exact hcopy
    | _ => simp [copyStep] at h
  | opening src seen =>
    obtain ⟨hinode, hall⟩ := hcopy
    cases e with
    | openCopy ok =>
      simp only [copyStep, hinode] at h
      split at h
      · cases h
        refine ⟨_, named_create hn (.temp i) (by simp), apart_create hn _, Function.update_self _ _ _, Nat.zero_le _, ?_,
          setContent_self _ _ _⟩
        rw [hall]
      · cases h
        exact .same hn (not_retained rfl)
    | _ => simp [copyStep] at h
  | copying seen src tmp copied =>
    cases e with
    | copy ok n => exact copying_copy hn hcopy h
    | _ => simp [copyStep] at h
  | placing seen tmp =>
    obtain ⟨hrole, htmp⟩ := hcopy
    cases e with
    | place ok =>
      cases ok with
      | false =>
        cases h
        exact .same hn (not_retained rfl)
      | true =>
        cases h
        have hsame : ∀ m, f.blobs (w.sha256 seen) = some m → f.content m = f.content tmp := by
          intro m hblob
          rw [htmp]
          exact hclash seen rfl m hblob (hn.blob _ m hblob).2
        obtain ⟨hnamed, hapart⟩ := replace_sound hn hrole (by rw [htmp]) hsame
        refine ⟨_, hnamed, hapart, fun _ => ⟨_, _, rfl, rfl, tmp, Function.update_self _ _ _, ?_⟩⟩
        exact congrArg List.length htmp
    | _ => simp [copyStep] at h

/-! ### Steps -/

theorem next_sound {log : LogEntry} {done : List OutputEntry} {name : String} {rest : List String} {next : Next}
    (hkept : Kept f log done) (h : NextSound role f outputs i name next) :
    RunSound w role f outputs i runId (next.phase log done name rest) := by
  cases next with
  | stays copy => exact ⟨hkept, h⟩
  | ends entry =>
    refine kept_goOn ⟨hkept.1, fun entry' hentry => ?_⟩ rest
    rcases List.mem_append.mp hentry with hbefore | hlast
    · exact hkept.2 entry' hbefore
    · obtain rfl := List.mem_singleton.mp hlast
      exact h

theorem runStep_sound (hn : Named w role f) {r : Run} {p : Phase} (hp : RunSound w role f outputs i r.runId r.phase)
    {e : RunEvent} {f' : Files} (hclash : ∀ bytes ∈ r.phase.storing? f r.runId, NoClash w f bytes)
    (h : runStep w f outputs r e = some (f', p)) :
    Goes w role f i (if r.phase.logOpen then some r.runId else none) f' fun role' =>
      RunSound w role' f' outputs i r.runId p := by
  unfold runStep at h
  split at h
  · rename_i log done name rest copy hphase
    obtain ⟨⟨f₁, next⟩, hcopy, heq⟩ := Option.map_eq_some_iff.mp h
    cases heq
    rw [hphase] at hp hclash ⊢
    obtain ⟨role', hnamed, hapart, hnext⟩ := copyStep_sound hn hp.2 hclash hcopy
    exact ⟨role', hnamed, hapart, next_sound (hp.1.mono hapart.stored) hnext⟩
  · exact logStep_sound hn hp hclash h

theorem goOn_logOpen (log : LogEntry) (done : List OutputEntry) (rest : List String) :
    (goOn log done rest).logOpen = false := by
  cases rest <;> rfl

/-- A run does not come back to its log. -/
theorem runStep_logOpen {r : Run} {p : Phase} {e : RunEvent} {f' : Files}
    (h : runStep w f outputs r e = some (f', p)) (hp : p.logOpen = true) : r.phase.logOpen = true := by
  unfold runStep at h
  split at h
  · obtain ⟨⟨f₁, next⟩, -, heq⟩ := Option.map_eq_some_iff.mp h
    cases heq
    cases next with
    | stays copy => cases hp
    | ends entry =>
      rw [Next.phase, goOn_logOpen] at hp
      cases hp
  · cases hphase : r.phase with
    | placingLog entry tmp =>
      rw [hphase] at h
      cases e with
      | placeLog ok => cases ok <;> cases h <;> cases hp
      | _ => simp [logStep] at h
    | listing entry =>
      rw [hphase] at h
      cases e with
      | list names =>
        cases h
        rw [goOn_logOpen] at hp
        cases hp
      | _ => simp [logStep] at h
    | output log done name rest copy =>
      rw [hphase] at h
      simp [logStep] at h
    | assembled log outputs =>
      rw [hphase] at h
      simp [logStep] at h
    | finished =>
      rw [hphase] at h
      simp [logStep] at h
    | _ => rfl

/-- The log of a new run is empty, and its own. -/
theorem openLog_sound (hn : Named w role f) (i : Nat) (runId : RunId) :
    Goes w role f i (some runId) (f.openLog runId).1 fun _ =>
      (f.openLog runId).1.logs runId = some (f.openLog runId).2 ∧
        (f.openLog runId).1.content (f.openLog runId).2 = [] := by
  unfold Files.openLog
  split
  · rename_i m hlog
    exact ⟨role, named_setContent hn (by simp [hn.log runId m hlog]) _, apart_writeLog hn hlog i _, hlog,
      setContent_self _ _ _⟩
  · have hcreate := named_create hn (.log runId) (by simp)
    have hapart : Apart i (some runId) role (Function.update role f.next (.log runId)) f f.create.1 := apart_create hn _
    refine ⟨Function.update role f.next (.log runId), ⟨hcreate.free, hcreate.blob, fun id m hlog => ?_⟩,
      ⟨hapart.kept, fun id hid => ?_, hapart.stored⟩, Function.update_self _ _ _, setContent_self _ _ _⟩
    · dsimp only at hlog
      by_cases hid : id = runId
      · subst hid
        rw [Function.update_self] at hlog
        cases hlog
        exact Function.update_self _ _ _
      · rw [Function.update_of_ne hid] at hlog
        exact hcreate.log id m hlog
    · refine Function.update_of_ne ?_ _ _
      rintro rfl
      exact hid rfl

end

structure Sound (w : World) (role : Inode → Role) (s : Bench) : Prop where
  named : Named w role s.files
  run : ∀ i r, s.runs i = some r → RunSound w role s.files s.outputs i r.runId r.phase
  /-- Runs that still have their logs have different ids. -/
  distinct : ∀ i j r r', s.runs i = some r → s.runs j = some r' → r.phase.logOpen = true → r'.phase.logOpen = true →
    r.runId = r'.runId → i = j
  final : ∀ p ∈ s.final, Kept s.files p.1 p.2

/-- A step of one run, or the begin of one. -/
theorem sound_update {role : Inode → Role} {s : Bench} {i : Nat} {own : Option RunId} {f' : Files} {r : Run}
    (h : Sound w role s)
    (hgoes : Goes w role s.files i own f' fun role' => RunSound w role' f' s.outputs i r.runId r.phase)
    (hown : ∀ j r', s.runs j = some r' → j ≠ i → r'.phase.logOpen = true → r'.runId ∉ own)
    (hdistinct : r.phase.logOpen = true → ∀ j r', s.runs j = some r' → j ≠ i → r'.phase.logOpen = true →
      r.runId ≠ r'.runId) :
    ∃ role', Sound w role' { s with files := f', runs := Function.update s.runs i (some r) } := by
  obtain ⟨role', hnamed, hapart, hrun⟩ := hgoes
  refine ⟨role', hnamed, fun j r' hr' => ?_, fun j k r₁ r₂ h₁ h₂ hopen₁ hopen₂ hid => ?_, fun p hp => ?_⟩
  · dsimp only at hr'
    by_cases hj : j = i
    · subst hj
      rw [Function.update_self] at hr'
      cases hr'
      exact hrun
    · rw [Function.update_of_ne hj] at hr'
      exact hapart.runSound h.named hj (hown j r' hr' hj) (h.run j r' hr')
  · dsimp only at h₁ h₂
    by_cases hj : j = i <;> by_cases hk : k = i
    · rw [hj, hk]
    · subst hj
      rw [Function.update_self] at h₁
      cases h₁
      rw [Function.update_of_ne hk] at h₂
      exact absurd hid (hdistinct hopen₁ k r₂ h₂ hk hopen₂)
    · subst hk
      rw [Function.update_self] at h₂
      cases h₂
      rw [Function.update_of_ne hj] at h₁
      exact absurd hid.symm (hdistinct hopen₂ j r₁ h₁ hj hopen₁)
    · rw [Function.update_of_ne hj] at h₁
      rw [Function.update_of_ne hk] at h₂
      exact h.distinct j k r₁ r₂ h₁ h₂ hopen₁ hopen₂ hid
  · exact (h.final p hp).mono hapart.stored

theorem begin_sound {role : Inode → Role} {s s' : Bench} {i : Nat} {runId : RunId} (h : Sound w role s)
    (hok : Undisturbed w s (.begin i runId)) (hstep : step w s (.begin i runId) = some s') : ∃ role', Sound w role' s' := by
  simp only [step, Option.ite_none_right_eq_some] at hstep
  obtain ⟨-, heq⟩ := hstep
  cases heq
  have hfaithful : Faithful w.blobMax (.init true) := ⟨rfl, fun _ _ => rfl⟩
  obtain ⟨role', hnamed, hapart, hlog, hcontent⟩ := openLog_sound h.named i runId
  have hgoes : Goes w role s.files i (some runId) (s.files.openLog runId).1 fun role' => RunSound w role'
      (s.files.openLog runId).1 s.outputs i runId (.capturing (.init true) (s.files.openLog runId).2 0) := by
    refine ⟨role', hnamed, hapart, hfaithful, fun written hwritten => ?_⟩
    cases hwritten
    exact ⟨hlog, Nat.le_refl _, hcontent⟩
  refine sound_update h hgoes ?_ ?_
  · rintro j r' hr' - hopen ⟨⟩
    exact hok j r' hr' hopen rfl
  · intro _ j r' hr' _ hopen heq
    exact hok j r' hr' hopen heq.symm

theorem run_sound {role : Inode → Role} {s s' : Bench} {i : Nat} {e : RunEvent} (h : Sound w role s)
    (hok : Undisturbed w s (.run i e)) (hstep : step w s (.run i e) = some s') : ∃ role', Sound w role' s' := by
  simp only [step] at hstep
  split at hstep
  · rename_i r hr
    obtain ⟨⟨f', p⟩, hrun, heq⟩ := Option.map_eq_some_iff.mp hstep
    cases heq
    refine sound_update h (runStep_sound h.named (h.run i r hr) (hok r hr) hrun) ?_ ?_
    · intro j r' hr' hj hopen' hown
      split at hown
      · rename_i hopen
        exact hj (h.distinct i j r r' hr hr' hopen hopen' (Option.some.inj hown)).symm
      · cases hown
    · intro hopen j r' hr' hj hopen' hid
      exact hj (h.distinct i j r r' hr hr' (runStep_logOpen hrun hopen) hopen' hid).symm
  · cases hstep

theorem sound_step {s s' : Bench} {e : Event} (h : ∃ role, Sound w role s) (hok : Undisturbed w s e)
    (hstep : step w s e = some s') : ∃ role, Sound w role s' := by
  obtain ⟨role, h⟩ := h
  cases e with
  | begin i runId => exact begin_sound h hok hstep
  | run i e => exact run_sound h hok hstep
  | publish i ok =>
    simp only [step] at hstep
    split at hstep
    · rename_i runId log outputs hr
      cases hstep
      have hkept : Kept s.files log outputs := h.run i _ hr
      have hgoes : Goes w role s.files i none s.files fun role' => RunSound w role' s.files s.outputs i runId .finished :=
        .same h.named trivial
      obtain ⟨role', hfinished⟩ := sound_update (r := ⟨runId, .finished⟩) h hgoes (fun _ _ _ _ _ => by simp) nofun
      refine ⟨role', hfinished.named, hfinished.run, hfinished.distinct, fun p hp => ?_⟩
      dsimp only at hp
      split at hp
      · rcases List.mem_cons.mp hp with rfl | hbefore
        · exact hkept
        · exact h.final p hbefore
      · exact h.final p hp
    · cases hstep
  | scripts outputs =>
    cases hstep
    exact ⟨role, h.named, fun i r hr => (hok i r hr).sound (h.run i r hr), h.distinct, h.final⟩
  | crash =>
    cases hstep
    refine ⟨role, h.named, fun i r hr => ?_, fun i j r r' hr => ?_, h.final⟩
    · cases hr
    · cases hr

/-- **Retained bytes match their hash, when nobody else writes to them.** In every run of any number of runs that
capture and finalize at once, with the scripts' processes changing their files in between: every blob has the
content that its name is the hash of, and every log and output that a final record says is retained has a blob
under its hash, of its size; as long as no output file is changed between the pass that hashes it and the one that
copies it, and no run begins under the id of one whose log is not stored yet. -/
theorem retained_bytes_match {outputs : Outputs} {es : List Event} {s : Bench}
    (hrun : Lib.run (step w) (.start outputs) es = some s)
    (hok : Lib.Along (step w) (Undisturbed w) (.start outputs) es) :
    (∀ h m, s.files.blobs h = some m → w.sha256 (s.files.content m) = h) ∧
      ∀ p ∈ s.final, Kept s.files p.1 p.2 := by
  have hstart : ∃ role, Sound w role (.start outputs) := by
    refine ⟨fun _ => .free, ⟨fun _ _ => rfl, fun _ _ h => ?_, fun _ _ h => ?_⟩, fun _ _ h => ?_, fun _ _ _ _ h => ?_,
      fun _ h => ?_⟩
    all_goals cases h
  obtain ⟨role, hs⟩ := Lib.run_invariant (fun s => ∃ role, Sound w role s)
    (fun _ _ _ hok h hstep => sound_step h hok hstep) hok hstart hrun
  exact ⟨fun h m hblob => (hs.named.blob h m hblob).2, hs.final⟩

/-- One output file with these bytes. -/
def oneOutput (bytes : Bytes) : Outputs := ⟨fun name => if name = "a" then some 0 else none, fun _ => bytes⟩

/-- `finalize` of a run with one line of output and one output file, up to the end of its hash. -/
def hashed : List Event :=
  [.frame .ok 1 [104, 105], .flush 3, .close true, .testLog, .testLogBlob, .moveLog true, .placeLog true, .list ["a"],
    .resolve true, .read true 7, .read true 7].map (.run 0)

/-- The rest of it. -/
def copied : List Event :=
  [.testBlob, .openCopy true, .copy true 7, .copy true 7, .place true].map (.run 0) ++ [.publish 0 true]

/-- Only the runs go on, and what they find among the blobs are their own bytes. -/
def Calm (w : World) (s : Bench) : Event → Prop
  | .run i _ => ∀ r ∈ s.runs i, ∀ bytes ∈ r.phase.storing? s.files r.runId, ∀ m ∈ s.files.blobs (w.sha256 bytes),
      s.files.content m = bytes
  | .publish .. => True
  | _ => False

instance (w : World) (s : Bench) : ∀ e, Decidable (Calm w s e)
  | .run i _ => inferInstanceAs (Decidable (∀ r ∈ s.runs i, ∀ bytes ∈ r.phase.storing? s.files r.runId,
      ∀ m ∈ s.files.blobs (w.sha256 bytes), s.files.content m = bytes))
  | .publish .. => .isTrue trivial
  | .begin .. | .scripts _ | .crash => .isFalse id

theorem Calm.undisturbed {s : Bench} {e : Event} (h : Calm w s e) : Undisturbed w s e := by
  cases e with
  | run i e => exact fun r hr bytes hbytes m hm _ => h r hr bytes hbytes m hm
  | publish i ok => trivial
  | _ => exact h.elim

theorem retained_bytes_match_alone :
    ∃ s, Lib.run (step sampleWorld) (.start (oneOutput [65])) (.begin 0 "r0" :: (hashed ++ copied)) = some s ∧
      s.final.map (fun p => (p.1.retained, p.2.map (·.retained))) = [(true, [true])] ∧
      ∀ p ∈ s.final, Kept s.files p.1 p.2 := by
  have hrun : (Lib.run (step sampleWorld) (.start (oneOutput [65])) (.begin 0 "r0" :: (hashed ++ copied))).map
      (fun s => s.final.map (fun p => (p.1.retained, p.2.map (·.retained)))) = some [(true, [true])] := by
    decide +kernel
  obtain ⟨s, hs, hfinal⟩ := Option.map_eq_some_iff.mp hrun
  refine ⟨s, hs, hfinal, (retained_bytes_match hs ?_).2⟩
  refine ⟨fun j r hr => ?_, fun s₁ hs₁ => ?_⟩
  · cases hr
  · cases hs₁
    exact Lib.Along.imp (fun _ _ => Calm.undisturbed) (by decide +kernel)

/-- A process that the script left behind writes to the file between the two passes. -/
theorem other_bytes_stored :
    ∃ s, Lib.run (step sampleWorld) (.start (oneOutput [65]))
        (.begin 0 "r0" :: (hashed ++ .scripts (oneOutput [66]) :: copied)) = some s ∧
      ∃ h m, s.files.blobs h = some m ∧ sampleWorld.sha256 (s.files.content m) ≠ h := by
  have hrun : (Lib.run (step sampleWorld) (.start (oneOutput [65]))
      (.begin 0 "r0" :: (hashed ++ .scripts (oneOutput [66]) :: copied))).map
        (fun s => (s.files.blobs (sampleWorld.sha256 [65])).map s.files.content) = some (some [66]) := by
    decide +kernel
  obtain ⟨s, hs, hblob⟩ := Option.map_eq_some_iff.mp hrun
  obtain ⟨m, hm, hcontent⟩ := Option.map_eq_some_iff.mp hblob
  refine ⟨s, hs, _, m, hm, ?_⟩
  rw [hcontent]
  decide +kernel

end Lager.RunRecord.Retention
