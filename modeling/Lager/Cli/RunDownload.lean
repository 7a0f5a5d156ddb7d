import Lager.Lib.Assoc
import Lager.Py.Number
import Lager.Py.Path

/-!
# Downloading a run

`_download_run` of `cli/commands/development/python.py`, with `run_folder`, `local_path`, `save` and `check` of
`cli/run_record.py`. The run's id in the record names the folder, is the marker that cuts the box's paths, and names the
record's own file; nothing looks at it. An output's name is cut into components, and one that climbs is refused, but
the path before the marker is dropped, so that two outputs may end at one place.

Paths are those of POSIX and are taken from the directory the command runs in; links, and names that no file system
takes, are left out. Whether the box sends an output and the disk takes it is given.
-/

namespace Lager.Cli.RunDownload

open Lager.Lib Lager.Py Lager.Py.Path

def RECORD_SUFFIX : Text := ".lager-run.json".toList

/-! ### The record -/

/-- `f"{record.get('runId')}"` for a text and for what is false; the other ids never get as far as a file. -/
def idText : Json → Option Text
  | .str s => some s.toList
  | .null => some "None".toList
  | .bool false => some "False".toList
  | .int 0 => some ['0']
  | .float (.fin 0) => some "0.0".toList
  | .arr [] => some ['[', ']']
  | .obj [] => some ['\x7b', '\x7d']
  | _ => none

/-- `run_folder` -/
def runFolder (record : Dict) (runId : String) : Json := (Dict.get record "runId").orElse (.str runId)

/-- What `split(marker, 1)[1]` gives, when the marker is there. -/
def afterFirst (marker : Text) : Text → Option Text
  | [] => if marker = [] then some [] else none
  | c :: text => if marker.isPrefixOf (c :: text) then some ((c :: text).drop marker.length) else afterFirst marker text

attribute [local instance] lawfulBEq_text in
/-- The components of `local_path`, `none` for a name that is refused. -/
def localParts (runId boxPath : Text) : Option (List Text) :=
  let marker := slash :: runId ++ [slash]
  let relative := (afterFirst marker boxPath).getD (basename boxPath)
  let parts := ((relative.map fun c => if c = '\\' then slash else c).splitOn slash).filter
    fun p => decide (p ≠ [] ∧ p ≠ dot)
  if parts = [] ∨ dotdot ∈ parts then none else some parts

/-- `os.path.join(*parts)` -/
def joinParts : List Text → Text
  | [] => []
  | part :: parts => join part parts

def localPath (runId boxPath : Text) : Option Text := (localParts runId boxPath).map joinParts

-- the equations of `localPath`, for all the lemmas below
section
attribute [local simp] localPath
end

/-- An output with a name and a hash. -/
structure Output where
  name : String
  sha256 : Json
  deriving DecidableEq

/-- An entry of the list: the output it asks for, `none` for one that is left out. -/
def readOutput : Json → Except PyErr (Option Output)
  | .obj entry =>
    if (Dict.get entry "name").truthy = false ∨ Dict.get entry "sha256" = .null then .ok none
    else
      match Dict.get entry "name" with
      | .str name => .ok (some ⟨name, Dict.get entry "sha256"⟩)
      | _ => .error .typeError
  | _ => .error .attributeError

/-! ### The download -/

/-- How writing a file went: it was not opened, it was opened and then something failed, it was written. -/
inductive Stored where
  | missed
  | cut
  | whole
  deriving DecidableEq

/-- What a download has done so far. -/
structure Download where
  /-- How many outputs were asked for. -/
  asked : Nat := 0
  /-- The files that were opened for writing, the record's own with `none`. -/
  written : List (Option Output × Text) := []
  downloaded : List (String × Text) := []
  /-- The files whose hash was compared, and with what. -/
  compared : List (Text × Json) := []
  raised : Bool := false
  deriving DecidableEq

/-- `_download_one`, and what its caller notes. -/
def Download.take (run : Download) (stored : Stored) (output : Output) (file : Text) : Download :=
  match stored with
  | .missed => { run with asked := run.asked + 1 }
  | .cut => { run with asked := run.asked + 1, written := run.written ++ [(some output, file)] }
  | .whole =>
    { run with
      asked := run.asked + 1
      written := run.written ++ [(some output, file)]
      downloaded := assign output.name file run.downloaded }

/-- The loop over the outputs. -/
def fetchOutputs (answer : Nat → Stored) (runId folder : Text) : List Json → Download → Download
  | [], run => run
  | entry :: rest, run =>
    match readOutput entry with
    | .error _ => { run with raised := true }
    | .ok none => fetchOutputs answer runId folder rest run
    | .ok (some output) =>
      match localPath runId output.name.toList with
      | none => fetchOutputs answer runId folder rest run
      | some relative =>
        fetchOutputs answer runId folder rest (run.take (answer run.asked) output (join2 folder relative))

-- the equations of `fetchOutputs`, for all the lemmas below
section
attribute [local simp] fetchOutputs
end

/-- The entry of `by_name`: the last one under the name. -/
def byName (outputs : List Json) (name : String) : Option Dict :=
  outputs.reverse.findSome? fun
    | .obj entry => if Dict.get entry "name" = .str name then some entry else none
    | _ => none

def hashable : Json → Bool
  | .arr _ => false
  | .obj _ => false
  | _ => true

/-- `{o.get('name'): o for o in outputs}` can be built. -/
def keyed (outputs : List Json) : Bool :=
  outputs.all fun
    | .obj entry => hashable (Dict.get entry "name")
    | _ => false

/-- The comparisons of `check`, after that of the log. -/
def check (outputs : List Json) (downloaded : List (String × Text)) : List (Text × Json) :=
  if keyed outputs then
    downloaded.filterMap fun (name, file) =>
      (byName outputs name).bind fun entry =>
        if (Dict.get entry "sha256").truthy then some (file, Dict.get entry "sha256") else none
  else []

/-- `record.get('outputs') or []`, gone over. -/
def outputsOf (record : Dict) : Except PyErr (List Json) := iterate ((Dict.get record "outputs").orElse (.arr []))

/-- `save`, and `check` where the record was saved. -/
def Download.finish (run : Download) (saving : Stored) (file : Text) (record : Dict) : Download :=
  match saving with
  | .missed => run
  | .cut => { run with written := run.written ++ [(none, file)] }
  | .whole =>
    { run with
      written := run.written ++ [(none, file)]
      compared :=
        match outputsOf record with
        | .ok outputs => check outputs run.downloaded
        | .error _ => [] }

/-- The outputs that are downloaded. -/
def wanted (download : Bool) (record : Dict) : Except PyErr (List Json) :=
  if download then outputsOf record else .ok []

/-- `_download_run`, after the record was fetched. -/
def downloadRun (answer : Nat → Stored) (saving : Stored) (download : Bool) (runId : String) (fetched : Json) :
    Download :=
  match fetched with
  | .null => {}
  | .obj record =>
    match idText (Dict.get record "runId"), runFolder record runId with
    | some id, .str folder =>
      match wanted download record with
      | .ok outputs =>
        let run := fetchOutputs answer id folder.toList outputs {}
        if run.raised then run
        else run.finish saving (join2 folder.toList (id ++ RECORD_SUFFIX)) record
      | .error _ => { raised := true }
    | _, _ => { raised := true }
  | _ => { raised := true }

/-! ### Where the files should be -/

/-- The path is inside the directory of that name in the current directory. -/
def Inside (cwd : List Text) (dir : Text) (path : List Text) : Prop := ∃ more, more ≠ [] ∧ path = cwd ++ dir :: more

/-- The files lie in one folder of the current directory, two outputs never share one, and a file is compared with
the hash of the output it holds. -/
structure Kept (cwd : List Text) (run : Download) : Prop where
  inside : ∃ dir, ∀ w ∈ run.written, Inside cwd dir (reached cwd w.2)
  apart : ∀ v ∈ run.written, ∀ w ∈ run.written, ∀ o p, v.1 = some o → w.1 = some p →
    reached cwd v.2 = reached cwd w.2 → o = p
  own : ∀ c ∈ run.compared, ∀ w ∈ run.written, ∀ o, w.1 = some o → reached cwd w.2 = reached cwd c.1 → c.2 = o.sha256

/-! ### Which records are safe -/

/-- The outputs that are asked for: those before an entry that cannot be read. -/
def listed : List Json → List Output
  | [] => []
  | entry :: rest =>
    match readOutput entry with
    | .error _ => []
    | .ok none => listed rest
    | .ok (some output) => output :: listed rest

def readable (outputs : List Json) : Bool := outputs.all fun entry => (readOutput entry).isOk

-- the equations of `readable`, for all the lemmas below
section
attribute [local simp] readable
end

theorem readable_cons (entry : Json) (outputs : List Json) :
    readable (entry :: outputs) = ((readOutput entry).isOk && readable outputs) := rfl

/-- Where the record's own file is: an id from the root leaves the folder aside. -/
def recordPlace (cwd : List Text) (id folder : Text) : List Text :=
  if isAbs (id ++ RECORD_SUFFIX) then location (id ++ RECORD_SUFFIX)
  else walk true (reached cwd folder) ((id ++ RECORD_SUFFIX).splitOn slash)

-- the equations of `recordPlace`, for all the lemmas below
section
attribute [local simp] recordPlace
end

/-- One directory takes the record and every output, and outputs that differ differ in what is kept of their names. -/
structure Settled (cwd : List Text) (id folder : Text) (outputs : List Json) : Prop where
  place : ∃ dir, (readable outputs = true → Inside cwd dir (recordPlace cwd id folder)) ∧
    ∀ o ∈ listed outputs, ∀ parts, localParts id o.name.toList = some parts →
      Inside cwd dir (reached cwd folder ++ parts)
  apart : ∀ o ∈ listed outputs, ∀ p ∈ listed outputs, ∀ parts, localParts id o.name.toList = some parts →
    localParts id p.name.toList = some parts → o = p

/-- The record is `Settled`, if a file is made for it at all. -/
def Safe (cwd : List Text) (download : Bool) (runId : String) (fetched : Json) : Prop :=
  ∀ record id folder outputs, fetched = .obj record → idText (Dict.get record "runId") = some id →
    runFolder record runId = .str folder → wanted download record = .ok outputs →
      Settled cwd id folder.toList outputs

/-! ### Names -/

theorem localParts_spec {id boxPath : Text} {parts : List Text} (h : localParts id boxPath = some parts) :
    parts ≠ [] ∧ ∀ part ∈ parts, Plain part := by
  unfold localParts at h
  dsimp only at h
  split_ifs at h with hrefused
  obtain rfl := Option.some.inj h
  rw [not_or] at hrefused
  refine ⟨hrefused.1, fun part hpart => ?_⟩
  obtain ⟨hsplit, hkept⟩ := List.mem_filter.mp hpart
  have hname := of_decide_eq_true hkept
  exact ⟨hname.1, hname.2, fun heq => hrefused.2 (heq ▸ hpart), not_mem_of_mem_splitOn hsplit⟩

theorem reached_local (cwd : List Text) (folder : Text) {id boxPath : Text} {parts : List Text}
    (h : localParts id boxPath = some parts) :
    reached cwd (join2 folder (joinParts parts)) = reached cwd folder ++ parts := by
  obtain ⟨hne, hplain⟩ := localParts_spec h
  obtain ⟨part, parts, rfl⟩ := List.exists_cons_of_ne_nil hne
  exact reached_join2_join cwd folder hplain

theorem reached_record (cwd : List Text) (id folder : Text) :
    reached cwd (join2 folder (id ++ RECORD_SUFFIX)) = recordPlace cwd id folder := by
  unfold recordPlace
  split_ifs with habs
  · exact reached_join2_abs cwd folder habs
  · exact reached_join2 cwd folder (Bool.eq_false_iff.mpr habs)

/-! ### What the loop leaves -/

section
variable {id folder : Text} {answer : Nat → Stored} {listing : List Output}

/-- The file of one of the outputs, in its place. -/
def Placed (id folder : Text) (listing : List Output) (output : Output) (file : Text) : Prop :=
  output ∈ listing ∧ ∃ parts, localParts id output.name.toList = some parts ∧ file = join2 folder (joinParts parts)

/-- Everything that was written or noted is an output in its place. -/
structure Traced (id folder : Text) (listing : List Output) (run : Download) : Prop where
  written : ∀ w ∈ run.written, ∃ o, w.1 = some o ∧ Placed id folder listing o w.2
  noted : ∀ kept ∈ run.downloaded, ∃ o, o.name = kept.1 ∧ Placed id folder listing o kept.2
  unchecked : run.compared = []

theorem traced_start : Traced id folder listing {} :=
  ⟨fun _ h => absurd h List.not_mem_nil, fun _ h => absurd h List.not_mem_nil, rfl⟩

@[simp] theorem take_raised (run : Download) (stored : Stored) (output : Output) (file : Text) :
    (run.take stored output file).raised = run.raised := by
  cases stored <;> rfl

theorem traced_take {run : Download} {output : Output} {file : Text} (h : Traced id folder listing run)
    (hplaced : Placed id folder listing output file) (stored : Stored) :
    Traced id folder listing (run.take stored output file) := by
  have hwritten : ∀ w ∈ run.written ++ [(some output, file)], ∃ o, w.1 = some o ∧ Placed id folder listing o w.2 := by
    intro w hw
    rcases List.mem_append.mp hw with hw | hw
    · exact h.written w hw
    · rw [List.mem_singleton.mp hw]
      exact ⟨output, rfl, hplaced⟩
  cases stored with
  | missed => exact ⟨h.written, h.noted, h.unchecked⟩
  | cut => exact ⟨hwritten, h.noted, h.unchecked⟩
  | whole =>
    refine ⟨hwritten, fun kept hkept => ?_, h.unchecked⟩
    rcases mem_assign hkept with rfl | hkept
    · exact ⟨output, rfl, hplaced⟩
    · exact h.noted kept hkept

/-- Induction over the entries. -/
theorem traced_fetchOutputs {outputs : List Json} {run : Download} (h : Traced id folder listing run)
    (hsub : ∀ o ∈ listed outputs, o ∈ listing) :
    Traced id folder listing (fetchOutputs answer id folder outputs run) := by
  induction outputs generalizing run with
  | nil => exact h
  | cons entry outputs ih =>
    rw [fetchOutputs]
    rw [listed] at hsub
    cases hread : readOutput entry with
    | error e => exact ⟨h.written, h.noted, h.unchecked⟩
    | ok output =>
      rw [hread] at hsub
      cases output with
      | none => exact ih h hsub
      | some output =>
        dsimp only
        have hrest := fun o ho => hsub o (List.mem_cons_of_mem output ho)
        rw [localPath]
        cases hparts : localParts id output.name.toList with
        | none => exact ih h hrest
        | some parts =>
          have hplaced : Placed id folder listing output (join2 folder (joinParts parts)) :=
            ⟨hsub output List.mem_cons_self, parts, hparts, rfl⟩
          exact ih (traced_take h hplaced _) hrest

theorem raised_fetchOutputs (outputs : List Json) (run : Download) :
    (fetchOutputs answer id folder outputs run).raised = (run.raised || !readable outputs) := by
  induction outputs generalizing run with
  | nil => simp [fetchOutputs, readable]
  | cons entry outputs ih =>
    rw [fetchOutputs, readable_cons]
    cases hread : readOutput entry with
    | error e => simp [Except.isOk, Except.toBool]
    | ok output =>
      cases output with
      | none => exact ih run
      | some output =>
        dsimp only
        cases localPath id output.name.toList with
        | none => exact ih run
        | some relative =>
          dsimp only
          rw [ih, take_raised]
          rfl

/-- When everything is sent and written, every output is. -/
theorem written_fetchOutputs {outputs : List Json} {run : Download} {w : Option Output × Text}
    (h : w ∈ run.written ∨ ∃ o ∈ listed outputs, ∃ parts, localParts id o.name.toList = some parts ∧
      w = (some o, join2 folder (joinParts parts))) :
    w ∈ (fetchOutputs (fun _ => .whole) id folder outputs run).written := by
  induction outputs generalizing run with
  | nil =>
    rcases h with h | ⟨o, ho, -⟩
    · exact h
    · exact absurd ho List.not_mem_nil
  | cons entry outputs ih =>
    rw [fetchOutputs]
    rw [listed] at h
    cases hread : readOutput entry with
    | error e =>
      rw [hread] at h
      rcases h with h | ⟨o, ho, -⟩
      · exact h
      · exact absurd ho List.not_mem_nil
    | ok output =>
      rw [hread] at h
      cases output with
      | none => exact ih h
      | some output =>
        dsimp only at h ⊢
        rw [localPath]
        rcases h with h | ⟨o, ho, parts, hparts, hw⟩
        · cases localParts id output.name.toList with
          | none => exact ih (Or.inl h)
          | some parts => exact ih (Or.inl (List.mem_append_left _ h))
        · rcases List.mem_cons.mp ho with rfl | ho
          · rw [hparts]
            exact ih (Or.inl (List.mem_append_right _ (List.mem_singleton.mpr hw)))
          · cases localParts id output.name.toList with
            | none => exact ih (Or.inr ⟨o, ho, parts, hparts, hw⟩)
            | some _ => exact ih (Or.inr ⟨o, ho, parts, hparts, hw⟩)

end

/-! ### What is compared -/

theorem listed_spec {outputs : List Json} {o : Output} (h : o ∈ listed outputs) :
    ∃ entry ∈ outputs, readOutput entry = .ok (some o) := by
  induction outputs with
  | nil => exact absurd h List.not_mem_nil
  | cons entry outputs ih =>
    rw [listed] at h
    cases hread : readOutput entry with
    | error e =>
      rw [hread] at h
      exact absurd h List.not_mem_nil
    | ok output =>
      rw [hread] at h
      have hrest (ho : o ∈ listed outputs) : ∃ e ∈ entry :: outputs, readOutput e = .ok (some o) := by
        obtain ⟨e, he, hoe⟩ := ih ho
        exact ⟨e, List.mem_cons_of_mem entry he, hoe⟩
      cases output with
      | none => exact hrest h
      | some output =>
        rcases List.mem_cons.mp h with rfl | h
        · exact ⟨entry, List.mem_cons_self, hread⟩
        · exact hrest h

theorem mem_listed {outputs : List Json} (hreadable : readable outputs = true) {entry : Json} {o : Output}
    (h : entry ∈ outputs) (hread : readOutput entry = .ok (some o)) : o ∈ listed outputs := by
  induction outputs with
  | nil => exact absurd h List.not_mem_nil
  | cons other outputs ih =>
    rw [readable_cons, Bool.and_eq_true] at hreadable
    obtain ⟨hother, hrest⟩ := hreadable
    rw [listed]
    rcases List.mem_cons.mp h with rfl | h
    · rw [hread]
      exact List.mem_cons_self
    · cases hread' : readOutput other with
      | error e =>
        rw [hread'] at hother
        cases hother
      | ok output =>
        cases output with
        | none => exact ih hrest h
        | some output => exact List.mem_cons_of_mem output (ih hrest h)

/-- An output has a name that is not empty and a hash, and any entry with this name and a hash is an output. -/
theorem readOutput_name {entry : Json} {o : Output} (h : readOutput entry = .ok (some o)) : o.name ≠ "" := by
  cases entry with
  | obj entry =>
    rw [readOutput] at h
    split_ifs at h with hskip
    · cases h
    · rw [not_or] at hskip
      split at h
      · rename_i name hname
        obtain rfl := Option.some.inj (Except.ok.inj h)
        rw [hname, Bool.not_eq_false] at hskip
        simpa [Json.truthy] using hskip.1
      · cases h
  | null => cases h
  | bool b => cases h
  | int n => cases h
  | float x => cases h
  | str s => cases h
  | arr xs => cases h

theorem readOutput_obj {entry : Dict} {name : String} (hname : Dict.get entry "name" = .str name) (hne : name ≠ "")
    (hhash : Dict.get entry "sha256" ≠ .null) :
    readOutput (.obj entry) = .ok (some ⟨name, Dict.get entry "sha256"⟩) := by
  have htruthy : Json.truthy (.str name) = true := by simpa [Json.truthy] using hne
  rw [readOutput, hname, if_neg (not_or.mpr ⟨by rw [htruthy]; decide, hhash⟩)]

theorem byName_spec {outputs : List Json} {name : String} {entry : Dict} (h : byName outputs name = some entry) :
    .obj entry ∈ outputs ∧ Dict.get entry "name" = .str name := by
  obtain ⟨found, hfound, hentry⟩ := List.exists_of_findSome?_eq_some h
  rw [List.mem_reverse] at hfound
  cases found with
  | obj other =>
    dsimp only at hentry
    split_ifs at hentry with hname
    obtain rfl := Option.some.inj hentry
    exact ⟨hfound, hname⟩
  | null => cases hentry
  | bool b => cases hentry
  | int n => cases hentry
  | float x => cases hentry
  | str s => cases hentry
  | arr xs => cases hentry

theorem mem_check {outputs : List Json} {downloaded : List (String × Text)} {c : Text × Json}
    (h : c ∈ check outputs downloaded) :
    ∃ name entry, (name, c.1) ∈ downloaded ∧ byName outputs name = some entry ∧
      (Dict.get entry "sha256").truthy = true ∧ c.2 = Dict.get entry "sha256" := by
  unfold check at h
  split_ifs at h
  · obtain ⟨⟨name, file⟩, hmem, hfound⟩ := List.mem_filterMap.mp h
    obtain ⟨entry, hentry, hhash⟩ := Option.bind_eq_some_iff.mp hfound
    split_ifs at hhash with htruthy
    obtain rfl := Option.some.inj hhash
    exact ⟨name, entry, hmem, hentry, htruthy, rfl⟩
  · exact absurd h List.not_mem_nil

/-! ### One record -/

section
variable {cwd : List Text} {id folder : Text} {outputs : List Json} {run : Download}

theorem same_output (h : Settled cwd id folder outputs) {o p : Output} {f g : Text}
    (ho : Placed id folder (listed outputs) o f) (hp : Placed id folder (listed outputs) p g)
    (heq : reached cwd f = reached cwd g) : o = p := by
  obtain ⟨ho, parts, hparts, rfl⟩ := ho
  obtain ⟨hp, others, hothers, rfl⟩ := hp
  rw [reached_local cwd folder hparts, reached_local cwd folder hothers] at heq
  obtain rfl := List.append_cancel_left heq
  exact h.apart o ho p hp parts hparts hothers

theorem mem_finish {saving : Stored} {file : Text} {record : Dict} {w : Option Output × Text}
    (h : w ∈ (run.finish saving file record).written) : w ∈ run.written ∨ w = (none, file) := by
  cases saving with
  | missed => exact Or.inl h
  | cut => exact (List.mem_append.mp h).imp (fun h => h) List.mem_singleton.mp
  | whole => exact (List.mem_append.mp h).imp (fun h => h) List.mem_singleton.mp

theorem compared_finish (hrun : run.compared = []) {saving : Stored} {file : Text} {record : Dict} {c : Text × Json}
    (h : c ∈ (run.finish saving file record).compared) :
    ∃ outputs, outputsOf record = .ok outputs ∧ c ∈ check outputs run.downloaded := by
  have hnone : c ∉ run.compared := by
    rw [hrun]
    exact List.not_mem_nil
  cases saving with
  | missed => exact absurd h hnone
  | cut => exact absurd h hnone
  | whole =>
    unfold Download.finish at h
    dsimp only at h
    split at h
    · exact ⟨_, ‹_›, h⟩
    · exact absurd h List.not_mem_nil

theorem kept_of_traced (h : Settled cwd id folder outputs) (htraced : Traced id folder (listed outputs) run) :
    Kept cwd run := by
  obtain ⟨dir, -, hplace⟩ := h.place
  refine ⟨⟨dir, fun w hw => ?_⟩, fun v hv w hw o p ho hp heq => ?_, fun c hc => ?_⟩
  · obtain ⟨o, -, ho, parts, hparts, hfile⟩ := htraced.written w hw
    rw [hfile, reached_local cwd folder hparts]
    exact hplace o ho parts hparts
  · obtain ⟨o', ho', hplaced⟩ := htraced.written v hv
    obtain ⟨p', hp', hplaced'⟩ := htraced.written w hw
    obtain rfl := Option.some.inj (ho'.symm.trans ho)
    obtain rfl := Option.some.inj (hp'.symm.trans hp)
    exact same_output h hplaced hplaced' heq
  · rw [htraced.unchecked] at hc
    exact absurd hc List.not_mem_nil

/-- A file that is compared holds the output whose hash it is compared with. -/
theorem compared_own (h : Settled cwd id folder outputs) (htraced : Traced id folder (listed outputs) run)
    (hreadable : readable outputs = true) {c : Text × Json} (hc : c ∈ check outputs run.downloaded) {o : Output}
    {file : Text} (ho : Placed id folder (listed outputs) o file) (heq : reached cwd file = reached cwd c.1) :
    c.2 = o.sha256 := by
  obtain ⟨name, entry, hmem, hentry, htruthy, hhash⟩ := mem_check hc
  obtain ⟨p, hname, hplaced⟩ := htraced.noted _ hmem
  obtain rfl := same_output h ho hplaced heq
  obtain ⟨ho, parts, hparts, -⟩ := ho
  obtain ⟨found, hfound, hread⟩ := listed_spec ho
  obtain ⟨hin, hkey⟩ := byName_spec hentry
  have hne : Dict.get entry "sha256" ≠ .null := by
    intro hnull
    rw [hnull] at htruthy
    cases htruthy
  have hnamed : name ≠ "" := by
    have hname' := readOutput_name hread
    rw [hname] at hname'
    exact hname'
  have hlisted := mem_listed hreadable hin (readOutput_obj hkey hnamed hne)
  have hparts' : localParts id name.toList = some parts := by
    rw [← hparts, hname]
  rw [hhash, h.apart o ho _ hlisted parts hparts hparts']

theorem kept_finish (h : Settled cwd id folder outputs) (htraced : Traced id folder (listed outputs) run)
    (hreadable : readable outputs = true) {record : Dict} (saving : Stored)
    (hnoted : outputsOf record = .ok outputs ∨ run.downloaded = []) :
    Kept cwd (run.finish saving (join2 folder (id ++ RECORD_SUFFIX)) record) := by
  have hkept := kept_of_traced h htraced
  obtain ⟨dir, hrecord, hplace⟩ := h.place
  refine ⟨⟨dir, fun w hw => ?_⟩, fun v hv w hw o p ho hp heq => ?_, fun c hc w hw o ho heq => ?_⟩
  · rcases mem_finish hw with hw | rfl
    · obtain ⟨o, -, ho, parts, hparts, hfile⟩ := htraced.written w hw
      rw [hfile, reached_local cwd folder hparts]
      exact hplace o ho parts hparts
    · rw [reached_record]
      exact hrecord hreadable
  · rcases mem_finish hv with hv | rfl
    · rcases mem_finish hw with hw | rfl
      · exact hkept.apart v hv w hw o p ho hp heq
      · cases hp
    · cases ho
  · obtain ⟨all, hall, hcheck⟩ := compared_finish htraced.unchecked hc
    rcases hnoted with hsame | hnone
    · obtain rfl := Except.ok.inj (hall.symm.trans hsame)
      rcases mem_finish hw with hw | rfl
      · obtain ⟨o', ho', hplaced⟩ := htraced.written w hw
        obtain rfl := Option.some.inj (ho'.symm.trans ho)
        exact compared_own h htraced hreadable hcheck hplaced heq
      · cases ho
    · obtain ⟨name, entry, hmem, -⟩ := mem_check hcheck
      rw [hnone] at hmem
      exact absurd hmem List.not_mem_nil

/-- When everything is written, the places tell whether the record is settled. -/
theorem settled_of_kept {record : Dict}
    (h : Kept cwd (
      let run := fetchOutputs (fun _ => .whole) id folder outputs {}
      if run.raised then run else run.finish .whole (join2 folder (id ++ RECORD_SUFFIX)) record)) :
    Settled cwd id folder outputs := by
  have hraised := @raised_fetchOutputs id folder (fun _ => .whole) outputs {}
  rw [Bool.false_or] at hraised
  dsimp only at h
  have hwritten : ∀ o ∈ listed outputs, ∀ parts, localParts id o.name.toList = some parts →
      (some o, join2 folder (joinParts parts)) ∈ (
        if (fetchOutputs (fun _ => .whole) id folder outputs {}).raised then
          fetchOutputs (fun _ => .whole) id folder outputs {}
        else (fetchOutputs (fun _ => .whole) id folder outputs {}).finish .whole
          (join2 folder (id ++ RECORD_SUFFIX)) record).written := by
    intro o ho parts hparts
    have hmem := @written_fetchOutputs id folder outputs {} _ (Or.inr ⟨o, ho, parts, hparts, rfl⟩)
    split_ifs
    · exact hmem
    · exact List.mem_append_left _ hmem
  refine ⟨?_, fun o ho p hp parts hparts hparts' => ?_⟩
  · obtain ⟨dir, hinside⟩ := h.inside
    refine ⟨dir, fun hreadable => ?_, fun o ho parts hparts => ?_⟩
    · rw [← reached_record]
      apply hinside (none, join2 folder (id ++ RECORD_SUFFIX))
      rw [hraised, hreadable]
      exact List.mem_append_right _ (List.mem_singleton.mpr rfl)
    · rw [← reached_local cwd folder hparts]
      exact hinside _ (hwritten o ho parts hparts)
  · exact h.apart _ (hwritten o ho parts hparts) _ (hwritten p hp parts hparts') o p rfl rfl rfl

end

/-! ### Every record -/

/-- A record for which a file may be made, and what the files are named after. -/
structure Named (download : Bool) (runId : String) (record : Dict) (id : Text) (folder : String)
    (outputs : List Json) : Prop where
  id : idText (Dict.get record "runId") = some id
  folder : runFolder record runId = .str folder
  outputs : wanted download record = .ok outputs

theorem downloadRun_named {answer : Nat → Stored} {saving : Stored} {download : Bool} {runId folder : String}
    {record : Dict} {id : Text} {outputs : List Json} (h : Named download runId record id folder outputs) :
    downloadRun answer saving download runId (.obj record) =
      let run := fetchOutputs answer id folder.toList outputs {}
      if run.raised then run else run.finish saving (join2 folder.toList (id ++ RECORD_SUFFIX)) record := by
  unfold downloadRun
  dsimp only
  rw [h.id, h.folder]
  dsimp only
  rw [h.outputs]

/-- Otherwise nothing is written. -/
theorem downloadRun_nothing {answer : Nat → Stored} {saving : Stored} {download : Bool} {runId : String}
    {fetched : Json}
    (h : ¬∃ record id folder outputs, fetched = .obj record ∧ Named download runId record id folder outputs) :
    (downloadRun answer saving download runId fetched).written = [] ∧
      (downloadRun answer saving download runId fetched).compared = [] := by
  unfold downloadRun
  split
  · exact ⟨rfl, rfl⟩
  · split
    · split
      · exact absurd ⟨_, _, _, _, rfl, ‹_›, ‹_›, ‹_›⟩ h
      · exact ⟨rfl, rfl⟩
    · exact ⟨rfl, rfl⟩
  · exact ⟨rfl, rfl⟩

theorem downloaded_of_no_download {answer : Nat → Stored} {id folder : Text} {download : Bool} {record : Dict}
    {outputs : List Json} (h : wanted download record = .ok outputs) :
    outputsOf record = .ok outputs ∨ (fetchOutputs answer id folder outputs {}).downloaded = [] := by
  cases download with
  | true => exact Or.inl h
  | false =>
    obtain rfl := Except.ok.inj h
    exact Or.inr rfl

/-- **When a download keeps to its folder.** Whatever the box sends of the outputs and the disk takes, the files lie in
one folder of the current directory and each is compared with the hash of its own output, where the record is safe. -/
theorem download_kept_iff (cwd : List Text) (download : Bool) (runId : String) (fetched : Json) :
    (∀ answer saving, Kept cwd (downloadRun answer saving download runId fetched)) ↔
      Safe cwd download runId fetched := by
  by_cases h : ∃ record id folder outputs, fetched = .obj record ∧ Named download runId record id folder outputs
  · obtain ⟨record, id, folder, outputs, rfl, hnamed⟩ := h
    constructor
    · intro hkept record' id' folder' outputs' hrecord hid hfolder houtputs
      obtain rfl := Json.obj.inj hrecord
      have h := hkept (fun _ => .whole) .whole
      rw [downloadRun_named ⟨hid, hfolder, houtputs⟩] at h
      exact settled_of_kept h
    · intro hsafe answer saving
      have hsettled := hsafe record id folder outputs rfl hnamed.id hnamed.folder hnamed.outputs
      have htraced : Traced id folder.toList (listed outputs) (fetchOutputs answer id folder.toList outputs {}) :=
        traced_fetchOutputs traced_start fun _ ho => ho
      rw [downloadRun_named hnamed]
      dsimp only
      split_ifs with hraised
      · exact kept_of_traced hsettled htraced
      · rw [raised_fetchOutputs, Bool.false_or, Bool.not_eq_true, Bool.not_eq_false'] at hraised
        exact kept_finish hsettled htraced hraised saving (downloaded_of_no_download hnamed.outputs)
  · refine ⟨fun _ record id folder outputs hrecord hid hfolder houtputs => ?_, fun _ answer saving => ?_⟩
    · exact absurd ⟨record, id, folder, outputs, hrecord, hid, hfolder, houtputs⟩ h
    · obtain ⟨hwritten, hcompared⟩ := @downloadRun_nothing answer saving download runId fetched h
      refine ⟨⟨[], fun w hw => ?_⟩, fun v hv => ?_, fun c hc => ?_⟩
      · rw [hwritten] at hw
        exact absurd hw List.not_mem_nil
      · rw [hwritten] at hv
        exact absurd hv List.not_mem_nil
      · rw [hcompared] at hc
        exact absurd hc List.not_mem_nil

/-- The folder of a run id that is a name: only the places of the outputs are left to ask for. -/
theorem settled_iff_of_plain {cwd : List Text} {id folder : Text} {outputs : List Json} (hfolder : Plain folder)
    (hid : slash ∉ id) :
    Settled cwd id folder outputs ↔
      ∀ o ∈ listed outputs, ∀ p ∈ listed outputs, ∀ parts, localParts id o.name.toList = some parts →
        localParts id p.name.toList = some parts → o = p := by
  have hslash : slash ∉ RECORD_SUFFIX := by decide
  have hfile : slash ∉ id ++ RECORD_SUFFIX := fun h => (List.mem_append.mp h).elim hid hslash
  have hlong : 15 ≤ (id ++ RECORD_SUFFIX).length := by
    rw [List.length_append]
    exact Nat.le_add_left 15 id.length
  have hne {short : Text} (h : short.length < 15) : id ++ RECORD_SUFFIX ≠ short := by
    intro heq
    rw [heq] at hlong
    omega
  have hplain : Plain (id ++ RECORD_SUFFIX) := ⟨hne (by decide), hne (by decide), hne (by decide), hfile⟩
  have hbase : reached cwd folder = cwd ++ [folder] := by
    rw [reached, isAbs_of_no_slash hfolder.no_slash, if_neg (by decide), List.splitOn_eq_singleton hfolder.no_slash]
    exact push_plain hfolder
  have hrecord : recordPlace cwd id folder = cwd ++ folder :: [id ++ RECORD_SUFFIX] := by
    rw [recordPlace, isAbs_of_no_slash hfile, if_neg (by decide), List.splitOn_eq_singleton hfile, hbase]
    exact (push_plain hplain).trans (List.append_assoc cwd [folder] _)
  refine ⟨fun h => h.apart, fun h => ⟨⟨folder, fun _ => ?_, fun o _ parts hparts => ?_⟩, h⟩⟩
  · exact ⟨[id ++ RECORD_SUFFIX], List.cons_ne_nil _ _, hrecord⟩
  · refine ⟨parts, (localParts_spec hparts).1, ?_⟩
    rw [hbase, List.append_assoc, List.singleton_append]

/-- A run id that climbs takes the record out of the directory. -/
theorem climbing_id :
    ¬Kept [['h'], ['u']] (downloadRun (fun _ => .whole) .whole true "r" (.obj [("runId", .str "../x")])) := by
  intro h
  obtain ⟨dir, hinside⟩ := h.inside
  have hwritten : (none, "../x/../x.lager-run.json".toList) ∈
      (downloadRun (fun _ => .whole) .whole true "r" (.obj [("runId", .str "../x")])).written := by decide +kernel
  obtain ⟨more, -, hplace⟩ := hinside _ hwritten
  have hup : reached [['h'], ['u']] "../x/../x.lager-run.json".toList = [['h'], "x.lager-run.json".toList] := by
    decide +kernel
  rw [hup] at hplace
  have hlength := congrArg List.length hplace
  simp at hlength

end Lager.Cli.RunDownload
