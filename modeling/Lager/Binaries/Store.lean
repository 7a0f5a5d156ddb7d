import Lager.Py.Links

/-!
# Customer binaries and downloads

`lager.binaries.store`. A download is checked by the text of its absolute path, and a binary's name by its characters;
the operating system follows links under both. Where a link is on the way, the file that is read or written is where
the last one leads. A binary is removed as the entry it is.

The file system is what stands at each place, with no bounds on what is a link. Writes and reads of files succeed;
permissions and hard links are left out.
-/

namespace Lager.Binaries

open Lager.Lib Lager.Py Lager.Py.Path

def HOST_BINARIES_DIR : Text := "/home/lagerdata/third_party/customer-binaries".toList

def CONTAINER_BINARIES_DIR : Text := "/home/www-data/customer-binaries".toList

def ALLOWED_DOWNLOAD_ROOTS : List Text :=
  ["/tmp/lager-output".toList, "/tmp/lager-results".toList, "/tmp/lager-job-output".toList]

/-- A `StoreError`, or an `OSError`. -/
inductive Failure where
  | store (status : Nat) (message : String)
  | os
  deriving DecidableEq

/-! ### Asking the file system -/

/-- `os.path.exists` -/
def pathExists (fs : FileSystem) (path : Text) : Bool :=
  match resolve fs path with
  | some place => decide (place = []) || (fs place).isSome
  | none => false

/-- `os.path.isdir` -/
def isDir (fs : FileSystem) (path : Text) : Bool :=
  match resolve fs path with
  | some place => fs.isDir place
  | none => false

/-- The file at the end of a path. -/
def fileAt (fs : FileSystem) (path : Text) : Option Bytes :=
  match resolve fs path with
  | some place =>
    match fs place with
    | some (.file content) => some content
    | _ => none
  | none => none

def mkdir (fs : FileSystem) (comps : List Text) : Option FileSystem :=
  match resolve fs (render comps.dropLast) with
  | some parent =>
    let place := parent ++ comps.getLast?.toList
    if fs.isDir parent = true ∧ fs place = none then some (fs.put place .dir) else none
  | none => none

/-- `os.makedirs(path, exist_ok=True)` -/
def makeDirs (fs : FileSystem) (path : Text) : Option FileSystem :=
  (location path).inits.foldlM (fun fs comps => if isDir fs (render comps) then some fs else mkdir fs comps) fs

/-- Where `open(path, 'wb')` writes. -/
def openForWriting (fs : FileSystem) (path : Text) : Option (List Text) :=
  match resolve fs path with
  | some place =>
    match fs place with
    | some .dir => none
    | some (.link _) => none
    | some (.file _) => some place
    | none => if place = [] then none else some place
  | none => none

/-- What `os.remove(path)` takes away: the entry itself, be it a link. -/
def entryToRemove (fs : FileSystem) (path : Text) : Option (List Text) :=
  match resolve fs (render (location path).dropLast) with
  | some parent =>
    let place := parent ++ (location path).getLast?.toList
    if fs.isDir parent = true ∧ fs.isDir place = false ∧ fs place ≠ none then some place else none
  | none => none

/-! ### The store -/

def validName (name : Text) : Bool :=
  !(decide (slash ∈ name) || decide ('\\' ∈ name) || name.tails.any (dotdot.isPrefixOf ·))

def binariesDir (fs : FileSystem) : Text :=
  if pathExists fs CONTAINER_BINARIES_DIR then CONTAINER_BINARIES_DIR else HOST_BINARIES_DIR

/-- What a call leaves: its answer, the directory it found and the places of the files it wrote, changed or took
away. -/
structure Outcome (α : Type) where
  result : Except Failure α
  fs : FileSystem
  home : Option (List Text) := none
  touched : List (List Text) := []

/-- The body of the answer to an upload. -/
structure Added where
  name : Text
  path : Text
  size : Nat
  restartRequired : Bool
  deriving DecidableEq

def refused {α : Type} (fs : FileSystem) (status : Nat) (message : String) : Outcome α :=
  ⟨.error (.store status message), fs, none, []⟩

def addBinary (fs : FileSystem) (name : Text) (content : Bytes) : Outcome Added :=
  if name = [] then refused fs 400 "name is required"
  else if validName name = false then refused fs 400 "Invalid binary name"
  else
    let targetDir := binariesDir fs
    match makeDirs fs targetDir with
    | none => ⟨.error .os, fs, none, []⟩
    | some fs =>
      let binaryPath := normpath (join2 targetDir name)
      if (targetDir ++ [slash]).isPrefixOf binaryPath = false then refused fs 400 "Invalid binary name"
      else
        match openForWriting fs binaryPath with
        | none => ⟨.error .os, fs, none, []⟩
        | some place =>
          let written := fs.put place (.file content)
          match resolve written (normpath (join2 targetDir name)) with
          | none => ⟨.error .os, written, resolve fs targetDir, [place]⟩
          | some changed =>
            ⟨.ok ⟨name, join2 CONTAINER_BINARIES_DIR name, content.length, !pathExists written CONTAINER_BINARIES_DIR⟩,
              written, resolve fs targetDir, [place, changed]⟩

def removeBinary (fs : FileSystem) (name : Text) : Outcome Text :=
  if name = [] then refused fs 400 "name is required"
  else if validName name = false then refused fs 400 "Invalid binary name"
  else
    let targetDir := binariesDir fs
    let binaryPath := normpath (join2 targetDir name)
    if (targetDir ++ [slash]).isPrefixOf binaryPath = false then refused fs 400 "Invalid binary name"
    else if pathExists fs binaryPath = false then
      refused fs 404 ("Binary '" ++ String.ofList name ++ "' not found")
    else
      match entryToRemove fs (normpath (join2 targetDir name)) with
      | none => ⟨.error .os, fs, none, []⟩
      | some place => ⟨.ok name, fun other => if other = place then none else fs other, resolve fs targetDir, [place]⟩

/-- The check of the allowlist. -/
def permitted (absFilename : Text) : Bool :=
  ALLOWED_DOWNLOAD_ROOTS.any fun root => decide (absFilename = root) || (root ++ [slash]).isPrefixOf absFilename

def resolveDownloadPath (fs : FileSystem) (cwd filename : Text) : Except Failure (Text × Nat) :=
  let absFilename := abspath cwd filename
  if permitted absFilename = false then .error (.store 403 "Access to this path is not permitted")
  else if pathExists fs absFilename = false then
    .error (.store 404 ("File not found: " ++ String.ofList filename))
  else
    match fileAt fs absFilename with
    | some content => .ok (absFilename, content.length)
    | none => .error (.store 400 "Path is not a file")

/-! ### Staying inside -/

/-- The place is inside the directory, below it. -/
def Within (home : Option (List Text)) (place : List Text) : Prop :=
  ∃ dir, home = some dir ∧ dir <+: place ∧ dir ≠ place

def UnderRoot (place : List Text) : Prop := ∃ root ∈ ALLOWED_DOWNLOAD_ROOTS, location root <+: place

/-- A download reads a file under one of the roots, and the calls about a binary touch only files of the binaries
directory. -/
structure Contained (fs : FileSystem) (cwd : Directory) (filename name : Text) (content : Bytes) : Prop where
  read : ∀ path size, resolveDownloadPath fs cwd.path filename = .ok (path, size) →
    ∀ place, resolve fs path = some place → UnderRoot place
  added : ∀ place ∈ (addBinary fs name content).touched, Within (addBinary fs name content).home place
  removed : ∀ place ∈ (removeBinary fs name).touched, Within (removeBinary fs name).home place

/-- The path of a binary. -/
def entry (fs : FileSystem) (name : Text) : Text := render (location (binariesDir fs) ++ [name])

/-- The last link on the way, if there is one, leads under a root or into the binaries directory. -/
structure Straight (fs : FileSystem) (cwd : Directory) (filename name : Text) : Prop where
  read : permitted (abspath cwd.path filename) = true → fileAt fs (abspath cwd.path filename) ≠ none →
    ∀ start rest, lastJump fs (abspath cwd.path filename) = some (start, rest) → UnderRoot (walk true start rest)
  added : Plain name → validName name = true → ∀ made, makeDirs fs (binariesDir fs) = some made →
    openForWriting made (entry fs name) ≠ none → ∀ start rest, lastJump made (entry fs name) = some (start, rest) →
      Within (resolve made (binariesDir fs)) (walk true start rest)

/-! ### Downloads -/

theorem root_spec : ∀ root ∈ ALLOWED_DOWNLOAD_ROOTS,
    root = render (location root) ∧ location root ≠ [] ∧ 2 ≤ root.length ∧ root[1]? ≠ some slash := by decide +kernel

/-- A text that the allowlist lets through leads under a root. -/
theorem underRoot_of_permitted (cwd : Directory) {filename : Text}
    (h : permitted (abspath cwd.path filename) = true) : UnderRoot (location (abspath cwd.path filename)) := by
  obtain ⟨root, hroot, hmatch⟩ := List.any_eq_true.mp h
  obtain ⟨hnormal, hne, hlong, hsecond⟩ := root_spec root hroot
  have hplain := plain_reached cwd.plain filename
  rw [Bool.or_eq_true, decide_eq_true_eq] at hmatch
  refine ⟨root, hroot, ?_⟩
  rw [Directory.path] at hmatch ⊢
  rcases abspath_cases cwd.plain filename with habs | habs
  · rw [habs] at hmatch ⊢
    rw [location_render hplain]
    rcases hmatch with heq | hpre
    · exact ⟨[], by rw [List.append_nil, ← heq, location_render hplain]⟩
    · rw [hnormal] at hpre
      obtain ⟨more, -, hcomps⟩ := (isPrefixOf_render_iff (plain_location root) hne hplain).mp hpre
      exact ⟨more, hcomps.symm⟩
  · -- two slashes at the start stay, and no root has them
    exfalso
    apply hsecond
    rw [habs] at hmatch
    rcases hmatch with heq | hpre
    · rw [← heq]
      rfl
    · obtain ⟨behind, hbehind⟩ := List.isPrefixOf_iff_prefix.mp hpre
      have hget : (root ++ [slash] ++ behind)[1]? = some slash := by
        rw [hbehind]
        rfl
      rwa [List.append_assoc, List.getElem?_append_left (by omega)] at hget

theorem resolveDownloadPath_ok {fs : FileSystem} {cwd filename path : Text} {size : Nat} :
    resolveDownloadPath fs cwd filename = .ok (path, size) ↔
      permitted (abspath cwd filename) = true ∧ path = abspath cwd filename ∧
        ∃ content, fileAt fs path = some content ∧ size = content.length := by
  have hexists {path : Text} {content : Bytes} (h : fileAt fs path = some content) : pathExists fs path = true := by
    unfold fileAt at h
    unfold pathExists
    split at h
    · rename_i place hplace
      split at h
      · rename_i hnode
        rw [hnode]
        exact Bool.or_true _
      · cases h
    · cases h
  unfold resolveDownloadPath
  dsimp only
  constructor
  · intro h
    split_ifs at h with hpermitted hfound
    split at h
    · rename_i content hcontent
      obtain ⟨rfl, rfl⟩ := Prod.mk.inj (Except.ok.inj h)
      rw [Bool.not_eq_false] at hpermitted
      exact ⟨hpermitted, rfl, content, hcontent, rfl⟩
    · cases h
  · rintro ⟨hpermitted, rfl, content, hcontent, rfl⟩
    rw [hpermitted, hexists hcontent, hcontent]
    rfl

/-- The file that a download reads is under a root if the last link on the way leads there. -/
theorem read_iff (fs : FileSystem) (cwd : Directory) (filename : Text) :
    (∀ path size, resolveDownloadPath fs cwd.path filename = .ok (path, size) →
        ∀ place, resolve fs path = some place → UnderRoot place) ↔
      (permitted (abspath cwd.path filename) = true → fileAt fs (abspath cwd.path filename) ≠ none →
        ∀ start rest, lastJump fs (abspath cwd.path filename) = some (start, rest) →
          UnderRoot (walk true start rest)) := by
  constructor
  · intro h hpermitted hfile
    obtain ⟨content, hcontent⟩ := Option.ne_none_iff_exists'.mp hfile
    obtain ⟨place, hplace⟩ : ∃ place, resolve fs (abspath cwd.path filename) = some place := by
      unfold fileAt at hcontent
      split at hcontent
      · exact ⟨_, ‹_›⟩
      · cases hcontent
    have hunder := h _ _ (resolveDownloadPath_ok.mpr ⟨hpermitted, rfl, content, hcontent, rfl⟩) place hplace
    exact (resolve_iff hplace fun _ => underRoot_of_permitted cwd hpermitted).mp hunder
  · intro h path size hok place hplace
    obtain ⟨hpermitted, rfl, content, hcontent, -⟩ := resolveDownloadPath_ok.mp hok
    apply (resolve_iff hplace fun _ => underRoot_of_permitted cwd hpermitted).mpr
    exact h hpermitted (by rw [hcontent]; exact Option.some_ne_none content)

/-! ### Binaries -/

theorem binariesDir_spec (fs : FileSystem) :
    render (location (binariesDir fs)) = binariesDir fs ∧ location (binariesDir fs) ≠ [] := by
  unfold binariesDir
  split_ifs
  · decide +kernel
  · decide +kernel

theorem validName_spec {name : Text} (h : validName name = true) : slash ∉ name ∧ name ≠ dotdot := by
  have hparts := Bool.not_eq_true' _ ▸ h
  rw [Bool.or_eq_false_iff, Bool.or_eq_false_iff] at hparts
  refine ⟨of_decide_eq_false hparts.1.1, ?_⟩
  rintro rfl
  exact absurd hparts.2 (by decide)

theorem binaryPath_eq (fs : FileSystem) {name : Text} (h : slash ∉ name) :
    normpath (join2 (binariesDir fs) name) = render (push true (location (binariesDir fs)) name) := by
  have hcomps : ∀ c ∈ [name], slash ∉ c := by simpa using h
  obtain ⟨hnormal, hne⟩ := binariesDir_spec fs
  have hjoin := normpath_join (plain_location _) hne hcomps
  rw [hnormal] at hjoin
  exact hjoin

theorem plain_of_accepted {fs : FileSystem} {name : Text} (hname : name ≠ []) (hvalid : validName name = true)
    (h : (binariesDir fs ++ [slash]).isPrefixOf (normpath (join2 (binariesDir fs) name)) = true) : Plain name := by
  obtain ⟨hslash, hdotdot⟩ := validName_spec hvalid
  obtain ⟨hnormal, hne⟩ := binariesDir_spec fs
  have hplain := plain_location (binariesDir fs)
  refine ⟨hname, ?_, hdotdot, hslash⟩
  rintro rfl
  rw [binaryPath_eq fs hslash, ← hnormal] at h
  obtain ⟨more, hmore, heq⟩ := (isPrefixOf_render_iff (plain_location _) hne (plain_location _)).mp h
  have hlength := congrArg List.length heq
  have hpos := List.length_pos_of_ne_nil hmore
  rw [List.length_append] at hlength
  rw [location_render hplain] at hlength
  omega

theorem binaryPath_plain (fs : FileSystem) {name : Text} (h : Plain name) :
    normpath (join2 (binariesDir fs) name) = entry fs name ∧
      (binariesDir fs ++ [slash]).isPrefixOf (entry fs name) = true := by
  obtain ⟨hnormal, hne⟩ := binariesDir_spec fs
  have hplain := plain_location (binariesDir fs)
  refine ⟨?_, ?_⟩
  · rw [binaryPath_eq fs h.no_slash, push_plain h, entry]
  · have hiff := isPrefixOf_render_iff hplain hne (plain_concat hplain h)
    rw [hnormal] at hiff
    exact hiff.mpr ⟨[name], List.cons_ne_nil _ _, rfl⟩

theorem location_entry (fs : FileSystem) {name : Text} (h : Plain name) :
    location (entry fs name) = location (binariesDir fs) ++ [name] :=
  location_render (plain_concat (plain_location _) h)

theorem within_concat {home : Option (List Text)} {dir : List Text} (h : home = some dir) (name : Text) :
    Within home (dir ++ [name]) := by
  refine ⟨dir, h, List.prefix_append _ _, fun heq => ?_⟩
  have hlength := congrArg List.length heq
  simp at hlength

theorem openForWriting_spec {fs : FileSystem} {path : Text} {place : List Text}
    (h : openForWriting fs path = some place) :
    resolve fs path = some place ∧ (fs place = none ∨ ∃ old, fs place = some (.file old)) := by
  unfold openForWriting at h
  split at h
  · rename_i found hfound
    split at h
    · cases h
    · cases h
    · rename_i old hold
      obtain rfl := Option.some.inj h
      exact ⟨hfound, Or.inr ⟨old, hold⟩⟩
    · rename_i hnone
      split_ifs at h
      obtain rfl := Option.some.inj h
      exact ⟨hfound, Or.inl hnone⟩
  · cases h

/-- What an upload touches is where the path of the binary leads. -/
theorem addBinary_touched {fs : FileSystem} {name : Text} {content : Bytes} {place : List Text}
    (h : place ∈ (addBinary fs name content).touched) :
    Plain name ∧ validName name = true ∧ ∃ made, makeDirs fs (binariesDir fs) = some made ∧
      openForWriting made (entry fs name) = some place ∧
      (addBinary fs name content).home = resolve made (binariesDir fs) := by
  unfold addBinary at h ⊢
  dsimp only [refused] at h ⊢
  by_cases hname : name = []
  · rw [if_pos hname] at h
    exact absurd h List.not_mem_nil
  by_cases hvalid : validName name = false
  · rw [if_neg hname, if_pos hvalid] at h
    exact absurd h List.not_mem_nil
  rw [if_neg hname, if_neg hvalid] at h ⊢
  rw [Bool.not_eq_false] at hvalid
  cases hmade : makeDirs fs (binariesDir fs) with
  | none =>
    rw [hmade] at h
    exact absurd h List.not_mem_nil
  | some made =>
    rw [hmade] at h
    dsimp only at h ⊢
    by_cases hpre : (binariesDir fs ++ [slash]).isPrefixOf (normpath (join2 (binariesDir fs) name)) = true
    · have hplain := plain_of_accepted hname hvalid hpre
      have hpath := (binaryPath_plain fs hplain).1
      rw [hpre, if_neg (by decide), hpath] at h ⊢
      cases hopen : openForWriting made (entry fs name) with
      | none =>
        rw [hopen] at h
        exact absurd h List.not_mem_nil
      | some opened =>
        obtain ⟨hresolve, hnode⟩ := openForWriting_spec hopen
        have hwritten := resolve_put content hnode (entry fs name)
        rw [hopen] at h
        dsimp only at h ⊢
        rw [hwritten, hresolve] at h ⊢
        have hsame : place = opened := by simpa using h
        exact ⟨hplain, hvalid, made, rfl, by rw [hsame, hopen], rfl⟩
    · rw [if_pos (Bool.eq_false_iff.mpr hpre)] at h
      exact absurd h List.not_mem_nil

theorem addBinary_of_writable {fs made : FileSystem} {name : Text} {content : Bytes} {place : List Text}
    (hname : Plain name) (hvalid : validName name = true) (hmade : makeDirs fs (binariesDir fs) = some made)
    (h : openForWriting made (entry fs name) = some place) :
    place ∈ (addBinary fs name content).touched ∧
      (addBinary fs name content).home = resolve made (binariesDir fs) := by
  obtain ⟨hpath, hpre⟩ := binaryPath_plain fs hname
  unfold addBinary
  rw [if_neg hname.ne_nil, hvalid, if_neg (by decide)]
  dsimp only
  rw [hmade]
  dsimp only
  rw [hpath, hpre, if_neg (by decide), h]
  dsimp only
  split
  · exact ⟨List.mem_cons_self, rfl⟩
  · exact ⟨List.mem_cons_self, rfl⟩

/-- What an upload writes is in the binaries directory if the last link on the way leads there. -/
theorem added_iff (fs : FileSystem) (name : Text) (content : Bytes) :
    (∀ place ∈ (addBinary fs name content).touched, Within (addBinary fs name content).home place) ↔
      (Plain name → validName name = true → ∀ made, makeDirs fs (binariesDir fs) = some made →
        openForWriting made (entry fs name) ≠ none → ∀ start rest,
          lastJump made (entry fs name) = some (start, rest) →
            Within (resolve made (binariesDir fs)) (walk true start rest)) := by
  obtain ⟨hnormal, hne⟩ := binariesDir_spec fs
  have hplain := plain_location (binariesDir fs)
  have htext {made : FileSystem} {place : List Text} (hname : Plain name)
      (hresolve : resolve made (entry fs name) = some place) (hjump : lastJump made (entry fs name) = none) :
      Within (resolve made (binariesDir fs)) (location (entry fs name)) := by
    have hdir := resolve_dir hplain hne hname hresolve hjump
    rw [hnormal] at hdir
    rw [location_entry fs hname]
    exact within_concat hdir name
  constructor
  · intro h hname hvalid made hmade hopen
    obtain ⟨place, hplace⟩ := Option.ne_none_iff_exists'.mp hopen
    obtain ⟨htouched, hhome⟩ := @addBinary_of_writable fs made name content place hname hvalid hmade hplace
    have hwithin := h place htouched
    rw [hhome] at hwithin
    have hresolve := (openForWriting_spec hplace).1
    exact (resolve_iff hresolve (htext hname hresolve)).mp hwithin
  · intro h place htouched
    obtain ⟨hname, hvalid, made, hmade, hopen, hhome⟩ := addBinary_touched htouched
    have hresolve := (openForWriting_spec hopen).1
    rw [hhome]
    apply (resolve_iff hresolve (htext hname hresolve)).mpr
    exact h hname hvalid made hmade (by rw [hopen]; exact Option.some_ne_none place)

/-- What is removed is an entry of the directory. -/
theorem removeBinary_within (fs : FileSystem) (name : Text) :
    ∀ place ∈ (removeBinary fs name).touched, Within (removeBinary fs name).home place := by
  intro place h
  unfold removeBinary at h ⊢
  dsimp only [refused] at h ⊢
  split_ifs at h ⊢ with hname hvalid hpre hexists
  · exact absurd h List.not_mem_nil
  · exact absurd h List.not_mem_nil
  · exact absurd h List.not_mem_nil
  · exact absurd h List.not_mem_nil
  rw [Bool.not_eq_false] at hvalid hpre
  have hplain := plain_of_accepted hname hvalid hpre
  have hnormal := (binariesDir_spec fs).1
  rw [(binaryPath_plain fs hplain).1, entryToRemove, location_entry fs hplain, List.dropLast_concat, List.getLast?_concat, hnormal] at h ⊢
  cases hdir : resolve fs (binariesDir fs) with
  | none =>
    rw [hdir] at h
    exact absurd h List.not_mem_nil
  | some dir =>
    rw [hdir] at h
    dsimp only at h ⊢
    split_ifs at h ⊢
    · obtain rfl : place = dir ++ [name] := by simpa using h
      exact within_concat rfl name
    · exact absurd h List.not_mem_nil

/-- **Where downloads and binaries are.** Removing a binary keeps to its directory. Reading and writing do where the
last link on the way, if there is one, leads back inside. -/
theorem contained_iff (fs : FileSystem) (cwd : Directory) (filename name : Text) (content : Bytes) :
    Contained fs cwd filename name content ↔ Straight fs cwd filename name := by
  constructor
  · intro h
    exact ⟨(read_iff fs cwd filename).mp h.read, (added_iff fs name content).mp h.added⟩
  · intro h
    exact ⟨(read_iff fs cwd filename).mpr h.read, (added_iff fs name content).mpr h.added,
      removeBinary_within fs name⟩

def outputFile : Text := "/tmp/lager-output/x".toList

/-- A link from the output directory to a file elsewhere. -/
def linkedOutput : FileSystem := fun place =>
  if place = ["tmp".toList] ∨ place = ["tmp".toList, "lager-output".toList] ∨ place = ["etc".toList] then some .dir
  else if place = location outputFile then some (.link "/etc/shadow".toList)
  else if place = ["etc".toList, "shadow".toList] then some (.file [1])
  else none

/-- The link is followed. -/
theorem link_followed :
    ¬Contained linkedOutput ⟨[], fun _ h => absurd h List.not_mem_nil⟩ outputFile ['b'] [] := by
  intro h
  have hok : resolveDownloadPath linkedOutput (render []) outputFile = .ok (outputFile, 1) := by decide +kernel
  have hplace : resolve linkedOutput outputFile = some ["etc".toList, "shadow".toList] := by decide +kernel
  have hroots : ∀ root ∈ ALLOWED_DOWNLOAD_ROOTS, ¬location root <+: ["etc".toList, "shadow".toList] := by
    decide +kernel
  obtain ⟨root, hroot, hunder⟩ := h.read outputFile 1 hok _ hplace
  exact hroots root hroot hunder

end Lager.Binaries
