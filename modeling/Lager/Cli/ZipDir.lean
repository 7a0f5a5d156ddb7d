import Lager.Lib.Assoc
import Lager.Py.Path
import Lager.Py.Text
import Mathlib.Data.List.Nodup

/-!
# Zipping a module

`zip_dir` of `cli/core/utils.py`, for a directory without extra files and without further directories. A first walk
looks for files whose path has `pyvenv.cfg` in it and excludes the directory they are in; a second one leaves out the
subdirectories whose name starts with something excluded. What is excluded is the path of the directory from the
current one, and what is compared with it is one name, so that what is left out hangs on where the command runs.

Links have been followed, so that the directory is a tree; the walks list a directory's files before they go down.
-/

namespace Lager.Cli.ZipDir

open Lager.Lib Lager.Py Lager.Py.Path

/-! ### Directories -/

structure File where
  mode : Nat
  content : Bytes
  deriving DecidableEq

/-- The entries of a directory. -/
inductive Tree where
  | nil
  | file (name : Text) (file : File) (others : Tree)
  | dir (name : Text) (inner : Tree) (others : Tree)
  deriving DecidableEq

namespace Tree

def names : Tree → List Text
  | nil => []
  | file name _ others => name :: others.names
  | dir name _ others => name :: others.names

/-- Entries have names, and no two in one directory the same. -/
def Valid : Tree → Prop
  | nil => True
  | file name _ others => Plain name ∧ name ∉ others.names ∧ others.Valid
  | dir name inner others => Plain name ∧ name ∉ others.names ∧ inner.Valid ∧ others.Valid

/-- There is such a file in the subdirectory. -/
def Has : Tree → List Text → Text → File → Prop
  | nil, _, _, _ => False
  | file n f others, sub, name, found => (sub = [] ∧ n = name ∧ f = found) ∨ others.Has sub name found
  | dir n inner others, sub, name, found => (∃ below, sub = n :: below ∧ inner.Has below name found) ∨
      others.Has sub name found

/-- The sizes of all files together. -/
def size : Tree → Nat
  | nil => 0
  | file _ f others => f.content.length + others.size
  | dir _ inner others => inner.size + others.size

/-! ### The walk -/

def files : Tree → List (Text × File)
  | nil => []
  | file name f others => (name, f) :: others.files
  | dir _ _ others => others.files

/-- `os.walk` below a directory, into the subdirectories whose names are kept. -/
def subdirs (keep : Text → Bool) (sub : List Text) : Tree → List (List Text × List (Text × File))
  | nil => []
  | file _ _ others => others.subdirs keep sub
  | dir name inner others =>
    if keep name then
      (sub ++ [name], inner.files) :: (inner.subdirs keep (sub ++ [name]) ++ others.subdirs keep sub)
    else others.subdirs keep sub

end Tree

/-- A file that a walk comes to. -/
structure Found where
  sub : List Text
  name : Text
  file : File
  deriving DecidableEq

def visit (entry : List Text × List (Text × File)) : List Found := entry.2.map fun (name, file) => ⟨entry.1, name, file⟩

def walkTree (keep : Text → Bool) (t : Tree) : List Found := (([], t.files) :: t.subdirs keep []).flatMap visit

/-! ### The archive -/

def gitDir : Text := ['.', 'g', 'i', 't']

def pyvenvCfg : Text := "pyvenv.cfg".toList

def isPyc (name : Text) : Bool := ['.', 'p', 'y', 'c'].isSuffixOf name

/-- `os.path.join(dirpath, name)` -/
def fullName (root : Text) (f : Found) : Text := join2 (join root f.sub) f.name

/-- `'pyvenv.cfg' in full_name` -/
def marked (root : Text) (f : Found) : Bool := (fullName root f).tails.any (pyvenvCfg.isPrefixOf ·)

def exclude (cwd root : Text) (t : Tree) : List Text :=
  gitDir :: ((walkTree (fun _ => true) t).filter (marked root)).map fun f => relpath cwd (dirname (fullName root f))

def kept (cwd root : Text) (t : Tree) (name : Text) : Bool := !(exclude cwd root t).any (·.isPrefixOf name)

/-- `str(full_name.relative_to(rootpath))` -/
def archivePath (f : Found) : Text := [slash].intercalate (f.sub ++ [f.name])

structure Member where
  filename : Text
  externalAttr : Nat
  content : Bytes
  deriving DecidableEq

def member (f : Found) : Member := ⟨archivePath f, f.file.mode <<< 16, f.file.content⟩

structure Zipped where
  members : List Member := []
  /-- Archive path to absolute source path. -/
  manifest : List (Text × Text) := []
  deriving DecidableEq

inductive ZipError where
  | sizeLimitExceeded
  deriving DecidableEq

def Zipped.add (zipped : Zipped) (cwd root : Text) (f : Found) : Zipped where
  members := zipped.members ++ [member f]
  manifest := assign (archivePath f) (abspath cwd (fullName root f)) zipped.manifest

/-- The loop over the files of the second walk; `none` is no limit. -/
def addAll (limit : Option Nat) (cwd root : Text) (total : Nat) (zipped : Zipped) :
    List Found → Except ZipError Zipped
  | [] => .ok zipped
  | f :: rest =>
    if isPyc f.name then addAll limit cwd root total zipped rest
    else if limit.any (· < total + f.file.content.length) then .error .sizeLimitExceeded
    else addAll limit cwd root (total + f.file.content.length) (zipped.add cwd root f) rest

def zipDir (limit : Option Nat) (cwd root : Text) (t : Tree) : Except ZipError Zipped :=
  addAll limit cwd root 0 {} (walkTree (kept cwd root t) t)

/-! ### What an upload must hold -/

/-- The file is inside a directory named `.git`, or inside one that has a `pyvenv.cfg`. -/
def Hidden (t : Tree) (sub : List Text) : Prop :=
  gitDir ∈ sub ∨ ∃ venv, venv <+: sub ∧ ∃ cfg, t.Has venv pyvenvCfg cfg

/-- The file is one that belongs into the archive. -/
def Belongs (t : Tree) (f : Found) : Prop := t.Has f.sub f.name f.file ∧ isPyc f.name = false ∧ ¬Hidden t f.sub

/-- The archive has the files of the tree that belong there, each once under its path and with its bytes, and the
manifest leads from each path to its file. -/
structure Faithful (cwd : List Text) (root : Text) (t : Tree) (zipped : Zipped) : Prop where
  exactly : ∀ m, m ∈ zipped.members ↔ ∃ f, Belongs t f ∧ m = member f
  once : (zipped.members.map Member.filename).Nodup
  mapped : zipped.manifest.map Prod.fst = zipped.members.map Member.filename
  sources : ∀ f, Belongs t f → ∃ source, zipped.manifest.lookup (archivePath f) = some source ∧ isAbs source = true ∧
    location source = reached cwd root ++ f.sub ++ [f.name]

/-! ### What the walk comes to -/

theorem mem_files {t : Tree} {name : Text} {f : File} : (name, f) ∈ t.files ↔ t.Has [] name f := by
  induction t with
  | nil => simp [Tree.files, Tree.Has]
  | file n g others ih => simp [Tree.files, Tree.Has, ih, eq_comm]
  | dir n inner others _ ih => simp [Tree.files, Tree.Has, ih]

theorem mem_visit {entry : List Text × List (Text × File)} {f : Found} :
    f ∈ visit entry ↔ f.sub = entry.1 ∧ (f.name, f.file) ∈ entry.2 := by
  obtain ⟨sub, name, file⟩ := f
  simp [visit, and_comm, eq_comm]

/-- Induction over the entries: the walk goes down where every name is kept. -/
theorem mem_subdirs {keep : Text → Bool} {t : Tree} {sub : List Text} {f : Found} :
    f ∈ (t.subdirs keep sub).flatMap visit ↔ ∃ d more, f.sub = sub ++ d :: more ∧ t.Has (d :: more) f.name f.file ∧
      ∀ e ∈ d :: more, keep e = true := by
  induction t generalizing sub with
  | nil => simp [Tree.subdirs, Tree.Has]
  | file name g others ih => simp [Tree.subdirs, Tree.Has, ih]
  | dir name inner others ihInner ihOthers =>
    rw [Tree.subdirs]
    by_cases hkeep : keep name = true
    · rw [if_pos hkeep, List.flatMap_cons, List.flatMap_append, List.mem_append, List.mem_append, mem_visit, mem_files,
        ihInner, ihOthers]
      constructor
      · rintro (⟨hsub, hfile⟩ | ⟨d, more, hsub, hfile, hall⟩ | ⟨d, more, hsub, hfile, hall⟩)
        · exact ⟨name, [], hsub, Or.inl ⟨[], rfl, hfile⟩, by simpa using hkeep⟩
        · refine ⟨name, d :: more, by simpa using hsub, Or.inl ⟨d :: more, rfl, hfile⟩, ?_⟩
          exact List.forall_mem_cons.mpr ⟨hkeep, hall⟩
        · exact ⟨d, more, hsub, Or.inr hfile, hall⟩
      · rintro ⟨d, more, hsub, ⟨below, hbelow, hfile⟩ | hfile, hall⟩
        · obtain ⟨rfl, rfl⟩ := List.cons.inj hbelow
          cases more with
          | nil => exact Or.inl ⟨hsub, hfile⟩
          | cons e more =>
            exact Or.inr (Or.inl ⟨e, more, by simpa using hsub, hfile, fun c hc => hall c (List.mem_cons_of_mem d hc)⟩)
        · exact Or.inr (Or.inr ⟨d, more, hsub, hfile, hall⟩)
    · rw [if_neg hkeep, ihOthers]
      constructor
      · rintro ⟨d, more, hsub, hfile, hall⟩
        exact ⟨d, more, hsub, Or.inr hfile, hall⟩
      · rintro ⟨d, more, hsub, ⟨below, hbelow, -⟩ | hfile, hall⟩
        · obtain ⟨rfl, -⟩ := List.cons.inj hbelow
          exact absurd (hall d List.mem_cons_self) hkeep
        · exact ⟨d, more, hsub, hfile, hall⟩

theorem mem_walkTree {keep : Text → Bool} {t : Tree} {f : Found} :
    f ∈ walkTree keep t ↔ t.Has f.sub f.name f.file ∧ ∀ d ∈ f.sub, keep d = true := by
  rw [walkTree, List.flatMap_cons, List.mem_append, mem_visit, mem_files, mem_subdirs]
  constructor
  · rintro (⟨hsub, hfile⟩ | ⟨d, more, hsub, hfile, hall⟩)
    · rw [hsub]
      exact ⟨hfile, fun _ h => absurd h List.not_mem_nil⟩
    · rw [List.nil_append] at hsub
      rw [hsub]
      exact ⟨hfile, hall⟩
  · rintro ⟨hfile, hall⟩
    cases hsub : f.sub with
    | nil =>
      rw [hsub] at hfile
      exact Or.inl ⟨rfl, hfile⟩
    | cons d more =>
      rw [hsub] at hfile hall
      exact Or.inr ⟨d, more, rfl, hfile, hall⟩

/-! ### Every file once -/

def key (f : Found) : List Text := f.sub ++ [f.name]

theorem has_names {t : Tree} {sub : List Text} {name : Text} {f : File} (h : t.Has sub name f) :
    ∃ first more, sub ++ [name] = first :: more ∧ first ∈ t.names := by
  induction t with
  | nil => exact absurd h (by simp [Tree.Has])
  | file n g others ih =>
    rcases h with ⟨rfl, rfl, -⟩ | h
    · exact ⟨n, [], rfl, List.mem_cons_self⟩
    · obtain ⟨first, more, heq, hmem⟩ := ih h
      exact ⟨first, more, heq, List.mem_cons_of_mem n hmem⟩
  | dir n inner others _ ih =>
    rcases h with ⟨below, rfl, -⟩ | h
    · exact ⟨n, below ++ [name], rfl, List.mem_cons_self⟩
    · obtain ⟨first, more, heq, hmem⟩ := ih h
      exact ⟨first, more, heq, List.mem_cons_of_mem n hmem⟩

theorem has_plain {t : Tree} (h : t.Valid) {sub : List Text} {name : Text} {f : File} (hfile : t.Has sub name f) :
    ∀ c ∈ sub ++ [name], Plain c := by
  induction t generalizing sub with
  | nil => exact absurd hfile (by simp [Tree.Has])
  | file n g others ih =>
    rcases hfile with ⟨rfl, rfl, -⟩ | hfile
    · simpa using h.1
    · exact ih h.2.2 hfile
  | dir n inner others ihInner ihOthers =>
    rcases hfile with ⟨below, rfl, hfile⟩ | hfile
    · rw [List.cons_append, List.forall_mem_cons]
      exact ⟨h.1, ihInner h.2.2.1 hfile⟩
    · exact ihOthers h.2.2.2 hfile

theorem key_subdirs {keep : Text → Bool} {t : Tree} {sub : List Text} {f : Found}
    (h : f ∈ (t.subdirs keep sub).flatMap visit) :
    ∃ first more, key f = sub ++ first :: more ∧ more ≠ [] ∧ first ∈ t.names := by
  obtain ⟨d, more, hsub, hfile, -⟩ := mem_subdirs.mp h
  obtain ⟨first, others, heq, hmem⟩ := has_names hfile
  obtain ⟨rfl, -⟩ := List.cons.inj heq
  refine ⟨d, more ++ [f.name], ?_, by simp, hmem⟩
  rw [key, hsub, List.append_assoc, List.cons_append]

theorem nodup_files {t : Tree} (h : t.Valid) : (t.files.map Prod.fst).Nodup := by
  induction t with
  | nil => exact List.nodup_nil
  | file n g others ih =>
    rw [Tree.files, List.map_cons, List.nodup_cons]
    refine ⟨fun hmem => h.2.1 ?_, ih h.2.2⟩
    obtain ⟨⟨name, f⟩, hfile, rfl⟩ := List.mem_map.mp hmem
    obtain ⟨first, more, heq, hnames⟩ := has_names (mem_files.mp hfile)
    obtain ⟨rfl, -⟩ := List.cons.inj heq
    exact hnames
  | dir n inner others _ ih => exact ih h.2.2.2

theorem nodup_visit {t : Tree} (h : t.Valid) (sub : List Text) : ((visit (sub, t.files)).map key).Nodup := by
  have hkeys : (visit (sub, t.files)).map key = (t.files.map Prod.fst).map fun name => sub ++ [name] := by
    rw [visit, List.map_map, List.map_map]
    rfl
  rw [hkeys]
  have hinj : Function.Injective fun name : Text => sub ++ [name] := fun a b hab =>
    List.singleton_inj.mp (List.append_cancel_left hab)
  exact (nodup_files h).map hinj

/-- The files of a directory and those of its subdirectories: the keys of the latter are longer. -/
theorem nodup_here {keep : Text → Bool} {t : Tree} (h : t.Valid) {sub : List Text}
    (hsubdirs : (((t.subdirs keep sub).flatMap visit).map key).Nodup) :
    ((visit (sub, t.files) ++ (t.subdirs keep sub).flatMap visit).map key).Nodup := by
  rw [List.map_append]
  refine (nodup_visit h sub).append hsubdirs fun k hhere hbelow => ?_
  obtain ⟨f, hf, rfl⟩ := List.mem_map.mp hhere
  obtain ⟨g, hg, hkey⟩ := List.mem_map.mp hbelow
  obtain ⟨first, more, hfirst, hmore, -⟩ := key_subdirs hg
  have hlength := congrArg List.length (hfirst.symm.trans hkey)
  have hpos := List.length_pos_of_ne_nil hmore
  have hsub : f.sub = sub := (mem_visit.mp hf).1
  rw [key, hsub, List.length_append, List.length_append, List.length_cons, List.length_singleton] at hlength
  omega

theorem nodup_subdirs {keep : Text → Bool} {t : Tree} (h : t.Valid) (sub : List Text) :
    (((t.subdirs keep sub).flatMap visit).map key).Nodup := by
  induction t generalizing sub with
  | nil => exact List.nodup_nil
  | file n g others ih => exact ih h.2.2 sub
  | dir n inner others ihInner ihOthers =>
    rw [Tree.subdirs]
    split_ifs with hkeep
    · rw [List.flatMap_cons, List.flatMap_append, ← List.append_assoc, List.map_append]
      refine (nodup_here h.2.2.1 (ihInner h.2.2.1 _)).append (ihOthers h.2.2.2 sub) fun k hinner hothers => ?_
      obtain ⟨f, hf, rfl⟩ := List.mem_map.mp hinner
      obtain ⟨g, hg, hkey⟩ := List.mem_map.mp hothers
      obtain ⟨first, more, hfirst, -, hnames⟩ := key_subdirs hg
      -- everything from the inner directory has its name at this place
      have hname : ∃ behind, key f = sub ++ n :: behind := by
        rcases List.mem_append.mp hf with hf | hf
        · exact ⟨[f.name], by rw [key, (mem_visit.mp hf).1, List.append_assoc, List.singleton_append]⟩
        · obtain ⟨e, rest, he, -, -⟩ := key_subdirs hf
          exact ⟨e :: rest, by rw [he, List.append_assoc, List.singleton_append]⟩
      obtain ⟨behind, hbehind⟩ := hname
      have heq := List.append_cancel_left (hbehind.symm.trans (hkey.symm.trans hfirst))
      obtain ⟨rfl, -⟩ := List.cons.inj heq
      exact h.2.1 hnames
    · exact ihOthers h.2.2.2 sub

theorem nodup_walkTree (keep : Text → Bool) {t : Tree} (h : t.Valid) : ((walkTree keep t).map key).Nodup := by
  rw [walkTree, List.flatMap_cons]
  exact nodup_here h (nodup_subdirs h [])

theorem archivePath_inj {t : Tree} (h : t.Valid) {f g : Found} (hf : t.Has f.sub f.name f.file)
    (hg : t.Has g.sub g.name g.file) (heq : archivePath f = archivePath g) : f.sub = g.sub ∧ f.name = g.name := by
  have hrender : render (key f) = render (key g) := congrArg (slash :: ·) heq
  have hkey := render_inj (has_plain h hf) (has_plain h hg) hrender
  obtain ⟨hsub, hname⟩ := List.append_inj' hkey rfl
  exact ⟨hsub, List.singleton_inj.mp hname⟩

theorem nodup_archivePath (keep : Text → Bool) {t : Tree} (h : t.Valid) :
    ((walkTree keep t).map archivePath).Nodup := by
  have hkeys := nodup_walkTree keep h
  have hmap : (walkTree keep t).map archivePath = ((walkTree keep t).map key).map [slash].intercalate := by
    rw [List.map_map]
    rfl
  rw [hmap]
  apply hkeys.map_on
  intro k hk l hl heq
  obtain ⟨f, hf, rfl⟩ := List.mem_map.mp hk
  obtain ⟨g, hg, rfl⟩ := List.mem_map.mp hl
  exact render_inj (has_plain h (mem_walkTree.mp hf).1) (has_plain h (mem_walkTree.mp hg).1)
    (congrArg (slash :: ·) heq)

/-! ### The loop -/

/-- The sizes of the files together. -/
def total : List Found → Nat
  | [] => 0
  | f :: rest => f.file.content.length + total rest

theorem total_append (l m : List Found) : total (l ++ m) = total l + total m := by
  induction l with
  | nil => simp [total]
  | cons f l ih => rw [List.cons_append, total, total, ih, Nat.add_assoc]

theorem total_subdirs (keep : Text → Bool) (t : Tree) (sub : List Text) :
    total (visit (sub, t.files)) + total ((t.subdirs keep sub).flatMap visit) ≤ t.size := by
  induction t generalizing sub with
  | nil => exact Nat.le_refl 0
  | file n g others ih =>
    have hrest := ih sub
    have hvisit : total (visit (sub, (Tree.file n g others).files)) =
        g.content.length + total (visit (sub, others.files)) := rfl
    rw [hvisit, Tree.size, Tree.subdirs]
    omega
  | dir n inner others ihInner ihOthers =>
    have hinner := ihInner (sub ++ [n])
    have hothers := ihOthers sub
    rw [Tree.files, Tree.subdirs, Tree.size]
    split_ifs
    · rw [List.flatMap_cons, List.flatMap_append, total_append, total_append]
      omega
    · omega

theorem total_walkTree (keep : Text → Bool) (t : Tree) : total (walkTree keep t) ≤ t.size := by
  rw [walkTree, List.flatMap_cons, total_append]
  exact total_subdirs keep t []

/-- Within the limit every file that is no `.pyc` is added. -/
theorem addAll_ok {limit : Option Nat} (cwd root : Text) {found : List Found} {sum : Nat} (zipped : Zipped)
    (h : ∀ l ∈ limit, sum + total found ≤ l) :
    addAll limit cwd root sum zipped found =
      .ok ((found.filter fun f => !isPyc f.name).foldl (fun zipped f => zipped.add cwd root f) zipped) := by
  induction found generalizing sum zipped with
  | nil => rfl
  | cons f rest ih =>
    rw [addAll]
    by_cases hpyc : isPyc f.name = true
    · rw [if_pos hpyc, List.filter_cons_of_neg (by simp [hpyc])]
      apply ih
      intro l hl
      have hle := h l hl
      rw [total] at hle
      omega
    · have hfits : limit.any (· < sum + f.file.content.length) = false := by
        cases limit with
        | none => rfl
        | some l =>
          have hle := h l rfl
          rw [total] at hle
          exact decide_eq_false (by omega)
      rw [if_neg hpyc, hfits, if_neg (by decide), List.filter_cons_of_pos (by simp [hpyc]), List.foldl_cons]
      apply ih
      intro l hl
      have hle := h l hl
      rw [total] at hle
      omega

def mapping (cwd root : Text) (f : Found) : Text × Text := (archivePath f, abspath cwd (fullName root f))

/-- Induction over the files: each path is new to the manifest. -/
theorem foldl_add (cwd root : Text) {found : List Found} (zipped : Zipped)
    (h : (zipped.manifest.map Prod.fst ++ found.map archivePath).Nodup) :
    found.foldl (fun zipped f => zipped.add cwd root f) zipped =
      ⟨zipped.members ++ found.map member, zipped.manifest ++ found.map (mapping cwd root)⟩ := by
  induction found generalizing zipped with
  | nil => simp
  | cons f rest ih =>
    have hnew : archivePath f ∉ zipped.manifest.map Prod.fst := fun hmem =>
      (List.nodup_append.mp h).2.2 _ hmem _ List.mem_cons_self rfl
    have hadd : zipped.add cwd root f = ⟨zipped.members ++ [member f], zipped.manifest ++ [mapping cwd root f]⟩ := by
      rw [Zipped.add, assign_of_not_mem _ hnew]
      rfl
    rw [List.foldl_cons, hadd, ih]
    · simp
    · simpa [mapping] using h

/-! ### Uploads -/

/-- A directory to upload, with the directory the command runs in. -/
structure Upload where
  cwd : List Text
  root : Text
  tree : Tree
  cwd_plain : ∀ c ∈ cwd, Plain c
  root_ne_nil : root ≠ []
  valid : tree.Valid

/-- The name starts with `.git`, or with the path, of a single component, that leads from the current directory to one
with a marked file. -/
def Skips (u : Upload) (name : Text) : Prop :=
  gitDir <+: name ∨ ∃ f : Found, u.tree.Has f.sub f.name f.file ∧ marked u.root f = true ∧
    ∃ c, single (steps u.cwd (reached u.cwd u.root ++ f.sub)) = some c ∧ c <+: name

/-- The names on the way to a file tell whether it is hidden. -/
def NamesTell (u : Upload) : Prop :=
  ∀ f : Found, u.tree.Has f.sub f.name f.file → isPyc f.name = false → ((∃ d ∈ f.sub, Skips u d) ↔ Hidden u.tree f.sub)

theorem fullName_eq (root : Text) (f : Found) : fullName root f = join root (key f) := by
  rw [fullName, key, join, join, List.foldl_append]
  rfl

section
variable {u : Upload}

theorem has_sub_plain {f : Found} (h : u.tree.Has f.sub f.name f.file) : ∀ d ∈ f.sub, Plain d := fun d hd =>
  has_plain u.valid h d (List.mem_append_left _ hd)

theorem reached_fullName {f : Found} (h : u.tree.Has f.sub f.name f.file) :
    reached u.cwd (fullName u.root f) = reached u.cwd u.root ++ f.sub ++ [f.name] := by
  rw [fullName_eq, key, reached_join u.cwd u.root_ne_nil (has_plain u.valid h), List.append_assoc]

theorem relpath_dirname {f : Found} (h : u.tree.Has f.sub f.name f.file) :
    relpath (render u.cwd) (dirname (fullName u.root f)) =
      joinSteps (steps u.cwd (reached u.cwd u.root ++ f.sub)) := by
  have hplain := has_plain u.valid h
  have hname : slash ∉ f.name := (hplain f.name (List.mem_append_right _ List.mem_cons_self)).no_slash
  have hjoined : join u.root f.sub ≠ [] := by
    obtain ⟨-, behind, hbehind⟩ := join_spec [] u.root fun c hc => (has_sub_plain h c hc).no_slash
    rw [hbehind]
    exact List.append_ne_nil_of_left_ne_nil u.root_ne_nil behind
  rw [relpath_eq u.cwd_plain, fullName, reached_dirname u.cwd hjoined hname,
    reached_join u.cwd u.root_ne_nil (has_sub_plain h)]

/-- What the second walk goes into. -/
theorem entry_kept_iff {name : Text} (hname : slash ∉ name) :
    kept (render u.cwd) u.root u.tree name = true ↔ ¬Skips u name := by
  have hany : (exclude (render u.cwd) u.root u.tree).any (·.isPrefixOf name) = true ↔ Skips u name := by
    rw [exclude, List.any_cons, Bool.or_eq_true, List.isPrefixOf_iff_prefix, List.any_eq_true, Skips]
    apply or_congr_right
    constructor
    · rintro ⟨e, he, hprefix⟩
      obtain ⟨f, hf, rfl⟩ := List.mem_map.mp he
      obtain ⟨hwalk, hmarked⟩ := List.mem_filter.mp hf
      have hfile := (mem_walkTree.mp hwalk).1
      rw [List.isPrefixOf_iff_prefix, relpath_dirname hfile] at hprefix
      have hplace : ∀ c ∈ reached u.cwd u.root ++ f.sub, Plain c := fun c hc =>
        (List.mem_append.mp hc).elim (plain_reached u.cwd_plain u.root c) (has_sub_plain hfile c)
      exact ⟨f, hfile, hmarked, (joinSteps_prefix_iff (step_spec hplace) hname).mp hprefix⟩
    · rintro ⟨f, hfile, hmarked, hsingle⟩
      have hplace : ∀ c ∈ reached u.cwd u.root ++ f.sub, Plain c := fun c hc =>
        (List.mem_append.mp hc).elim (plain_reached u.cwd_plain u.root c) (has_sub_plain hfile c)
      have hwalk : f ∈ walkTree (fun _ => true) u.tree := mem_walkTree.mpr ⟨hfile, fun _ _ => rfl⟩
      refine ⟨_, List.mem_map.mpr ⟨f, List.mem_filter.mpr ⟨hwalk, hmarked⟩, rfl⟩, ?_⟩
      rw [List.isPrefixOf_iff_prefix, relpath_dirname hfile]
      exact (joinSteps_prefix_iff (step_spec hplace) hname).mpr hsingle
  rw [kept, Bool.not_eq_true', ← hany, Bool.not_eq_true]

/-- The files that are archived. -/
def archived (u : Upload) : List Found :=
  (walkTree (kept (render u.cwd) u.root u.tree) u.tree).filter fun f => !isPyc f.name

theorem mem_archived {f : Found} :
    f ∈ archived u ↔ u.tree.Has f.sub f.name f.file ∧ isPyc f.name = false ∧ ¬∃ d ∈ f.sub, Skips u d := by
  rw [archived, List.mem_filter, mem_walkTree, Bool.not_eq_true', and_assoc, and_comm (b := isPyc f.name = false)]
  refine and_congr_right fun hfile => and_congr_right fun _ => ?_
  rw [not_exists]
  refine forall_congr' fun d => ?_
  rw [not_and]
  refine forall_congr' fun hd => entry_kept_iff (has_sub_plain hfile d hd).no_slash

theorem nodup_archived (u : Upload) : ((archived u).map archivePath).Nodup :=
  (nodup_archivePath _ u.valid).sublist (List.filter_sublist.map archivePath)

theorem zipDir_eq {limit : Option Nat} (h : ∀ l ∈ limit, u.tree.size ≤ l) :
    zipDir limit (render u.cwd) u.root u.tree =
      .ok ⟨(archived u).map member, (archived u).map (mapping (render u.cwd) u.root)⟩ := by
  have hfits : ∀ l ∈ limit, 0 + total (walkTree (kept (render u.cwd) u.root u.tree) u.tree) ≤ l := fun l hl => by
    rw [Nat.zero_add]
    exact (total_walkTree _ u.tree).trans (h l hl)
  have hadd := foldl_add (render u.cwd) u.root {} (nodup_archived u)
  rw [zipDir, addAll_ok _ _ _ hfits]
  exact congrArg Except.ok hadd

end

/-- **When an upload holds the module.** Within the size limit the archive and its manifest are those of the files that
belong into it where the names of the directories tell which files are hidden. -/
theorem faithful_iff (u : Upload) (limit : Option Nat) (h : ∀ l ∈ limit, u.tree.size ≤ l) :
    (∃ zipped, zipDir limit (render u.cwd) u.root u.tree = .ok zipped ∧ Faithful u.cwd u.root u.tree zipped) ↔
      NamesTell u := by
  rw [zipDir_eq h]
  constructor
  · rintro ⟨zipped, hzipped, hfaithful⟩ f hfile hpyc
    obtain rfl := Except.ok.inj hzipped
    have hmember := hfaithful.exactly (member f)
    have hsame {g : Found} (hg : u.tree.Has g.sub g.name g.file) (heq : member f = member g) : f.sub = g.sub :=
      (archivePath_inj u.valid hfile hg (congrArg Member.filename heq)).1
    rw [← not_iff_not]
    constructor
    · intro hskips
      have hin : member f ∈ (archived u).map member :=
        List.mem_map_of_mem (mem_archived.mpr ⟨hfile, hpyc, hskips⟩)
      obtain ⟨g, hbelongs, heq⟩ := hmember.mp hin
      rw [hsame hbelongs.1 heq]
      exact hbelongs.2.2
    · intro hhidden
      obtain ⟨g, hg, heq⟩ := List.mem_map.mp (hmember.mpr ⟨f, ⟨hfile, hpyc, hhidden⟩, rfl⟩)
      obtain ⟨hgfile, -, hskips⟩ := mem_archived.mp hg
      rw [hsame hgfile heq.symm]
      exact hskips
  · intro htell
    have hbelongs (f : Found) : f ∈ archived u ↔ Belongs u.tree f := by
      rw [mem_archived, Belongs]
      exact and_congr_right fun hfile => and_congr_right fun hpyc => not_congr (htell f hfile hpyc)
    have hkeys : ((archived u).map (mapping (render u.cwd) u.root)).map Prod.fst = (archived u).map archivePath := by
      rw [List.map_map]
      rfl
    have hfilenames : ((archived u).map member).map Member.filename = (archived u).map archivePath := by
      rw [List.map_map]
      rfl
    refine ⟨_, rfl, fun m => ?_, ?_, ?_, fun f hf => ?_⟩
    · rw [List.mem_map]
      exact exists_congr fun f => and_congr (hbelongs f) eq_comm
    · rw [hfilenames]
      exact nodup_archived u
    · rw [hkeys, hfilenames]
    · have hmem : (archivePath f, abspath (render u.cwd) (fullName u.root f)) ∈
          (archived u).map (mapping (render u.cwd) u.root) :=
        List.mem_map_of_mem ((hbelongs f).mpr hf)
      have hnodup : (((archived u).map (mapping (render u.cwd) u.root)).map Prod.fst).Nodup := by
        rw [hkeys]
        exact nodup_archived u
      obtain ⟨habs, hlocation, -⟩ := abspath_spec u.cwd_plain (fullName u.root f)
      exact ⟨_, lookup_of_mem hnodup hmem, habs, hlocation.trans (reached_fullName hf.1)⟩

def mainPy : Text := ['m', '.', 'p', 'y']

/-- A script beside its repository. -/
def script : Upload where
  cwd := [['w']]
  root := ['m']
  tree := .dir gitDir (.file ['H'] ⟨0o100644, [1]⟩ .nil) (.file mainPy ⟨0o100755, [2]⟩ .nil)
  cwd_plain := by decide
  root_ne_nil := by decide
  valid := ⟨by decide, by decide, ⟨by decide, by decide, trivial⟩, by decide, by decide, trivial⟩

theorem script_uploaded :
    ∃ zipped, zipDir (some 2) (render script.cwd) script.root script.tree = .ok zipped ∧
      Faithful script.cwd script.root script.tree zipped := by
  apply (faithful_iff script (some 2) (by decide)).mpr
  rintro ⟨sub, name, file⟩ hfile hpyc
  rcases hfile with ⟨below, rfl, hbelow⟩ | ⟨rfl, rfl, rfl⟩ | hnone
  · exact ⟨fun _ => Or.inl List.mem_cons_self, fun _ => ⟨gitDir, List.mem_cons_self, Or.inl List.prefix_rfl⟩⟩
  · constructor
    · rintro ⟨d, hd, -⟩
      exact absurd hd List.not_mem_nil
    · rintro (hgit | ⟨venv, hvenv, cfg, hcfg⟩)
      · exact absurd hgit List.not_mem_nil
      · obtain rfl := List.prefix_nil.mp hvenv
        rcases hcfg with ⟨below, hbelow, -⟩ | ⟨-, hname, -⟩ | hnone
        · cases hbelow
        · exact absurd hname (by decide)
        · exact hnone.elim
  · exact hnone.elim

def envTree : Tree := .dir ['e'] (.file pyvenvCfg ⟨0o100644, [1]⟩ .nil) .nil

/-- From the directory above the module, its virtual environment is uploaded. -/
theorem env_uploaded :
    ¬∃ zipped, zipDir none (render [['w']]) ['m'] envTree = .ok zipped ∧ Faithful [['w']] ['m'] envTree zipped := by
  rintro ⟨zipped, hzipped, hfaithful⟩
  have hrun : zipDir none (render [['w']]) ['m'] envTree =
      .ok ⟨[⟨"e/pyvenv.cfg".toList, 0o100644 <<< 16, [1]⟩],
        [("e/pyvenv.cfg".toList, "/w/m/e/pyvenv.cfg".toList)]⟩ := by decide +kernel
  obtain rfl := Except.ok.inj (hrun.symm.trans hzipped)
  obtain ⟨f, ⟨hfile, -, hhidden⟩, -⟩ := (hfaithful.exactly _).mp List.mem_cons_self
  apply hhidden
  rcases hfile with ⟨below, hsub, hfile⟩ | hnone
  · have hcfg : envTree.Has [['e']] pyvenvCfg ⟨0o100644, [1]⟩ := Or.inl ⟨[], rfl, Or.inl ⟨rfl, rfl, rfl⟩⟩
    exact Or.inr ⟨[['e']], hsub ▸ ⟨below, rfl⟩, _, hcfg⟩
  · exact hnone.elim

end Lager.Cli.ZipDir
