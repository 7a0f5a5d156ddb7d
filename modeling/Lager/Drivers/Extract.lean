import Lager.Drivers.Store
import Lager.Py.Path
import Lager.Py.Text
import Mathlib.Algebra.GroupWithZero.Nat

/-!
# Unpacking a driver bundle

`_bundle_root` and `_extract` of `drivers/registry.py`. Every file that is written lies below the destination, at the
place its name has below the bundle's root. The directory `.deps` is the box's own, and a name that begins with it is
refused; a name that only leads there, such as `./.deps/x`, is not.

The archive is the list of its entries, `none` for data that is no zip file. Reading an entry may fail. Files are
written into a new directory, where the only thing that stands in the way is a file written before.
-/

namespace Lager.Drivers.Bundle

open Lager.Lib Lager.Py Lager.Py.Path

/-! ### The archive and the destination -/

/-- A `ZipInfo`, and what reading the entry gives. -/
structure Entry where
  filename : Text
  externalAttr : Nat
  fileSize : Nat
  content : Option Bytes
  deriving DecidableEq

def Entry.isDir (e : Entry) : Bool := e.filename.getLast? == some slash

/-- `stat.S_ISLNK(info.external_attr >> 16)` -/
def Entry.isLink (e : Entry) : Bool := (e.externalAttr >>> 16) &&& 0o170000 == 0o120000

/-- The directory to unpack into: a normal path from the root. -/
structure Dest where
  comps : List Text
  plain : ∀ c ∈ comps, Plain c
  ne_nil : comps ≠ []

def Dest.path (dest : Dest) : Text := render dest.comps

def MAX_UNPACKED_BYTES : Nat := 20 * 1024 * 1024

def MAX_FILES : Nat := 200

def manifestFile : Text := MANIFEST_FILE.toList

def depsDir : Text := DEPS_DIR.toList

/-- `name.split('/', 1)[0]` -/
def firstComponent (name : Text) : Text := name.takeWhile (· ≠ slash)

/-! ### The checks -/

/-- What the loop over the names lets through. -/
def nameAllowed (name : Text) : Bool :=
  let norm := normpath name
  !(isAbs name || decide ('\\' ∈ name) || decide (norm = dotdot) || (dotdot ++ [slash]).isPrefixOf norm ||
    decide (':' ∈ firstComponent name))

def noManifest : Error := .store 400 (s!"Bundle has no {MANIFEST_FILE} at its top level")

def notAllowed (name : Text) : Error := .store 400 ("Bundle path '" ++ String.ofList name ++ "' is not allowed")

attribute [local instance] lawfulBEq_text in
/-- `_bundle_root` -/
def bundleRoot (names : List Text) : Except Error Text :=
  if manifestFile ∈ names then .ok []
  else
    match (names.map firstComponent).dedup with
    | [top] => if top ++ slash :: manifestFile ∈ names then .ok (top ++ [slash]) else .error noManifest
    | _ => .error noManifest

/-- A file written before lies above or below: `makedirs` or `open` fails. -/
def blocked (written : List (Text × Bytes)) (target : Text) : Bool :=
  written.any fun w => (w.1 ++ [slash]).isPrefixOf target || (target ++ [slash]).isPrefixOf w.1

/-- The loop over the entries, with what it has written. -/
def unpack (dest : Dest) (root : Text) (written : List (Text × Bytes)) : List Entry → Except Error (List (Text × Bytes))
  | [] => .ok written
  | info :: rest =>
    if ¬root.isPrefixOf info.filename then unpack dest root written rest
    else
      let rel := info.filename.drop root.length
      if rel = [] then unpack dest root written rest
      else if firstComponent rel = depsDir then
        .error (.store 400 (s!"Bundle may not contain {DEPS_DIR}/; the box builds it " ++
          "from the requirements file"))
      else
        let target := normpath (join dest.path (rel.splitOn slash))
        if ¬(dest.path ++ [slash]).isPrefixOf target then .error (notAllowed info.filename)
        else if blocked written target then .error .os
        else
          match info.content with
          | some data => unpack dest root (written ++ [(target, data)]) rest
          | none => .error .os

/-- `_extract`: the files it writes, in order. -/
def extract (archive : Option (List Entry)) (dest : Dest) : Except Error (List (Text × Bytes)) :=
  match archive with
  | none => .error (.store 400 "Bundle is not a zip file")
  | some entries =>
    let infos := entries.filter fun e => !e.isDir
    if MAX_FILES < infos.length then .error (.store 413 s!"Bundle has more than {MAX_FILES} files")
    else if MAX_UNPACKED_BYTES < (infos.map Entry.fileSize).sum then
      .error (.store 413 s!"Bundle unpacks to more than {MAX_UNPACKED_BYTES / (1024 * 1024)} MB")
    else
      let names := infos.map Entry.filename
      match names.find? fun name => !nameAllowed name with
      | some name => .error (notAllowed name)
      | none =>
        match infos.find? Entry.isLink with
        | some info => .error (.store 400 ("Bundle entry '" ++ String.ofList info.filename ++ "' is a symlink"))
        | none => (bundleRoot names).bind fun root => unpack dest root [] infos

/-! ### What an unpack must leave -/

/-- The path lies strictly below the directory. -/
def Below (dir : List Text) (path : Text) : Prop := ∃ more, more ≠ [] ∧ location path = dir ++ more

/-- The regular entries below the bundle's root. -/
def belowRoot (entries : List Entry) (root : Text) : List Entry :=
  entries.filter fun e => !e.isDir && root.isPrefixOf e.filename && decide (e.filename ≠ root)

/-- Where an entry goes: what remains of its name after the root, normalised below the destination. -/
def place (dest : Dest) (root : Text) (e : Entry) : Text :=
  render (location (dest.path ++ slash :: e.filename.drop root.length))

/-- The files written are the regular entries below the bundle's root, each in its place below the destination and
none below `.deps`. -/
structure Kept (entries : List Entry) (root : Text) (dest : Dest) (written : List (Text × Bytes)) : Prop where
  inside : ∀ w ∈ written, Below dest.comps w.1
  apart : ∀ w ∈ written, ¬Below (dest.comps ++ [depsDir]) w.1
  exactly : List.Forall₂ (fun e w => w.1 = place dest root e ∧ e.content = some w.2) (belowRoot entries root) written

/-! ### Where a file goes -/

theorem target_eq (dest : Dest) (rel : Text) :
    normpath (join dest.path (rel.splitOn slash)) = render (walk true dest.comps (rel.splitOn slash)) :=
  normpath_join dest.plain dest.ne_nil fun _ hc => not_mem_of_mem_splitOn hc

theorem plain_target (dest : Dest) (rel : Text) : ∀ c ∈ walk true dest.comps (rel.splitOn slash), Plain c :=
  plain_walk dest.plain fun _ hc => not_mem_of_mem_splitOn hc

theorem place_eq (dest : Dest) (root : Text) (e : Entry) :
    place dest root e = render (walk true dest.comps ((e.filename.drop root.length).splitOn slash)) := by
  rw [place, location_append, Dest.path, location_render dest.plain]

theorem location_place (dest : Dest) (root : Text) (e : Entry) :
    location (place dest root e) = walk true dest.comps ((e.filename.drop root.length).splitOn slash) := by
  rw [place_eq, location_render (plain_target dest _)]

theorem drop_eq_nil_iff {root name : Text} (h : root.isPrefixOf name = true) :
    name.drop root.length = [] ↔ name = root := by
  obtain ⟨rel, rfl⟩ := List.isPrefixOf_iff_prefix.mp h
  simp

/-- The entries that are unpacked, out of those that are no directories. -/
def wanted (root : Text) (infos : List Entry) : List Entry :=
  infos.filter fun e => root.isPrefixOf e.filename && decide (e.filename ≠ root)

theorem wanted_cons_skip {root : Text} {info : Entry} {infos : List Entry}
    (h : root.isPrefixOf info.filename = true → info.filename = root) :
    wanted root (info :: infos) = wanted root infos := by
  apply List.filter_cons_of_neg
  simpa using h

theorem wanted_cons_take {root : Text} {info : Entry} {infos : List Entry}
    (hpre : root.isPrefixOf info.filename = true) (hne : info.filename ≠ root) :
    wanted root (info :: infos) = info :: wanted root infos := by
  apply List.filter_cons_of_pos
  simp [hpre, hne]

/-- Induction over the entries: each one that is wanted is written to its place, and the place is below the
destination. -/
theorem unpack_ok {dest : Dest} {root : Text} {infos : List Entry} {written result : List (Text × Bytes)}
    (h : unpack dest root written infos = .ok result) :
    ∃ more, result = written ++ more ∧ (∀ w ∈ more, Below dest.comps w.1) ∧
      List.Forall₂ (fun e w => w.1 = place dest root e ∧ e.content = some w.2) (wanted root infos) more := by
  induction infos generalizing written with
  | nil =>
    obtain rfl : written = result := Except.ok.inj h
    exact ⟨[], (List.append_nil written).symm, fun _ hw => absurd hw List.not_mem_nil, List.Forall₂.nil⟩
  | cons info infos ih =>
    unfold unpack at h
    dsimp only at h
    split_ifs at h with hpre hrel hdeps hinside hblocked
    · rw [wanted_cons_skip fun hp => (drop_eq_nil_iff hp).mp hrel]
      exact ih h
    · have hne : info.filename ≠ root := fun heq => hrel ((drop_eq_nil_iff hpre).mpr heq)
      cases hcontent : info.content with
      | none =>
        rw [hcontent] at h
        cases h
      | some data =>
        rw [hcontent] at h
        obtain ⟨more, rfl, hbelow, hplaces⟩ := ih h
        rw [target_eq] at hinside ⊢
        refine ⟨(render (walk true dest.comps ((info.filename.drop root.length).splitOn slash)), data) :: more,
          by rw [List.append_assoc, List.singleton_append], ?_, ?_⟩
        · intro w hw
          rcases List.mem_cons.mp hw with rfl | hw
          · have hlocation := (isPrefixOf_render_iff dest.plain dest.ne_nil (plain_target dest _)).mp hinside
            rw [Below, location_render (plain_target dest _)]
            exact hlocation
          · exact hbelow w hw
        · rw [wanted_cons_take hpre hne]
          exact List.Forall₂.cons ⟨(place_eq dest root info).symm, hcontent⟩ hplaces
    · rw [wanted_cons_skip fun hp => absurd hp hpre]
      exact ih h

theorem wanted_eq (entries : List Entry) (root : Text) :
    wanted root (entries.filter fun e => !e.isDir) = belowRoot entries root := by
  rw [wanted, belowRoot, List.filter_filter]
  apply List.filter_congr
  intro e _
  cases e.isDir <;> simp

/-- An archive that is unpacked passed every check, and the loop wrote the files. -/
theorem extract_ok {entries : List Entry} {dest : Dest} {written : List (Text × Bytes)} {root : Text}
    (h : extract (some entries) dest = .ok written)
    (hroot : bundleRoot ((entries.filter fun e => !e.isDir).map Entry.filename) = .ok root) :
    unpack dest root [] (entries.filter fun e => !e.isDir) = .ok written := by
  unfold extract at h
  dsimp only at h
  split_ifs at h
  split at h
  · cases h
  · split at h
    · cases h
    · rw [hroot] at h
      exact h

/-! ### The reserved directory -/

theorem forall_mem_iff_of_forall₂ {α β : Type} {R : α → β → Prop} {P : α → Prop} {Q : β → Prop} {l : List α}
    {m : List β} (h : List.Forall₂ R l m) (hiff : ∀ a b, R a b → (P a ↔ Q b)) :
    (∀ a ∈ l, P a) ↔ ∀ b ∈ m, Q b := by
  induction h with
  | nil => simp
  | cons hab _ ih => rw [List.forall_mem_cons, List.forall_mem_cons, hiff _ _ hab, ih]

/-- **Where a bundle unpacks.** Every file that an accepted archive makes lies below the destination in its entry's
place. The files stay out of `.deps` where no name, after the root and walked from the destination, leads into it. -/
theorem kept_iff {entries : List Entry} {dest : Dest} {written : List (Text × Bytes)} {root : Text}
    (h : extract (some entries) dest = .ok written)
    (hroot : bundleRoot ((entries.filter fun e => !e.isDir).map Entry.filename) = .ok root) :
    Kept entries root dest written ↔
      ∀ e ∈ belowRoot entries root, ¬∃ more, more ≠ [] ∧
        walk true dest.comps ((e.filename.drop root.length).splitOn slash) = dest.comps ++ depsDir :: more := by
  obtain ⟨more, hwritten, hbelow, hplaces⟩ := unpack_ok (extract_ok h hroot)
  rw [List.nil_append] at hwritten
  rw [← hwritten] at hbelow hplaces
  rw [wanted_eq] at hplaces
  have hapart := forall_mem_iff_of_forall₂
    (P := fun e => ¬∃ more, more ≠ [] ∧
      walk true dest.comps ((e.filename.drop root.length).splitOn slash) = dest.comps ++ depsDir :: more)
    (Q := fun w => ¬Below (dest.comps ++ [depsDir]) w.1) hplaces (by
      rintro e w ⟨hw, -⟩
      rw [hw, Below, location_place]
      simp only [List.append_assoc, List.singleton_append])
  rw [hapart]
  exact ⟨fun kept => kept.apart, fun apart => ⟨hbelow, apart, hplaces⟩⟩

def stagingDir : Dest where
  comps := [['d', 'r', 'v'], ['n', 'e', 'w']]
  plain := by decide
  ne_nil := by decide

def file (name : String) (content : Bytes) : Entry := ⟨name.toList, 0o100644 <<< 16, content.length, some content⟩

/-- The bundle folder itself, zipped. -/
theorem folder_kept :
    Kept [file "s/lager_driver.json" [1], file "s/driver.py" [2]] ['s', '/'] stagingDir
      [("/drv/new/lager_driver.json".toList, [1]), ("/drv/new/driver.py".toList, [2])] := by
  apply (kept_iff (by decide +kernel) (by decide +kernel)).mpr
  have hthird : ∀ e ∈ belowRoot [file "s/lager_driver.json" [1], file "s/driver.py" [2]] ['s', '/'],
      (walk true stagingDir.comps ((e.filename.drop 2).splitOn slash))[2]? ≠ some depsDir := by decide +kernel
  rintro e he ⟨more, -, hwalk⟩
  apply hthird e he
  have hget := congrArg (fun comps => comps[2]?) hwalk
  exact hget

/-- A leading `./` takes a file past the check into the directory of the installed packages. -/
theorem dot_deps :
    ∃ entries root written, extract (some entries) stagingDir = .ok written ∧
      bundleRoot ((entries.filter fun e => !e.isDir).map Entry.filename) = .ok root ∧
      ¬Kept entries root stagingDir written := by
  refine ⟨[file "lager_driver.json" [1], file "./.deps/six.py" [2]], [],
    [("/drv/new/lager_driver.json".toList, [1]), ("/drv/new/.deps/six.py".toList, [2])],
    by decide +kernel, by decide +kernel, fun kept => ?_⟩
  have hplace : location "/drv/new/.deps/six.py".toList = stagingDir.comps ++ [depsDir] ++ ["six.py".toList] := by
    decide +kernel
  exact kept.apart _ (List.mem_cons_of_mem _ List.mem_cons_self) ⟨["six.py".toList], by decide, hplace⟩

end Lager.Drivers.Bundle
