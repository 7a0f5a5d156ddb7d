import Lager.Lib.Split
import Mathlib.Data.List.DropRight

/-!
# Paths as texts

`normpath`, `join`, `basename`, `dirname`, `abspath` and `relpath` of `posixpath`. Under them lies the walk over the
components: a component is pushed, an empty one and `.` are left out, and `..` takes the last one back. A path that
starts at the root is `render` of where its walk ends (`location`), so that questions about texts become questions
about lists of components.
-/

namespace Lager.Py.Path

open Lager.Lib

abbrev Text := List Char

def slash : Char := '/'

def dot : Text := ['.']

def dotdot : Text := ['.', '.']

/-! ### The functions -/

/-- One pass of the loop of `normpath`. -/
def push (rooted : Bool) (stack : List Text) (comp : Text) : List Text :=
  if comp = [] ∨ comp = dot then stack
  else if comp ≠ dotdot ∨ (rooted = false ∧ stack = []) ∨ stack.getLast? = some dotdot then stack ++ [comp]
  else stack.dropLast

def walk (rooted : Bool) (stack comps : List Text) : List Text := comps.foldl (push rooted) stack

/-- How many slashes `normpath` leaves at the start. -/
def initialSlashes (path : Text) : Nat :=
  if ['/', '/', '/'].isPrefixOf path then 1
  else if ['/', '/'].isPrefixOf path then 2
  else if ['/'].isPrefixOf path then 1
  else 0

/-- `path or '.'` -/
def orDot (path : Text) : Text := if path = [] then dot else path

def normpath (path : Text) : Text :=
  orDot (List.replicate (initialSlashes path) slash ++
    [slash].intercalate (walk (initialSlashes path != 0) [] (path.splitOn slash)))

/-- `os.path.isabs` -/
def isAbs (path : Text) : Bool := path.head? == some slash

/-- `os.path.join` of two. -/
def join2 (path more : Text) : Text :=
  if isAbs more then more
  else if path = [] ∨ path.getLast? = some slash then path ++ more
  else path ++ slash :: more

/-- `os.path.join(path, *more)` -/
def join (path : Text) (more : List Text) : Text := more.foldl join2 path

/-- `os.path.basename` -/
def basename (path : Text) : Text := rest slash path

/-- `os.path.abspath` -/
def abspath (cwd path : Text) : Text := normpath (if isAbs path then path else join2 cwd path)

/-! ### Components -/

/-- A component that is a name. -/
structure Plain (comp : Text) : Prop where
  ne_nil : comp ≠ []
  ne_dot : comp ≠ dot
  ne_dotdot : comp ≠ dotdot
  no_slash : slash ∉ comp

instance (comp : Text) : Decidable (Plain comp) :=
  decidable_of_iff (comp ≠ [] ∧ comp ≠ dot ∧ comp ≠ dotdot ∧ slash ∉ comp)
    ⟨fun ⟨hnil, hdot, hdotdot, hslash⟩ => ⟨hnil, hdot, hdotdot, hslash⟩,
      fun h => ⟨h.ne_nil, h.ne_dot, h.ne_dotdot, h.no_slash⟩⟩

/-- Where a path from the root leads, with no link on the way. -/
def location (path : Text) : List Text := walk true [] (path.splitOn slash)

/-- The path from the root through the components. -/
def render (comps : List Text) : Text := slash :: [slash].intercalate comps

/-- A directory as the system names it. -/
structure Directory where
  comps : List Text
  plain : ∀ c ∈ comps, Plain c

def Directory.path (dir : Directory) : Text := render dir.comps

theorem push_plain {rooted : Bool} {stack : List Text} {comp : Text} (h : Plain comp) :
    push rooted stack comp = stack ++ [comp] := by
  rw [push, if_neg (not_or.mpr ⟨h.ne_nil, h.ne_dot⟩), if_pos (Or.inl h.ne_dotdot)]

theorem walk_append (rooted : Bool) (stack l m : List Text) :
    walk rooted stack (l ++ m) = walk rooted (walk rooted stack l) m := List.foldl_append

theorem walk_plain {rooted : Bool} {comps : List Text} (h : ∀ comp ∈ comps, Plain comp) (stack : List Text) :
    walk rooted stack comps = stack ++ comps := by
  induction comps generalizing stack with
  | nil => exact (List.append_nil stack).symm
  | cons comp comps ih =>
    have hrest := ih (fun c hc => h c (List.mem_cons_of_mem comp hc)) (stack ++ [comp])
    rw [walk, List.foldl_cons, push_plain (h comp List.mem_cons_self)]
    rw [walk] at hrest
    rw [hrest, List.append_assoc, List.singleton_append]

/-- From the root every component that stays is a name. -/
theorem plain_push {stack : List Text} {comp : Text} (hstack : ∀ c ∈ stack, Plain c) (hcomp : slash ∉ comp) :
    ∀ c ∈ push true stack comp, Plain c := by
  unfold push
  split_ifs with hskip hkeep
  · exact hstack
  · rw [not_or] at hskip
    have hlast : stack.getLast? ≠ some dotdot := fun h => (hstack _ (List.mem_of_getLast? h)).ne_dotdot rfl
    have hname : comp ≠ dotdot := by
      rcases hkeep with h | ⟨h, -⟩ | h
      · exact h
      · cases h
      · exact absurd h hlast
    intro c hc
    rcases List.mem_append.mp hc with hc | hc
    · exact hstack c hc
    · rw [List.mem_singleton.mp hc]
      exact ⟨hskip.1, hskip.2, hname, hcomp⟩
  · exact fun c hc => hstack c (List.dropLast_subset stack hc)

theorem plain_walk {comps stack : List Text} (hstack : ∀ c ∈ stack, Plain c) (hcomps : ∀ c ∈ comps, slash ∉ c) :
    ∀ c ∈ walk true stack comps, Plain c := by
  induction comps generalizing stack with
  | nil => exact hstack
  | cons comp comps ih =>
    exact ih (plain_push hstack (hcomps comp List.mem_cons_self)) fun c hc => hcomps c (List.mem_cons_of_mem comp hc)

theorem plain_concat {comps : List Text} {comp : Text} (h : ∀ c ∈ comps, Plain c) (hcomp : Plain comp) :
    ∀ c ∈ comps ++ [comp], Plain c := by
  intro c hc
  rcases List.mem_append.mp hc with hc | hc
  · exact h c hc
  · rwa [List.mem_singleton.mp hc]

theorem plain_location (path : Text) : ∀ c ∈ location path, Plain c :=
  plain_walk (fun _ h => absurd h List.not_mem_nil) fun _ hc => not_mem_of_mem_splitOn hc

/-! ### Paths from the root -/

theorem splitOn_render {comps : List Text} (h : ∀ c ∈ comps, Plain c) (hne : comps ≠ []) :
    (render comps).splitOn slash = [] :: comps := by
  have hsplit := List.splitOn_append_cons_self (a := slash) [] ([slash].intercalate comps)
  rw [List.nil_append, List.splitOn_intercalate slash (fun c hc => (h c hc).no_slash) hne] at hsplit
  exact hsplit

theorem location_render {comps : List Text} (h : ∀ c ∈ comps, Plain c) : location (render comps) = comps := by
  by_cases hne : comps = []
  · subst hne
    rfl
  · rw [location, splitOn_render h hne]
    exact walk_plain h []

theorem render_inj {l m : List Text} (hl : ∀ c ∈ l, Plain c) (hm : ∀ c ∈ m, Plain c) (h : render l = render m) :
    l = m := by
  rw [← location_render hl, h, location_render hm]

/-- One slash at the start: the normal path is the render of where the path leads. -/
theorem normpath_eq_render {path : Text} (h : initialSlashes path = 1) : normpath path = render (location path) := by
  unfold normpath orDot
  rw [h]
  exact if_neg (List.cons_ne_nil _ _)

theorem intercalate_append {l m : List Text} (hl : l ≠ []) (hm : m ≠ []) :
    [slash].intercalate (l ++ m) = [slash].intercalate l ++ slash :: [slash].intercalate m := by
  induction l with
  | nil => exact absurd rfl hl
  | cons c l ih =>
    by_cases hrest : l = []
    · subst hrest
      rw [List.singleton_append, List.intercalate_cons_of_ne_nil hm, List.intercalate_singleton, List.append_assoc,
        List.singleton_append]
    · have hne : l ++ m ≠ [] := List.append_ne_nil_of_left_ne_nil hrest m
      rw [List.cons_append, List.intercalate_cons_of_ne_nil hne, ih hrest, List.intercalate_cons_of_ne_nil hrest]
      simp only [List.append_assoc]

theorem render_append {l m : List Text} (hl : l ≠ []) (hm : m ≠ []) :
    render (l ++ m) = render l ++ slash :: [slash].intercalate m := by
  rw [render, intercalate_append hl hm]
  rfl

/-- The text of a path starts with that of a directory and a slash where the path leads below the directory. -/
theorem isPrefixOf_render_iff {dir comps : List Text} (hdir : ∀ c ∈ dir, Plain c) (hne : dir ≠ [])
    (hcomps : ∀ c ∈ comps, Plain c) :
    (render dir ++ [slash]).isPrefixOf (render comps) = true ↔ ∃ more, more ≠ [] ∧ comps = dir ++ more := by
  rw [List.isPrefixOf_iff_prefix]
  constructor
  · rintro ⟨behind, h⟩
    rw [List.append_assoc, List.singleton_append] at h
    have hcomps_ne : comps ≠ [] := by
      rintro rfl
      have hlength := congrArg List.length h
      have hpos := List.length_pos_of_ne_nil hne
      simp [render] at hlength
    have hsplit := List.splitOn_append_cons_self (a := slash) (render dir) behind
    rw [h, splitOn_render hcomps hcomps_ne, splitOn_render hdir hne, List.cons_append] at hsplit
    exact ⟨behind.splitOn slash, List.splitOn_ne_nil slash behind, (List.cons.inj hsplit).2⟩
  · rintro ⟨more, hmore, rfl⟩
    exact ⟨[slash].intercalate more, by rw [render_append hne hmore, List.append_assoc, List.singleton_append]⟩

/-- Below a directory: more components come. -/
theorem walk_splitOn_append (stack : List Text) (path more : Text) :
    walk true stack ((path ++ slash :: more).splitOn slash) =
      walk true (walk true stack (path.splitOn slash)) (more.splitOn slash) := by
  rw [List.splitOn_append_cons_self, walk_append]

theorem location_append (path more : Text) :
    location (path ++ slash :: more) = walk true (location path) (more.splitOn slash) :=
  walk_splitOn_append [] path more

/-! ### Joining -/

theorem isAbs_of_no_slash {comp : Text} (h : slash ∉ comp) : isAbs comp = false := by
  cases comp with
  | nil => rfl
  | cons c comp =>
    have hne : c ≠ slash := fun heq => h (heq ▸ List.mem_cons_self)
    simpa [isAbs] using hne

/-- A path that does not start at the root goes on where the first one leads. -/
theorem walk_join2 (stack : List Text) (path : Text) {more : Text} (h : isAbs more = false) :
    walk true stack ((join2 path more).splitOn slash) =
      walk true (walk true stack (path.splitOn slash)) (more.splitOn slash) := by
  rw [join2, h, if_neg (by decide)]
  by_cases hnil : path = []
  · rw [hnil, if_pos (Or.inl rfl)]
    rfl
  by_cases hlast : path.getLast? = some slash
  · obtain ⟨start, rfl⟩ := List.getLast?_eq_some_iff.mp hlast
    have hstart : walk true stack ((start ++ [slash]).splitOn slash) = walk true stack (start.splitOn slash) :=
      walk_splitOn_append stack start []
    rw [if_pos (Or.inr hlast), List.append_assoc, List.singleton_append, walk_splitOn_append, hstart]
  · rw [if_neg (not_or.mpr ⟨hnil, hlast⟩), walk_splitOn_append]

theorem exists_join2 (path : Text) {more : Text} (h : isAbs more = false) : ∃ behind, join2 path more = path ++ behind := by
  rw [join2, h, if_neg (by decide)]
  split_ifs
  · exact ⟨more, rfl⟩
  · exact ⟨slash :: more, rfl⟩

/-- Induction over the names: joining walks down, and keeps the start of the text. -/
theorem join_spec (stack : List Text) (path : Text) {comps : List Text} (h : ∀ c ∈ comps, slash ∉ c) :
    walk true stack ((join path comps).splitOn slash) = walk true (walk true stack (path.splitOn slash)) comps ∧
      ∃ behind, join path comps = path ++ behind := by
  induction comps generalizing path with
  | nil => exact ⟨rfl, [], (List.append_nil path).symm⟩
  | cons comp comps ih =>
    have hcomp := h comp List.mem_cons_self
    have habs := isAbs_of_no_slash hcomp
    obtain ⟨more, hmore⟩ := exists_join2 path habs
    obtain ⟨hwalk, rest, hrest⟩ := ih (join2 path comp) fun c hc => h c (List.mem_cons_of_mem comp hc)
    have hstep : join path (comp :: comps) = join (join2 path comp) comps := rfl
    have hsplit : comp.splitOn slash = [comp] := List.splitOn_eq_singleton hcomp
    rw [hstep, hwalk, hrest, walk_join2 stack path habs, hsplit, hmore]
    exact ⟨rfl, more ++ rest, List.append_assoc path more rest⟩

/-- Where a path leads that is taken from a directory. -/
def reached (cwd : List Text) (path : Text) : List Text :=
  if isAbs path then location path else walk true cwd (path.splitOn slash)

theorem isAbs_append {path : Text} (h : path ≠ []) (behind : Text) : isAbs (path ++ behind) = isAbs path := by
  obtain ⟨c, path, rfl⟩ := List.exists_cons_of_ne_nil h
  rfl

theorem isAbs_join2 (path : Text) {more : Text} (h : isAbs more = false) : isAbs (join2 path more) = isAbs path := by
  by_cases hnil : path = []
  · rw [hnil, join2, h, if_neg (by decide), if_pos (Or.inl rfl)]
    exact h
  · obtain ⟨behind, hbehind⟩ := exists_join2 path h
    rw [hbehind, isAbs_append hnil]

theorem reached_join2 (cwd : List Text) (path : Text) {more : Text} (h : isAbs more = false) :
    reached cwd (join2 path more) = walk true (reached cwd path) (more.splitOn slash) := by
  rw [reached, reached, isAbs_join2 path h]
  cases isAbs path with
  | true => exact walk_join2 [] path h
  | false => exact walk_join2 cwd path h

theorem reached_join2_abs (cwd : List Text) (path : Text) {more : Text} (h : isAbs more = true) :
    reached cwd (join2 path more) = location more := by
  rw [join2, if_pos h, reached, if_pos h]

/-- Names joined to each other, below where a path leads. -/
theorem reached_join2_join (cwd : List Text) (path : Text) {comp : Text} {comps : List Text}
    (h : ∀ c ∈ comp :: comps, Plain c) :
    reached cwd (join2 path (join comp comps)) = reached cwd path ++ comp :: comps := by
  have hcomp := h comp List.mem_cons_self
  obtain ⟨hwalk, behind, hbehind⟩ := join_spec (reached cwd path) comp fun c hc =>
    (h c (List.mem_cons_of_mem comp hc)).no_slash
  have habs : isAbs (join comp comps) = false := by
    rw [hbehind, isAbs_append hcomp.ne_nil, isAbs_of_no_slash hcomp.no_slash]
  have hsplit : comp.splitOn slash = [comp] := List.splitOn_eq_singleton hcomp.no_slash
  rw [reached_join2 cwd path habs, hwalk, hsplit, ← walk_append, List.singleton_append, walk_plain h]

/-- Names joined to a path lead below it. -/
theorem reached_join (cwd : List Text) {path : Text} (hpath : path ≠ []) {comps : List Text}
    (h : ∀ c ∈ comps, Plain c) : reached cwd (join path comps) = reached cwd path ++ comps := by
  have hslash : ∀ c ∈ comps, slash ∉ c := fun c hc => (h c hc).no_slash
  obtain ⟨hlocation, behind, hbehind⟩ := join_spec [] path hslash
  rw [reached, reached]
  have habs : isAbs (join path comps) = isAbs path := by
    rw [hbehind, isAbs_append hpath]
  rw [habs]
  cases isAbs path with
  | true => exact hlocation.trans (walk_plain h _)
  | false => exact (join_spec cwd path hslash).1.trans (walk_plain h _)

theorem plain_reached {cwd : List Text} (h : ∀ c ∈ cwd, Plain c) (path : Text) : ∀ c ∈ reached cwd path, Plain c := by
  unfold reached
  split_ifs
  · exact plain_location path
  · exact plain_walk h fun _ hc => not_mem_of_mem_splitOn hc

/-- A path that is a render starts with one slash, and so does what goes on from it. -/
theorem initialSlashes_render {comps : List Text} (h : ∀ c ∈ comps, Plain c) (hne : comps ≠ []) (more : Text) :
    initialSlashes (render comps ++ more) = 1 := by
  obtain ⟨comp, comps, rfl⟩ := List.exists_cons_of_ne_nil hne
  have hcomp := h comp List.mem_cons_self
  obtain ⟨c, name, rfl⟩ := List.exists_cons_of_ne_nil hcomp.ne_nil
  have hc : c ≠ slash := fun heq => hcomp.no_slash (heq ▸ List.mem_cons_self)
  have hstart : ∃ behind, render ((c :: name) :: comps) ++ more = slash :: c :: behind := by
    cases comps with
    | nil => exact ⟨name ++ more, by simp [render]⟩
    | cons comp comps =>
      exact ⟨name ++ slash :: ([slash].intercalate (comp :: comps) ++ more),
        by simp [render, List.intercalate_cons_cons]⟩
  obtain ⟨behind, hbehind⟩ := hstart
  have hsecond : ¬slash = c := fun heq => hc heq.symm
  rw [hbehind]
  simp only [initialSlashes, List.isPrefixOf_iff_prefix, List.cons_prefix_cons]
  rw [if_neg fun h => hsecond h.2.1, if_neg fun h => hsecond h.2.1]
  exact if_pos ⟨rfl, List.nil_prefix⟩

/-- The normal path of names joined to a path from the root. -/
theorem normpath_join {dir comps : List Text} (hdir : ∀ c ∈ dir, Plain c) (hne : dir ≠ [])
    (h : ∀ c ∈ comps, slash ∉ c) : normpath (join (render dir) comps) = render (walk true dir comps) := by
  obtain ⟨hlocation, more, hmore⟩ := join_spec [] (render dir) h
  have hdown : location (join (render dir) comps) = walk true dir comps := by
    rw [location, hlocation, ← location, location_render hdir]
  rw [normpath_eq_render (by rw [hmore, initialSlashes_render hdir hne]), hdown]

/-! ### Relative paths -/

/-- `os.path.dirname`: trailing slashes go, except from a path of slashes alone. -/
def dirname (path : Text) : Text :=
  let head := path.take (path.length - (basename path).length)
  if head.all (· = slash) then head else head.rdropWhile (· = slash)

/-- How far two lists agree. -/
def commonLength : List Text → List Text → Nat
  | c :: l, d :: m => if c = d then commonLength l m + 1 else 0
  | _, _ => 0

/-- `path.lstrip('/')`, split unless it is empty. -/
def tailComps (path : Text) : List Text :=
  let tail := path.dropWhile (· = slash)
  if tail = [] then [] else tail.splitOn slash

/-- The steps from one place to another. -/
def steps (start place : List Text) : List Text :=
  let i := commonLength start place
  List.replicate (start.length - i) dotdot ++ place.drop i

/-- `os.path.join(*comps)`, and `.` without components. -/
def joinSteps : List Text → Text
  | [] => dot
  | comp :: comps => join comp comps

/-- `os.path.relpath`, from the current directory. -/
def relpath (cwd path : Text) : Text := joinSteps (steps (tailComps (abspath cwd dot)) (tailComps (abspath cwd path)))

theorem initialSlashes_of_isAbs {path : Text} (h : isAbs path = true) :
    initialSlashes path = 1 ∨ initialSlashes path = 2 := by
  cases path with
  | nil => cases h
  | cons c path =>
    obtain rfl : c = slash := by simpa [isAbs] using h
    unfold initialSlashes
    split_ifs with h3 h2 h1
    · exact Or.inl rfl
    · exact Or.inr rfl
    · exact Or.inl rfl
    · exact absurd (by simp [slash]) h1

theorem normpath_of_isAbs {path : Text} (h : isAbs path = true) :
    normpath path = render (location path) ∨ normpath path = slash :: render (location path) := by
  rcases initialSlashes_of_isAbs h with hone | htwo
  · exact Or.inl (normpath_eq_render hone)
  · right
    unfold normpath orDot
    rw [htwo]
    exact if_neg (List.cons_ne_nil _ _)

/-- The components behind the slashes at the start. -/
theorem tailComps_render {comps : List Text} (h : ∀ c ∈ comps, Plain c) :
    tailComps (render comps) = comps ∧ tailComps (slash :: render comps) = comps := by
  have htail : ([slash].intercalate comps).dropWhile (· = slash) = [slash].intercalate comps ∧
      (comps ≠ [] → [slash].intercalate comps ≠ []) := by
    cases comps with
    | nil => exact ⟨rfl, fun h => absurd rfl h⟩
    | cons comp comps =>
      have hcomp := h comp List.mem_cons_self
      obtain ⟨c, name, rfl⟩ := List.exists_cons_of_ne_nil hcomp.ne_nil
      have hc : c ≠ slash := fun heq => hcomp.no_slash (heq ▸ List.mem_cons_self)
      have hstart : ∃ behind, [slash].intercalate ((c :: name) :: comps) = c :: behind := by
        cases comps with
        | nil => exact ⟨name, by simp⟩
        | cons comp comps => exact ⟨_, by simp [List.intercalate_cons_cons]; rfl⟩
      obtain ⟨behind, hbehind⟩ := hstart
      rw [hbehind]
      exact ⟨List.dropWhile_cons_of_neg (by simpa using hc), fun _ => List.cons_ne_nil c behind⟩
  have hone : (render comps).dropWhile (· = slash) = [slash].intercalate comps := by
    rw [render, List.dropWhile_cons_of_pos (by simp), htail.1]
  have htwo : (slash :: render comps).dropWhile (· = slash) = [slash].intercalate comps := by
    rw [List.dropWhile_cons_of_pos (by simp), hone]
  unfold tailComps
  dsimp only
  rw [hone, htwo, and_self_iff]
  by_cases hnil : comps = []
  · subst hnil
    rfl
  · rw [if_neg (htail.2 hnil)]
    exact List.splitOn_intercalate slash (fun c hc => (h c hc).no_slash) hnil

section
variable {cwd : List Text}

theorem abspath_cases (hcwd : ∀ c ∈ cwd, Plain c) (path : Text) :
    abspath (render cwd) path = render (reached cwd path) ∨
      abspath (render cwd) path = slash :: render (reached cwd path) := by
  unfold abspath reached
  cases habs : isAbs path with
  | true => exact normpath_of_isAbs habs
  | false =>
    have hjoined : isAbs (join2 (render cwd) path) = true := by
      rw [isAbs_join2 _ habs]
      rfl
    have hlocation : location (join2 (render cwd) path) = walk true cwd (path.splitOn slash) := by
      rw [location, walk_join2 [] _ habs]
      exact congrArg (walk true · (path.splitOn slash)) (location_render hcwd)
    have hnormal := normpath_of_isAbs hjoined
    rw [hlocation] at hnormal
    exact hnormal

/-- An absolute path leads where the path does that is taken from the directory. -/
theorem abspath_spec (hcwd : ∀ c ∈ cwd, Plain c) (path : Text) :
    isAbs (abspath (render cwd) path) = true ∧ location (abspath (render cwd) path) = reached cwd path ∧
      tailComps (abspath (render cwd) path) = reached cwd path := by
  have hplain := plain_reached hcwd path
  have htail := tailComps_render hplain
  rcases abspath_cases hcwd path with habs | habs
  · rw [habs]
    exact ⟨rfl, location_render hplain, htail.1⟩
  · have hcons : location (slash :: render (reached cwd path)) = location (render (reached cwd path)) :=
      location_append [] (render (reached cwd path))
    rw [habs]
    exact ⟨rfl, hcons.trans (location_render hplain), htail.2⟩

theorem relpath_eq (hcwd : ∀ c ∈ cwd, Plain c) (path : Text) :
    relpath (render cwd) path = joinSteps (steps cwd (reached cwd path)) := by
  rw [relpath, (abspath_spec hcwd dot).2.2, (abspath_spec hcwd path).2.2]
  rfl

/-- A slash at the end changes nothing. -/
theorem reached_concat_slash (cwd : List Text) {path : Text} (h : path ≠ []) :
    reached cwd (path ++ [slash]) = reached cwd path := by
  rw [reached, reached, isAbs_append h]
  cases isAbs path with
  | true => exact walk_splitOn_append [] path []
  | false => exact walk_splitOn_append cwd path []

/-- Induction from the end of the text. -/
theorem reached_rdropWhile (cwd : List Text) {path : Text} (h : ∃ c ∈ path, c ≠ slash) :
    reached cwd (path.rdropWhile (· = slash)) = reached cwd path := by
  induction path using List.reverseRecOn with
  | nil =>
    obtain ⟨c, hc, -⟩ := h
    exact absurd hc List.not_mem_nil
  | append_singleton path x ih =>
    by_cases hx : x = slash
    · subst hx
      have hbefore : ∃ c ∈ path, c ≠ slash := by
        obtain ⟨c, hc, hne⟩ := h
        rcases List.mem_append.mp hc with hc | hc
        · exact ⟨c, hc, hne⟩
        · exact absurd (List.mem_singleton.mp hc) hne
      have hne : path ≠ [] := by
        obtain ⟨c, hc, -⟩ := hbefore
        exact List.ne_nil_of_mem hc
      rw [List.rdropWhile_concat_pos _ _ _ (by simp), ih hbefore, reached_concat_slash cwd hne]
    · rw [List.rdropWhile_concat_neg _ _ _ (by simpa using hx)]

/-- The directory of a file leads where the directory does. -/
theorem reached_dirname (cwd : List Text) {dir name : Text} (hdir : dir ≠ []) (hname : slash ∉ name) :
    reached cwd (dirname (join2 dir name)) = reached cwd dir := by
  have hhead : ∃ head, join2 dir name = head ++ [slash] ++ name ∧ reached cwd (head ++ [slash]) = reached cwd dir := by
    rw [join2, isAbs_of_no_slash hname, if_neg (by decide)]
    by_cases hlast : dir.getLast? = some slash
    · obtain ⟨start, rfl⟩ := List.getLast?_eq_some_iff.mp hlast
      rw [if_pos (Or.inr hlast)]
      exact ⟨start, rfl, rfl⟩
    · rw [if_neg (not_or.mpr ⟨hdir, hlast⟩)]
      exact ⟨dir, by rw [List.append_assoc, List.singleton_append], reached_concat_slash cwd hdir⟩
  obtain ⟨head, hjoin, hreached⟩ := hhead
  have hbase : basename (join2 dir name) = name := by
    rw [hjoin, basename, rest_append, rest_concat, List.nil_append, (splitOn_of_not_mem hname).2]
  have htake : (join2 dir name).take ((join2 dir name).length - name.length) = head ++ [slash] := by
    rw [hjoin, List.length_append, Nat.add_sub_cancel_right, List.take_left]
  rw [dirname, hbase, htake]
  split_ifs with hall
  · exact hreached
  · rw [reached_rdropWhile cwd, hreached]
    simpa using hall

end

/-! ### What a relative path is a prefix of -/

theorem step_spec {start place : List Text} (h : ∀ c ∈ place, Plain c) :
    ∀ c ∈ steps start place, c ≠ [] ∧ slash ∉ c := by
  intro c hc
  rcases List.mem_append.mp hc with hc | hc
  · rw [List.eq_of_mem_replicate hc]
    exact ⟨by decide, by decide⟩
  · have hplain := h c (List.mem_of_mem_drop hc)
    exact ⟨hplain.ne_nil, hplain.no_slash⟩

/-- The only component of a path that has no other. -/
def single : List Text → Option Text
  | [] => some dot
  | [comp] => some comp
  | _ => none

/-- A path of two components or more has a slash, so that no name starts with it. -/
theorem joinSteps_prefix_iff {comps : List Text} (h : ∀ c ∈ comps, c ≠ [] ∧ slash ∉ c) {name : Text}
    (hname : slash ∉ name) : joinSteps comps <+: name ↔ ∃ c, single comps = some c ∧ c <+: name := by
  match comps with
  | [] => simp [joinSteps, single]
  | [comp] => simp [joinSteps, single, join]
  | comp :: other :: comps =>
    have hcomp := h comp List.mem_cons_self
    have hother := h other (List.mem_cons_of_mem comp List.mem_cons_self)
    have hlast : comp.getLast? ≠ some slash := fun hlast => hcomp.2 (List.mem_of_getLast? hlast)
    obtain ⟨-, behind, hbehind⟩ := @join_spec [] (join2 comp other) comps fun c hc =>
      (h c (List.mem_cons_of_mem comp (List.mem_cons_of_mem other hc))).2
    have hslash : slash ∈ joinSteps (comp :: other :: comps) := by
      have hjoin : joinSteps (comp :: other :: comps) = join (join2 comp other) comps := rfl
      rw [hjoin, hbehind, join2, isAbs_of_no_slash hother.2, if_neg (by decide),
        if_neg (not_or.mpr ⟨hcomp.1, hlast⟩)]
      simp
    constructor
    · exact fun hpre => absurd (hpre.subset hslash) hname
    · rintro ⟨c, hc, -⟩
      cases hc

end Lager.Py.Path
