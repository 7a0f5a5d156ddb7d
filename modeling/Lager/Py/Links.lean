import Lager.Py.Path
import Lager.Py.Text

/-!
# Symbolic links

How the operating system reads a path: one component after another, a link's target in the link's place. A place is
where the links have led, the components from the root with no link among them. What a path leads to is told by the
last link that is followed: from there on it leads where the text says (`resolve_eq`).
-/

namespace Lager.Py.Path

open Lager.Lib

inductive Inode where
  | dir
  | file (content : Bytes)
  | link (target : Text)
  deriving DecidableEq

/-- What stands at each place. -/
abbrev FileSystem := List Text → Option Inode

def FileSystem.isDir (fs : FileSystem) (place : List Text) : Bool := decide (place = [] ∨ fs place = some .dir)

def FileSystem.put (fs : FileSystem) (place : List Text) (node : Inode) : FileSystem := fun other =>
  if other = place then some node else fs other

/-- How many links are followed before the path is given up. -/
def MAXSYMLINKS : Nat := 40

/-! ### Reading a path -/

/-- Down to the first link, where `follow` goes on; nothing has to stand at the last component. -/
def descend (fs : FileSystem) (follow : List Text → List Text → Option (List Text)) (place : List Text) :
    List Text → Option (List Text)
  | [] => some place
  | comp :: comps =>
    if comp = [] ∨ comp = dot then descend fs follow place comps
    else if comp = dotdot then descend fs follow place.dropLast comps
    else
      match fs (place ++ [comp]) with
      | some .dir => descend fs follow (place ++ [comp]) comps
      | some (.link target) => follow (if isAbs target then [] else place) (target.splitOn slash ++ comps)
      | some (.file _) => if comps = [] then some (place ++ [comp]) else none
      | none => if comps = [] then some (place ++ [comp]) else none

/-- The place that the components lead to, with so many links at most. -/
def resolveFrom (fs : FileSystem) : Nat → List Text → List Text → Option (List Text)
  | 0 => descend fs fun _ _ => none
  | links + 1 => descend fs (resolveFrom fs links)

/-- The place of a path from the root. -/
def resolve (fs : FileSystem) (path : Text) : Option (List Text) := resolveFrom fs MAXSYMLINKS [] (path.splitOn slash)

/-- The first link on the way: where its target starts, and the components from there. -/
def firstJump (fs : FileSystem) (follow : List Text → List Text → List Text × List Text) (place : List Text) :
    List Text → Option (List Text × List Text)
  | [] => none
  | comp :: comps =>
    if comp = [] ∨ comp = dot then firstJump fs follow place comps
    else if comp = dotdot then firstJump fs follow place.dropLast comps
    else
      match fs (place ++ [comp]) with
      | some .dir => firstJump fs follow (place ++ [comp]) comps
      | some (.link target) => some (follow (if isAbs target then [] else place) (target.splitOn slash ++ comps))
      | some (.file _) => none
      | none => none

/-- The last link on the way. -/
def jumpFrom (fs : FileSystem) : Nat → List Text → List Text → Option (List Text × List Text)
  | 0 => firstJump fs Prod.mk
  | links + 1 => firstJump fs fun place comps => (jumpFrom fs links place comps).getD (place, comps)

def lastJump (fs : FileSystem) (path : Text) : Option (List Text × List Text) :=
  jumpFrom fs MAXSYMLINKS [] (path.splitOn slash)

/-! ### Where a path leads -/

theorem push_dotdot {place : List Text} (h : dotdot ∉ place) : push true place dotdot = place.dropLast := by
  have hlast : place.getLast? ≠ some dotdot := fun hlast => h (List.mem_of_getLast? hlast)
  rw [push, if_neg (by decide), if_neg]
  simpa using hlast

theorem push_name {place : List Text} {comp : Text} (hskip : ¬(comp = [] ∨ comp = dot)) (hname : comp ≠ dotdot) :
    push true place comp = place ++ [comp] := by
  rw [push, if_neg hskip, if_pos (Or.inl hname)]

theorem walk_cons (place : List Text) (comp : Text) (comps : List Text) :
    walk true place (comp :: comps) = walk true (push true place comp) comps := rfl

/-- Where the text leads from the last link on, and from the start without one. -/
def landing (place comps : List Text) : Option (List Text × List Text) → List Text
  | none => walk true place comps
  | some (start, rest) => walk true start rest

theorem landing_eq_getD (place comps : List Text) (jump : Option (List Text × List Text)) :
    landing place comps jump = walk true (jump.getD (place, comps)).1 (jump.getD (place, comps)).2 := by
  cases jump <;> rfl

theorem landing_cons (place : List Text) (comp : Text) (comps : List Text) (jump : Option (List Text × List Text)) :
    landing place (comp :: comps) jump = landing (push true place comp) comps jump := by
  cases jump <;> rfl

/-- Induction over the components. -/
theorem descend_eq {fs : FileSystem} {follow : List Text → List Text → Option (List Text)}
    {jump : List Text → List Text → List Text × List Text} {comps place found : List Text} (hplace : dotdot ∉ place)
    (hfollow : ∀ start rest, dotdot ∉ start → follow start rest = some found →
      found = walk true (jump start rest).1 (jump start rest).2)
    (h : descend fs follow place comps = some found) :
    found = landing place comps (firstJump fs jump place comps) := by
  induction comps generalizing place with
  | nil => exact (Option.some.inj h).symm
  | cons comp comps ih =>
    rw [descend] at h
    rw [landing_cons, firstJump]
    by_cases hskip : comp = [] ∨ comp = dot
    · rw [if_pos hskip] at h ⊢
      rw [push, if_pos hskip]
      exact ih hplace h
    rw [if_neg hskip] at h ⊢
    by_cases hup : comp = dotdot
    · rw [if_pos hup] at h ⊢
      subst hup
      rw [push_dotdot hplace]
      exact ih (fun hmem => hplace (List.dropLast_subset place hmem)) h
    rw [if_neg hup] at h ⊢
    rw [push_name hskip hup]
    have hdown : dotdot ∉ place ++ [comp] := by
      rw [List.mem_append, List.mem_singleton, not_or]
      exact ⟨hplace, fun heq => hup heq.symm⟩
    cases hnode : fs (place ++ [comp]) with
    | none =>
      rw [hnode] at h
      dsimp only at h
      split_ifs at h with hlast
      subst hlast
      exact (Option.some.inj h).symm
    | some node =>
      rw [hnode] at h
      cases node with
      | dir => exact ih hdown h
      | file content =>
        dsimp only at h
        split_ifs at h with hlast
        subst hlast
        exact (Option.some.inj h).symm
      | link target =>
        have hstart : dotdot ∉ (if isAbs target then [] else place) := by
          split_ifs
          · exact List.not_mem_nil
          · exact hplace
        exact hfollow _ _ hstart h

theorem resolveFrom_eq {fs : FileSystem} {links : Nat} {place comps found : List Text} (hplace : dotdot ∉ place)
    (h : resolveFrom fs links place comps = some found) :
    found = landing place comps (jumpFrom fs links place comps) := by
  induction links generalizing place comps with
  | zero => exact descend_eq hplace (fun _ _ _ hnone => absurd hnone (by simp)) h
  | succ links ih =>
    refine descend_eq hplace (fun start rest hstart hfound => ?_) h
    rw [← landing_eq_getD]
    exact ih hstart hfound

/-- **What a path leads to.** The last link that is followed tells, and without one the text. -/
theorem resolve_eq {fs : FileSystem} {path : Text} {found : List Text} (h : resolve fs path = some found) :
    found = landing [] (path.splitOn slash) (lastJump fs path) := resolveFrom_eq List.not_mem_nil h

/-- What holds of the place the text gives holds of the place that is found if it does behind the last link. -/
theorem resolve_iff {fs : FileSystem} {path : Text} {found : List Text} {P : List Text → Prop}
    (h : resolve fs path = some found) (htext : lastJump fs path = none → P (location path)) :
    P found ↔ ∀ start rest, lastJump fs path = some (start, rest) → P (walk true start rest) := by
  rw [resolve_eq h]
  cases hjump : lastJump fs path with
  | none => exact ⟨fun _ _ _ heq => (Option.some_ne_none _ heq.symm).elim, fun _ => htext hjump⟩
  | some jump =>
    constructor
    · rintro hfound start rest heq
      obtain rfl := Option.some.inj heq
      exact hfound
    · exact fun hall => hall jump.1 jump.2 rfl

/-! ### A directory and its entries -/

theorem firstJump_append {fs : FileSystem} {follow follow' : List Text → List Text → List Text × List Text}
    {comps more place : List Text} (h : firstJump fs follow place (comps ++ more) = none) :
    firstJump fs follow' place comps = none := by
  induction comps generalizing place with
  | nil => rfl
  | cons comp comps ih =>
    rw [List.cons_append, firstJump] at h
    rw [firstJump]
    by_cases hskip : comp = [] ∨ comp = dot
    · rw [if_pos hskip] at h ⊢
      exact ih h
    rw [if_neg hskip] at h ⊢
    by_cases hup : comp = dotdot
    · rw [if_pos hup] at h ⊢
      exact ih h
    rw [if_neg hup] at h ⊢
    cases hnode : fs (place ++ [comp]) with
    | none => rfl
    | some node =>
      rw [hnode] at h
      cases node with
      | dir => exact ih h
      | file content => rfl
      | link target => cases h

theorem jumpFrom_eq (fs : FileSystem) (links : Nat) :
    ∃ follow, jumpFrom fs links = firstJump fs follow := by
  cases links with
  | zero => exact ⟨_, rfl⟩
  | succ links => exact ⟨_, rfl⟩

theorem splitOn_render_concat {dir : List Text} {name : Text} (hdir : ∀ c ∈ dir, Plain c) (hname : Plain name) :
    (render (dir ++ [name])).splitOn slash = [] :: dir ++ [name] :=
  splitOn_render (plain_concat hdir hname) (by simp)

/-- No link on the way to an entry: none on the way to the directory. -/
theorem lastJump_dir {fs : FileSystem} {dir : List Text} {name : Text} (hdir : ∀ c ∈ dir, Plain c) (hne : dir ≠ [])
    (hname : Plain name) (h : lastJump fs (render (dir ++ [name])) = none) : lastJump fs (render dir) = none := by
  obtain ⟨follow, hfollow⟩ := jumpFrom_eq fs MAXSYMLINKS
  rw [lastJump, hfollow, splitOn_render_concat hdir hname] at h
  rw [lastJump, hfollow, splitOn_render hdir hne]
  exact firstJump_append h

theorem descend_left {fs : FileSystem} {follow : List Text → List Text → Option (List Text)}
    {place comps more found : List Text}
    (hfollow : ∀ start rest, follow start (rest ++ more) = some found → ∃ before, follow start rest = some before)
    (h : descend fs follow place (comps ++ more) = some found) :
    ∃ before, descend fs follow place comps = some before := by
  induction comps generalizing place with
  | nil => exact ⟨place, rfl⟩
  | cons comp comps ih =>
    rw [List.cons_append, descend] at h
    rw [descend]
    by_cases hskip : comp = [] ∨ comp = dot
    · rw [if_pos hskip] at h ⊢
      exact ih h
    rw [if_neg hskip] at h ⊢
    by_cases hup : comp = dotdot
    · rw [if_pos hup] at h ⊢
      exact ih h
    rw [if_neg hup] at h ⊢
    have hlast (hnil : comps ++ more = []) : comps = [] := (List.append_eq_nil_iff.mp hnil).1
    cases hnode : fs (place ++ [comp]) with
    | none =>
      rw [hnode] at h
      dsimp only at h ⊢
      split_ifs at h with hnil
      exact ⟨_, if_pos (hlast hnil)⟩
    | some node =>
      rw [hnode] at h
      cases node with
      | dir => exact ih h
      | file content =>
        dsimp only at h ⊢
        split_ifs at h with hnil
        exact ⟨_, if_pos (hlast hnil)⟩
      | link target =>
        dsimp only at h ⊢
        rw [← List.append_assoc] at h
        exact hfollow _ _ h

theorem resolveFrom_left {fs : FileSystem} {links : Nat} {place comps more found : List Text}
    (h : resolveFrom fs links place (comps ++ more) = some found) :
    ∃ before, resolveFrom fs links place comps = some before := by
  induction links generalizing place comps with
  | zero => exact descend_left (fun _ _ hnone => absurd hnone (by simp)) h
  | succ links ih => exact descend_left (fun _ _ => ih) h

/-- Where the way to an entry has no link, the directory is where its text says. -/
theorem resolve_dir {fs : FileSystem} {dir : List Text} {name : Text} {found : List Text} (hdir : ∀ c ∈ dir, Plain c)
    (hne : dir ≠ []) (hname : Plain name) (h : resolve fs (render (dir ++ [name])) = some found)
    (hjump : lastJump fs (render (dir ++ [name])) = none) : resolve fs (render dir) = some dir := by
  rw [resolve, splitOn_render_concat hdir hname] at h
  obtain ⟨before, hbefore⟩ := resolveFrom_left h
  rw [← splitOn_render hdir hne] at hbefore
  have heq := resolve_eq hbefore
  rw [lastJump_dir hdir hne hname hjump] at heq
  rw [resolve, hbefore, heq]
  exact congrArg some (location_render hdir)

/-! ### Writing -/

theorem descend_put {fs : FileSystem} (follow : List Text → List Text → Option (List Text)) {found : List Text}
    (content : Bytes) (hfound : fs found = none ∨ ∃ old, fs found = some (.file old)) (place comps : List Text) :
    descend (fs.put found (.file content)) follow place comps = descend fs follow place comps := by
  induction comps generalizing place with
  | nil => rfl
  | cons comp comps ih =>
    rw [descend, descend]
    by_cases hskip : comp = [] ∨ comp = dot
    · rw [if_pos hskip, if_pos hskip]
      exact ih place
    rw [if_neg hskip, if_neg hskip]
    by_cases hup : comp = dotdot
    · rw [if_pos hup, if_pos hup]
      exact ih place.dropLast
    rw [if_neg hup, if_neg hup]
    by_cases hhere : place ++ [comp] = found
    · rw [FileSystem.put, if_pos hhere, hhere]
      rcases hfound with hnone | ⟨old, hold⟩
      · rw [hnone]
      · rw [hold]
    · rw [FileSystem.put, if_neg hhere]
      cases fs (place ++ [comp]) with
      | none => rfl
      | some node =>
        cases node with
        | dir => exact ih (place ++ [comp])
        | file old => rfl
        | link target => rfl

/-- Writing a file where none or another one stands changes no way. -/
theorem resolve_put {fs : FileSystem} {found : List Text} (content : Bytes)
    (hfound : fs found = none ∨ ∃ old, fs found = some (.file old)) (path : Text) :
    resolve (fs.put found (.file content)) path = resolve fs path := by
  have hlinks (links : Nat) : resolveFrom (fs.put found (.file content)) links = resolveFrom fs links := by
    induction links with
    | zero =>
      funext place comps
      exact descend_put _ content hfound place comps
    | succ links ih =>
      funext place comps
      rw [resolveFrom, resolveFrom, ih]
      exact descend_put _ content hfound place comps
  rw [resolve, hlinks]
  rfl

end Lager.Py.Path
