import Mathlib.Data.List.Infix
import Mathlib.Tactic.SplitIfs

/-!
# File trees

A tree of files is what stands at each path: nothing, a directory or a file. Removing and moving act on everything
under a path, and a removal may leave some of it. `under` is the tree at a path, which is what a directory holds;
`Apart` paths have nothing in common, and what an operation does at one is not seen at the other.
-/

namespace Lager.Lib

inductive Node (β : Type) where
  | dir
  | file (content : β)
  deriving DecidableEq

/-- What stands at each path. -/
abbrev Tree (ν β : Type) := List ν → Option (Node β)

namespace Tree

variable {ν β : Type} [DecidableEq ν]

def isDir (t : Tree ν β) (p : List ν) : Bool :=
  match t p with
  | some .dir => true
  | _ => false

def isFile (t : Tree ν β) (p : List ν) : Bool :=
  match t p with
  | some (.file _) => true
  | _ => false

def content (t : Tree ν β) (p : List ν) : Option β :=
  match t p with
  | some (.file content) => some content
  | _ => none

/-- The tree at `p`. -/
def under (t : Tree ν β) (p : List ν) : Tree ν β := fun q => t (p ++ q)

def put (t : Tree ν β) (p : List ν) (n : Node β) : Tree ν β := fun q => if q = p then some n else t q

/-- All of `p` is gone but for the paths that `kept` says. -/
def remove (t : Tree ν β) (p : List ν) (kept : List ν → Bool) : Tree ν β := fun q =>
  if p <+: q ∧ kept q = false then none else t q

def move (t : Tree ν β) (src dst : List ν) : Tree ν β := fun q =>
  if dst <+: q then t (src ++ q.drop dst.length) else if src <+: q then none else t q

/-- The directories on the way to `p`, and `p` itself: those that are missing are made, and a file among them stands in
the way. -/
def makeDirs (t : Tree ν β) (p : List ν) : Option (Tree ν β) :=
  p.inits.foldlM (fun t q =>
    match t q with
    | none => some (put t q .dir)
    | some .dir => some t
    | some (.file _) => none) t

/-- `rename` of what stands at `src`; nothing may stand at `dst`. -/
def rename (t : Tree ν β) (src dst : List ν) : Option (Tree ν β) :=
  if t src ≠ none ∧ t dst = none then some (move t src dst) else none

/-- Neither path is on the way to the other. -/
def Apart (p q : List ν) : Prop := ¬ p <+: q ∧ ¬ q <+: p

variable {t t' : Tree ν β} {p q src dst : List ν}

omit [DecidableEq ν] in
theorem Apart.symm (h : Apart p q) : Apart q p := ⟨h.2, h.1⟩

omit [DecidableEq ν] in
theorem Apart.not_prefix_append (h : Apart p q) (r : List ν) : ¬ p <+: q ++ r := by
  intro hp
  rcases List.prefix_or_prefix_of_prefix hp (List.prefix_append q r) with h1 | h1
  · exact h.1 h1
  · exact h.2 h1

omit [DecidableEq ν] in
theorem Apart.append (h : Apart p q) (r : List ν) : Apart p (q ++ r) :=
  ⟨h.not_prefix_append r, fun hp => h.2 ((List.prefix_append q r).trans hp)⟩

omit [DecidableEq ν] in
theorem apart_of_ne {root : List ν} {a b : ν} (h : a ≠ b) : Apart (root ++ [a]) (root ++ [b]) := by
  constructor
  · intro hp
    have := (List.prefix_append_right_inj root).mp hp
    simp [h] at this
  · intro hp
    have := (List.prefix_append_right_inj root).mp hp
    simp [h.symm] at this

omit [DecidableEq ν] in
theorem under_apply (t : Tree ν β) (p q : List ν) : under t p q = t (p ++ q) := rfl

omit [DecidableEq ν] in
theorem isDir_iff : t.isDir p = true ↔ t p = some .dir := by
  rcases hp : t p with _ | _ | c <;> simp [isDir, hp]

omit [DecidableEq ν] in
theorem isFile_of_content {c : β} (h : t.content p = some c) : t.isFile p = true := by
  rcases hp : t p with _ | _ | c' <;> simp [content, isFile, hp] at h ⊢

theorem under_put (h : ¬ p <+: q) (n : Node β) : under (put t q n) p = under t p := by
  funext r
  rw [under_apply, under_apply, put, if_neg]
  rintro rfl
  exact h (List.prefix_append p r)

theorem under_remove (h : Apart p q) (kept : List ν → Bool) : under (remove t q kept) p = under t p := by
  funext r
  rw [under_apply, under_apply, remove, if_neg]
  rintro ⟨hq, -⟩
  exact h.symm.not_prefix_append r hq

theorem under_move (hsrc : Apart p src) (hdst : Apart p dst) : under (move t src dst) p = under t p := by
  funext r
  rw [under_apply, under_apply, move, if_neg (hdst.symm.not_prefix_append r), if_neg (hsrc.symm.not_prefix_append r)]

theorem under_move_dst (src dst : List ν) : under (move t src dst) dst = under t src := by
  funext r
  rw [under_apply, under_apply, move, if_pos (List.prefix_append dst r), List.drop_left]

/-- What has been moved away is gone. -/
theorem move_src (h : Apart src dst) (r : List ν) : move t src dst (src ++ r) = none := by
  rw [move, if_neg (h.symm.not_prefix_append r), if_pos (List.prefix_append src r)]

theorem under_makeDirs (h : ¬ p <+: q) (hmade : makeDirs t q = some t') : under t' p = under t p := by
  have hfold : ∀ (l : List (List ν)) (t : Tree ν β), (∀ q' ∈ l, ¬ p <+: q') →
      l.foldlM (fun t q =>
        match t q with
        | none => some (put t q .dir)
        | some .dir => some t
        | some (.file _) => none) t = some t' → under t' p = under t p := by
    intro l
    induction l with
    | nil =>
      intro t _ heq
      cases heq
      rfl
    | cons q' l ih =>
      intro t hl heq
      rw [List.foldlM_cons] at heq
      have hrest : ∀ x ∈ l, ¬ p <+: x := fun x hx => hl x (List.mem_cons_of_mem _ hx)
      cases hq : t q' with
      | none =>
        rw [hq] at heq
        rw [ih _ hrest heq, under_put (hl q' List.mem_cons_self)]
      | some n =>
        cases n with
        | dir =>
          rw [hq] at heq
          exact ih t hrest heq
        | file c => simp [hq] at heq
  refine hfold q.inits t (fun q' hq' hp => h ?_) hmade
  exact hp.trans ((List.mem_inits q' q).mp hq')

theorem rename_some (h : rename t src dst = some t') : t src ≠ none ∧ t dst = none ∧ t' = move t src dst := by
  unfold rename at h
  split_ifs at h with hcond
  exact ⟨hcond.1, hcond.2, (Option.some.inj h).symm⟩

end Tree

end Lager.Lib
