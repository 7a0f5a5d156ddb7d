import Lager.Drivers.Store

/-!
# What a failed install leaves

Everything but the two renames works under `.staging/`, apart from the driver's directory, and keeps what is there. The
first rename moves the old content aside, and what fails after it leaves the driver without it: nothing moves it back.
-/

namespace Lager.Drivers

open Lager.Lib Lager.Lib.Tree

variable {env : Env} {p : Path}

/-- What stands at `p` and below. -/
def at_ (p : Path) (w : World) : Files := w.files.under p

/-! ### Operations apart from a path -/

theorem fileOp_cases (env : Env) (change : Files → Option Files) (w : World) :
    (∃ files, change w.files = some files ∧ exec (fileOp env change) w = (.ok (), ⟨files, w.ops + 1⟩)) ∨
      exec (fileOp env change) w = (.error .os, ⟨w.files, w.ops + 1⟩) := by
  have hunfold : exec (fileOp env change) w =
      exec (if env.fails w.ops then throw .os else become (change w.files)) ⟨w.files, w.ops + 1⟩ := rfl
  rw [hunfold]
  by_cases hfails : env.fails w.ops = true
  · rw [if_pos hfails]
    exact Or.inr rfl
  · rw [if_neg hfails]
    cases hchange : change w.files with
    | some files => exact Or.inl ⟨files, rfl, rfl⟩
    | none => exact Or.inr rfl

theorem keeps_fileOp {change : Files → Option Files}
    (h : ∀ t t', change t = some t' → t'.under p = t.under p) : Keeps (at_ p) (fileOp env change) := by
  intro w
  rcases fileOp_cases env change w with ⟨files, hchange, heq⟩ | heq
  · rw [heq]
    exact h _ _ hchange
  · rw [heq]
    rfl

theorem keeps_makedirs {q : Path} (h : ¬ p <+: q) : Keeps (at_ p) (makedirs env q) :=
  keeps_fileOp fun _ _ hmade => under_makeDirs h hmade

theorem keeps_makeNew {q : Path} (h : ¬ p <+: q) : Keeps (at_ p) (makeNew env q) := by
  apply keeps_fileOp
  intro t t' hmade
  split_ifs at hmade with hfree
  exact under_makeDirs h hmade

theorem keeps_writeFile {q : Path} (h : ¬ p <+: q) (bytes : Py.Bytes) : Keeps (at_ p) (writeFile env q bytes) := by
  apply keeps_fileOp
  intro t t' hput
  cases hput
  exact under_put h _

theorem keeps_rename {src dst : Path} (hsrc : Apart p src) (hdst : Apart p dst) :
    Keeps (at_ p) (rename env src dst) := by
  apply keeps_fileOp
  intro t t' hrename
  obtain ⟨-, -, rfl⟩ := rename_some hrename
  exact under_move hsrc hdst

theorem keeps_rmtree {q : Path} (h : Apart p q) : Keeps (at_ p) (rmtree env q) := fun w =>
  under_remove h (env.kept w.ops)

theorem keeps_writeAll {dest : Path} (h : Apart p dest) (files : List (Path × Py.Bytes)) :
    Keeps (at_ p) (writeAll env dest files) :=
  keeps_forM fun _ _ => (keeps_makedirs (h.not_prefix_append _)).bind fun _ =>
    keeps_writeFile (h.not_prefix_append _) _

theorem keeps_raiseIf (condition : Bool) (e : Error) : Keeps (at_ p) (raiseIf condition e) := by
  unfold raiseIf
  split_ifs
  · exact keeps_throw e
  · exact keeps_pure ()

theorem keeps_ofExcept {α : Type} (r : Except Error α) : Keeps (at_ p) (ofExcept r) := by
  cases r with
  | ok a => exact keeps_pure a
  | error e => exact keeps_throw e

/-! ### The steps before the swap -/

theorem keeps_validate (dtype : String) : Keeps (at_ p) (_validate_type dtype) :=
  (keeps_raiseIf _ _).bind fun _ => keeps_raiseIf _ _

theorem keeps_loadManifest (bundle : Path) : Keeps (at_ p) (loadManifest env bundle) := by
  intro w
  have hunfold : exec (loadManifest env bundle) w = exec (if env.fails w.ops then
        throw (.store 400 (MANIFEST_FILE ++ " is not valid JSON"))
      else ofExcept (parsed env (w.files.content (bundle ++ [MANIFEST_FILE])))) ⟨w.files, w.ops + 1⟩ := rfl
  rw [hunfold]
  by_cases hfails : env.fails w.ops = true
  · rw [if_pos hfails]
    rfl
  · rw [if_neg hfails]
    exact keeps_ofExcept _ _

theorem keeps_depsInstall (bundle : Path) (requirements : String) {target : Path} (h : Apart p target) :
    Keeps (at_ p) (depsInstall env bundle requirements target) :=
  keeps_get.bind fun _ => (keeps_ofExcept _).bind fun _ => (keeps_makeNew h.1).bind fun _ =>
    (keeps_writeAll h _).bind fun _ => keeps_ofExcept _

theorem keeps_installPackages {bundle : Path} (manifest : Manifest) (h : Apart p bundle) :
    Keeps (at_ p) (installPackages env bundle manifest) := by
  unfold installPackages
  cases manifest.requirements with
  | some requirements => exact keeps_depsInstall _ _ (h.append _)
  | none => exact keeps_pure _

theorem keeps_unpack (dtype : String) (data : Py.Bytes) (h : Apart p (env.staging dtype)) :
    Keeps (at_ p) (unpack env dtype data) := by
  refine ((keeps_writeAll h _).bind fun _ => keeps_ofExcept _).bind fun _ => ?_
  refine (keeps_loadManifest _).bind fun manifest => (keeps_raiseIf _ _).bind fun _ => keeps_get.bind fun _ => ?_
  refine (keeps_raiseIf _ _).bind fun _ => (keeps_installPackages manifest h).bind fun packages => ?_
  exact (keeps_writeFile (h.not_prefix_append _) _).bind fun _ => keeps_pure _

theorem keeps_begin (dtype : String) (data : Py.Bytes) (h : Apart p env.stagingRoot) :
    Keeps (at_ p) (begin env dtype data) :=
  (keeps_validate dtype).bind fun _ => (keeps_raiseIf _ _).bind fun _ => (keeps_raiseIf _ _).bind fun _ =>
    (keeps_makedirs h.1).bind fun _ => keeps_makeNew (h.not_prefix_append _)

theorem keeps_beginDeps (dtype : String) (h : Apart p env.stagingRoot) : Keeps (at_ p) (beginDeps env dtype) := by
  refine (keeps_validate dtype).bind fun _ => keeps_get.bind fun _ => (keeps_raiseIf _ _).bind fun _ => ?_
  refine (keeps_loadManifest _).bind fun manifest => ?_
  cases manifest.requirements with
  | none => exact keeps_throw _
  | some requirements => exact (keeps_makedirs h.1).bind fun _ => keeps_pure _

/-! ### The two renames -/

/-- The old content has been moved aside, and the new one cannot be moved in. -/
def SecondFails (env : Env) (old aside new : Path) (w : World) : Prop :=
  ∃ w₁ e w₂, exec (rename env old aside) w = (.ok (), w₁) ∧ exec (rename env new old) w₁ = (.error e, w₂)

theorem renamed {src dst : Path} {w w' : World} (h : exec (rename env src dst) w = (.ok (), w')) :
    w.files.rename src dst = some w'.files := by
  rcases fileOp_cases env (fun t => t.rename src dst) w with ⟨files, hrename, heq⟩ | heq
  · rw [rename, heq] at h
    cases h
    exact hrename
  · rw [rename, heq] at h
    cases h

theorem rename_ok {src dst : Path} {w w' : World} (h : exec (rename env src dst) w = (.ok (), w')) :
    w'.files = w.files.move src dst := (rename_some (renamed h)).2.2

theorem rename_error {src dst : Path} {w w' : World} {e : Error}
    (h : exec (rename env src dst) w = (.error e, w')) : w'.files = w.files := by
  rcases fileOp_cases env (fun t => t.rename src dst) w with ⟨files, hrename, heq⟩ | heq
  · rw [rename, heq] at h
    cases h
  · rw [rename, heq] at h
    cases h
    rfl

theorem exec_cases {α : Type} (x : M α) (w : World) :
    (∃ a w', exec x w = (.ok a, w')) ∨ ∃ e w', exec x w = (.error e, w') := by
  cases hrun : exec x w with
  | mk r w' =>
    cases r with
    | ok a => exact Or.inl ⟨a, w', rfl⟩
    | error e => exact Or.inr ⟨e, w', rfl⟩

/-- Where the second rename fails the old content is gone from its place. -/
theorem gone_of_secondFails {old aside new : Path} {w : World} (hapart : Apart old aside)
    (h : SecondFails env old aside new w) :
    ∃ e w', exec (rename env old aside >>= fun _ => rename env new old) w = (.error e, w') ∧ w'.files old = none := by
  obtain ⟨w₁, e, w₂, hfirst, hsecond⟩ := h
  refine ⟨e, w₂, (exec_bind_ok hfirst _).trans hsecond, ?_⟩
  rw [rename_error hsecond, rename_ok hfirst]
  simpa using move_src hapart []

/-- Where it is not the second rename that fails, the files are as they were. -/
theorem files_of_not_secondFails {old aside new : Path} {w w' : World} {e : Error}
    (h : ¬ SecondFails env old aside new w)
    (hraise : exec (rename env old aside >>= fun _ => rename env new old) w = (.error e, w')) : w'.files = w.files := by
  rcases exec_cases (rename env old aside) w with ⟨a, w₁, hfirst⟩ | ⟨e₁, w₁, hfirst⟩
  · rw [exec_bind_ok hfirst] at hraise
    exact absurd ⟨w₁, e, w', hfirst, hraise⟩ h
  · rw [exec_bind_error hfirst] at hraise
    cases hraise
    exact rename_error hfirst

/-! ### Places -/

theorem live_apart_staging {dtype : String} (h : TYPE_RE dtype = true) : Apart (env.live dtype) env.stagingRoot := by
  apply apart_of_ne
  rintro rfl
  revert h
  decide

/-- An invalid type is refused before anything is done. -/
theorem validate_refuses {dtype : String} (h : ¬ TYPE_RE dtype = true) (w : World) :
    exec (_validate_type dtype) w = (.error (.store 400 ("Invalid driver type '" ++ dtype ++ "'")), w) := by
  unfold _validate_type raiseIf
  rw [if_pos (by simpa using h)]
  rfl

/-! ### An install -/

/-- An install that comes to its swap, where a driver is replaced, and whose second rename fails. -/
def InstallLoses (env : Env) (dtype : String) (data : Py.Bytes) (w : World) : Prop :=
  ∃ v w₁, exec (begin env dtype data >>= fun _ => unpack env dtype data) w = (.ok v, w₁) ∧
    w₁.files.isDir (env.live dtype) = true ∧
    SecondFails env (env.live dtype) (env.retired dtype) (env.staging dtype) w₁

theorem exec_swap_replacing {dtype : String} {w : World} (h : w.files.isDir (env.live dtype) = true) :
    exec (swap env dtype) w = exec ((rename env (env.live dtype) (env.retired dtype) >>= fun _ =>
      rename env (env.staging dtype) (env.live dtype)) >>= fun _ => rmtree env (env.retired dtype) >>= fun _ =>
        pure true) w := by
  have hunfold : exec (swap env dtype) w = exec (if w.files.isDir (env.live dtype) = true then
      (rename env (env.live dtype) (env.retired dtype) >>= fun _ =>
        rename env (env.staging dtype) (env.live dtype) >>= fun _ => rmtree env (env.retired dtype) >>= fun _ =>
          pure true) else rename env (env.staging dtype) (env.live dtype) >>= fun _ => pure false) w := rfl
  rw [hunfold, if_pos h, bind_assoc]

theorem exec_swap_new {dtype : String} {w : World} (h : ¬ w.files.isDir (env.live dtype) = true) :
    exec (swap env dtype) w = exec (rename env (env.staging dtype) (env.live dtype) >>= fun _ => pure false) w := by
  have hunfold : exec (swap env dtype) w = exec (if w.files.isDir (env.live dtype) = true then
      (rename env (env.live dtype) (env.retired dtype) >>= fun _ =>
        rename env (env.staging dtype) (env.live dtype) >>= fun _ => rmtree env (env.retired dtype) >>= fun _ =>
          pure true) else rename env (env.staging dtype) (env.live dtype) >>= fun _ => pure false) w := rfl
  rw [hunfold, if_neg h]

theorem swap_lost {dtype : String} {w : World} (hvalid : TYPE_RE dtype = true)
    (hdir : w.files.isDir (env.live dtype) = true)
    (h : SecondFails env (env.live dtype) (env.retired dtype) (env.staging dtype) w) :
    ∃ e w', exec (swap env dtype) w = (.error e, w') ∧ w'.files (env.live dtype) = none := by
  have hapart : Apart (env.live dtype) (env.retired dtype) := (live_apart_staging hvalid).append _
  obtain ⟨e, w', hraise, hgone⟩ := gone_of_secondFails hapart h
  rw [exec_swap_replacing hdir, exec_bind_error hraise]
  exact ⟨e, w', rfl, hgone⟩

theorem swap_files {dtype : String} {w w' : World} {e : Error}
    (h : ¬ (w.files.isDir (env.live dtype) = true ∧
      SecondFails env (env.live dtype) (env.retired dtype) (env.staging dtype) w))
    (hraise : exec (swap env dtype) w = (.error e, w')) : w'.files = w.files := by
  by_cases hdir : w.files.isDir (env.live dtype) = true
  · rw [exec_swap_replacing hdir] at hraise
    rcases exec_cases (rename env (env.live dtype) (env.retired dtype) >>= fun _ =>
      rename env (env.staging dtype) (env.live dtype)) w with ⟨_, w₁, hrun⟩ | ⟨e₁, w₁, hrun⟩
    · rw [exec_bind_ok hrun] at hraise
      cases hraise
    · rw [exec_bind_error hrun] at hraise
      cases hraise
      exact files_of_not_secondFails (fun hfails => h ⟨hdir, hfails⟩) hrun
  · rw [exec_swap_new hdir] at hraise
    rcases exec_cases (rename env (env.staging dtype) (env.live dtype)) w with ⟨_, w₁, hrun⟩ | ⟨e₁, w₁, hrun⟩
    · rw [exec_bind_ok hrun] at hraise
      cases hraise
    · rw [exec_bind_error hrun] at hraise
      cases hraise
      exact rename_error hrun

/-- An install that raises has left the driver as it was, unless it has lost it. -/
theorem install_keeps_iff (env : Env) (dtype : String) (data : Py.Bytes) (w : World) :
    (∀ e w', exec (install env dtype data) w = (.error e, w') →
      at_ (env.live dtype) w' = at_ (env.live dtype) w) ↔ ¬ InstallLoses env dtype data w := by
  by_cases hvalid : TYPE_RE dtype = true
  case neg =>
    have hbegin : exec (begin env dtype data) w =
        (.error (.store 400 ("Invalid driver type '" ++ dtype ++ "'")), w) :=
      exec_bind_error (validate_refuses hvalid w) _
    constructor
    · rintro - ⟨v, w₁, hstaged, -⟩
      rw [exec_bind_error hbegin] at hstaged
      cases hstaged
    · intro _ e w' hraise
      rw [install, exec_bind_error hbegin] at hraise
      cases hraise
      rfl
  have hapart := @live_apart_staging env dtype hvalid
  have hstaging : Apart (env.live dtype) (env.staging dtype) := hapart.append _
  have hkept := @keeps_begin env _ dtype data hapart w
  rcases exec_cases (begin env dtype data) w with ⟨_, w₀, hbegin⟩ | ⟨e₀, w₀, hbegin⟩
  case inr =>
    rw [hbegin] at hkept
    constructor
    · rintro - ⟨v, w₁, hstaged, -⟩
      rw [exec_bind_error hbegin] at hstaged
      cases hstaged
    · intro _ e w' hraise
      rw [install, exec_bind_error hbegin] at hraise
      cases hraise
      exact hkept
  rw [hbegin] at hkept
  have hstage : exec (begin env dtype data >>= fun _ => unpack env dtype data) w = exec (unpack env dtype data) w₀ :=
    exec_bind_ok hbegin _
  have hunpacked := keeps_unpack dtype data hstaging w₀
  -- A failure in the body is followed by the removal of the staging directory.
  have hbody : ∀ {e w₂}, exec (unpackAndSwap env dtype data) w₀ = (.error e, w₂) →
      exec (install env dtype data) w = (.error e, (exec (rmtree env (env.staging dtype)) w₂).2) := by
    intro e w₂ hrun
    rw [install, exec_bind_ok hbegin, exec_onError_error hrun]
    rfl
  rcases exec_cases (unpack env dtype data) w₀ with ⟨v, w₁, hunpack⟩ | ⟨e₁, w₁, hunpack⟩
  case inr =>
    rw [hunpack] at hunpacked
    have hinstall := hbody (exec_bind_error hunpack _)
    constructor
    · rintro - ⟨v, w₂, hstaged, -⟩
      rw [hstage, hunpack] at hstaged
      cases hstaged
    · intro _ e w' hraise
      rw [hinstall] at hraise
      cases hraise
      exact (keeps_rmtree hstaging w₁).trans (hunpacked.trans hkept)
  rw [hunpack] at hunpacked
  have hsame : at_ (env.live dtype) w₁ = at_ (env.live dtype) w := hunpacked.trans hkept
  have hloses : InstallLoses env dtype data w ↔ w₁.files.isDir (env.live dtype) = true ∧
      SecondFails env (env.live dtype) (env.retired dtype) (env.staging dtype) w₁ := by
    constructor
    · rintro ⟨v', w₂, hstaged, hrest⟩
      rw [hstage, hunpack] at hstaged
      cases hstaged
      exact hrest
    · intro hrest
      exact ⟨v, w₁, hstage.trans hunpack, hrest⟩
  rw [hloses]
  constructor
  · rintro hkeeps ⟨hdir, hfails⟩
    obtain ⟨e, w₂, hswap, hgone⟩ := swap_lost hvalid hdir hfails
    have hinstall := hbody ((exec_bind_ok hunpack _).trans (exec_bind_error hswap _))
    have hlive := hkeeps _ _ hinstall
    rw [keeps_rmtree hstaging w₂, ← hsame] at hlive
    have hat : w₂.files (env.live dtype) = w₁.files (env.live dtype) := by simpa [at_, under] using congrFun hlive []
    simp [isDir, ← hat, hgone] at hdir
  · intro hnot e w' hraise
    rcases exec_cases (swap env dtype) w₁ with ⟨b, w₂, hswap⟩ | ⟨e₂, w₂, hswap⟩
    · have hdone : exec (unpackAndSwap env dtype data) w₀ = (.ok _, w₂) :=
        (exec_bind_ok hunpack _).trans (exec_bind_ok hswap _)
      rw [install, exec_bind_ok hbegin, exec_onError_ok hdone] at hraise
      cases hraise
    · have hinstall := hbody ((exec_bind_ok hunpack _).trans (exec_bind_error hswap _))
      rw [hinstall] at hraise
      cases hraise
      have hfiles := swap_files hnot hswap
      rw [keeps_rmtree hstaging w₂, at_, hfiles]
      exact hsame

/-! ### A reinstall of the packages -/

/-- A reinstall that comes to its swap, where there are packages, and whose second rename fails. -/
def ReinstallLoses (env : Env) (dtype : String) (w : World) : Prop :=
  ∃ v w₁, exec (beginDeps env dtype >>= fun requirements =>
      depsInstall env (env.live dtype) requirements (env.depsTarget dtype)) w = (.ok v, w₁) ∧
    w₁.files.isDir (env.current dtype) = true ∧
    SecondFails env (env.current dtype) (env.depsRetired dtype) (env.depsTarget dtype) w₁

/-- What the `finally` of a reinstall removes once the packages have been moved aside. -/
def removeBoth (env : Env) (dtype : String) : M Unit :=
  rmtree env (env.depsTarget dtype) >>= fun _ => rmtree env (env.depsRetired dtype)

theorem exec_swapDeps_replacing {dtype : String} {w : World} (h : w.files.isDir (env.current dtype) = true) :
    exec (swapDeps env dtype) w = exec (onError (rename env (env.current dtype) (env.depsRetired dtype) >>= fun _ =>
      rename env (env.depsTarget dtype) (env.current dtype)) (removeBoth env dtype) >>= fun _ =>
        rmtree env (env.depsRetired dtype)) w := by
  have hunfold : exec (swapDeps env dtype) w = exec (if w.files.isDir (env.current dtype) = true then
      (onError (rename env (env.current dtype) (env.depsRetired dtype) >>= fun _ =>
        rename env (env.depsTarget dtype) (env.current dtype)) (removeBoth env dtype) >>= fun _ =>
          rmtree env (env.depsRetired dtype))
      else onError (rename env (env.depsTarget dtype) (env.current dtype)) (rmtree env (env.depsTarget dtype))) w := rfl
  rw [hunfold, if_pos h]

theorem exec_swapDeps_new {dtype : String} {w : World} (h : ¬ w.files.isDir (env.current dtype) = true) :
    exec (swapDeps env dtype) w =
      exec (onError (rename env (env.depsTarget dtype) (env.current dtype)) (rmtree env (env.depsTarget dtype))) w := by
  have hunfold : exec (swapDeps env dtype) w = exec (if w.files.isDir (env.current dtype) = true then
      (onError (rename env (env.current dtype) (env.depsRetired dtype) >>= fun _ =>
        rename env (env.depsTarget dtype) (env.current dtype)) (removeBoth env dtype) >>= fun _ =>
          rmtree env (env.depsRetired dtype))
      else onError (rename env (env.depsTarget dtype) (env.current dtype)) (rmtree env (env.depsTarget dtype))) w := rfl
  rw [hunfold, if_neg h]

section Deps

variable {dtype : String} (hvalid : TYPE_RE dtype = true)

include hvalid

theorem live_apart_depsTarget : Apart (env.live dtype) (env.depsTarget dtype) := (live_apart_staging hvalid).append _

theorem live_apart_depsRetired : Apart (env.live dtype) (env.depsRetired dtype) := (live_apart_staging hvalid).append _

theorem keeps_removeBoth : Keeps (at_ (env.live dtype)) (removeBoth env dtype) :=
  (keeps_rmtree (live_apart_depsTarget hvalid)).bind fun _ => keeps_rmtree (live_apart_depsRetired hvalid)

theorem swapDeps_lost {w : World} (hdir : w.files.isDir (env.current dtype) = true)
    (h : SecondFails env (env.current dtype) (env.depsRetired dtype) (env.depsTarget dtype) w) :
    ∃ e w', exec (swapDeps env dtype) w = (.error e, w') ∧ w'.files (env.current dtype) = none := by
  have hapart : Apart (env.current dtype) (env.depsRetired dtype) :=
    ((live_apart_depsRetired hvalid).symm.append _).symm
  obtain ⟨e, w₁, hraise, hgone⟩ := gone_of_secondFails hapart h
  refine ⟨e, (exec (removeBoth env dtype) w₁).2, ?_, ?_⟩
  · rw [exec_swapDeps_replacing hdir]
    exact exec_bind_error ((exec_onError_error hraise _).trans rfl) _
  · have hkept := congrFun (@keeps_removeBoth env dtype hvalid w₁) [DEPS_DIR]
    exact hkept.trans hgone

theorem swapDeps_keeps {w w' : World} {e : Error}
    (h : ¬ (w.files.isDir (env.current dtype) = true ∧
      SecondFails env (env.current dtype) (env.depsRetired dtype) (env.depsTarget dtype) w))
    (hraise : exec (swapDeps env dtype) w = (.error e, w')) : at_ (env.live dtype) w' = at_ (env.live dtype) w := by
  by_cases hdir : w.files.isDir (env.current dtype) = true
  · rw [exec_swapDeps_replacing hdir] at hraise
    rcases exec_cases (rename env (env.current dtype) (env.depsRetired dtype) >>= fun _ =>
      rename env (env.depsTarget dtype) (env.current dtype)) w with ⟨_, w₁, hrun⟩ | ⟨e₁, w₁, hrun⟩
    · rw [exec_bind_ok (exec_onError_ok hrun _)] at hraise
      cases hraise
    · rw [exec_bind_error ((exec_onError_error hrun _).trans rfl)] at hraise
      cases hraise
      have hfiles := files_of_not_secondFails (fun hfails => h ⟨hdir, hfails⟩) hrun
      exact (keeps_removeBoth hvalid w₁).trans (by rw [at_, at_, hfiles])
  · rw [exec_swapDeps_new hdir] at hraise
    rcases exec_cases (rename env (env.depsTarget dtype) (env.current dtype)) w with ⟨_, w₁, hrun⟩ | ⟨e₁, w₁, hrun⟩
    · rw [exec_onError_ok hrun] at hraise
      cases hraise
    · rw [exec_onError_error hrun] at hraise
      cases hraise
      exact (keeps_rmtree (live_apart_depsTarget hvalid) w₁).trans (by rw [at_, at_, rename_error hrun])

end Deps

/-- A reinstall that raises has left the driver as it was, unless it has lost its packages. -/
theorem reinstall_keeps_iff (env : Env) (dtype : String) (w : World) :
    (∀ e w', exec (reinstall_deps env dtype) w = (.error e, w') →
      at_ (env.live dtype) w' = at_ (env.live dtype) w) ↔ ¬ ReinstallLoses env dtype w := by
  by_cases hvalid : TYPE_RE dtype = true
  case neg =>
    have hbegin : exec (beginDeps env dtype) w =
        (.error (.store 400 ("Invalid driver type '" ++ dtype ++ "'")), w) :=
      exec_bind_error (validate_refuses hvalid w) _
    constructor
    · rintro - ⟨v, w₁, hbuilt, -⟩
      rw [exec_bind_error hbegin] at hbuilt
      cases hbuilt
    · intro _ e w' hraise
      rw [reinstall_deps, exec_bind_error hbegin] at hraise
      cases hraise
      rfl
  have hapart := @live_apart_staging env dtype hvalid
  have htarget : Apart (env.live dtype) (env.depsTarget dtype) := live_apart_depsTarget hvalid
  have hkept := @keeps_beginDeps env _ dtype hapart w
  rcases exec_cases (beginDeps env dtype) w with ⟨requirements, w₀, hbegin⟩ | ⟨e₀, w₀, hbegin⟩
  case inr =>
    rw [hbegin] at hkept
    constructor
    · rintro - ⟨v, w₁, hbuilt, -⟩
      rw [exec_bind_error hbegin] at hbuilt
      cases hbuilt
    · intro _ e w' hraise
      rw [reinstall_deps, exec_bind_error hbegin] at hraise
      cases hraise
      exact hkept
  rw [hbegin] at hkept
  have hbuild := @keeps_depsInstall env _ (env.live dtype) requirements _ htarget w₀
  rcases exec_cases (depsInstall env (env.live dtype) requirements (env.depsTarget dtype)) w₀ with
    ⟨packages, w₁, hpackages⟩ | ⟨e₁, w₁, hpackages⟩
  case inr =>
    rw [hpackages] at hbuild
    constructor
    · rintro - ⟨v, w₂, hbuilt, -⟩
      rw [exec_bind_ok hbegin, hpackages] at hbuilt
      cases hbuilt
    · intro _ e w' hraise
      rw [reinstall_deps, exec_bind_ok hbegin,
        exec_bind_error ((exec_onError_error hpackages _).trans rfl)] at hraise
      cases hraise
      exact (keeps_rmtree htarget w₁).trans (hbuild.trans hkept)
  rw [hpackages] at hbuild
  have hsame : at_ (env.live dtype) w₁ = at_ (env.live dtype) w := hbuild.trans hkept
  have hloses : ReinstallLoses env dtype w ↔ w₁.files.isDir (env.current dtype) = true ∧
      SecondFails env (env.current dtype) (env.depsRetired dtype) (env.depsTarget dtype) w₁ := by
    constructor
    · rintro ⟨v', w₂, hbuilt, hrest⟩
      rw [exec_bind_ok hbegin, hpackages] at hbuilt
      cases hbuilt
      exact hrest
    · intro hrest
      exact ⟨packages, w₁, (exec_bind_ok hbegin _).trans hpackages, hrest⟩
  have hrun : exec (reinstall_deps env dtype) w = exec (swapDeps env dtype >>= fun _ => pure packages) w₁ := by
    rw [reinstall_deps, exec_bind_ok hbegin, exec_bind_ok (exec_onError_ok hpackages _)]
  rw [hloses, hrun]
  constructor
  · rintro hkeeps ⟨hdir, hfails⟩
    obtain ⟨e, w₂, hswap, hgone⟩ := swapDeps_lost hvalid hdir hfails
    have hlive := hkeeps e w₂ (exec_bind_error hswap _)
    rw [← hsame] at hlive
    have hat : w₂.files (env.current dtype) = w₁.files (env.current dtype) := congrFun hlive [DEPS_DIR]
    simp [isDir, ← hat, hgone] at hdir
  · intro hnot e w' hraise
    rcases exec_cases (swapDeps env dtype) w₁ with ⟨_, w₂, hswap⟩ | ⟨e₂, w₂, hswap⟩
    · rw [exec_bind_ok hswap] at hraise
      cases hraise
    · rw [exec_bind_error hswap] at hraise
      cases hraise
      exact (swapDeps_keeps hvalid hnot hswap).trans hsame

/-- **A failed install or reinstall leaves the old driver working**, unless what fails is the rename of the new content
into the place from which the old has been moved. -/
theorem failed_install_keeps (env : Env) (dtype : String) (data : Py.Bytes) (w : World) :
    ((∀ e w', exec (install env dtype data) w = (.error e, w') →
        at_ (env.live dtype) w' = at_ (env.live dtype) w) ∧
      ∀ e w', exec (reinstall_deps env dtype) w = (.error e, w') →
        at_ (env.live dtype) w' = at_ (env.live dtype) w) ↔
    ¬ InstallLoses env dtype data w ∧ ¬ ReinstallLoses env dtype w :=
  and_congr (install_keeps_iff env dtype data w) (reinstall_keeps_iff env dtype w)

/-- A box with one driver installed, and a disk that fails at one operation only. -/
def failingAt (n : Nat) : Env :=
  { root := ["etc", "lager", "drivers"], fails := fun k => k == n, kept := fun _ _ => false, stagingId := "1",
    retiredId := "2",
    extract := fun data => ⟨[([MANIFEST_FILE], data), ([DRIVER_FILE], data)], .ok ()⟩,
    parseManifest := fun _ => .ok ⟨"stepper", "1.0.0", some "requirements.txt"⟩,
    readRequirements := fun _ _ => .ok (), pip := fun _ _ => ⟨[], .ok []⟩ }

def installedStepper : World :=
  { files := fun p =>
      if p = (failingAt 0).live "stepper" ∨ p = (failingAt 0).current "stepper" then some .dir
      else if p = (failingAt 0).live "stepper" ++ [MANIFEST_FILE] then some (.file [1])
      else none,
    ops := 0 }

/-- The eleventh operation of this install is the second of its renames, and so is the fifth of the reinstall: the
driver is gone after the one, and its packages after the other. -/
theorem failed_rename_loses :
    ((exec (install (failingAt 10) "stepper" [2]) installedStepper).1.isOk = false ∧
      installedStepper.files ((failingAt 10).live "stepper") = some .dir ∧
      (exec (install (failingAt 10) "stepper" [2]) installedStepper).2.files ((failingAt 10).live "stepper") = none) ∧
    (exec (reinstall_deps (failingAt 4) "stepper") installedStepper).1.isOk = false ∧
      installedStepper.files ((failingAt 4).current "stepper") = some .dir ∧
      (exec (reinstall_deps (failingAt 4) "stepper") installedStepper).2.files ((failingAt 4).current "stepper") =
        none := by
  decide +kernel

end Lager.Drivers
