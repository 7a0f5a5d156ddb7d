import Lager.Drivers.Swap
import Lager.Lib.Run

/-!
# A call while drivers are installed

A call on a custom net opens its driver's directory by its path again and again: the handler's `has`, then `get_driver`
with its reads of the manifest and of the packages' stamp, and in the child the working directory and `driver.py`.
Between two of these looks any install may take any of its steps. The names in `.staging/` are unique, and what an
install has staged there it alone opens, so the only steps that a call can notice are the two renames.
-/

namespace Lager.Drivers

open Lager.Lib Lager.Lib.Tree

def STAMP_FILE : String := ".lager-deps.json"

/-! ### Parties -/

/-- What a call looks at next, with the manifest it has read, or how it has ended. -/
inductive Call where
  | handler
  | getDriver
  | sha
  | manifest
  | driverFile (manifest : Py.Bytes) (requirements : Bool)
  | stamp (manifest : Py.Bytes)
  | child (manifest : Py.Bytes)
  | depsDir (manifest : Py.Bytes)
  | driver (manifest : Py.Bytes)
  | ran (manifest driver : Py.Bytes)
  | notInstalled
  | unavailable
  | failed
  deriving DecidableEq

/-- What an install with its bundle staged does next. -/
inductive Install where
  | ready
  | retire
  | moveIn (replaced : Bool)
  | clean
  | abandon
  | done
  | raised
  deriving DecidableEq

/-- Where the drivers are, the type, the names that the installs have drawn, and the box's verdicts on a manifest and on
a stamp. -/
structure Site where
  root : Path
  dtype : String
  staging : Nat → String
  retired : Nat → String
  parseManifest : Py.Bytes → Except String Manifest
  stampOk : Option Py.Bytes → Bool

structure Box where
  files : Files
  installs : List Install
  calls : List Call

/-- A call takes its next look, or an install its next step: whether a rename fails and what a removal leaves is the
disk's choice. -/
inductive Event where
  | call (c : Nat)
  | install (i : Nat) (fails : Bool) (kept : Path → Bool)

def Site.live (site : Site) : Path := site.root ++ [site.dtype]

def Site.inStaging (site : Site) (name : String) : Path := site.root ++ [STAGING] ++ [name]

/-! ### Steps -/

/-- `has`. -/
def has (site : Site) (t : Files) : Bool := t.isFile (site.live ++ [MANIFEST_FILE])

/-- `_describe` once it has read the manifest. -/
def described (site : Site) (content : Option Py.Bytes) : Call :=
  match content with
  | none => .unavailable
  | some bytes =>
    match site.parseManifest bytes with
    | .ok manifest =>
      if manifest.type = site.dtype then .driverFile bytes manifest.requirements.isSome else .unavailable
    | .error _ => .unavailable

/-- One look of a call, and where the call is after it. -/
def look (site : Site) (t : Files) : Call → Option Call
  | .handler => some (if has site t then .getDriver else .notInstalled)
  | .getDriver => some (if has site t then .sha else .notInstalled)
  | .sha => some .manifest
  | .manifest => some (described site (t.content (site.live ++ [MANIFEST_FILE])))
  | .driverFile manifest requirements =>
    some (if t.isFile (site.live ++ [DRIVER_FILE]) then if requirements then .stamp manifest else .child manifest
      else .unavailable)
  | .stamp manifest =>
    some (if site.stampOk (t.content (site.live ++ [DEPS_DIR, STAMP_FILE])) then .child manifest else .unavailable)
  | .child manifest => some (if t.isDir site.live then .depsDir manifest else .failed)
  | .depsDir manifest => some (.driver manifest)
  | .driver manifest =>
    match t.content (site.live ++ [DRIVER_FILE]) with
    | some driver => some (.ran manifest driver)
    | none => some .failed
  | _ => none

/-- A rename, and what the install does next if it works. -/
def renameThen (t : Files) (fails : Bool) (src dst : Path) (next : Install) : Files × Install :=
  if fails then (t, .abandon)
  else
    match t.rename src dst with
    | some t' => (t', next)
    | none => (t, .abandon)

/-- One step of the `i`-th install, as `swap` and the `finally` around it make them. -/
def act (site : Site) (t : Files) (i : Nat) (fails : Bool) (kept : Path → Bool) : Install → Option (Files × Install)
  | .ready => some (t, if t.isDir site.live then .retire else .moveIn false)
  | .retire => some (renameThen t fails site.live (site.inStaging (site.retired i)) (.moveIn true))
  | .moveIn replaced =>
    some (renameThen t fails (site.inStaging (site.staging i)) site.live (if replaced then .clean else .done))
  | .clean => some (t.remove (site.inStaging (site.retired i)) kept, .done)
  | .abandon => some (t.remove (site.inStaging (site.staging i)) kept, .raised)
  | .done | .raised => none

def step (site : Site) (box : Box) : Event → Option Box
  | .call c =>
    match box.calls[c]? with
    | some call => (look site box.files call).map fun call' => { box with calls := box.calls.set c call' }
    | none => none
  | .install i fails kept =>
    match box.installs[i]? with
    | some install => (act site box.files i fails kept install).map fun after =>
        { box with files := after.1, installs := box.installs.set i after.2 }
    | none => none

/-- The site of one install's own swap. -/
def Env.site (env : Env) (dtype : String) (stampOk : Option Py.Bytes → Bool) : Site :=
  { root := env.root, dtype := dtype, staging := fun _ => dtype ++ "-" ++ env.stagingId,
    retired := fun _ => dtype ++ "-old-" ++ env.retiredId, parseManifest := env.parseManifest, stampOk := stampOk }

/-- A swap that works is these steps, one after the other. -/
theorem swap_steps {env : Env} {dtype : String} {w w' : World} {replaced : Bool} (stampOk : Option Py.Bytes → Bool)
    (calls : List Call) (h : exec (swap env dtype) w = (.ok replaced, w')) :
    ∃ events,
      run (step (env.site dtype stampOk)) ⟨w.files, [.ready], calls⟩ events = some ⟨w'.files, [.done], calls⟩ := by
  by_cases hdir : w.files.isDir (env.live dtype) = true
  · rw [exec_swap_replacing hdir] at h
    rcases exec_cases (rename env (env.live dtype) (env.retired dtype)) w with ⟨_, w₁, hfirst⟩ | ⟨e, w₁, hfirst⟩
    case inr =>
      rw [exec_bind_error (exec_bind_error hfirst _)] at h
      cases h
    rcases exec_cases (rename env (env.staging dtype) (env.live dtype)) w₁ with ⟨_, w₂, hsecond⟩ | ⟨e, w₂, hsecond⟩
    case inr =>
      rw [exec_bind_error ((exec_bind_ok hfirst _).trans hsecond)] at h
      cases h
    rw [exec_bind_ok ((exec_bind_ok hfirst _).trans hsecond)] at h
    cases h
    have hretire : w.files.rename (env.site dtype stampOk).live
        ((env.site dtype stampOk).inStaging ((env.site dtype stampOk).retired 0)) = some w₁.files := renamed hfirst
    have hmove : w₁.files.rename ((env.site dtype stampOk).inStaging ((env.site dtype stampOk).staging 0))
        (env.site dtype stampOk).live = some w₂.files := renamed hsecond
    have hlive : w.files.isDir (env.site dtype stampOk).live = true := hdir
    refine ⟨List.replicate 4 (.install 0 false (env.kept w₂.ops)), ?_⟩
    simp only [List.replicate, run_cons, step, act, renameThen, hlive, hretire, hmove, List.getElem?_cons_zero,
      Option.map_some, Option.bind_some, List.set_cons_zero, if_true, if_neg Bool.false_ne_true]
    rfl
  · rw [exec_swap_new hdir] at h
    rcases exec_cases (rename env (env.staging dtype) (env.live dtype)) w with ⟨_, w₁, hfirst⟩ | ⟨e, w₁, hfirst⟩
    case inr =>
      rw [exec_bind_error hfirst] at h
      cases h
    rw [exec_bind_ok hfirst] at h
    cases h
    have hmove : w.files.rename ((env.site dtype stampOk).inStaging ((env.site dtype stampOk).staging 0))
        (env.site dtype stampOk).live = some w'.files := renamed hfirst
    have hlive : w.files.isDir (env.site dtype stampOk).live = false := Bool.eq_false_iff.mpr hdir
    refine ⟨List.replicate 2 (.install 0 false (env.kept w.ops)), ?_⟩
    simp only [List.replicate, run_cons, step, act, renameThen, hlive, hmove, List.getElem?_cons_zero,
      Option.map_some, Option.bind_some, List.set_cons_zero, if_neg Bool.false_ne_true]
    rfl

/-- A box with one driver installed and a second one staged. -/
def stagedStepper : World :=
  { files := fun p =>
      if p = (failingAt 9).live "stepper" ∨ p = (failingAt 9).staging "stepper" then some .dir
      else if p = (failingAt 9).staging "stepper" ++ [MANIFEST_FILE] then some (.file [2])
      else none,
    ops := 0 }

theorem swap_steps_stepper :
    ∃ w' events, exec (swap (failingAt 9) "stepper") stagedStepper = (.ok true, w') ∧
      run (step ((failingAt 9).site "stepper" fun _ => true)) ⟨stagedStepper.files, [.ready], [.handler]⟩ events =
        some ⟨w'.files, [.done], [.handler]⟩ := by
  have hreplaced : (exec (swap (failingAt 9) "stepper") stagedStepper).1.toOption = some true := by decide +kernel
  have hswap : exec (swap (failingAt 9) "stepper") stagedStepper =
      (.ok true, (exec (swap (failingAt 9) "stepper") stagedStepper).2) := by
    refine Prod.ext ?_ rfl
    cases hresult : (exec (swap (failingAt 9) "stepper") stagedStepper).1 with
    | ok replaced =>
      rw [hresult] at hreplaced
      rw [Option.some.inj hreplaced]
    | error e =>
      rw [hresult] at hreplaced
      cases hreplaced
  obtain ⟨events, hrun⟩ := swap_steps (fun _ => true) [.handler] hswap
  exact ⟨_, events, hswap, hrun⟩

/-! ### Bundles -/

/-- What the checks of an install have found in a directory: a manifest of the type, the driver, and the packages that
the manifest asks for. -/
structure Complete (site : Site) (bundle : Files) : Prop where
  dir : bundle [] = some .dir
  manifest : ∃ bytes manifest, bundle.content [MANIFEST_FILE] = some bytes ∧ site.parseManifest bytes = .ok manifest ∧
    manifest.type = site.dtype ∧
      (manifest.requirements.isSome = true → site.stampOk (bundle.content [DEPS_DIR, STAMP_FILE]) = true)
  driver : ∃ bytes, bundle.content [DRIVER_FILE] = some bytes

/-- A bundle of this run: the one installed before it, or one that an install has staged. -/
def Bundled (site : Site) (box : Box) (bundle : Files) : Prop :=
  bundle = box.files.under site.live ∨
    ∃ i < box.installs.length, bundle = box.files.under (site.inStaging (site.staging i))

/-- A driver is installed, the installs have theirs staged under names of their own, and no call has begun. -/
structure Start (site : Site) (box : Box) : Prop where
  valid : TYPE_RE site.dtype = true
  complete : ∀ bundle, Bundled site box bundle → Complete site bundle
  names : ∀ i < box.installs.length, ∀ j < box.installs.length, i ≠ j → site.staging i ≠ site.staging j
  retired : ∀ i < box.installs.length, ∀ j < box.installs.length, site.staging i ≠ site.retired j
  installs : ∀ install ∈ box.installs, install = .ready
  calls : ∀ call ∈ box.calls, call = .handler

/-- The call has read the manifest and will read more. -/
def Call.holdsManifest : Call → Bool
  | .driverFile _ _ | .stamp _ | .child _ | .depsDir _ | .driver _ => true
  | _ => false

def Install.movesIn : Install → Bool
  | .moveIn _ => true
  | _ => false

def Call.ended : Call → Bool
  | .ran _ _ | .notInstalled | .unavailable | .failed => true
  | _ => false

/-- Calls look only while a driver is in its place, and no bundle is moved in while a call holds a manifest. -/
def Undisturbed (site : Site) (box : Box) : Event → Prop
  | .call _ => box.files site.live ≠ none
  | .install i fails _ => fails = false → (box.installs[i]?.any Install.movesIn) = true →
      ∀ call ∈ box.calls, call.holdsManifest = false

/-- The call ran the driver of the bundle whose manifest it was checked against. -/
def OneBundle (site : Site) (box : Box) (call : Call) : Prop :=
  ∃ manifest driver bundle, call = .ran manifest driver ∧ Bundled site box bundle ∧
    bundle.content [MANIFEST_FILE] = some manifest ∧ bundle.content [DRIVER_FILE] = some driver

/-! ### What one look comes to -/

variable {site : Site} {box₀ box box' : Box} {t t' : Files} {call call' : Call}

/-- The manifest is that of a bundle of this run, and where a driver is in its place, it is that bundle. -/
def Holds (site : Site) (box₀ : Box) (t : Files) (manifest : Py.Bytes) (stamped : Bool) : Prop :=
  ∃ bundle, Bundled site box₀ bundle ∧ bundle.content [MANIFEST_FILE] = some manifest ∧
    (stamped = true → site.stampOk (bundle.content [DEPS_DIR, STAMP_FILE]) = true) ∧
      (t site.live ≠ none → t.under site.live = bundle)

def Follows (site : Site) (box₀ : Box) (t : Files) : Call → Prop
  | .handler | .getDriver | .sha | .manifest => True
  | .driverFile manifest requirements => Holds site box₀ t manifest requirements
  | .stamp manifest => Holds site box₀ t manifest true
  | .child manifest | .depsDir manifest | .driver manifest => Holds site box₀ t manifest false
  | .ran manifest driver => OneBundle site box₀ (.ran manifest driver)
  | .notInstalled | .unavailable | .failed => False

theorem Complete.has (h : Complete site (t.under site.live)) : has site t = true := by
  obtain ⟨bytes, -, hcontent, -⟩ := h.manifest
  exact isFile_of_content hcontent

theorem Complete.isDir (h : Complete site (t.under site.live)) : t.isDir site.live = true := by
  have hdir : t (site.live ++ []) = some .dir := h.dir
  rw [List.append_nil] at hdir
  exact isDir_iff.mpr hdir

/-- The read of the manifest, in a complete bundle. -/
theorem described_follows (hbundled : Bundled site box₀ (t.under site.live)) (h : Complete site (t.under site.live)) :
    Follows site box₀ t (described site (t.content (site.live ++ [MANIFEST_FILE]))) := by
  obtain ⟨bytes, manifest, hcontent, hparse, htype, hstamp⟩ := h.manifest
  have hread : t.content (site.live ++ [MANIFEST_FILE]) = some bytes := hcontent
  have hdescribed : described site (some bytes) = .driverFile bytes manifest.requirements.isSome := by
    simp [described, hparse, htype]
  rw [hread, hdescribed]
  exact ⟨_, hbundled, hcontent, hstamp, fun _ => rfl⟩

/-- A look while a complete bundle is in its place finds what it looks for. -/
theorem look_follows (hthere : t site.live ≠ none) (hbundled : Bundled site box₀ (t.under site.live))
    (hcomplete : Complete site (t.under site.live)) (hcall : Follows site box₀ t call)
    (hlook : look site t call = some call') : Follows site box₀ t call' := by
  have hlive : ∀ {manifest stamped}, Holds site box₀ t manifest stamped →
      (t.under site.live).content [MANIFEST_FILE] = some manifest ∧
        (stamped = true → site.stampOk (t.content (site.live ++ [DEPS_DIR, STAMP_FILE])) = true) := by
    rintro manifest stamped ⟨bundle, -, hcontent, hstamp, hsame⟩
    rw [← hsame hthere] at hcontent hstamp
    exact ⟨hcontent, hstamp⟩
  have hholds : ∀ {manifest stamped}, Holds site box₀ t manifest stamped → Holds site box₀ t manifest false := by
    rintro manifest stamped ⟨bundle, hb, hcontent, -, hsame⟩
    exact ⟨bundle, hb, hcontent, fun h => absurd h Bool.false_ne_true, hsame⟩
  obtain ⟨driver, hdriver⟩ := hcomplete.driver
  have hread : t.content (site.live ++ [DRIVER_FILE]) = some driver := hdriver
  cases call with
  | handler =>
    rw [look, hcomplete.has] at hlook
    cases hlook
    exact trivial
  | getDriver =>
    rw [look, hcomplete.has] at hlook
    cases hlook
    exact trivial
  | sha =>
    cases hlook
    exact trivial
  | manifest =>
    cases hlook
    exact described_follows hbundled hcomplete
  | driverFile manifest requirements =>
    rw [look, isFile_of_content hread] at hlook
    cases requirements <;> cases hlook
    · exact hholds hcall
    · exact hcall
  | stamp manifest =>
    rw [look, (hlive hcall).2 rfl] at hlook
    cases hlook
    exact hholds hcall
  | child manifest =>
    rw [look, hcomplete.isDir] at hlook
    cases hlook
    exact hcall
  | depsDir manifest =>
    cases hlook
    exact hcall
  | driver manifest =>
    simp only [look, hread] at hlook
    cases hlook
    exact ⟨manifest, driver, _, rfl, hbundled, (hlive hcall).1, hdriver⟩
  | ran | notInstalled | unavailable | failed => cases hlook

/-! ### What one step of an install does -/

/-- The install still has its bundle in the staging directory. -/
def Install.staged : Install → Bool
  | .ready | .retire | .moveIn _ => true
  | _ => false

theorem renameThen_cases {fails : Bool} {src dst : Path} {next next' : Install}
    (h : renameThen t fails src dst next = (t', next')) :
    (t' = t ∧ next' = .abandon) ∨ (fails = false ∧ t.rename src dst = some t' ∧ next' = next) := by
  unfold renameThen at h
  cases fails with
  | true =>
    cases h
    exact .inl ⟨rfl, rfl⟩
  | false =>
    rw [if_neg Bool.false_ne_true] at h
    cases hrename : t.rename src dst with
    | none =>
      rw [hrename] at h
      cases h
      exact .inl ⟨rfl, rfl⟩
    | some t₁ =>
      rw [hrename] at h
      cases h
      exact .inr ⟨rfl, rfl, rfl⟩

/-- The files as they were, one of the two renames, or a removal in `.staging/` once nothing is left to move in. -/
theorem act_cases {i : Nat} {fails : Bool} {kept : Path → Bool} {install next : Install}
    (h : act site t i fails kept install = some (t', next)) :
    (t' = t ∧ (next.staged = true → install.staged = true)) ∨
      (install = .retire ∧ t.rename site.live (site.inStaging (site.retired i)) = some t') ∨
      (∃ replaced, install = .moveIn replaced ∧ fails = false ∧ next.staged = false ∧
        t.rename (site.inStaging (site.staging i)) site.live = some t') ∨
      (install.staged = false ∧ next.staged = false ∧
        ∃ name, (name = site.staging i ∨ name = site.retired i) ∧ t' = t.remove (site.inStaging name) kept) := by
  cases install with
  | ready =>
    cases h
    exact .inl ⟨rfl, fun _ => rfl⟩
  | retire =>
    rcases renameThen_cases (Option.some.inj h) with ⟨rfl, rfl⟩ | ⟨-, hrename, -⟩
    · exact .inl ⟨rfl, fun _ => rfl⟩
    · exact .inr (.inl ⟨rfl, hrename⟩)
  | moveIn replaced =>
    rcases renameThen_cases (Option.some.inj h) with ⟨rfl, rfl⟩ | ⟨hfails, hrename, rfl⟩
    · exact .inl ⟨rfl, fun _ => rfl⟩
    · refine .inr (.inr (.inl ⟨replaced, rfl, hfails, ?_, hrename⟩))
      cases replaced <;> rfl
  | clean =>
    cases h
    exact .inr (.inr (.inr ⟨rfl, rfl, _, .inr rfl, rfl⟩))
  | abandon =>
    cases h
    exact .inr (.inr (.inr ⟨rfl, rfl, _, .inl rfl, rfl⟩))
  | done | raised => cases h

/-! ### Every run -/

theorem Start.live_apart (h : Start site box₀) (name : String) : Apart site.live (site.inStaging name) := by
  have hne : site.dtype ≠ STAGING := by
    intro heq
    have hvalid := h.valid
    rw [heq] at hvalid
    revert hvalid
    decide
  exact (apart_of_ne hne).append [name]

theorem inStaging_apart {a b : String} (h : a ≠ b) : Apart (site.inStaging a) (site.inStaging b) := apart_of_ne h

/-- What an unfinished install has staged stands as it was, a driver in its place is a bundle of the run, and every call
follows one bundle. -/
structure Sound (site : Site) (box₀ box : Box) : Prop where
  count : box.installs.length = box₀.installs.length
  staged : ∀ i install, box.installs[i]? = some install → install.staged = true →
    box.files.under (site.inStaging (site.staging i)) = box₀.files.under (site.inStaging (site.staging i))
  live : box.files site.live ≠ none → Bundled site box₀ (box.files.under site.live)
  calls : ∀ call ∈ box.calls, Follows site box₀ box.files call

theorem Start.sound (h : Start site box) : Sound site box box where
  count := rfl
  staged := fun _ _ _ _ => rfl
  live := fun _ => .inl rfl
  calls := fun call hcall => by
    rw [h.calls call hcall]
    exact trivial

/-- A call follows the same bundle where no other is put in its place, and any where it holds no manifest. -/
theorem Follows.mono (h : Follows site box₀ t call)
    (hsame : call.holdsManifest = false ∨
      (t' site.live ≠ none → t site.live ≠ none ∧ t'.under site.live = t.under site.live)) :
    Follows site box₀ t' call := by
  have hholds : ∀ {manifest stamped}, call.holdsManifest = true → Holds site box₀ t manifest stamped →
      Holds site box₀ t' manifest stamped := by
    rintro manifest stamped hread ⟨bundle, hb, hcontent, hstamp, hlive⟩
    refine ⟨bundle, hb, hcontent, hstamp, fun hthere => ?_⟩
    rcases hsame with hfree | hsame
    · rw [hread] at hfree
      cases hfree
    · obtain ⟨hbefore, heq⟩ := hsame hthere
      rw [heq]
      exact hlive hbefore
  cases call with
  | driverFile | stamp | child | depsDir | driver => exact hholds rfl h
  | handler | getDriver | sha | manifest | ran | notInstalled | unavailable | failed => exact h

theorem sound_call {c : Nat} (hstart : Start site box₀) (h : Sound site box₀ box) (hcall : box.calls[c]? = some call)
    (hthere : box.files site.live ≠ none) (hlook : look site box.files call = some call') :
    Sound site box₀ { box with calls := box.calls.set c call' } where
  count := h.count
  staged := h.staged
  live := h.live
  calls := by
    intro other hother
    rcases List.mem_or_eq_of_mem_set hother with hmem | rfl
    · exact h.calls other hmem
    · have hbundled := h.live hthere
      exact look_follows hthere hbundled (hstart.complete _ hbundled) (h.calls call (List.mem_of_getElem? hcall)) hlook

/-- The other installs' staging directories, after a step that leaves them alone. -/
theorem Sound.staged_set {i : Nat} {install next : Install} (h : Sound site box₀ box)
    (hi : box.installs[i]? = some install) (hnext : next.staged = true → install.staged = true)
    (hsame : ∀ j < box₀.installs.length, (j = i → next.staged = true) →
      t'.under (site.inStaging (site.staging j)) = box.files.under (site.inStaging (site.staging j)))
    (j : Nat) (other : Install) (hj : (box.installs.set i next)[j]? = some other) (hother : other.staged = true) :
    t'.under (site.inStaging (site.staging j)) = box₀.files.under (site.inStaging (site.staging j)) := by
  have hlt : j < box₀.installs.length := by
    rw [← h.count, ← List.length_set (i := i) (a := next)]
    exact (List.getElem?_eq_some_iff.mp hj).1
  by_cases hji : j = i
  · subst hji
    have hnew : other = next := by
      rw [List.getElem?_set_self (List.getElem?_eq_some_iff.mp hi).1] at hj
      exact (Option.some.inj hj).symm
    subst hnew
    rw [hsame j hlt fun _ => hother]
    exact h.staged j install hi (hnext hother)
  · rw [List.getElem?_set_ne (Ne.symm hji)] at hj
    rw [hsame j hlt fun heq => absurd heq hji]
    exact h.staged j other hj hother

theorem sound_install {i : Nat} {fails : Bool} {kept : Path → Bool} {install next : Install} (hstart : Start site box₀)
    (h : Sound site box₀ box) (hi : box.installs[i]? = some install)
    (hok : fails = false → install.movesIn = true → ∀ call ∈ box.calls, call.holdsManifest = false)
    (hact : act site box.files i fails kept install = some (t', next)) :
    Sound site box₀ { box with files := t', installs := box.installs.set i next } := by
  have hcount : (box.installs.set i next).length = box₀.installs.length := by rw [List.length_set, h.count]
  have hlt : i < box₀.installs.length := h.count ▸ (List.getElem?_eq_some_iff.mp hi).1
  rcases act_cases hact with ⟨rfl, hnext⟩ | ⟨rfl, hrename⟩ | ⟨replaced, rfl, hfails, hnext, hrename⟩ |
    ⟨-, hnext, name, hname, rfl⟩
  · exact ⟨hcount, h.staged_set hi hnext fun _ _ _ => rfl, h.live, h.calls⟩
  · -- the driver is moved aside: there is none
    obtain ⟨-, -, rfl⟩ := rename_some hrename
    have hgone : move box.files site.live (site.inStaging (site.retired i)) site.live = none := by
      have := move_src (t := box.files) (hstart.live_apart (site.retired i)) []
      rwa [List.append_nil] at this
    refine ⟨hcount, h.staged_set hi (fun _ => rfl) fun j hj _ => ?_, fun hthere => absurd hgone hthere,
      fun call hcall => (h.calls call hcall).mono (.inr fun hthere => absurd hgone hthere)⟩
    exact under_move (hstart.live_apart _).symm (inStaging_apart (hstart.retired j hj i hlt))
  · -- a staged bundle comes into its place, while no call holds a manifest
    obtain ⟨-, -, rfl⟩ := rename_some hrename
    refine ⟨hcount, h.staged_set hi (fun _ => rfl) fun j hj hji => ?_, fun _ => .inr ⟨i, hlt, ?_⟩, fun call hcall =>
      (h.calls call hcall).mono (.inl (hok hfails rfl call hcall))⟩
    · have hne : j ≠ i := fun heq => by
        rw [hji heq] at hnext
        cases hnext
      exact under_move (inStaging_apart (hstart.names j hj i hlt hne)) (hstart.live_apart _).symm
    · show under (move _ _ _) _ = _
      rw [under_move_dst]
      exact h.staged i _ hi rfl
  · have hlive : (box.files.remove (site.inStaging name) kept).under site.live = box.files.under site.live :=
      under_remove (hstart.live_apart name) kept
    have hthere : (box.files.remove (site.inStaging name) kept) site.live = box.files site.live := by
      have hroot := congrFun hlive []
      rwa [under_apply, under_apply, List.append_nil] at hroot
    refine ⟨hcount, h.staged_set hi (fun hs => ?_) fun j hj hji => ?_, fun hafter => ?_, fun call hcall =>
      (h.calls call hcall).mono (.inr fun hafter => ⟨hthere ▸ hafter, hlive⟩)⟩
    · rw [hnext] at hs
      cases hs
    · have hne : j ≠ i := fun heq => by
        rw [hji heq] at hnext
        cases hnext
      apply under_remove
      apply inStaging_apart
      rcases hname with rfl | rfl
      · exact hstart.names j hj i hlt hne
      · exact hstart.retired j hj i hlt
    · show Bundled site box₀ (under (remove _ _ _) _)
      rw [hlive]
      exact h.live (hthere ▸ hafter)

theorem sound_step {event : Event} (hstart : Start site box₀) (hok : Undisturbed site box event)
    (h : Sound site box₀ box) (hstep : step site box event = some box') : Sound site box₀ box' := by
  cases event with
  | call c =>
    cases hc : box.calls[c]? with
    | none =>
      rw [step, hc] at hstep
      cases hstep
    | some call =>
      rw [step, hc] at hstep
      obtain ⟨call', hlook, rfl⟩ := Option.map_eq_some_iff.mp hstep
      exact sound_call hstart h hc hok hlook
  | install i fails kept =>
    cases hi : box.installs[i]? with
    | none =>
      rw [step, hi] at hstep
      cases hstep
    | some install =>
      rw [step, hi] at hstep
      obtain ⟨⟨t', next⟩, hact, rfl⟩ := Option.map_eq_some_iff.mp hstep
      refine sound_install hstart h hi (fun hfails hmoves => hok hfails ?_) hact
      rw [hi]
      exact hmoves

/-- **A call sees one whole driver**, whatever the installs do meanwhile, as long as it looks while a driver is in its
place and none is moved in while it holds a manifest. -/
theorem calls_see_one_bundle {events : List Event} (hstart : Start site box)
    (hrun : run (step site) box events = some box') (hok : Along (step site) (Undisturbed site) box events)
    (hcall : call ∈ box'.calls) (hended : call.ended = true) : OneBundle site box call := by
  have hsound : Sound site box box' :=
    run_invariant (Sound site box) (fun _ _ _ hok h hstep => sound_step hstart hok h hstep) hok hstart.sound hrun
  have hfollows := hsound.calls call hcall
  cases call with
  | ran manifest driver => exact hfollows
  | notInstalled | unavailable | failed => exact hfollows.elim
  | handler | getDriver | sha | manifest | driverFile | stamp | child | depsDir | driver => cases hended

/-- A box with a driver installed, another staged, and two calls that have not begun. -/
def steppers : Site :=
  { root := ["etc", "lager", "drivers"], dtype := "stepper", staging := fun _ => "stepper-1",
    retired := fun _ => "stepper-old-2", parseManifest := fun _ => .ok ⟨"stepper", "1.0.0", none⟩,
    stampOk := fun _ => true }

def twoCalls : Box :=
  { files := fun p =>
      if p = steppers.live ∨ p = steppers.inStaging "stepper-1" then some .dir
      else if p = steppers.live ++ [MANIFEST_FILE] ∨ p = steppers.live ++ [DRIVER_FILE] then some (.file [1])
      else if p = steppers.inStaging "stepper-1" ++ [MANIFEST_FILE] ∨
        p = steppers.inStaging "stepper-1" ++ [DRIVER_FILE] then some (.file [2])
      else none,
    installs := [.ready],
    calls := [.handler, .handler] }

def allLooks (c : Nat) : List Event := List.replicate 8 (.call c)

def installStep : Event := .install 0 false fun _ => false

theorem start_twoCalls : Start steppers twoCalls where
  valid := by decide +kernel
  complete := by
    rintro bundle (rfl | ⟨i, -, rfl⟩)
    · exact ⟨by decide +kernel, ⟨[1], _, by decide +kernel, rfl, rfl, fun _ => rfl⟩, [1], by decide +kernel⟩
    · show Complete steppers (twoCalls.files.under (steppers.inStaging "stepper-1"))
      exact ⟨by decide +kernel, ⟨[2], _, by decide +kernel, rfl, rfl, fun _ => rfl⟩, [2], by decide +kernel⟩
  names := by
    intro i hi j hj hne
    simp only [twoCalls, List.length_singleton] at hi hj
    omega
  retired := fun _ _ _ _ => show "stepper-1" ≠ "stepper-old-2" by decide +kernel
  installs := by decide
  calls := by decide

instance (box : Box) (event : Event) : Decidable (Undisturbed steppers box event) :=
  match event with
  | .call _ => inferInstanceAs (Decidable (_ ≠ _))
  | .install _ _ _ => inferInstanceAs (Decidable (_ → _ → _))

/-- One call before the swap and one after it. -/
theorem calls_see_one_bundle_twoCalls :
    Start steppers twoCalls ∧ ∃ box',
      run (step steppers) twoCalls (installStep :: allLooks 0 ++ [installStep, installStep, installStep] ++
        allLooks 1) = some box' ∧ box'.calls = [.ran [1] [1], .ran [2] [2]] ∧
          ∀ call ∈ box'.calls, call.ended = true → OneBundle steppers twoCalls call := by
  have hcalls : (run (step steppers) twoCalls (installStep :: allLooks 0 ++ [installStep, installStep, installStep] ++
      allLooks 1)).map Box.calls = some [.ran [1] [1], .ran [2] [2]] := by decide +kernel
  obtain ⟨box', hrun, hran⟩ := Option.map_eq_some_iff.mp hcalls
  exact ⟨start_twoCalls, box', hrun, hran, fun _ hcall hended =>
    calls_see_one_bundle start_twoCalls hrun (by decide +kernel) hcall hended⟩

/-- Between the two renames a call is answered that no driver is installed; and a call that has read the manifest before
them runs the other bundle's driver. -/
theorem swap_seen_by_calls :
    Start steppers twoCalls ∧
      (run (step steppers) twoCalls [installStep, installStep, .call 0]).map Box.calls =
        some [.notInstalled, .handler] ∧
      (run (step steppers) twoCalls (List.replicate 4 (.call 0) ++ [installStep, installStep, installStep] ++
        List.replicate 4 (.call 0))).map Box.calls = some [.ran [1] [2], .handler] ∧
      ¬ OneBundle steppers twoCalls .notInstalled ∧ ¬ OneBundle steppers twoCalls (.ran [1] [2]) := by
  refine ⟨start_twoCalls, by decide +kernel, by decide +kernel, ?_, ?_⟩
  · rintro ⟨manifest, driver, bundle, heq, -⟩
    cases heq
  · rintro ⟨manifest, driver, bundle, heq, hbundled, hmanifest, hdriver⟩
    cases heq
    rcases hbundled with rfl | ⟨i, -, rfl⟩
    · have hread : (twoCalls.files.under steppers.live).content [DRIVER_FILE] = some [1] := by decide +kernel
      rw [hread] at hdriver
      cases hdriver
    · have hread : (twoCalls.files.under (steppers.inStaging "stepper-1")).content [MANIFEST_FILE] = some [2] := by
        decide +kernel
      rw [show steppers.staging i = "stepper-1" from rfl, hread] at hmanifest
      cases hmanifest

end Lager.Drivers
