import Lager.Lock.Sessions

/-!
# The lock scope of a CI job

`get_lock_holder` writes the identity of a CI job, with the process id at a place that the provider decides, and
`lock_scope` takes the process id out again with one pattern. What is left names the job and nothing more
(`scope_holder`, `scope_injective`), so another process' lock is ours when it is of the same job.
-/

namespace Lager.Lock

open Lager.Py

/-! ### The holder -/

/-- `CIEnvironment` -/
inductive CiEnvironment where
  | host
  | drone
  | github
  | bitbucket
  | gitlab
  | generic
  | jenkins
  deriving DecidableEq

/-- What a process reads: the environment, `socket.gethostname()` and `os.getpid()`. -/
structure Process where
  environ : String → Option (List Char)
  host : List Char
  pid : Nat

/-- `os.getenv` -/
def Process.getenv (p : Process) (name : String) (default : List Char) : List Char := (p.environ name).getD default

/-- `needle in text` -/
def occursIn (needle text : List Char) : Bool := text.tails.any (needle.isPrefixOf ·)

/-- `get_ci_environment`; `lower` is `str.lower`. -/
def getCiEnvironment (lower : List Char → List Char) (p : Process) : CiEnvironment :=
  if p.getenv "LAGER_CI_OVERRIDE" [] ≠ [] then .host
  else if p.environ "CI" = some "true".toList then
    if p.environ "DRONE" = some "true".toList then .drone
    else if p.getenv "GITHUB_RUN_ID" [] ≠ [] then .github
    else if p.getenv "BITBUCKET_BUILD_NUMBER" [] ≠ [] then .bitbucket
    else if occursIn "gitlab".toList (lower (p.getenv "CI_SERVER_NAME" [])) then .gitlab
    else if occursIn "jenkins".toList (lower (p.getenv "BUILD_TAG" [])) then .jenkins
    else .generic
  else .host

/-- A CI job: the provider and its fields, other than the process id. -/
inductive CiJob where
  | github (repo runId attempt job runner : List Char)
  | drone (repo build host : List Char)
  | gitlab (project pipeline job host : List Char)
  | bitbucket (repo build host : List Char)
  | jenkins (tag host : List Char)
  | generic (host : List Char)
  deriving DecidableEq

/-- The fields that `get_lock_holder` reads for a provider. -/
def Process.ciJob (p : Process) : CiEnvironment → Option CiJob
  | .host => none
  | .github => some (.github (p.getenv "GITHUB_REPOSITORY" "unknown".toList) (p.getenv "GITHUB_RUN_ID" "0".toList)
      (p.getenv "GITHUB_RUN_ATTEMPT" "1".toList) (p.getenv "GITHUB_JOB" "job".toList) (p.getenv "RUNNER_NAME" p.host))
  | .drone => some (.drone (p.getenv "DRONE_REPO" "unknown".toList) (p.getenv "DRONE_BUILD_NUMBER" "0".toList) p.host)
  | .gitlab => some (.gitlab (p.getenv "CI_PROJECT_PATH" (p.getenv "CI_PROJECT_NAME" "unknown".toList))
      (p.getenv "CI_PIPELINE_ID" "0".toList) (p.getenv "CI_JOB_NAME" "job".toList) p.host)
  | .bitbucket => some (.bitbucket (p.getenv "BITBUCKET_REPO_FULL_NAME"
      (p.getenv "BITBUCKET_REPO_SLUG" "unknown".toList)) (p.getenv "BITBUCKET_BUILD_NUMBER" "0".toList) p.host)
  | .jenkins => some (.jenkins (p.getenv "BUILD_TAG" (p.getenv "BUILD_NUMBER" "0".toList)) p.host)
  | .generic => some (.generic p.host)

/-- `ci:<provider>:` -/
def ciHead (provider : String) : List Char := "ci:".toList ++ provider.toList ++ [':']

/-- The text in front of the process id. -/
def CiJob.before : CiJob → List Char
  | github repo runId attempt job runner => ciHead "github" ++ repo ++ '#' :: runId ++ '-' :: attempt ++ '/' :: job ++
      '@' :: runner
  | drone repo build _ => ciHead "drone" ++ repo ++ '#' :: build
  | gitlab project pipeline job _ => ciHead "gitlab" ++ project ++ '#' :: pipeline ++ '/' :: job
  | bitbucket repo build _ => ciHead "bitbucket" ++ repo ++ '#' :: build
  | jenkins tag _ => ciHead "jenkins" ++ tag
  | generic host => ciHead "generic" ++ host

/-- The text behind it. -/
def CiJob.behind : CiJob → List Char
  | github _ _ _ _ _ | generic _ => []
  | drone _ _ host | gitlab _ _ _ host | bitbucket _ _ host | jenkins _ host => '@' :: host

def CiJob.holder (j : CiJob) (pid : Nat) : List Char := j.before ++ ':' :: textOfNat pid ++ j.behind

/-- `get_lock_holder`; `lagerUser` is `get_lager_user()`. -/
def getLockHolder (lower : List Char → List Char) (lagerUser : String) (p : Process) : String :=
  if p.getenv "LAGER_LOCK_HOLDER" [] ≠ [] then String.ofList (p.getenv "LAGER_LOCK_HOLDER" [])
  else match p.ciJob (getCiEnvironment lower p) with
    | none => lagerUser
    | some job => String.ofList (job.holder p.pid)

/-! ### What the fields of a job are made of -/

/-- Decimal digits. -/
def Numeric (text : List Char) : Prop := ∀ c ∈ text, (digitOf c).isSome = true

/-- Letters, digits, `-` and `_`. -/
def isJobChar (c : Char) : Bool := c.isAlphanum || c = '-' || c = '_'

/-- The fields of a job as the providers give them. -/
def CiJob.WellFormed : CiJob → Prop
  | github repo runId attempt job runner => ('#' ∉ repo ∧ '@' ∉ repo) ∧ Numeric runId ∧ Numeric attempt ∧
      (∀ c ∈ job, isJobChar c = true) ∧ '@' ∉ runner
  | drone repo build host | bitbucket repo build host => ('#' ∉ repo ∧ '@' ∉ repo) ∧ Numeric build ∧ ':' ∉ host ∧
      '@' ∉ host
  | gitlab project pipeline job host => ('#' ∉ project ∧ '@' ∉ project) ∧ Numeric pipeline ∧ '@' ∉ job ∧ ':' ∉ host ∧
      '@' ∉ host
  | jenkins tag host => '@' ∉ tag ∧ ':' ∉ host ∧ '@' ∉ host
  | generic host => ':' ∉ host ∧ '@' ∉ host

/-! ### Taking the process id out -/

/-- A process id starts here. -/
def PidHere (text : List Char) : Prop :=
  ∃ rest, text = ':' :: rest ∧ (rest.takeWhile fun d => (digitOf d).isSome) ≠ [] ∧
    pidEnds (rest.dropWhile fun d => (digitOf d).isSome) = true

theorem dropPids_cons {fuel : Nat} {c : Char} {text : List Char} (h : ¬PidHere (c :: text)) :
    dropPids (fuel + 1) (c :: text) = c :: dropPids fuel text := by
  rw [dropPids, if_neg]
  rintro ⟨rfl, hdigits, hends⟩
  exact h ⟨text, rfl, hdigits, hends⟩

theorem dropPids_no_colon {text : List Char} (h : ':' ∉ text) (fuel : Nat) : dropPids fuel text = text := by
  induction text generalizing fuel with
  | nil => rw [dropPids]
  | cons c text ih =>
    cases fuel with
    | zero => rfl
    | succ fuel =>
      have hhere : ¬PidHere (c :: text) := by
        rintro ⟨rest, heq, -⟩
        cases heq
        exact h List.mem_cons_self
      rw [dropPids_cons hhere, ih fun hmem => h (List.mem_cons_of_mem c hmem)]

theorem pidEnds_cons {c : Char} {text : List Char} (h : text ≠ []) : pidEnds (c :: text) = decide (c = '@') := by
  cases text with
  | nil => exact absurd rfl h
  | cons d text => simp [pidEnds]

/-- A process id does not end at a character that is not an `@`, in front of more text. -/
theorem not_pidHere {digits more : List Char} {c : Char} (hdigits : Numeric digits) (hc : digitOf c = none)
    (hat : c ≠ '@') (hmore : more ≠ []) : ¬PidHere (':' :: (digits ++ c :: more)) := by
  rintro ⟨rest, heq, -, hends⟩
  cases heq
  have hstop : ¬(digitOf c).isSome = true := by
    rw [hc]
    nofun
  rw [List.dropWhile_append_of_pos hdigits, List.dropWhile_cons, if_neg hstop, pidEnds_cons hmore] at hends
  exact hat (of_decide_eq_true hends)

/-- A text is digits, or has a first character that is not one. -/
theorem numeric_or_split (text : List Char) :
    Numeric text ∨ ∃ digits c more, text = digits ++ c :: more ∧ Numeric digits ∧ digitOf c = none := by
  induction text with
  | nil => exact Or.inl nofun
  | cons c text ih =>
    cases hc : digitOf c with
    | none => exact Or.inr ⟨[], c, text, rfl, nofun, hc⟩
    | some d =>
      have hdigit : (digitOf c).isSome = true := by
        rw [hc]
        rfl
      rcases ih with hall | ⟨digits, e, more, rfl, hdigits, he⟩
      · exact Or.inl (List.forall_mem_cons.mpr ⟨hdigit, hall⟩)
      · exact Or.inr ⟨c :: digits, e, more, rfl, List.forall_mem_cons.mpr ⟨hdigit, hdigits⟩, he⟩

/-- Nothing of `text` is taken out in front of `rest`, when `text` has no `@` and what follows a colon in it either is
not only digits or meets the colon that `rest` starts with. -/
theorem dropPids_append {text rest : List Char} {fuel : Nat} (hat : '@' ∉ text) (hrest : rest ≠ [])
    (hstop : (∃ more, more ≠ [] ∧ rest = ':' :: more) ∨ ∀ u v, text = u ++ ':' :: v → ¬Numeric v)
    (hfuel : text.length ≤ fuel) : dropPids fuel (text ++ rest) = text ++ dropPids (fuel - text.length) rest := by
  induction text generalizing fuel with
  | nil => rfl
  | cons c text ih =>
    obtain ⟨fuel, rfl⟩ : ∃ f, fuel = f + 1 := ⟨fuel - 1, by rw [List.length_cons] at hfuel; omega⟩
    have hhere : ¬PidHere (c :: (text ++ rest)) := by
      by_cases hcolon : c = ':'
      · subst hcolon
        rcases numeric_or_split text with hall | ⟨digits, e, more, rfl, hdigits, he⟩
        · rcases hstop with ⟨more, hmore, rfl⟩ | hnot
          · exact not_pidHere hall (by decide) (by decide) hmore
          · exact absurd hall (hnot [] text rfl)
        · have he_at : e ≠ '@' := fun heq => hat (by rw [← heq]; simp)
          rw [List.append_assoc]
          exact not_pidHere hdigits he he_at (by simp [hrest])
      · rintro ⟨more, heq, -⟩
        cases heq
        exact hcolon rfl
    have htail : ∀ u v, text = u ++ ':' :: v → c :: text = (c :: u) ++ ':' :: v := fun u v h => by
      rw [h, List.cons_append]
    rw [List.cons_append, dropPids_cons hhere, ih (fun hmem => hat (List.mem_cons_of_mem c hmem))
      (hstop.imp_right fun hnot u v h => hnot (c :: u) v (htail u v h)) (by rw [List.length_cons] at hfuel; omega),
      List.cons_append, List.length_cons, Nat.add_sub_add_right]

/-- The process id itself is taken out. -/
theorem dropPids_pid {digits rest : List Char} (fuel : Nat) (hne : digits ≠ []) (hdigits : Numeric digits)
    (hrest : rest = [] ∨ ∃ host, rest = '@' :: host) :
    dropPids (fuel + 1) (':' :: (digits ++ rest)) = dropPids fuel rest := by
  have htake : (digits ++ rest).takeWhile (fun d => (digitOf d).isSome) = digits := by
    rw [List.takeWhile_append_of_pos hdigits]
    rcases hrest with rfl | ⟨host, rfl⟩
    · rw [List.takeWhile_nil, List.append_nil]
    · rw [List.takeWhile_cons_of_neg (by decide), List.append_nil]
  have hdrop : (digits ++ rest).dropWhile (fun d => (digitOf d).isSome) = rest := by
    rw [List.dropWhile_append_of_pos hdigits]
    rcases hrest with rfl | ⟨host, rfl⟩
    · rfl
    · rw [List.dropWhile_cons_of_neg (by decide)]
  have hends : pidEnds rest = true := by
    rcases hrest with rfl | ⟨host, rfl⟩
    · rfl
    · simp [pidEnds]
  rw [dropPids, htake, hdrop, if_pos ⟨rfl, hne, hends⟩]

theorem numeric_textOfNat (n : Nat) : Numeric (textOfNat n) := fun c hc => by
  rw [digitOf_digit (mem_textOfNat hc)]
  rfl

theorem Numeric.not_mem {text : List Char} {c : Char} (h : Numeric text) (hc : digitOf c = none) : c ∉ text := by
  intro hmem
  have hdigit := h c hmem
  rw [hc] at hdigit
  cases hdigit

/-! ### The scope of a holder -/

/-- What names the job: the holder without the process id. -/
def CiJob.scope (j : CiJob) : List Char := j.before ++ j.behind

theorem behind_cases {j : CiJob} (h : j.WellFormed) :
    (j.behind = [] ∨ ∃ host, j.behind = '@' :: host) ∧ ':' ∉ j.behind := by
  have hhost : ∀ host : List Char, ':' ∉ host → ':' ∉ '@' :: host := fun host hcolon hmem =>
    (List.mem_cons.mp hmem).elim (by decide) hcolon
  cases j with
  | github repo runId attempt job runner => exact ⟨Or.inl rfl, nofun⟩
  | generic host => exact ⟨Or.inl rfl, nofun⟩
  | drone repo build host => exact ⟨Or.inr ⟨host, rfl⟩, hhost host h.2.2.1⟩
  | gitlab project pipeline job host => exact ⟨Or.inr ⟨host, rfl⟩, hhost host h.2.2.2.1⟩
  | bitbucket repo build host => exact ⟨Or.inr ⟨host, rfl⟩, hhost host h.2.2.1⟩
  | jenkins tag host => exact ⟨Or.inr ⟨host, rfl⟩, hhost host h.2.1⟩

/-- In front of the `@` of a GitHub holder there is a job id, which has no colon. -/
theorem github_stop {start job u v : List Char} (hjob : ∀ c ∈ job, isJobChar c = true)
    (h : start ++ '/' :: job = u ++ ':' :: v) : ¬Numeric v := by
  intro hnumeric
  have hcolon : ':' ∉ '/' :: job := fun hmem => by
    rcases List.mem_cons.mp hmem with heq | hmem
    · revert heq
      decide
    · exact absurd (hjob ':' hmem) (by decide)
  rcases List.append_eq_append_iff.mp h with ⟨w, -, hrest⟩ | ⟨w, -, hrest⟩
  · exact hcolon (by rw [hrest]; simp)
  · cases w with
    | nil =>
      rw [List.nil_append] at hrest
      exact hcolon (by rw [← hrest]; exact List.mem_cons_self)
    | cons c w =>
      rw [List.cons_append] at hrest
      have hslash : '/' ∈ v := by
        rw [(List.cons.inj hrest).2]
        simp
      exact hnumeric.not_mem (by decide) hslash

theorem dropPids_past_at {start runner more : List Char} {fuel : Nat} (hat : '@' ∉ start)
    (hstop : ∀ u v, start = u ++ ':' :: v → ¬Numeric v) (hrunner : '@' ∉ runner) (hmore : more ≠ [])
    (hfuel : (start ++ '@' :: runner).length ≤ fuel) :
    dropPids fuel (start ++ '@' :: runner ++ ':' :: more) =
      start ++ '@' :: runner ++ dropPids (fuel - (start ++ '@' :: runner).length) (':' :: more) := by
  rw [List.length_append, List.length_cons] at hfuel
  obtain ⟨left, hleft⟩ : ∃ left, fuel - start.length = left + 1 := ⟨fuel - start.length - 1, by omega⟩
  have hhere : ¬PidHere ('@' :: (runner ++ ':' :: more)) := by
    rintro ⟨rest, heq, -⟩
    revert heq
    simp
  have hfuels : fuel - (start ++ '@' :: runner).length = left - runner.length := by
    rw [List.length_append, List.length_cons]
    omega
  rw [List.append_assoc, dropPids_append hat (by simp) (Or.inr hstop) (by omega), hleft, List.cons_append,
    dropPids_cons hhere, dropPids_append hrunner (List.cons_ne_nil _ _) (Or.inl ⟨more, hmore, rfl⟩) (by omega), hfuels,
    List.append_assoc, List.cons_append]

/-- Everything in front of the process id stays. -/
theorem dropPids_before {j : CiJob} (h : j.WellFormed) {more : List Char} (hmore : more ≠ []) {fuel : Nat}
    (hfuel : j.before.length ≤ fuel) :
    dropPids fuel (j.before ++ ':' :: more) = j.before ++ dropPids (fuel - j.before.length) (':' :: more) := by
  have hpass : '@' ∉ j.before → dropPids fuel (j.before ++ ':' :: more) =
      j.before ++ dropPids (fuel - j.before.length) (':' :: more) := fun hat =>
    dropPids_append hat (List.cons_ne_nil _ _) (Or.inl ⟨more, hmore, rfl⟩) hfuel
  have hnumeric : ∀ {text : List Char}, Numeric text → '@' ∉ text := fun h => h.not_mem (by decide)
  have hhead : '@' ∉ ciHead "github" ∧ '@' ∉ ciHead "drone" ∧ '@' ∉ ciHead "gitlab" ∧ '@' ∉ ciHead "bitbucket" ∧
      '@' ∉ ciHead "jenkins" ∧ '@' ∉ ciHead "generic" := by decide
  cases j with
  | github repo runId attempt job runner =>
    obtain ⟨⟨-, hrepo⟩, hrun, hattempt, hjob, hrunner⟩ := h
    have hatJob : '@' ∉ job := fun hmem => absurd (hjob '@' hmem) (by decide)
    have hat : '@' ∉ ciHead "github" ++ repo ++ '#' :: runId ++ '-' :: attempt ++ '/' :: job := by
      simp [hhead, hrepo, hnumeric hrun, hnumeric hattempt, hatJob]
    exact dropPids_past_at hat (fun u v h => github_stop hjob h) hrunner hmore hfuel
  | drone repo build host =>
    obtain ⟨⟨-, hrepo⟩, hbuild, -⟩ := h
    exact hpass (by simp [CiJob.before, hhead, hrepo, hnumeric hbuild])
  | gitlab project pipeline job host =>
    obtain ⟨⟨-, hproject⟩, hpipeline, hjob, -⟩ := h
    exact hpass (by simp [CiJob.before, hhead, hproject, hnumeric hpipeline, hjob])
  | bitbucket repo build host =>
    obtain ⟨⟨-, hrepo⟩, hbuild, -⟩ := h
    exact hpass (by simp [CiJob.before, hhead, hrepo, hnumeric hbuild])
  | jenkins tag host => exact hpass (by simp [CiJob.before, hhead, h.1])
  | generic host => exact hpass (by simp [CiJob.before, hhead, h.2])

/-- `lock_scope` takes out the process id and nothing else. -/
theorem scope_holder {j : CiJob} (h : j.WellFormed) (pid : Nat) :
    lockScope (String.ofList (j.holder pid)) = j.scope := by
  obtain ⟨hbehind, hcolon⟩ := behind_cases h
  have hne : textOfNat pid ++ j.behind ≠ [] := fun heq => textOfNat_ne_nil pid (List.append_eq_nil_iff.mp heq).1
  have hholder : j.holder pid = j.before ++ ':' :: (textOfNat pid ++ j.behind) := by
    rw [CiJob.holder, List.append_assoc, List.cons_append]
  obtain ⟨left, hleft⟩ : ∃ left, (j.holder pid).length - j.before.length = left + 1 := by
    refine ⟨(textOfNat pid ++ j.behind).length, ?_⟩
    rw [hholder, List.length_append, List.length_cons]
    omega
  have hfuel : j.before.length ≤ (j.holder pid).length := by
    rw [hholder, List.length_append]
    omega
  rw [lockScope, String.toList_ofList, CiJob.scope]
  generalize (j.holder pid).length = fuel at hleft hfuel ⊢
  rw [hholder, dropPids_before h hne hfuel, hleft,
    dropPids_pid left (textOfNat_ne_nil pid) (numeric_textOfNat pid) hbehind, dropPids_no_colon hcolon]

/-! ### The job of a scope -/

/-- The provider a scope starts with, as far as the providers differ. -/
def CiJob.mark : CiJob → String
  | github _ _ _ _ _ => "ci:gith"
  | drone _ _ _ => "ci:dron"
  | gitlab _ _ _ _ => "ci:gitl"
  | bitbucket _ _ _ => "ci:bitb"
  | jenkins _ _ => "ci:jenk"
  | generic _ => "ci:gene"

theorem take_scope (j : CiJob) : j.scope.take 7 = j.mark.toList := by
  cases j <;> simp [CiJob.scope, CiJob.before, CiJob.mark, ciHead]

/-- The text up to the first `c`, and the text behind it. -/
theorem split_inj {c : Char} {s s' t t' : List Char} (hs : c ∉ s) (hs' : c ∉ s') (h : s ++ c :: t = s' ++ c :: t') :
    s = s' ∧ t = t' := by
  have hpass : ∀ {s : List Char}, c ∉ s → ∀ d ∈ s, decide (d ≠ c) = true := fun hs d hd =>
    decide_eq_true fun heq => hs (heq ▸ hd)
  have htake := congrArg (List.takeWhile fun d => decide (d ≠ c)) h
  rw [List.takeWhile_append_of_pos (hpass hs), List.takeWhile_append_of_pos (hpass hs'),
    List.takeWhile_cons_of_neg (by simp), List.takeWhile_cons_of_neg (by simp), List.append_nil,
    List.append_nil] at htake
  subst htake
  exact ⟨rfl, (List.cons.inj (List.append_cancel_left h)).2⟩

theorem scope_injective {a b : CiJob} (ha : a.WellFormed) (hb : b.WellFormed) (h : a.scope = b.scope) : a = b := by
  have hmark : a.mark = b.mark := by
    apply String.toList_injective
    rw [← take_scope, ← take_scope, h]
  have hnumeric : ∀ {text : List Char}, Numeric text → '-' ∉ text ∧ '/' ∉ text ∧ '@' ∉ text := fun h =>
    ⟨h.not_mem (by decide), h.not_mem (by decide), h.not_mem (by decide)⟩
  cases a with
  | github repo runId attempt job runner =>
    cases b with
    | github repo' runId' attempt' job' runner' =>
      obtain ⟨⟨hrepo, -⟩, hrun, hattempt, hjob, -⟩ := ha
      obtain ⟨⟨hrepo', -⟩, hrun', hattempt', hjob', -⟩ := hb
      have hat : '@' ∉ job := fun hmem => absurd (hjob '@' hmem) (by decide)
      have hat' : '@' ∉ job' := fun hmem => absurd ( hjob' '@' hmem) (by decide)
      simp only [CiJob.scope, CiJob.before, CiJob.behind, List.append_assoc, List.append_cancel_left_eq,
        List.cons_append, List.append_nil] at h
      obtain ⟨rfl, htail⟩ := split_inj hrepo hrepo' h
      obtain ⟨rfl, hlate⟩ := split_inj (hnumeric hrun).1 (hnumeric hrun').1 htail
      obtain ⟨rfl, hlast⟩ := split_inj (hnumeric hattempt).2.1 (hnumeric hattempt').2.1 hlate
      obtain ⟨rfl, rfl⟩ := split_inj hat hat' hlast
      rfl
    | _ => exact absurd hmark (by simp [CiJob.mark])
  | drone repo build host =>
    cases b with
    | drone repo' build' host' =>
      obtain ⟨⟨hrepo, -⟩, hbuild, -⟩ := ha
      obtain ⟨⟨hrepo', -⟩, hbuild', -⟩ := hb
      simp only [CiJob.scope, CiJob.before, CiJob.behind, List.append_assoc, List.append_cancel_left_eq,
        List.cons_append] at h
      obtain ⟨rfl, htail⟩ := split_inj hrepo hrepo' h
      obtain ⟨rfl, rfl⟩ := split_inj (hnumeric hbuild).2.2 (hnumeric hbuild').2.2 htail
      rfl
    | _ => exact absurd hmark (by simp [CiJob.mark])
  | gitlab project pipeline job host =>
    cases b with
    | gitlab project' pipeline' job' host' =>
      obtain ⟨⟨hproject, -⟩, hpipeline, hjob, -⟩ := ha
      obtain ⟨⟨hproject', -⟩, hpipeline', hjob', -⟩ := hb
      simp only [CiJob.scope, CiJob.before, CiJob.behind, List.append_assoc, List.append_cancel_left_eq,
        List.cons_append] at h
      obtain ⟨rfl, htail⟩ := split_inj hproject hproject' h
      obtain ⟨rfl, hlast⟩ := split_inj (hnumeric hpipeline).2.1 (hnumeric hpipeline').2.1 htail
      obtain ⟨rfl, rfl⟩ := split_inj hjob hjob' hlast
      rfl
    | _ => exact absurd hmark (by simp [CiJob.mark])
  | bitbucket repo build host =>
    cases b with
    | bitbucket repo' build' host' =>
      obtain ⟨⟨hrepo, -⟩, hbuild, -⟩ := ha
      obtain ⟨⟨hrepo', -⟩, hbuild', -⟩ := hb
      simp only [CiJob.scope, CiJob.before, CiJob.behind, List.append_assoc, List.append_cancel_left_eq,
        List.cons_append] at h
      obtain ⟨rfl, htail⟩ := split_inj hrepo hrepo' h
      obtain ⟨rfl, rfl⟩ := split_inj (hnumeric hbuild).2.2 (hnumeric hbuild').2.2 htail
      rfl
    | _ => exact absurd hmark (by simp [CiJob.mark])
  | jenkins tag host =>
    cases b with
    | jenkins tag' host' =>
      simp only [CiJob.scope, CiJob.before, CiJob.behind, List.append_assoc, List.append_cancel_left_eq] at h
      obtain ⟨rfl, rfl⟩ := split_inj ha.1 hb.1 h
      rfl
    | _ => exact absurd hmark (by simp [CiJob.mark])
  | generic host =>
    cases b with
    | generic host' =>
      simp only [CiJob.scope, CiJob.before, CiJob.behind, List.append_nil, List.append_cancel_left_eq] at h
      rw [h]
    | _ => exact absurd hmark (by simp [CiJob.mark])

/-! ### Whose lock it is -/

variable {lower : List Char → List Char} {lagerUser : String} {p q : Process} {a b : CiJob}

theorem getLockHolder_job (hno : p.getenv "LAGER_LOCK_HOLDER" [] = [])
    (hjob : p.ciJob (getCiEnvironment lower p) = some a) :
    getLockHolder lower lagerUser p = String.ofList (a.holder p.pid) := by
  unfold getLockHolder
  rw [if_neg (not_not.mpr hno), hjob]

/-- A holder of a CI job begins with `ci:`. -/
theorem exists_holder (j : CiJob) (pid : Nat) : ∃ rest, j.holder pid = "ci:".toList ++ rest := by
  cases j <;> exact ⟨_, by simp only [CiJob.holder, CiJob.before, ciHead, List.append_assoc]; rfl⟩

/-- **The scope of a CI lock is the job.** For two processes in CI without an override, the holder of one is that of
the other if and only if they belong to the same job: the same provider, and the same fields but for the process id. -/
theorem ci_lock_scope_is_job (casefold lower : List Char → List Char) (lagerUser : String) (p q : Process) (a b : CiJob)
    (user : String) (hp : p.getenv "LAGER_LOCK_HOLDER" [] = []) (hq : q.getenv "LAGER_LOCK_HOLDER" [] = [])
    (ha : p.ciJob (getCiEnvironment lower p) = some a) (hb : q.ciJob (getCiEnvironment lower q) = some b)
    (hwell : a.WellFormed ∧ b.WellFormed) (huser : user ≠ getLockHolder lower lagerUser p) :
    holderIsOurs casefold (getLockHolder lower lagerUser p) (getLockHolder lower lagerUser q) user = true ↔ a = b := by
  rw [getLockHolder_job hp ha] at huser ⊢
  rw [getLockHolder_job hq hb]
  obtain ⟨rest, hrest⟩ := exists_holder a p.pid
  obtain ⟨rest', hrest'⟩ := exists_holder b q.pid
  have hne : String.ofList (a.holder p.pid) ≠ "" := fun h => by
    have hlist := congrArg String.toList h
    rw [String.toList_ofList, hrest] at hlist
    cases hlist
  have hne' : String.ofList (b.holder q.pid) ≠ "" := fun h => by
    have hlist := congrArg String.toList h
    rw [String.toList_ofList, hrest'] at hlist
    cases hlist
  have hemail : holderEmail (String.ofList (a.holder p.pid)) = none := by
    have hstart : "ci:".toList.isPrefixOf (String.ofList (a.holder p.pid)).toList = true := by
      have hlist : (String.ofList (a.holder p.pid)).toList = a.holder p.pid := String.toList_ofList
      rw [hlist, hrest]
      exact List.isPrefixOf_iff_prefix.mpr ⟨rest, rfl⟩
    unfold holderEmail
    exact if_pos hstart
  have hscope : lockScope (String.ofList (a.holder p.pid)) = lockScope (String.ofList (b.holder q.pid)) ↔ a = b := by
    rw [scope_holder hwell.1, scope_holder hwell.2]
    exact ⟨scope_injective hwell.1 hwell.2, congrArg CiJob.scope⟩
  unfold holderIsOurs
  rw [if_neg hne]
  by_cases hsame : String.ofList (a.holder p.pid) = String.ofList (b.holder q.pid)
  · rw [if_pos ⟨hne', hsame⟩]
    exact ⟨fun _ => hscope.mp (congrArg lockScope hsame), fun _ => rfl⟩
  · rw [if_neg fun h => hsame h.2]
    by_cases hjob : a = b
    · rw [if_pos ⟨hne', hscope.mpr hjob⟩]
      exact ⟨fun _ => hjob, fun _ => rfl⟩
    · rw [if_neg fun h => hjob (hscope.mp h.2), if_neg fun h => huser h.2.symm, hemail]
      exact ⟨nofun, fun h => absurd h hjob⟩

/-- A GitLab job whose name looks like a process id. -/
def gitlabProcess (pid : Nat) : Process where
  environ name := if name = "CI" then some "true".toList else if name = "CI_SERVER_NAME" then some "gitlab".toList
    else if name = "CI_PROJECT_PATH" then some "group/p:7".toList else if name = "CI_PIPELINE_ID" then some "9".toList
    else if name = "CI_JOB_NAME" then some "test:42".toList else none
  host := "runner".toList
  pid := pid

/-- Two commands of one job. -/
theorem ci_lock_scope_gitlab : holderIsOurs id (getLockHolder id "dev" (gitlabProcess 100))
    (getLockHolder id "dev" (gitlabProcess 2345)) "dev" = true := by
  let job : CiJob := .gitlab "group/p:7".toList "9".toList "test:42".toList "runner".toList
  have hwell : job.WellFormed := by
    refine ⟨by decide, fun c hc => ?_, by decide, by decide, by decide⟩
    rw [List.mem_singleton.mp hc]
    decide
  have huser : "dev" ≠ getLockHolder id "dev" (gitlabProcess 100) := by decide
  exact (ci_lock_scope_is_job id id "dev" (gitlabProcess 100) (gitlabProcess 2345) job job "dev" rfl rfl rfl rfl
    ⟨hwell, hwell⟩ huser).mpr rfl

end Lager.Lock
