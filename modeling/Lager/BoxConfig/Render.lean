import Lager.BoxConfig.Load
import Lager.BoxConfig.Verbs
import Lager.Lib.Shell
import Lager.Lib.Split
import Mathlib.Data.List.Sort

/-!
# Rendering

What a start of the box makes of a configuration: the file of docker arguments that `start_box.sh` sources, the pip
requirements, the udev rules; and how each of the three is read by the program it is for. Validation checks the
fields of the configuration one by one, and the renderers join them with separators of their own.

`sourced` holds without a condition: whatever the texts are, the sourced file assigns exactly its five variables,
and each text comes back as one word.
-/

namespace Lager.BoxConfig

open Lager.Py Lager.Lib Lager.Lib.Shell

variable (T : TextOps)

/-- What an f-string writes for a field. -/
def textOf (v : Json) : Word := (T.str v).toList

/-! ### Docker arguments -/

/-- `host:container`, and `:ro` for a mount that is read only. -/
def mountSpec (m : Mount) : Word :=
  textOf T m.host ++ ':' :: (textOf T m.container ++ if m.readonly then ":ro".toList else [])

def volumeSpec (v : Volume) : Word := textOf T v.name ++ ':' :: textOf T v.container

/-- `Mount.to_docker_arg` -/
def Mount.toDockerArg (m : Mount) : List Char := "-v ".toList ++ quote (mountSpec T m)

/-- `Volume.to_docker_arg` -/
def Volume.toDockerArg (v : Volume) : List Char := "-v ".toList ++ quote (volumeSpec T v)

def dashV : Word := "-v".toList

def dashEnv : Word := "--env".toList

variable (c : BoxConfig)

/-- The specifications behind `-v`: those of the mounts, then those of the volumes. -/
def specs : List Word := c.mounts.map (mountSpec T) ++ c.volumes.map (volumeSpec T)

/-- `mount_args` -/
def mountArgs : List Word := (specs T c).flatMap fun spec => [dashV, spec]

/-- `env_args` -/
def envArgs : List Word := c.env.flatMap fun kv => [dashEnv, kv.1.toList ++ '=' :: textOf T kv.2]

/-- `host_paths` -/
def hostPaths : List Word := c.mounts.map fun m => textOf T m.host

/-- `docker_mount_args`, as one line of a command. -/
def dockerMountArgs : List Char :=
  [' '].intercalate (c.mounts.map (Mount.toDockerArg T) ++ c.volumes.map (Volume.toDockerArg T))

/-- `_bash_array` -/
def bashArray (name : Word) (items : List Word) : List Char := name ++ '=' :: '(' :: (joined items ++ [')', '\n'])

/-- `_bash_scalar` -/
def bashScalar (name : Word) (value : Word) : List Char := name ++ '=' :: (quote value ++ ['\n'])

/-- `_effective_network`: the network of this start, and the configured mode it withholds. `applied` is the mode of
the applied snapshot. -/
def effectiveNetwork (confirmed : Bool) (applied desired : Json) : Json × Json :=
  if desired ≠ .str "host" ∨ confirmed = true then (desired, .str "")
  else if applied = .str "host" then (desired, .str "")
  else (.str defaultNetworkMode, desired)

/-- What `shlex.quote` is given; nothing is quoted for `None` as for the empty text. -/
def scalarText : Json → Word
  | .null => []
  | v => textOf T v

def headerLine : List Char := " Rendered by render_docker_args.py - do not edit by hand".toList

def mountsName : Word := "BOX_CONFIG_MOUNTS".toList
def envName : Word := "BOX_CONFIG_ENV".toList
def hostPathsName : Word := "BOX_CONFIG_HOST_PATHS".toList
def networkName : Word := "BOX_CONFIG_NETWORK".toList
def pendingName : Word := "BOX_CONFIG_NETWORK_PENDING".toList

theorem headerLine_chars : ∀ c ∈ headerLine, c ≠ '\n' :=
  fun _ hc he => absurd (he ▸ hc) (by decide +kernel : '\n' ∉ headerLine)

def assigned : List Word := [mountsName, envName, hostPathsName, networkName, pendingName]

theorem assigned_isName : ∀ name ∈ assigned, name ≠ [] ∧ ∀ c ∈ name, isNameChar c = true := by
  intro name hname
  have hall : assigned.all (fun name => !name.isEmpty && name.all isNameChar) = true := by decide +kernel
  have hchars := List.all_eq_true.mp hall name hname
  simpa using hchars

/-- `_render_body` -/
def renderBody (confirmed : Bool) (applied : Json) : List Char :=
  let network := effectiveNetwork confirmed applied c.networkMode
  '#' :: (headerLine ++ '\n' :: (bashArray mountsName (mountArgs T c) ++ (bashArray envName (envArgs T c) ++
    (bashArray hostPathsName (hostPaths T c) ++ (bashScalar networkName (scalarText T network.1) ++
      bashScalar pendingName (scalarText T network.2))))))

/-- How docker reads what follows `-v`: a path or a name, the path in the container, and perhaps `ro`. -/
def dockerVolume (spec : Word) : Option (Word × Word × Bool) :=
  match spec.splitOn ':' with
  | [source, target] => some (source, target, false)
  | [source, target, mode] => if mode = "ro".toList then some (source, target, true) else none
  | _ => none

/-! ### Pip requirements -/

def pipHeader : List Char :=
  ("# User-installed packages, rendered from /etc/lager/box_config.json\n" ++
    "# Edit via `lager box-config pip add/remove`, then `lager box-config apply`.\n" ++
    "# Manual edits to this file are overwritten on the next apply.\n\n").toList

/-- Each line with its newline. -/
def asLines (lines : List (List Char)) : List Char := lines.flatMap fun line => line ++ ['\n']

/-- The body `render_pip_requirements.py` writes. -/
def renderPip : List Char := pipHeader ++ asLines ((c.pipPackages.map (textOf T)).insertionSort (· ≤ ·))

/-! ### Udev rules -/

/-- Keys with their operators, each before a value in double quotes. -/
def keyed (pairs : List (String × Word)) : List Char := pairs.flatMap fun p => p.1.toList ++ '"' :: (p.2 ++ ['"'])

/-- The pairs of the permission line. -/
def permission (u : UdevRule) : List (String × Word) :=
  [("SUBSYSTEM==", "usb".toList), (", ATTRS\x7bidVendor\x7d==", textOf T u.vid),
    (", ATTRS\x7bidProduct\x7d==", textOf T u.pid), (", MODE=", textOf T u.mode), (", GROUP=", "lager".toList)]

/-- The pairs of the line that unbinds the driver. -/
def unbind (u : UdevRule) : List (String × Word) :=
  [("ACTION==", "bind".toList), (", SUBSYSTEM==", "usb".toList), (", DRIVER==", "usbtmc".toList),
    (", ATTRS\x7bidVendor\x7d==", textOf T u.vid), (", ATTRS\x7bidProduct\x7d==", textOf T u.pid),
    (", RUN+=", "/bin/sh -c 'echo %k > /sys/bus/usb/drivers/usbtmc/unbind 2>/dev/null || true'".toList)]

/-- The keyed lines of a rule. -/
def keyedLines (u : UdevRule) : List (List (String × Word)) :=
  permission T u :: if u.usbtmc then [unbind T u] else []

/-- `UdevRule.to_rule_lines` -/
def UdevRule.toRuleLines (u : UdevRule) : List (List Char) :=
  ("# vid:pid ".toList ++
      (textOf T u.vid ++ ':' :: (textOf T u.pid ++ " (added via `lager box-config udev`)".toList))) ::
    (keyedLines T u).map keyed

/-- Every other element, from the second. -/
def odds {α : Type} : List α → List α
  | _ :: b :: rest => b :: odds rest
  | _ => []

/-- The values a line has in double quotes. -/
def quotedValues (line : List Char) : List Word := odds (line.splitOn '"')

/-! ### The docker arguments as they are read -/

variable {T} {c}

theorem source_bashArray (n : Nat) {name : Word} (hname : name ≠ [] ∧ ∀ c ∈ name, isNameChar c = true)
    (items : List Word) (rest : List Char) :
    source (n + 1) (bashArray name items ++ rest) = (source n rest).map ((name, items.map dropNul) :: ·) := by
  have htext : bashArray name items ++ rest = name ++ '=' :: '(' :: (joined items ++ ')' :: '\n' :: rest) := by
    simp [bashArray]
  rw [htext]
  refine source_assignment n (assignment_array hname.2 items rest) ?_ (by simp)
  obtain ⟨c, name, rfl⟩ := List.exists_cons_of_ne_nil hname.1
  intro h
  cases h
  exact absurd (hname.2 '#' List.mem_cons_self) (by decide)

theorem source_bashScalar (n : Nat) {name : Word} (hname : name ≠ [] ∧ ∀ c ∈ name, isNameChar c = true)
    (value : Word) (rest : List Char) :
    source (n + 1) (bashScalar name value ++ rest) = (source n rest).map ((name, [dropNul value]) :: ·) := by
  have htext : bashScalar name value ++ rest = name ++ '=' :: (quote value ++ '\n' :: rest) := by
    simp [bashScalar]
  rw [htext]
  refine source_assignment n (assignment_scalar hname.2 value rest) ?_ (by simp)
  obtain ⟨c, name, rfl⟩ := List.exists_cons_of_ne_nil hname.1
  intro h
  cases h
  exact absurd (hname.2 '#' List.mem_cons_self) (by decide)

/-- **The sourced file** assigns its five variables, and every text comes back as one word. -/
theorem sourced (T : TextOps) (c : BoxConfig) (confirmed : Bool) (applied : Json) :
    source (renderBody T c confirmed applied).length (renderBody T c confirmed applied) =
      some [(mountsName, (mountArgs T c).map dropNul), (envName, (envArgs T c).map dropNul),
        (hostPathsName, (hostPaths T c).map dropNul),
        (networkName, [dropNul (scalarText T (effectiveNetwork confirmed applied c.networkMode).1)]),
        (pendingName, [dropNul (scalarText T (effectiveNetwork confirmed applied c.networkMode).2)])] := by
  have hlength : ∃ n, (renderBody T c confirmed applied).length = n + 6 := by
    refine Nat.exists_eq_add_of_le' ?_
    have hheader : 6 ≤ headerLine.length := by decide +kernel
    simp only [renderBody, List.length_cons, List.length_append]
    omega
  obtain ⟨n, hn⟩ := hlength
  rw [hn, renderBody, source_comment (n + 5) headerLine_chars, source_bashArray (n + 4) (assigned_isName _ (by simp [assigned])),
    source_bashArray (n + 3) (assigned_isName _ (by simp [assigned])),
    source_bashArray (n + 2) (assigned_isName _ (by simp [assigned])),
    source_bashScalar (n + 1) (assigned_isName _ (by simp [assigned])), ← List.append_nil (bashScalar pendingName _),
    source_bashScalar n (assigned_isName _ (by simp [assigned])), source]
  rfl

/-! ### One specification -/

/-- A text that can stand between colons in an argument. -/
def Unsplit (s : Word) : Prop := ':' ∉ s ∧ nul ∉ s

theorem dropNul_eq_self_iff {s : Word} : dropNul s = s ↔ nul ∉ s := by
  rw [dropNul, List.filter_eq_self]
  constructor
  · intro h hmem
    exact absurd (h nul hmem) (by decide)
  · intro h c hc
    have hne : c ≠ nul := fun he => h (he ▸ hc)
    simpa using hne

/-- A specification is split into its texts exactly when none of them has a colon, or a null character. -/
theorem dockerVolume_iff (source target : Word) (readonly : Bool) :
    dockerVolume (dropNul (source ++ ':' :: (target ++ if readonly then ":ro".toList else []))) =
      some (source, target, readonly) ↔ Unsplit source ∧ Unsplit target := by
  constructor
  · intro h
    rw [dockerVolume] at h
    -- the parts are the texts, so the argument is the specification
    have hparts : ∃ parts, dropNul (source ++ ':' :: (target ++ if readonly then ":ro".toList else [])) =
        [':'].intercalate (source :: target :: parts) ∧ ':' ∉ source ∧ ':' ∉ target ∧
          [':'].intercalate (source :: target :: parts) =
            source ++ ':' :: (target ++ if readonly then ":ro".toList else []) := by
      split at h
      · rename_i s t hsplit
        cases h
        refine ⟨[], ?_, not_mem_of_mem_splitOn (hsplit ▸ List.mem_cons_self),
          not_mem_of_mem_splitOn (hsplit ▸ List.mem_cons_of_mem _ List.mem_cons_self), ?_⟩
        · rw [← hsplit, List.intercalate_splitOn]
        · simp [List.intercalate]
      · rename_i s t mode hsplit
        split_ifs at h with hmode
        cases h
        refine ⟨[mode], ?_, not_mem_of_mem_splitOn (hsplit ▸ List.mem_cons_self),
          not_mem_of_mem_splitOn (hsplit ▸ List.mem_cons_of_mem _ List.mem_cons_self), ?_⟩
        · rw [← hsplit, List.intercalate_splitOn]
        · rw [hmode]
          simp [List.intercalate]
      · cases h
    obtain ⟨parts, hread, hs, ht, hwritten⟩ := hparts
    have hnul := dropNul_eq_self_iff.mp (hread.trans hwritten)
    simp only [List.mem_append, List.mem_cons, not_or] at hnul
    exact ⟨⟨hs, hnul.1⟩, ht, hnul.2.2.1⟩
  · rintro ⟨⟨hs, hsnul⟩, ht, htnul⟩
    have hro : nul ∉ if readonly then ":ro".toList else [] := by
      cases readonly
      · exact List.not_mem_nil
      · decide +kernel
    have hself : dropNul (source ++ ':' :: (target ++ if readonly then ":ro".toList else [])) =
        source ++ ':' :: (target ++ if readonly then ":ro".toList else []) := by
      rw [dropNul_eq_self_iff]
      simp only [List.mem_append, List.mem_cons, not_or]
      exact ⟨hsnul, by decide, htnul, hro⟩
    rw [hself, dockerVolume, List.splitOn_append_cons_self_of_not_mem hs]
    cases readonly with
    | false =>
      simp only [Bool.false_eq_true, if_false, List.append_nil]
      rw [List.splitOn_eq_singleton ht]
    | true =>
      have htext : target ++ ":ro".toList = target ++ ':' :: "ro".toList := by
        rw [show ":ro".toList = ':' :: "ro".toList by decide +kernel]
      simp only [if_true]
      rw [htext, List.splitOn_append_cons_self_of_not_mem ht, List.splitOn_eq_singleton (by decide +kernel)]
      simp

/-! ### Lines -/

theorem splitlinesFrom_cons {x : Char} (hx : x ≠ '\r') (line rest : List Char) :
    splitlinesFrom line (x :: rest) =
      if isLineBreak x then line :: splitlinesFrom [] rest else splitlinesFrom (line ++ [x]) rest := by
  rw [splitlinesFrom]
  exact fun _ h => absurd h hx

theorem not_cr_of_not_break {x : Char} (h : isLineBreak x = false) : x ≠ '\r' := by
  rintro rfl
  exact absurd h (by decide)

theorem splitlinesFrom_line {l : List Char} (h : ∀ x ∈ l, isLineBreak x = false) (line rest : List Char) :
    splitlinesFrom line (l ++ '\n' :: rest) = (line ++ l) :: splitlinesFrom [] rest := by
  induction l generalizing line with
  | nil =>
    rw [List.nil_append, List.append_nil, splitlinesFrom_cons (by decide), if_pos (by decide)]
  | cons x l ih =>
    have hx := h x List.mem_cons_self
    rw [List.cons_append, splitlinesFrom_cons (not_cr_of_not_break hx), if_neg (by rw [hx]; decide),
      ih fun y hy => h y (List.mem_cons_of_mem x hy), List.append_assoc, List.singleton_append]

/-- Lines without a break are read as they were written. -/
theorem splitlines_asLines {lines : List (List Char)} (h : ∀ l ∈ lines, ∀ x ∈ l, isLineBreak x = false) :
    splitlinesFrom [] (asLines lines) = lines := by
  induction lines with
  | nil => rfl
  | cons l lines ih =>
    rw [asLines, List.flatMap_cons, List.append_assoc, List.singleton_append,
      splitlinesFrom_line (h l List.mem_cons_self), List.nil_append]
    congr 1
    exact ih fun m hm => h m (List.mem_cons_of_mem l hm)

/-- A line that is read has no break. -/
theorem not_break_of_mem {line text l : List Char} (hline : ∀ x ∈ line, isLineBreak x = false)
    (h : l ∈ splitlinesFrom line text) : ∀ x ∈ l, isLineBreak x = false := by
  induction line, text using splitlinesFrom.induct with
  | case1 line hempty =>
    rw [splitlinesFrom, if_pos hempty] at h
    cases h
  | case2 line hempty =>
    rw [splitlinesFrom, if_neg hempty, List.mem_singleton] at h
    exact h ▸ hline
  | case3 line rest ih =>
    rw [splitlinesFrom] at h
    rcases List.mem_cons.mp h with rfl | h
    · exact hline
    · exact ih (by simp) h
  | case4 line x rest hcr hbreak ih =>
    rw [splitlinesFrom.eq_3 _ _ _ hcr, if_pos hbreak] at h
    rcases List.mem_cons.mp h with rfl | h
    · exact hline
    · exact ih (by simp) h
  | case5 line x rest hcr hbreak ih =>
    rw [splitlinesFrom.eq_3 _ _ _ hcr, if_neg hbreak] at h
    refine ih (fun y hy => ?_) h
    rcases List.mem_append.mp hy with hy | hy
    · exact hline y hy
    · rw [List.mem_singleton.mp hy]
      simpa using hbreak

/-- The text breaks at newlines only. -/
def Breaks (l : List Char) : Prop := ∀ x ∈ l, isLineBreak x = true → x = '\n'

theorem length_splitlinesFrom {l : List Char} (h : Breaks l) (line rest : List Char) :
    (splitlinesFrom line (l ++ '\n' :: rest)).length = l.count '\n' + 1 + (splitlinesFrom [] rest).length := by
  induction l generalizing line with
  | nil =>
    rw [List.nil_append, splitlinesFrom_cons (by decide), if_pos (by decide), List.count_nil, List.length_cons]
    omega
  | cons x l ih =>
    have hl : Breaks l := fun y hy => h y (List.mem_cons_of_mem x hy)
    have hcr : x ≠ '\r' := by
      rintro rfl
      exact absurd (h '\r' List.mem_cons_self (by decide)) (by decide)
    rw [List.cons_append, splitlinesFrom_cons hcr]
    by_cases hbreak : isLineBreak x = true
    · rw [if_pos hbreak, h x List.mem_cons_self hbreak, List.count_cons_self, List.length_cons, ih hl]
      omega
    · have hne : x ≠ '\n' := by
        rintro rfl
        exact hbreak (by decide)
      rw [if_neg hbreak, ih hl, List.count_cons_of_ne hne]

/-- As many lines are read as were written only if no line has a newline. -/
theorem not_newline_of_length {lines : List (List Char)} (h : ∀ l ∈ lines, Breaks l)
    (hlength : (splitlinesFrom [] (asLines lines)).length = lines.length) : ∀ l ∈ lines, '\n' ∉ l := by
  have hsum : ∀ ls : List (List Char), (∀ l ∈ ls, Breaks l) →
      (splitlinesFrom [] (asLines ls)).length = ls.length + (ls.map (List.count '\n')).sum := by
    intro ls hls
    induction ls with
    | nil => rfl
    | cons l ls ih =>
      rw [asLines, List.flatMap_cons, List.append_assoc, List.singleton_append,
        length_splitlinesFrom (hls l List.mem_cons_self), List.map_cons, List.sum_cons, List.length_cons]
      have hrest := ih fun m hm => hls m (List.mem_cons_of_mem l hm)
      rw [asLines] at hrest
      omega
  intro l hl hnewline
  have hpos : 0 < (lines.map (List.count '\n')).sum :=
    List.sum_pos_iff_exists_pos_nat.mpr ⟨_, List.mem_map_of_mem hl, List.count_pos_iff.mpr hnewline⟩
  have hread := hsum lines h
  omega

/-! ### Keyed lines -/

theorem quotedValues_keyed {pairs : List (String × Word)} (h : ∀ p ∈ pairs, '"' ∉ p.1.toList ∧ '"' ∉ p.2) :
    quotedValues (keyed pairs) = pairs.map Prod.snd := by
  induction pairs with
  | nil => rfl
  | cons p pairs ih =>
    have hp := h p List.mem_cons_self
    have htext : keyed (p :: pairs) = p.1.toList ++ '"' :: (p.2 ++ '"' :: keyed pairs) := by
      simp [keyed]
    rw [quotedValues, htext, List.splitOn_append_cons_self_of_not_mem hp.1,
      List.splitOn_append_cons_self_of_not_mem hp.2]
    show p.2 :: quotedValues (keyed pairs) = _
    rw [ih fun q hq => h q (List.mem_cons_of_mem p hq), List.map_cons]

theorem mem_keyed {pairs : List (String × Word)} {x : Char} :
    x ∈ keyed pairs ↔ ∃ p ∈ pairs, x ∈ p.1.toList ∨ x = '"' ∨ x ∈ p.2 := by
  simp only [keyed, List.mem_flatMap, List.mem_append, List.mem_cons, List.not_mem_nil, or_false]
  refine exists_congr fun p => and_congr_right fun _ => or_congr_right ?_
  rw [or_comm (a := x ∈ p.2), or_self_left]

/-- The values of the keyed lines of a rule: the fixed ones and its own. -/
def ownValues (T : TextOps) (u : UdevRule) : List (List Word) :=
  ["usb".toList, textOf T u.vid, textOf T u.pid, textOf T u.mode, "lager".toList] ::
    if u.usbtmc then
      [["bind".toList, "usb".toList, "usbtmc".toList, textOf T u.vid, textOf T u.pid,
        "/bin/sh -c 'echo %k > /sys/bus/usb/drivers/usbtmc/unbind 2>/dev/null || true'".toList]]
    else []

theorem map_snd_keyedLines (T : TextOps) (u : UdevRule) :
    (keyedLines T u).map (List.map Prod.snd) = ownValues T u := by
  rw [keyedLines, ownValues, List.map_cons]
  cases u.usbtmc <;> rfl

/-! ### Fields of a loaded configuration -/

variable {raw : Json}

theorem isTextMatching_iff {r : RegularExpression Char} {v : Json} :
    isTextMatching r v = true ↔ ∃ s, v = .str s ∧ Regex.matchLine r s = true := by
  cases v <;> simp [isTextMatching]

theorem udev_fields (h : fromDict T raw = .ok c) {u : UdevRule} (hu : u ∈ c.udevRules) :
    isTextMatching udevHexidRe u.vid = true ∧ isTextMatching udevHexidRe u.pid = true ∧
      isTextMatching udevModeRe u.mode = true := by
  obtain ⟨d, -, hacc, -, rfl⟩ := fromDict_eq_ok.mp h
  obtain ⟨x, hx, rfl⟩ := List.mem_map.mp hu
  obtain ⟨k, hk⟩ := Option.isSome_iff_exists.mp (hacc.udev.2.1 x hx)
  obtain ⟨r, rfl, hr⟩ := udevKey_eq_some hk
  obtain ⟨hvid, hpid, hmode⟩ := validateUdevFormat_eq_none.mp (udevKeyOf_eq_some.mp hr).1
  rw [UdevRule.ofDict, items, getD_vid hvid, getD_vid hpid]
  exact ⟨hvid, hpid, hmode⟩

/-- The characters of the fields of a udev rule. -/
theorem udev_chars : ∀ x ∈ '\n' :: (Regex.alphabet udevHexidRe ++ Regex.alphabet udevModeRe),
    (isLineBreak x = true → x = '\n') ∧ x ≠ '"' :=
  forall_char_mem (by decide)

theorem field_chars {r : RegularExpression Char} {v : Json} (h : isTextMatching r v = true)
    (hr : ∀ x ∈ Regex.alphabet r, x ∈ Regex.alphabet udevHexidRe ++ Regex.alphabet udevModeRe) :
    Breaks (textOf T v) ∧ '"' ∉ textOf T v := by
  obtain ⟨s, rfl, hmatch⟩ := isTextMatching_iff.mp h
  have hall : ∀ x ∈ textOf T (.str s), (isLineBreak x = true → x = '\n') ∧ x ≠ '"' := by
    intro x hx
    refine udev_chars x (List.mem_cons.mpr ?_)
    exact (Regex.mem_of_matchLine hmatch hx).symm.imp id (hr x)
  exact ⟨fun x hx => (hall x hx).1, fun hmem => (hall '"' hmem).2 rfl⟩

/-- The name of a volume has no colon and no null character. -/
theorem volume_name (h : fromDict T raw = .ok c) {v : Volume} (hv : v ∈ c.volumes) :
    Unsplit (textOf T v.name) := by
  have hkey := (valid_of_fromDict h).volumes.1 v.toJson (List.mem_map_of_mem hv)
  rw [Volume.toJson, volumeKey] at hkey
  split_ifs at hkey with hcontainer
  · have hname : ∃ name, v.name = .str name ∧ Regex.matchLine volumeNameRe name = true := by
      rw [volumeNameOf] at hkey
      split at hkey
      · rename_i name hget
        split_ifs at hkey with hmatch
        · exact ⟨name, hget, hmatch⟩
        · cases hkey
      · cases hkey
    obtain ⟨name, hname, hmatch⟩ := hname
    have hchars : ∀ x ∈ '\n' :: Regex.alphabet volumeNameRe, x ≠ ':' ∧ x ≠ nul := forall_char_mem (by decide)
    have hall : ∀ x ∈ textOf T v.name, x ≠ ':' ∧ x ≠ nul := by
      intro x hx
      rw [hname] at hx
      refine hchars x (List.mem_cons.mpr ?_)
      exact (Regex.mem_of_matchLine hmatch hx).symm
    exact ⟨fun hmem => (hall ':' hmem).1 rfl, fun hmem => (hall nul hmem).2 rfl⟩
  · cases hkey

/-! ### What is asked of the rendered texts -/

/-- Each package is one line; each mount and volume is one `-v` argument that docker splits into it, each variable
one `--env` argument; each udev rule is its two or three lines, with its own values in the quotes. -/
structure InjectsNothing (T : TextOps) (c : BoxConfig) : Prop where
  pip : (splitlinesFrom [] ((renderPip T c).drop pipHeader.length)).Perm (c.pipPackages.map (textOf T))
  docker : ∀ confirmed applied, ∃ (vars : List (Word × List Word)) (args envs : List Word),
    source (renderBody T c confirmed applied).length (renderBody T c confirmed applied) = some vars ∧
    vars.lookup mountsName = some (args.flatMap fun a => [dashV, a]) ∧
    args.map dockerVolume = c.mounts.map (fun m => some (textOf T m.host, textOf T m.container, m.readonly)) ++
      c.volumes.map (fun v => some (textOf T v.name, textOf T v.container, false)) ∧
    vars.lookup envName = some (envs.flatMap fun e => [dashEnv, e]) ∧
    List.Forall₂ (fun kv e => ∃ value, e = kv.1.toList ++ '=' :: value) c.env envs
  udev : ∀ u ∈ c.udevRules,
    (splitlinesFrom [] (asLines (u.toRuleLines T))).length = (if u.usbtmc then 3 else 2) ∧
    (splitlinesFrom [] (asLines (u.toRuleLines T))).tail.map quotedValues = ownValues T u

/-- No text has a separator of the places it is rendered into. -/
structure Separable (T : TextOps) (c : BoxConfig) : Prop where
  pip : ∀ p ∈ c.pipPackages, ∀ x ∈ textOf T p, isLineBreak x = false
  mounts : ∀ m ∈ c.mounts, Unsplit (textOf T m.host) ∧ Unsplit (textOf T m.container)
  volumes : ∀ v ∈ c.volumes, Unsplit (textOf T v.container)
  udev : ∀ u ∈ c.udevRules, '\n' ∉ textOf T u.vid ∧ '\n' ∉ textOf T u.pid ∧ '\n' ∉ textOf T u.mode

/-! ### Pip -/

theorem pip_iff (T : TextOps) (c : BoxConfig) :
    (splitlinesFrom [] ((renderPip T c).drop pipHeader.length)).Perm (c.pipPackages.map (textOf T)) ↔
      ∀ p ∈ c.pipPackages, ∀ x ∈ textOf T p, isLineBreak x = false := by
  have hsorted := List.perm_insertionSort (· ≤ ·) (c.pipPackages.map (textOf T))
  rw [renderPip, List.drop_left]
  constructor
  · intro h p hp
    exact not_break_of_mem (by simp) (h.mem_iff.mpr (List.mem_map_of_mem hp))
  · intro h
    rw [splitlines_asLines]
    · exact hsorted
    · intro l hl
      obtain ⟨p, hp, rfl⟩ := List.mem_map.mp (hsorted.mem_iff.mp hl)
      exact h p hp

/-! ### Docker -/

theorem odds_pairs (x : Word) (args : List Word) : odds (args.flatMap fun a => [x, a]) = args := by
  induction args with
  | nil => rfl
  | cons a args ih =>
    show a :: odds (args.flatMap fun a => [x, a]) = _
    rw [ih]

theorem mountArgs_read (T : TextOps) (c : BoxConfig) :
    (mountArgs T c).map dropNul = ((specs T c).map dropNul).flatMap fun a => [dashV, a] := by
  have hflag : dropNul dashV = dashV := by decide +kernel
  rw [mountArgs, List.map_flatMap, List.flatMap_map]
  refine List.flatMap_congr fun spec _ => ?_
  rw [List.map_cons, List.map_cons, List.map_nil, hflag]

theorem envArgs_read (T : TextOps) (c : BoxConfig) :
    (envArgs T c).map dropNul =
      (c.env.map fun kv => dropNul (kv.1.toList ++ '=' :: textOf T kv.2)).flatMap fun e => [dashEnv, e] := by
  have hflag : dropNul dashEnv = dashEnv := by decide +kernel
  rw [envArgs, List.map_flatMap, List.flatMap_map]
  refine List.flatMap_congr fun kv _ => ?_
  rw [List.map_cons, List.map_cons, List.map_nil, hflag]

/-- The key of a variable has no null character. -/
theorem env_key (h : fromDict T raw = .ok c) {kv : String × Json} (hkv : kv ∈ c.env) :
    dropNul kv.1.toList = kv.1.toList := by
  have hkey : Regex.matchLine envKeyRe kv.1 = true := by
    have henv := (valid_of_fromDict h).env kv hkv
    by_contra hmatch
    rw [envErrors, if_pos (by simpa using hmatch)] at henv
    cases henv
  have hchars : ∀ x ∈ '\n' :: Regex.alphabet envKeyRe, x ≠ nul := forall_char_mem (by decide)
  rw [dropNul_eq_self_iff]
  intro hmem
  exact hchars nul (List.mem_cons.mpr (Regex.mem_of_matchLine hkey hmem).symm) rfl

/-- The mounts and volumes come back from their specifications. -/
theorem specs_iff (h : fromDict T raw = .ok c) :
    ((specs T c).map dropNul).map dockerVolume =
        c.mounts.map (fun m => some (textOf T m.host, textOf T m.container, m.readonly)) ++
          c.volumes.map (fun v => some (textOf T v.name, textOf T v.container, false)) ↔
      (∀ m ∈ c.mounts, Unsplit (textOf T m.host) ∧ Unsplit (textOf T m.container)) ∧
        ∀ v ∈ c.volumes, Unsplit (textOf T v.container) := by
  have hmount : ∀ m : Mount, dockerVolume (dropNul (mountSpec T m)) =
      some (textOf T m.host, textOf T m.container, m.readonly) ↔
        Unsplit (textOf T m.host) ∧ Unsplit (textOf T m.container) := fun m => dockerVolume_iff _ _ m.readonly
  have hvolume : ∀ v ∈ c.volumes, (dockerVolume (dropNul (volumeSpec T v)) =
      some (textOf T v.name, textOf T v.container, false) ↔ Unsplit (textOf T v.container)) := by
    intro v hv
    have hiff := dockerVolume_iff (textOf T v.name) (textOf T v.container) false
    simp only [Bool.false_eq_true, if_false, List.append_nil] at hiff
    rw [volumeSpec, hiff]
    exact ⟨fun hboth => hboth.2, fun hcontainer => ⟨volume_name h hv, hcontainer⟩⟩
  rw [specs, List.map_append, List.map_append, List.map_map, List.map_map, List.map_map, List.map_map]
  constructor
  · intro heq
    obtain ⟨hm, hv⟩ := List.append_inj heq (by simp)
    rw [List.map_inj_left] at hm hv
    exact ⟨fun m hmem => (hmount m).mp (hm m hmem), fun v hmem => (hvolume v hmem).mp (hv v hmem)⟩
  · rintro ⟨hm, hv⟩
    congr 1
    · exact List.map_congr_left fun m hmem => (hmount m).mpr (hm m hmem)
    · exact List.map_congr_left fun v hmem => (hvolume v hmem).mpr (hv v hmem)

/-- The arrays have one argument for each mount, volume and variable; only the colons can go wrong. -/
theorem docker_iff (h : fromDict T raw = .ok c) (confirmed : Bool) (applied : Json) :
    (∃ (vars : List (Word × List Word)) (args envs : List Word),
      source (renderBody T c confirmed applied).length (renderBody T c confirmed applied) = some vars ∧
      vars.lookup mountsName = some (args.flatMap fun a => [dashV, a]) ∧
      args.map dockerVolume = c.mounts.map (fun m => some (textOf T m.host, textOf T m.container, m.readonly)) ++
        c.volumes.map (fun v => some (textOf T v.name, textOf T v.container, false)) ∧
      vars.lookup envName = some (envs.flatMap fun e => [dashEnv, e]) ∧
      List.Forall₂ (fun kv e => ∃ value, e = kv.1.toList ++ '=' :: value) c.env envs) ↔
    (∀ m ∈ c.mounts, Unsplit (textOf T m.host) ∧ Unsplit (textOf T m.container)) ∧
      ∀ v ∈ c.volumes, Unsplit (textOf T v.container) := by
  rw [← specs_iff h]
  constructor
  · rintro ⟨vars, args, envs, hsource, hmounts, hsplit, -, -⟩
    rw [sourced] at hsource
    cases hsource
    rw [List.lookup_cons, beq_self_eq_true] at hmounts
    have hargs := Option.some.inj hmounts
    rw [mountArgs_read] at hargs
    -- the arguments are every other word
    have hsame := congrArg odds hargs
    rw [odds_pairs, odds_pairs] at hsame
    rw [hsame]
    exact hsplit
  · intro hsplit
    refine ⟨_, (specs T c).map dropNul, c.env.map fun kv => dropNul (kv.1.toList ++ '=' :: textOf T kv.2),
      sourced T c confirmed applied, ?_, hsplit, ?_, ?_⟩
    · rw [List.lookup_cons, beq_self_eq_true, ← mountArgs_read]
    · have hne : (envName == mountsName) = false := by decide +kernel
      rw [List.lookup_cons, hne, List.lookup_cons, beq_self_eq_true, ← envArgs_read]
    · rw [List.forall₂_map_right_iff, List.forall₂_same]
      intro kv hkv
      refine ⟨dropNul (textOf T kv.2), ?_⟩
      have happend : dropNul (kv.1.toList ++ '=' :: textOf T kv.2) =
          dropNul kv.1.toList ++ '=' :: dropNul (textOf T kv.2) := by
        simp [dropNul, nul]
      rw [happend, env_key h hkv]

/-- `docker_mount_args` gives the words of the array. -/
theorem dockerMountArgs_eq (T : TextOps) (c : BoxConfig) : dockerMountArgs T c = joined (mountArgs T c) := by
  have hflag : ∀ spec : Word,
      "-v ".toList ++ Shell.quote spec = [' '].intercalate [Shell.quote dashV, Shell.quote spec] := by
    intro spec
    have htext : "-v ".toList = Shell.quote dashV ++ [' '] := by decide +kernel
    rw [htext]
    simp [List.intercalate]
  have hall : ∀ xs : List Word, [' '].intercalate (xs.map fun spec => "-v ".toList ++ Shell.quote spec) =
      joined (xs.flatMap fun spec => [dashV, spec]) := by
    intro xs
    induction xs with
    | nil => rfl
    | cons x xs ih =>
      cases xs with
      | nil => simpa [joined] using hflag x
      | cons y xs =>
        show "-v ".toList ++ Shell.quote x ++
            ([' '] ++ [' '].intercalate (("-v ".toList ++ Shell.quote y) :: xs.map _)) =
          Shell.quote dashV ++ ([' '] ++ (Shell.quote x ++ ([' '] ++ joined (dashV :: y :: xs.flatMap _))))
        rw [hflag x]
        have hrest := ih
        rw [List.map_cons, List.flatMap_cons] at hrest
        rw [hrest]
        simp [List.intercalate]
  rw [dockerMountArgs, mountArgs, specs, ← hall, List.map_append, List.map_map, List.map_map]
  rfl

/-! ### Udev rules -/

/-- The fixed texts of a rule. -/
def ruleTexts : List String :=
  ["# vid:pid ", " (added via `lager box-config udev`)", "SUBSYSTEM==", "usb", ", ATTRS\x7bidVendor\x7d==",
    ", ATTRS\x7bidProduct\x7d==", ", MODE=", ", GROUP=", "lager", "ACTION==", "bind", ", SUBSYSTEM==",
    ", DRIVER==", "usbtmc", ", RUN+=",
    "/bin/sh -c 'echo %k > /sys/bus/usb/drivers/usbtmc/unbind 2>/dev/null || true'"]

theorem ruleTexts_chars : ∀ text ∈ ruleTexts, ∀ x ∈ text.toList, isLineBreak x = false ∧ x ≠ '"' := by
  intro text htext x hx
  have hall : ruleTexts.all (fun text => text.toList.all fun x => !isLineBreak x && x != '"') = true := by
    decide +kernel
  have hchar := List.all_eq_true.mp (List.all_eq_true.mp hall text htext) x hx
  simpa using hchar

/-- What holds of the characters of the fixed texts and of a rule's fields holds of all its keys and values. -/
theorem keyedLines_chars {P : Char → Prop} (hfixed : ∀ text ∈ ruleTexts, ∀ x ∈ text.toList, P x) {u : UdevRule}
    (hvid : ∀ x ∈ textOf T u.vid, P x) (hpid : ∀ x ∈ textOf T u.pid, P x) (hmode : ∀ x ∈ textOf T u.mode, P x) :
    ∀ pairs ∈ keyedLines T u, ∀ p ∈ pairs, (∀ x ∈ p.1.toList, P x) ∧ ∀ x ∈ p.2, P x := by
  have htexts : ∀ text ∈ ruleTexts, ∀ value : Word, (∀ x ∈ value, P x) →
      (∀ x ∈ text.toList, P x) ∧ ∀ x ∈ value, P x := fun text htext value hvalue => ⟨hfixed text htext, hvalue⟩
  have hpermission : ∀ p ∈ permission T u, (∀ x ∈ p.1.toList, P x) ∧ ∀ x ∈ p.2, P x := by
    simp only [permission, List.forall_mem_cons, List.not_mem_nil, false_implies, implies_true, and_true]
    exact ⟨htexts _ (by decide) _ (hfixed "usb" (by decide)), htexts _ (by decide) _ hvid,
      htexts _ (by decide) _ hpid, htexts _ (by decide) _ hmode,
      htexts _ (by decide) _ (hfixed "lager" (by decide))⟩
  have hunbind : ∀ p ∈ unbind T u, (∀ x ∈ p.1.toList, P x) ∧ ∀ x ∈ p.2, P x := by
    simp only [unbind, List.forall_mem_cons, List.not_mem_nil, false_implies, implies_true, and_true]
    exact ⟨htexts _ (by decide) _ (hfixed "bind" (by decide)), htexts _ (by decide) _ (hfixed "usb" (by decide)),
      htexts _ (by decide) _ (hfixed "usbtmc" (by decide)), htexts _ (by decide) _ hvid,
      htexts _ (by decide) _ hpid, htexts _ (by decide) _ (hfixed _ (by decide))⟩
  intro pairs hpairs
  rcases List.mem_cons.mp hpairs with rfl | hpairs
  · exact hpermission
  · cases hflag : u.usbtmc with
    | false =>
      rw [hflag] at hpairs
      cases hpairs
    | true =>
      rw [hflag, if_pos rfl, List.mem_singleton] at hpairs
      exact hpairs ▸ hunbind

theorem toRuleLines_chars {P : Char → Prop} (hfixed : ∀ text ∈ ruleTexts, ∀ x ∈ text.toList, P x) (hcolon : P ':')
    (hquote : P '"') {u : UdevRule} (hvid : ∀ x ∈ textOf T u.vid, P x) (hpid : ∀ x ∈ textOf T u.pid, P x)
    (hmode : ∀ x ∈ textOf T u.mode, P x) : ∀ l ∈ u.toRuleLines T, ∀ x ∈ l, P x := by
  intro l hl x hx
  rcases List.mem_cons.mp hl with rfl | hl
  · rcases List.mem_append.mp hx with hx | hx
    · exact hfixed _ (by decide) x hx
    rcases List.mem_append.mp hx with hx | hx
    · exact hvid x hx
    rcases List.mem_cons.mp hx with rfl | hx
    · exact hcolon
    rcases List.mem_append.mp hx with hx | hx
    · exact hpid x hx
    · exact hfixed _ (by decide) x hx
  · obtain ⟨pairs, hpairs, rfl⟩ := List.mem_map.mp hl
    obtain ⟨p, hp, hx⟩ := mem_keyed.mp hx
    obtain ⟨hkey, hvalue⟩ := keyedLines_chars hfixed hvid hpid hmode pairs hpairs p hp
    rcases hx with hx | rfl | hx
    · exact hkey x hx
    · exact hquote
    · exact hvalue x hx

theorem udev_iff (h : fromDict T raw = .ok c) {u : UdevRule} (hu : u ∈ c.udevRules) :
    ((splitlinesFrom [] (asLines (u.toRuleLines T))).length = (if u.usbtmc then 3 else 2) ∧
      (splitlinesFrom [] (asLines (u.toRuleLines T))).tail.map quotedValues = ownValues T u) ↔
    '\n' ∉ textOf T u.vid ∧ '\n' ∉ textOf T u.pid ∧ '\n' ∉ textOf T u.mode := by
  obtain ⟨hvid, hpid, hmode⟩ := udev_fields h hu
  obtain ⟨hvb, hvq⟩ := field_chars (T := T) hvid fun x hx => List.mem_append_left _ hx
  obtain ⟨hpb, hpq⟩ := field_chars (T := T) hpid fun x hx => List.mem_append_left _ hx
  obtain ⟨hmb, hmq⟩ := field_chars (T := T) hmode fun x hx => List.mem_append_right _ hx
  have hcount : (u.toRuleLines T).length = if u.usbtmc then 3 else 2 := by
    rw [UdevRule.toRuleLines, keyedLines]
    cases u.usbtmc <;> rfl
  constructor
  · rintro ⟨hlength, -⟩
    have hbreaks : ∀ l ∈ u.toRuleLines T, Breaks l := toRuleLines_chars
      (fun text htext x hx hb => absurd hb (by rw [(ruleTexts_chars text htext x hx).1]; decide))
      (by decide) (by decide) hvb hpb hmb
    have hnone := not_newline_of_length hbreaks (hlength.trans hcount.symm) (keyed (permission T u))
      (List.mem_cons_of_mem _ (List.mem_map_of_mem List.mem_cons_self))
    have hvalue : ∀ p ∈ permission T u, '\n' ∉ p.2 :=
      fun p hp hmem => hnone (mem_keyed.mpr ⟨p, hp, Or.inr (Or.inr hmem)⟩)
    simp only [permission, List.forall_mem_cons] at hvalue
    exact ⟨hvalue.2.1, hvalue.2.2.1, hvalue.2.2.2.1⟩
  · rintro ⟨hv, hp, hm⟩
    have hfield : ∀ text : Word, Breaks text → '\n' ∉ text → ∀ x ∈ text, isLineBreak x = false := by
      intro text hb hn x hx
      by_contra hbreak
      have hx' := hb x hx (by simpa using hbreak)
      exact hn (hx' ▸ hx)
    have hlines : splitlinesFrom [] (asLines (u.toRuleLines T)) = u.toRuleLines T :=
      splitlines_asLines (toRuleLines_chars (fun text htext x hx => (ruleTexts_chars text htext x hx).1)
        (by decide) (by decide) (hfield _ hvb hv) (hfield _ hpb hp) (hfield _ hmb hm))
    have hquoted : ∀ pairs ∈ keyedLines T u, quotedValues (keyed pairs) = pairs.map Prod.snd := by
      intro pairs hpairs
      refine quotedValues_keyed fun p hp => ?_
      have hne := keyedLines_chars (T := T) (P := (· ≠ '"')) (u := u)
        (fun text htext x hx => (ruleTexts_chars text htext x hx).2) (fun x hx he => hvq (he ▸ hx))
        (fun x hx he => hpq (he ▸ hx)) (fun x hx he => hmq (he ▸ hx)) pairs hpairs p hp
      exact ⟨fun hmem => hne.1 '"' hmem rfl, fun hmem => hne.2 '"' hmem rfl⟩
    rw [hlines, ← map_snd_keyedLines]
    refine ⟨hcount, ?_⟩
    show ((keyedLines T u).map keyed).map quotedValues = _
    rw [List.map_map]
    exact List.map_congr_left hquoted

/-! ### The whole -/

/-- **Rendering.** What is rendered of an accepted configuration is read as that configuration exactly when its
texts have no separator of the places they are rendered into: no package a line break, no path a colon or a null
character, no field of a udev rule a newline. -/
theorem rendering_iff (T : TextOps) (raw : Json) (c : BoxConfig) (h : fromDict T raw = .ok c) :
    InjectsNothing T c ↔ Separable T c := by
  constructor
  · rintro ⟨hpip, hdocker, hudev⟩
    obtain ⟨hmounts, hvolumes⟩ := (docker_iff h false .null).mp (hdocker false .null)
    exact ⟨(pip_iff T c).mp hpip, hmounts, hvolumes, fun u hu => (udev_iff h hu).mp (hudev u hu)⟩
  · rintro ⟨hpip, hmounts, hvolumes, hudev⟩
    exact ⟨(pip_iff T c).mpr hpip,
      fun confirmed applied => (docker_iff h confirmed applied).mpr ⟨hmounts, hvolumes⟩,
      fun u hu => (udev_iff h hu).mpr (hudev u hu)⟩

instance (s : Word) : Decidable (Unsplit s) := inferInstanceAs (Decidable (_ ∧ _))

/-- One entry in each of the rendered sections. -/
def plainDocument : Dict :=
  [("version", .int 1),
    ("mounts", .arr [.obj [("host", .str "/srv"), ("container", .str "/data"), ("readonly", .bool true)]]),
    ("volumes", .arr [.obj [("name", .str "cache"), ("container", .str "/cache")]]),
    ("env", .obj [("A", .str "it's")]), ("pip_packages", .arr [.str "a==1"]),
    ("udev_rules", .arr [.obj [("vid", .str "1209"), ("pid", .str "0001"), ("usbtmc", .bool true)]])]

theorem plainDocument_loads : fromDict asciiText (.obj plainDocument) = .ok (loaded asciiText plainDocument) :=
  loads_of_validate (by decide +kernel) (by unfold NoNullSection; decide +kernel)

theorem plainDocument_pip :
    ∀ p ∈ (loaded asciiText plainDocument).pipPackages, ∀ x ∈ textOf asciiText p, isLineBreak x = false := by
  intro p hp x hx
  have hall : (loaded asciiText plainDocument).pipPackages.all
      (fun p => (textOf asciiText p).all fun x => !isLineBreak x) = true := by decide +kernel
  have hchar := List.all_eq_true.mp (List.all_eq_true.mp hall p hp) x hx
  simpa using hchar

theorem rendering_plainDocument : InjectsNothing asciiText (loaded asciiText plainDocument) :=
  (rendering_iff asciiText _ _ plainDocument_loads).mpr
    ⟨plainDocument_pip, by decide +kernel, by decide +kernel, by decide +kernel⟩

/-- The version of the package goes on after a line break. -/
def newlineInPackage : Dict := [("version", .int 1), ("pip_packages", .arr [.str "a==1\nb==2"])]

/-- It is accepted, and rendered as two packages. -/
theorem package_rendered_twice :
    validate asciiText (.obj newlineInPackage) = [] ∧
      fromDict asciiText (.obj newlineInPackage) = .ok (loaded asciiText newlineInPackage) ∧
      splitlinesFrom [] ((renderPip asciiText (loaded asciiText newlineInPackage)).drop pipHeader.length) =
        ["a==1".toList, "b==2".toList] ∧
      ¬InjectsNothing asciiText (loaded asciiText newlineInPackage) := by
  have hvalid : validate asciiText (.obj newlineInPackage) = [] := by decide +kernel
  refine ⟨hvalid, loads_of_validate hvalid (by unfold NoNullSection; decide +kernel), by decide +kernel,
    fun h => ?_⟩
  have hlines := (pip_iff asciiText _).mp h.pip (.str "a==1\nb==2") (by decide +kernel) '\n' (by decide +kernel)
  exact absurd hlines (by decide)

end Lager.BoxConfig
