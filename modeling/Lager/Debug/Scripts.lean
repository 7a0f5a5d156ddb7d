import Lager.Py.Json
import Lager.Py.Text
import Lager.Lib.Assoc
import Lager.Lib.Run

/-!
# The scripts of the debug nets

`debug/service.py`. A script or a config that comes with a request, or with the saved net, is written to a file, and a
request that brings none is served with the file that is there. J-Link scripts have one file for each net, named by a
slug of its name; OpenOCD configs have one file for the whole box.

Opening a file for writing empties it before its content is decoded, so a failed write leaves an empty file. Besides
its content a file carries the net that it was written for. Reads and writes themselves succeed, and names are text.
-/

namespace Lager.Debug.Scripts

open Lager.Lib Lager.Py

/-! ### Base64 -/

def b64value (c : Char) : Option Nat :=
  if c.isUpper then some (c.toNat - 65)
  else if c.isLower then some (c.toNat - 71)
  else if c.isDigit then some (c.toNat + 4)
  else if c = '+' then some 62
  else if c = '/' then some 63
  else none

/-- `binascii.a2b_base64` at position `pos` of a group of four, with the bits that are left over. Characters outside the
alphabet are passed over, and the padding that completes a group ends the text. -/
def a2b (pos left pads : Nat) : List Char → Option Bytes
  | [] => if pos = 0 then some [] else none
  | c :: rest =>
    if c = '=' then
      if 2 ≤ pos ∧ 4 ≤ pos + (pads + 1) then some []
      else a2b pos left (if 2 ≤ pos then pads + 1 else pads) rest
    else
      match b64value c with
      | none => a2b pos left pads rest
      | some v =>
        if pos = 0 then a2b 1 v 0 rest
        else if pos = 1 then (a2b 2 (v % 16) 0 rest).map (UInt8.ofNat (left * 4 + v / 16) :: ·)
        else if pos = 2 then (a2b 3 (v % 4) 0 rest).map (UInt8.ofNat (left * 16 + v / 4) :: ·)
        else (a2b 0 0 0 rest).map (UInt8.ofNat (left * 64 + v) :: ·)

/-- `base64.b64decode`; only text can be decoded. -/
def b64decode (value : Json) : Option Bytes :=
  match value with
  | .str s => if s.toList.all fun c => c.toNat < 128 then a2b 0 0 0 s.toList else none
  | _ => none

/-! ### State -/

/-- The name that a request gives its net. -/
abbrev NetName := Option String

def blank (s : String) : Bool := (strip s.toList).isEmpty

/-- `_net_slug`. -/
def _net_slug (name : NetName) : Option String :=
  match name with
  | some name =>
    if blank name then none
    else some (String.ofList ((strip name.toList).map fun c =>
      if c.isAlphanum || c = '.' || c = '_' || c = '-' then c else '_'))
  | none => none

inductive Backend where
  | jlink
  | openocd
  deriving DecidableEq

/-- What the debug service reads of a saved net. -/
structure Record where
  jlink_script : Json
  openocd_config : Json

def Backend.field (backend : Backend) (record : Record) : Json :=
  match backend with
  | .jlink => record.jlink_script
  | .openocd => record.openocd_config

/-- `owner` is the net that the content was written for, or `none` where the write has failed. -/
structure File where
  content : Bytes
  owner : Option NetName
  deriving DecidableEq

/-- A content, and the net that it belongs to or is returned for. -/
abbrev Entry := Backend × NetName × Bytes

/-- `given` collects what was sent in requests or saved with nets, and `returned` what requests were served with. -/
structure State where
  saved : List (String × Record)
  scripts : String → Option File
  config : Option File
  given : List Entry
  returned : List Entry

/-- What `_get_script_file` and `_get_openocd_config_file` are called with. -/
inductive Asked where
  | dict (name : NetName) (embedded : Json)
  | text (name : String)
  | none

def Asked.name : Asked → NetName
  | .dict name _ => name
  | .text name => some name
  | .none => Option.none

inductive Event where
  | script (asked : Asked)
  | config (asked : Asked)
  | connectJLink (name : NetName) (embedded sent : Json)
  | connectOpenOcd (name : NetName) (embedded sent : Json)
  | disconnect (name : NetName) (keepRunning : Bool)
  | save (name : String) (record : Record)
  | delete (name : String)

/-! ### Files -/

/-- The script of a request's own, where it is text and not blank. -/
def embedded (value : Json) : List Json :=
  match value with
  | .str s => if blank s then [] else [value]
  | _ => []

def savedField (backend : Backend) (saved : List (String × Record)) (name : String) : List Json :=
  match saved.lookup name with
  | some record => if (backend.field record).truthy then [backend.field record] else []
  | none => []

/-- What is tried, in this order. -/
def candidates (backend : Backend) (saved : List (String × Record)) : Asked → List Json
  | .dict name value =>
    embedded value ++
      match name with
      | some name => if name = "" then [] else savedField backend saved name
      | none => []
  | .text name => if backend = .jlink ∧ blank name = false then savedField backend saved name else []
  | .none => []

/-- The first that decodes is written; the others have emptied the file. -/
def writeFirst (net : NetName) : List Json → Option File → Option File
  | [], file => file
  | value :: rest, file =>
    match b64decode value with
    | some content => some ⟨content, some net⟩
    | none => writeFirst net rest (some ⟨[], none⟩)

/-- The shared file afterwards, whose path is returned if it is there. -/
def _get_openocd_config_file (s : State) (asked : Asked) : Option File :=
  writeFirst asked.name (candidates .openocd s.saved asked) s.config

/-- The same for the file of the net's slug; without a slug there is none. -/
def _get_script_file (s : State) (asked : Asked) : Option (String × Option File) :=
  (_net_slug asked.name).map fun slug =>
    (slug, writeFirst asked.name (candidates .jlink s.saved asked) (s.scripts slug))

def setScript (scripts : String → Option File) (slug : String) (file : Option File) : String → Option File :=
  fun other => if other = slug then file else scripts other

/-- `_get_jlink_script_from_net`. -/
def _get_jlink_script_from_net (s : State) (name : NetName) (value : Json) : Json :=
  match embedded value with
  | value :: _ => value
  | [] =>
    match name with
    | some name =>
      if name = "" then .null
      else
        match s.saved.lookup name with
        | some record => record.jlink_script
        | none => .null
    | none => .null

/-! ### Requests -/

def entries (backend : Backend) (name : NetName) (values : List Json) : List Entry :=
  values.filterMap fun value => (b64decode value).map fun content => (backend, name, content)

/-- What a request brings with it. -/
def Asked.sent : Asked → List Json
  | .dict _ value => embedded value
  | .text _ | .none => []

def answer (backend : Backend) (name : NetName) (file : Option File) : List Entry :=
  match file with
  | some file => [(backend, name, file.content)]
  | none => []

def serveConfig (s : State) (asked : Asked) : State :=
  let file := _get_openocd_config_file s asked
  { s with config := file, given := s.given ++ entries .openocd asked.name asked.sent,
           returned := s.returned ++ answer .openocd asked.name file }

def serveScript (s : State) (asked : Asked) : State :=
  match _get_script_file s asked with
  | some (slug, file) =>
    { s with scripts := setScript s.scripts slug file, given := s.given ++ entries .jlink asked.name asked.sent,
             returned := s.returned ++ answer .jlink asked.name file }
  | none => { s with given := s.given ++ entries .jlink asked.name asked.sent }

/-- The part of `handle_connect` for a J-Link: it decodes before it opens the file. -/
def connectJLink (s : State) (name : NetName) (value sent : Json) : State :=
  let script := if sent.truthy then sent else _get_jlink_script_from_net s name value
  let s' := { s with given := s.given ++ entries .jlink name (sent :: embedded value) }
  if script.truthy then
    match b64decode script, _net_slug name with
    | some content, some slug => { s' with scripts := setScript s.scripts slug (some ⟨content, some name⟩) }
    | _, _ => s'
  else s'

/-- The same for OpenOCD. -/
def connectOpenOcd (s : State) (name : NetName) (value sent : Json) : State :=
  let s' := { s with given := s.given ++ entries .openocd name [sent] }
  if sent.truthy then
    match b64decode sent with
    | some content => { s' with config := some ⟨content, some name⟩ }
    | none => serveConfig s' (.dict name value)
  else serveConfig s' (.dict name value)

/-- The end of `handle_disconnect`. -/
def disconnect (s : State) (name : NetName) (keepRunning : Bool) : State :=
  match keepRunning, _net_slug name with
  | false, some slug => { s with scripts := setScript s.scripts slug none }
  | _, _ => s

def step (s : State) : Event → Option State
  | .script asked => some (serveScript s asked)
  | .config asked => some (serveConfig s asked)
  | .connectJLink name value sent => some (connectJLink s name value sent)
  | .connectOpenOcd name value sent => some (connectOpenOcd s name value sent)
  | .disconnect name keepRunning => some (disconnect s name keepRunning)
  | .save name record =>
    some { s with saved := (name, record) :: s.saved,
                  given := s.given ++ entries .jlink (some name) [record.jlink_script] ++
                    entries .openocd (some name) [record.openocd_config] }
  | .delete name => some { s with saved := s.saved.filter fun entry => entry.1 != name }

def State.fresh : State := ⟨[], fun _ => none, none, [], []⟩

/-! ### Every run -/

/-- One of the request's own scripts decodes; or it has none, and the file was written for its net. -/
def Served (values : List Json) (file : Option File) (net : NetName) : Prop :=
  (∃ value ∈ values, (b64decode value).isSome = true) ∨ values = [] ∧ ∀ f ∈ file, f.owner = some net

/-- A request that is served with a file is served with its own. -/
def Own (s : State) : Event → Prop
  | .script asked =>
    ∀ slug ∈ _net_slug asked.name, Served (candidates .jlink s.saved asked) (s.scripts slug) asked.name
  | .config asked => Served (candidates .openocd s.saved asked) s.config asked.name
  | .connectOpenOcd name value sent =>
    (sent.truthy = true ∧ (b64decode sent).isSome = true) ∨
      Served (candidates .openocd s.saved (.dict name value)) s.config name
  | .connectJLink _ _ _ | .disconnect _ _ | .save _ _ | .delete _ => True

variable {s s' : State} {backend : Backend} {net : NetName} {values : List Json} {file : Option File} {f : File}

theorem mem_entries {value : Json} {content : Bytes} (hvalue : value ∈ values) (h : b64decode value = some content) :
    (backend, net, content) ∈ entries backend net values := by
  apply List.mem_filterMap.mpr
  exact ⟨value, hvalue, by rw [h]; rfl⟩

/-- What is in the file is one of the values that were tried, or what was there before, or nobody's. -/
theorem writeFirst_owner (h : writeFirst net values file = some f) :
    (f.owner = some net ∧ ∃ value ∈ values, b64decode value = some f.content) ∨ f.owner = none ∨ file = some f := by
  induction values generalizing file with
  | nil => exact .inr (.inr h)
  | cons value rest ih =>
    cases hdecode : b64decode value with
    | some content =>
      simp only [writeFirst, hdecode] at h
      cases h
      exact .inl ⟨rfl, value, List.mem_cons_self, hdecode⟩
    | none =>
      simp only [writeFirst, hdecode] at h
      rcases ih h with ⟨howner, value', hmem, hvalue⟩ | hnone | hsame
      · exact .inl ⟨howner, value', List.mem_cons_of_mem value hmem, hvalue⟩
      · exact .inr (.inl hnone)
      · cases hsame
        exact .inr (.inl rfl)

/-- A request that is served with its own has a whole file of its net. -/
theorem writeFirst_served (hserved : Served values file net) (h : writeFirst net values file = some f) :
    f.owner = some net := by
  induction values generalizing file with
  | nil =>
    rcases hserved with ⟨value, hmem, -⟩ | ⟨-, hfile⟩
    · cases hmem
    · exact hfile f h
  | cons value rest ih =>
    rcases hserved with ⟨value', hmem, hsome⟩ | ⟨hnil, -⟩
    · cases hdecode : b64decode value with
      | some content =>
        simp only [writeFirst, hdecode] at h
        cases h
        rfl
      | none =>
        simp only [writeFirst, hdecode] at h
        refine ih (.inl ⟨value', ?_, hsome⟩) h
        rcases List.mem_cons.mp hmem with rfl | hrest
        · rw [hdecode] at hsome
          cases hsome
        · exact hrest
    · cases hnil

/-- Every file that was written for a net, every saved net and every answer holds what was given for that net. -/
structure Sound (s : State) : Prop where
  scripts : ∀ slug f net, s.scripts slug = some f → f.owner = some net → (.jlink, net, f.content) ∈ s.given
  config : ∀ f net, s.config = some f → f.owner = some net → (.openocd, net, f.content) ∈ s.given
  saved : ∀ backend name record content, s.saved.lookup name = some record →
    b64decode (backend.field record) = some content → (backend, some name, content) ∈ s.given
  returned : ∀ entry ∈ s.returned, entry ∈ s.given

theorem sound_fresh : Sound .fresh where
  scripts := fun _ _ _ h => by cases h
  config := fun _ _ h => by cases h
  saved := fun _ _ _ _ h => by cases h
  returned := fun _ h => by cases h

/-- Giving more changes nothing else. -/
theorem Sound.give (h : Sound s) (more : List Entry) : Sound { s with given := s.given ++ more } where
  scripts := fun slug f net hf ho => List.mem_append_left more (h.scripts slug f net hf ho)
  config := fun f net hf ho => List.mem_append_left more (h.config f net hf ho)
  saved := fun backend name record content hr hd =>
    List.mem_append_left more (h.saved backend name record content hr hd)
  returned := fun entry he => List.mem_append_left more (h.returned entry he)

theorem Sound.writeScript {slug : String} (h : Sound s)
    (hfile : ∀ f net, file = some f → f.owner = some net → (.jlink, net, f.content) ∈ s.given) :
    Sound { s with scripts := setScript s.scripts slug file } where
  scripts := by
    intro other f net hf ho
    have hset : (if other = slug then file else s.scripts other) = some f := hf
    by_cases heq : other = slug
    · rw [if_pos heq] at hset
      exact hfile f net hset ho
    · rw [if_neg heq] at hset
      exact h.scripts other f net hset ho
  config := h.config
  saved := h.saved
  returned := h.returned

theorem Sound.writeConfig (h : Sound s)
    (hfile : ∀ f net, file = some f → f.owner = some net → (.openocd, net, f.content) ∈ s.given) :
    Sound { s with config := file } where
  scripts := h.scripts
  config := hfile
  saved := h.saved
  returned := h.returned

theorem Sound.answered (h : Sound s) (hfile : ∀ f, file = some f → (backend, net, f.content) ∈ s.given) :
    Sound { s with returned := s.returned ++ answer backend net file } where
  scripts := h.scripts
  config := h.config
  saved := h.saved
  returned := by
    intro entry he
    rcases List.mem_append.mp he with he | he
    · exact h.returned entry he
    · cases file with
      | none => cases he
      | some f =>
        rw [List.mem_singleton.mp he]
        exact hfile f rfl

/-- Whatever is tried for a net has been given for it. -/
theorem candidates_given {asked : Asked} {value : Json} {content : Bytes} (h : Sound s)
    (hvalue : value ∈ candidates backend s.saved asked) (hdecode : b64decode value = some content) :
    (backend, asked.name, content) ∈ s.given ++ entries backend asked.name asked.sent := by
  have hsaved : ∀ name, value ∈ savedField backend s.saved name → (backend, some name, content) ∈ s.given := by
    intro name hmem
    unfold savedField at hmem
    cases hlookup : s.saved.lookup name with
    | none =>
      rw [hlookup] at hmem
      cases hmem
    | some record =>
      simp only [hlookup] at hmem
      by_cases htruthy : (backend.field record).truthy = true
      · rw [if_pos htruthy] at hmem
        rw [List.mem_singleton.mp hmem] at hdecode
        exact h.saved backend name record content hlookup hdecode
      · rw [if_neg htruthy] at hmem
        cases hmem
  cases asked with
  | dict name emb =>
    rcases List.mem_append.mp hvalue with hmem | hmem
    · exact List.mem_append_right _ (mem_entries hmem hdecode)
    · cases name with
      | none => cases hmem
      | some name =>
        by_cases hempty : name = ""
        · simp only [hempty, if_true] at hmem
          cases hmem
        · simp only [if_neg hempty] at hmem
          exact List.mem_append_left _ (hsaved name hmem)
  | text name =>
    by_cases hcond : backend = .jlink ∧ blank name = false
    · rw [candidates, if_pos hcond] at hvalue
      exact List.mem_append_left _ (hsaved name hvalue)
    · rw [candidates, if_neg hcond] at hvalue
      cases hvalue
  | none => cases hvalue

/-- What a request writes or finds for its net, it serves, and that has been given. -/
theorem written_given {asked : Asked} (h : Sound s)
    (hbefore : ∀ f net, file = some f → f.owner = some net → (backend, net, f.content) ∈ s.given)
    (hwrite : writeFirst asked.name (candidates backend s.saved asked) file = some f) (howner : f.owner = some net) :
    (backend, net, f.content) ∈ s.given ++ entries backend asked.name asked.sent := by
  rcases writeFirst_owner hwrite with ⟨hname, value, hvalue, hdecode⟩ | hnone | hsame
  · rw [hname] at howner
    cases howner
    exact candidates_given h hvalue hdecode
  · rw [hnone] at howner
    cases howner
  · exact List.mem_append_left _ (hbefore f net hsame howner)

theorem sound_serveConfig {asked : Asked} (h : Sound s)
    (hserved : Served (candidates .openocd s.saved asked) s.config asked.name) : Sound (serveConfig s asked) := by
  have hgive := h.give (entries .openocd asked.name asked.sent)
  have hwrite := hgive.writeConfig fun f net hf ho => written_given h h.config hf ho
  exact hwrite.answered fun f hf => hwrite.config f asked.name hf (writeFirst_served hserved hf)

theorem sound_serveScript {asked : Asked} (h : Sound s)
    (hserved : ∀ slug ∈ _net_slug asked.name, Served (candidates .jlink s.saved asked) (s.scripts slug) asked.name) :
    Sound (serveScript s asked) := by
  have hgive := h.give (entries .jlink asked.name asked.sent)
  cases hslug : _net_slug asked.name with
  | none =>
    simp only [serveScript, _get_script_file, hslug, Option.map_none]
    exact hgive
  | some slug =>
    simp only [serveScript, _get_script_file, hslug, Option.map_some]
    have hfile : ∀ f net, writeFirst asked.name (candidates .jlink s.saved asked) (s.scripts slug) = some f →
        f.owner = some net → (.jlink, net, f.content) ∈ s.given ++ entries .jlink asked.name asked.sent :=
      fun f net hf ho => written_given h (h.scripts slug) hf ho
    apply (hgive.writeScript hfile).answered
    intro f hf
    exact hfile f asked.name hf (writeFirst_served (hserved slug hslug) hf)

/-- The script that a connect resolves has been given for its net. -/
theorem resolved_given {name : NetName} {value sent : Json} {content : Bytes} (h : Sound s)
    (hdecode : b64decode (if sent.truthy then sent else _get_jlink_script_from_net s name value) = some content) :
    (.jlink, name, content) ∈ s.given ++ entries .jlink name (sent :: embedded value) := by
  by_cases hsent : sent.truthy = true
  · rw [if_pos hsent] at hdecode
    exact List.mem_append_right _ (mem_entries List.mem_cons_self hdecode)
  · rw [if_neg hsent] at hdecode
    unfold _get_jlink_script_from_net at hdecode
    cases hemb : embedded value with
    | cons first rest =>
      simp only [hemb] at hdecode
      exact List.mem_append_right _ (mem_entries (List.mem_cons_of_mem _ List.mem_cons_self) hdecode)
    | nil =>
      cases name with
      | none =>
        simp only [hemb] at hdecode
        cases hdecode
      | some name =>
        by_cases hempty : name = ""
        · simp only [hemb, if_pos hempty] at hdecode
          cases hdecode
        · cases hlookup : s.saved.lookup name with
          | none =>
            simp only [hemb, if_neg hempty, hlookup] at hdecode
            cases hdecode
          | some record =>
            simp only [hemb, if_neg hempty, hlookup] at hdecode
            exact List.mem_append_left _ (h.saved .jlink name record content hlookup hdecode)

theorem sound_connectJLink {name : NetName} {value sent : Json} (h : Sound s) :
    Sound (connectJLink s name value sent) := by
  have hgive := h.give (entries .jlink name (sent :: embedded value))
  unfold connectJLink
  dsimp only
  by_cases htruthy : (if sent.truthy then sent else _get_jlink_script_from_net s name value).truthy = true
  · rw [if_pos htruthy]
    cases hdecode : b64decode (if sent.truthy then sent else _get_jlink_script_from_net s name value) with
    | none => exact hgive
    | some content =>
      cases hslug : _net_slug name with
      | none => exact hgive
      | some slug =>
        apply hgive.writeScript
        intro f net hf ho
        cases hf
        cases ho
        exact resolved_given h hdecode
  · rw [if_neg htruthy]
    exact hgive

theorem sound_connectOpenOcd {name : NetName} {value sent : Json} (h : Sound s)
    (hserved : (sent.truthy = true ∧ (b64decode sent).isSome = true) ∨
      Served (candidates .openocd s.saved (.dict name value)) s.config name) :
    Sound (connectOpenOcd s name value sent) := by
  have hgive := h.give (entries .openocd name [sent])
  unfold connectOpenOcd
  dsimp only
  by_cases hsent : sent.truthy = true
  · rw [if_pos hsent]
    cases hdecode : b64decode sent with
    | none =>
      rcases hserved with ⟨-, hsome⟩ | hserved
      · rw [hdecode] at hsome
        cases hsome
      · exact @sound_serveConfig _ (.dict name value) hgive hserved
    | some content =>
      apply hgive.writeConfig
      intro f net hf ho
      cases hf
      cases ho
      exact List.mem_append_right _ (mem_entries List.mem_cons_self hdecode)
  · rw [if_neg hsent]
    rcases hserved with ⟨htrue, -⟩ | hserved
    · exact absurd htrue hsent
    · exact @sound_serveConfig _ (.dict name value) hgive hserved

theorem sound_disconnect {name : NetName} {keepRunning : Bool} (h : Sound s) :
    Sound (disconnect s name keepRunning) := by
  unfold disconnect
  cases keepRunning with
  | true => exact h
  | false =>
    cases hslug : _net_slug name with
    | none => exact h
    | some slug => exact h.writeScript fun f net hf => by cases hf

theorem sound_save {name : String} {record : Record} (h : Sound s) :
    Sound { s with saved := (name, record) :: s.saved,
                   given := s.given ++ entries .jlink (some name) [record.jlink_script] ++
                     entries .openocd (some name) [record.openocd_config] } := by
  have hgive := (h.give (entries .jlink (some name) [record.jlink_script])).give
    (entries .openocd (some name) [record.openocd_config])
  refine ⟨hgive.scripts, hgive.config, ?_, hgive.returned⟩
  intro backend other found content hlookup hdecode
  by_cases heq : other = name
  · subst heq
    rw [List.lookup_cons_self] at hlookup
    cases hlookup
    cases backend with
    | jlink => exact List.mem_append_left _ (List.mem_append_right _ (mem_entries List.mem_cons_self hdecode))
    | openocd => exact List.mem_append_right _ (mem_entries List.mem_cons_self hdecode)
  · rw [List.lookup_cons, beq_eq_false_iff_ne.mpr heq] at hlookup
    exact hgive.saved backend other found content hlookup hdecode

theorem sound_step {event : Event} (hown : Own s event) (h : Sound s) (hstep : step s event = some s') : Sound s' := by
  cases event with
  | script asked =>
    cases hstep
    exact sound_serveScript h hown
  | config asked =>
    cases hstep
    exact sound_serveConfig h hown
  | connectJLink name value sent =>
    cases hstep
    exact sound_connectJLink h
  | connectOpenOcd name value sent =>
    cases hstep
    exact sound_connectOpenOcd h hown
  | disconnect name keepRunning =>
    cases hstep
    exact sound_disconnect h
  | save name record =>
    cases hstep
    exact sound_save h
  | delete name =>
    cases hstep
    exact ⟨h.scripts, h.config, fun backend other record content hlookup hdecode =>
      h.saved backend other record content (lookup_of_filter_key (fun key => key != name) hlookup) hdecode, h.returned⟩

/-- **A debug net runs its own script**: what a request is served with was sent in a request for its net or saved with
its net, as long as every request that falls back on a file finds its own net's there. -/
theorem script_is_own {events : List Event} (hrun : run step .fresh events = some s)
    (hown : Along step Own .fresh events) : ∀ entry ∈ s.returned, entry ∈ s.given :=
  (run_invariant Sound (fun _ _ _ hok h hstep => sound_step hok h hstep) hown sound_fresh hrun).returned

def soundOrder : List Event :=
  [.connectJLink (some "dbg1") .null (.str "YQ=="), .script (.dict (some "dbg1") .null),
    .save "dbg2" ⟨.str "Yg==", .null⟩, .script (.dict (some "dbg2") .null), .script (.dict (some "dbg1") .null)]

instance (values : List Json) (file : Option File) (net : NetName) : Decidable (Served values file net) :=
  inferInstanceAs (Decidable (_ ∨ _ ∧ _))

instance (s : State) : (event : Event) → Decidable (Own s event)
  | .script asked =>
    match h : _net_slug asked.name with
    | some slug =>
      decidable_of_iff (Served (candidates .jlink s.saved asked) (s.scripts slug) asked.name) (by simp [Own, h])
    | none => isTrue (by simp [Own, h])
  | .config _ => inferInstanceAs (Decidable (Served _ _ _))
  | .connectOpenOcd _ _ _ => inferInstanceAs (Decidable (_ ∨ _))
  | .connectJLink _ _ _ => isTrue trivial
  | .disconnect _ _ => isTrue trivial
  | .save _ _ => isTrue trivial
  | .delete _ => isTrue trivial

/-- Two nets, one with the script of its connect and one with a saved script, each served with its own. -/
theorem script_is_own_soundOrder : ∃ s, run step .fresh soundOrder = some s ∧
    s.returned = [(.jlink, some "dbg1", [97]), (.jlink, some "dbg2", [98]), (.jlink, some "dbg1", [97])] ∧
      ∀ entry ∈ s.returned, entry ∈ s.given := by
  have hreturned : (run step .fresh soundOrder).map State.returned =
      some [(.jlink, some "dbg1", [97]), (.jlink, some "dbg2", [98]), (.jlink, some "dbg1", [97])] := by decide +kernel
  obtain ⟨s, hrun, hserved⟩ := Option.map_eq_some_iff.mp hreturned
  exact ⟨s, hrun, hserved, script_is_own hrun (by decide +kernel)⟩

/-- What requests were served with and nobody gave for their nets. -/
def State.foreign (s : State) : List Entry := s.returned.filter fun entry => !s.given.contains entry

/-- A config that came with another net's connect, the script of a net whose name has the same slug, and the empty file
that a failed write leaves. -/
theorem foreign_scripts_returned :
    (run step .fresh [.connectOpenOcd (some "dbg1") .null (.str "YQ=="),
        .connectOpenOcd (some "dbg2") .null .null]).map State.foreign = some [(.openocd, some "dbg2", [97])] ∧
      (run step .fresh [.connectJLink (some "dbg 1") .null (.str "YQ=="),
        .script (.dict (some "dbg_1") .null)]).map State.foreign = some [(.jlink, some "dbg_1", [97])] ∧
      (run step .fresh [.script (.dict (some "dbg1") (.str "YQ="))]).map State.foreign =
        some [(.jlink, some "dbg1", [])] := by
  exact ⟨by decide +kernel, by decide +kernel, by decide +kernel⟩

end Lager.Debug.Scripts
