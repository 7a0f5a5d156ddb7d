import Lager.Lib.Regex
import Lager.Py.Dumps

/-!
# Format checks of the box configuration

The patterns of `box_config/config.py`, the checks of single values built on them, and the normal forms under
which packages and USB ids count as the same.

A check returns the reason for which it refuses, `none` when it accepts. `str.lower` on text outside ASCII and
`repr` are parameters, with the laws the code rests on: ASCII text is lowered letter by letter, and the text of a
float is its own.
-/

namespace Lager.BoxConfig

open Lager.Py Lager.Lib.Regex RegularExpression

/-- `str.lower` and `repr`; `floats` is the `repr` of floats that `json.dumps` uses. -/
structure TextOps where
  lower : String → String
  repr : Json → String
  floats : FloatText
  lower_ascii : ∀ s : String, (∀ c ∈ s.toList, c.toNat < 128) → lower s = String.ofList (s.toList.map Char.toLower)

/-- The operations on ASCII text, with the plainest `repr`. -/
def asciiText : TextOps where
  lower s := String.ofList (s.toList.map Char.toLower)
  repr
    | .str s => "'" ++ s ++ "'"
    | _ => ""
  floats := fractionText
  lower_ascii _ _ := rfl

variable (T : TextOps)

/-- `text.startswith(start)`. -/
def startsWith (text start : String) : Bool := start.toList.isPrefixOf text.toList

/-- `not text.strip()`. -/
def isBlank (text : String) : Bool := (strip text.toList).isEmpty

/-! ### Character classes -/

def digits : List Char := range '0' '9'

def lowercase : List Char := range 'a' 'z'

def letters : List Char := lowercase ++ range 'A' 'Z'

def alnum : List Char := letters ++ digits

def lowerAlnum : List Char := lowercase ++ digits

/-- The class `\s` of a text pattern: the characters with `str.isspace`. -/
def spaces : List Char :=
  (range '\x09' '\x0d' ++ range '\x1c' ' ' ++ ['\u0085', '\u00a0', '\u1680'] ++ range '\u2000' '\u200a' ++
    ['\u2028', '\u2029', '\u202f', '\u205f', '\u3000'])

/-! ### Patterns -/

/-- `_VOLUME_NAME_RE`. -/
def volumeNameRe : RegularExpression Char := oneOf alnum * some1 (oneOf (alnum ++ ['_', '.', '-']))

/-- `_ENV_KEY_RE`. -/
def envKeyRe : RegularExpression Char := oneOf (letters ++ ['_']) * star (oneOf (alnum ++ ['_']))

/-- `_PIP_SPEC_RE`: a name, extras in brackets, a version. -/
def pipSpecRe : RegularExpression Char :=
  oneOf letters * star (oneOf (alnum ++ ['-', '_', '.'])) *
    opt (char '[' * some1 (oneOf (alnum ++ ['-', '_', ','] ++ spaces)) * char ']') *
    opt ((oneOf ['<', '>', '=', '!', '~'] * opt (char '=') + char '@') *
      some1 (oneOf (alnum ++ ['.', '-', '_', ','] ++ spaces ++ ['*', '<', '>', '=', '!', '~', '@'])))

/-- `_APT_NAME_RE`. -/
def aptNameRe : RegularExpression Char := oneOf lowerAlnum * star (oneOf (lowerAlnum ++ ['+', '-', '.']))

/-- `_SYSCTL_KEY_RE`. -/
def sysctlKeyRe : RegularExpression Char := oneOf letters * star (oneOf (alnum ++ ['_', '.']))

/-- `_CARGO_SPEC_RE`: a name and a version. -/
def cargoSpecRe : RegularExpression Char :=
  oneOf lowerAlnum * star (oneOf (lowerAlnum ++ ['_', '-'])) *
    opt (char '@' * some1 (oneOf (alnum ++ ['.', '+', '-'])))

/-- The characters of an npm name after its first. -/
def npmNameChars : List Char := lowerAlnum ++ ['.', '_', '-']

/-- `_NPM_SPEC_RE`: a scope, a name, a version or range. -/
def npmSpecRe : RegularExpression Char :=
  opt (char '@' * oneOf lowerAlnum * star (oneOf npmNameChars) * char '/') *
    (oneOf lowerAlnum * star (oneOf npmNameChars)) *
    opt (char '@' * some1 (oneOf (alnum ++ ['.', '+', '-', '~', '^', '*', '<', '>', '=', '|'] ++ spaces)))

def hexDigits : List Char := digits ++ range 'a' 'f'

/-- `_UDEV_HEXID_RE`. -/
def udevHexidRe : RegularExpression Char := oneOf hexDigits ^ 4

/-- `_UDEV_MODE_RE`. -/
def udevModeRe : RegularExpression Char := char '0' * oneOf (range '0' '7') ^ 3

/-! ### Normal forms -/

/-- `text.replace('_', '-')`. -/
def dashed (text : String) : String := String.ofList (text.toList.map fun c => if c = '_' then '-' else c)

/-- What `_PIP_NAME_RE` matches at the start, or the whole text. -/
def pipName (pkg : String) : String :=
  match pkg.toList.takeWhile fun c => c ∈ alnum ++ ['-', '_', '.'] with
  | [] => pkg
  | name => String.ofList name

def normalizePipName (pkg : String) : String := dashed (T.lower (pipName pkg))

/-- A name that starts with a letter or digit and goes on in `rest`. -/
def leadingName (rest : List Char) : List Char → Option (List Char)
  | [] => none
  | c :: cs => if c ∈ lowerAlnum then some (c :: cs.takeWhile fun d => d ∈ rest) else none

/-- What `_CARGO_NAME_RE` matches at the start, or the whole text. -/
def cargoName (pkg : String) : String :=
  match leadingName (lowerAlnum ++ ['_', '-']) pkg.toList with
  | none => pkg
  | some name => String.ofList name

def normalizeCargoName (pkg : String) : String := dashed (T.lower (cargoName pkg))

/-- What `_NPM_NAME_RE` matches at the start: a scope counts only when a slash and a name follow it. -/
def npmMatch (text : List Char) : Option (List Char) :=
  match text with
  | '@' :: rest =>
    match leadingName npmNameChars rest with
    | none => none
    | some scope =>
      match rest.drop scope.length with
      | '/' :: rest => (leadingName npmNameChars rest).map fun name => '@' :: scope ++ '/' :: name
      | _ => none
  | text => leadingName npmNameChars text

def npmName (pkg : String) : String :=
  match npmMatch pkg.toList with
  | none => pkg
  | some name => String.ofList name

def normalizeNpmName (pkg : String) : String := T.lower (npmName pkg)

/-- `normalize_udev_id` of a text. -/
def normalizeUdevText (value : String) : String :=
  if startsWith (T.lower value) "0x" then T.lower (String.ofList (value.toList.drop 2)) else T.lower value

/-- `normalize_udev_id`: what is not a text comes back as it is. -/
def normalizeUdevId : Json → Json
  | .str value => .str (normalizeUdevText T value)
  | value => value

/-! ### Checks -/

def validatePipFormat (pkg : String) : Option String :=
  if isBlank pkg then some "package name cannot be empty"
  else if (pkg.toList.head?.any fun c => c ∈ digits ++ ['.', '-', '_']) then
    some "package name must start with a letter"
  else if matchLine pipSpecRe pkg = false then some "invalid package specification format"
  else none

def validateAptFormat (pkg : String) : Option String :=
  if isBlank pkg then some "package name cannot be empty"
  else if matchLine aptNameRe pkg = false then
    some "invalid Debian package name (must match [a-z0-9][a-z0-9+-.]*)"
  else none

def validateSysctlKey (key : String) : Option String :=
  if isBlank key then some "sysctl key cannot be empty"
  else if matchLine sysctlKeyRe key = false then some "invalid sysctl key (must match [a-zA-Z][a-zA-Z0-9_.]*)"
  else none

def validateEnvKey (key : String) : Option String :=
  if isBlank key then some "env key cannot be empty"
  else if matchLine envKeyRe key = false then
    some "invalid env variable name (must match [A-Za-z_][A-Za-z0-9_]*)"
  else if key = "PATH" then
    some "env key 'PATH' is not allowed; use 'PATH_PREPEND' to extend PATH inside the container"
  else none

def validateCargoFormat (pkg : String) : Option String :=
  if isBlank pkg then some "package name cannot be empty"
  else if matchLine cargoSpecRe pkg = false then
    some "invalid cargo crate spec (must match [a-z0-9][a-z0-9_-]*(@version)?)"
  else none

def validateNpmFormat (pkg : String) : Option String :=
  if isBlank pkg then some "package name cannot be empty"
  else if 214 < pkg.toList.length then some "npm package name exceeds 214 chars"
  else if matchLine npmSpecRe pkg = false then
    some "invalid npm package spec (must be lowercase name, optional @scope/, optional @version)"
  else none

/-- A value is a text that matches the pattern. -/
def isTextMatching (r : RegularExpression Char) : Json → Bool
  | .str text => matchLine r text
  | _ => false

def validateUdevFormat (vid pid mode : Json) : Option String :=
  if isTextMatching udevHexidRe (normalizeUdevId T vid) = false then
    some "vendor id must be 4 hex digits (e.g. 1209)"
  else if isTextMatching udevHexidRe (normalizeUdevId T pid) = false then
    some "product id must be 4 hex digits (e.g. 0001)"
  else if isTextMatching udevModeRe mode = false then some "mode must be an octal like 0660"
  else none

/-! ### Normal forms of accepted ids -/

variable {T}

theorem lower_eq_self {s : String} (h : ∀ c ∈ s.toList, c.toNat < 128 ∧ c.toLower = c) : T.lower s = s := by
  have hmap : s.toList.map Char.toLower = s.toList :=
    (List.map_congr_left fun c hc => (h c hc).2).trans (List.map_id _)
  rw [T.lower_ascii s fun c hc => (h c hc).1, hmap, String.ofList_toList]

theorem hexid_chars : ∀ c ∈ '\n' :: alphabet udevHexidRe, c.toNat < 128 ∧ c.toLower = c ∧ c ≠ 'x' :=
  forall_char_mem (by decide)

/-- An id of four hex digits is its own normal form. -/
theorem normalizeUdevText_hexid {s : String} (h : matchLine udevHexidRe s = true) : normalizeUdevText T s = s := by
  have hchars : ∀ c ∈ s.toList, c.toNat < 128 ∧ c.toLower = c ∧ c ≠ 'x' := by
    intro c hc
    refine hexid_chars c (List.mem_cons.mpr ?_)
    exact (mem_of_matchLine h hc).symm
  have hlower : T.lower s = s := lower_eq_self fun c hc => ⟨(hchars c hc).1, (hchars c hc).2.1⟩
  have hstart : startsWith s "0x" = false := by
    rw [startsWith, Bool.eq_false_iff]
    intro hpre
    have hx : 'x' ∈ s.toList := (List.isPrefixOf_iff_prefix.mp hpre).subset (by decide)
    exact (hchars 'x' hx).2.2 rfl
  rw [normalizeUdevText, hlower, hstart]
  rfl

/-- Normalizing an accepted id a second time changes nothing. -/
theorem normalizeUdevId_idem {v : Json} (h : isTextMatching udevHexidRe (normalizeUdevId T v) = true) :
    normalizeUdevId T (normalizeUdevId T v) = normalizeUdevId T v := by
  cases v with
  | str s =>
    rw [normalizeUdevId, normalizeUdevId, normalizeUdevText_hexid h]
  | _ => cases h

end Lager.BoxConfig
