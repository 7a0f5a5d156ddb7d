import Lager.BoxConfig.Store
import Lager.BoxConfig.RoundTrip

/-!
# Who writes the applied snapshot

`set-applied-hash` stores the configuration that is on the box beside the hash it is given; no other verb writes the
snapshot. What is stored is read back with the same hash and the same network mode.
-/

namespace Lager.BoxConfig

open Lager.Py Lager.Lib Lager.Lib.Command

variable {T : CliOps} {w : World}

/-! ### Verbs that leave the snapshot alone -/

/-- The snapshot is as it was, whatever comes back. -/
abbrev KeepsApplied {α : Type} (m : Cmd α) : Prop := Observes Box.applied (fun _ => True) m fun _ => True

section Pieces

variable {α β : Type}

theorem keeps_bind {m : Cmd α} {f : α → Cmd β} (hm : KeepsApplied m) (hf : ∀ a, KeepsApplied (f a)) :
    KeepsApplied (m >>= f) :=
  observes_bind hm fun a => (hf a).mono fun _ _ _ => trivial

theorem keeps_pure {a : α} : KeepsApplied (pure a) := observes_pure trivial

theorem keeps_raise {e : PyErr} : KeepsApplied (raise e : Cmd α) := observes_throw

theorem keeps_get : KeepsApplied (get : Cmd Box) := fun _ => ⟨rfl, fun _ _ _ => trivial⟩

theorem keeps_lift {r : Except ConfigErr α} : KeepsApplied (lift r) := by
  cases r with
  | ok a => exact keeps_pure
  | error e => exact observes_throw

theorem keeps_liftPy {r : Except PyErr α} : KeepsApplied (liftPy r) := keeps_lift

end Pieces

theorem keeps_loadRaw : KeepsApplied loadRaw := by
  refine keeps_bind keeps_get fun box => ?_
  cases box.config with
  | absent => exact keeps_pure
  | corrupt => exact keeps_raise
  | json value => exact keeps_pure

theorem keeps_loadOrInit : KeepsApplied (loadOrInit T) := by
  refine keeps_bind keeps_loadRaw fun raw => ?_
  split_ifs
  · exact keeps_pure
  · exact keeps_lift

theorem keeps_loadOrBare : KeepsApplied (loadOrBare T) := by
  refine keeps_bind keeps_loadRaw fun raw => ?_
  split_ifs
  · exact keeps_pure
  · exact keeps_lift

theorem keeps_decodePayload {payload : String} : KeepsApplied (decodePayload T payload) := by
  rw [decodePayload]
  split
  · exact keeps_pure
  · exact keeps_raise

theorem keeps_readAppliedSnapshot : KeepsApplied (readAppliedSnapshot T) := by
  refine keeps_bind keeps_get fun box => ?_
  split
  · exact keeps_pure
  · exact keeps_pure
  · split
    · exact keeps_pure
    · exact keeps_pure
    · exact keeps_raise

theorem keeps_save {c : BoxConfig} : KeepsApplied (save w c) := by
  rw [save]
  split_ifs
  · exact keeps_raise
  · exact observes_modify fun _ => rfl

theorem keeps_audit {verb : String} {args : Json} : KeepsApplied (audit w verb args) := by
  rw [audit]
  split_ifs
  · exact keeps_pure
  · exact observes_modify fun _ => rfl

theorem keeps_saveAndAudit {c : BoxConfig} {verb : String} {args reply : Json} :
    KeepsApplied (do save w c; audit w verb args; pure reply) :=
  keeps_bind keeps_save fun _ => keeps_bind keeps_audit fun _ => keeps_pure

theorem keeps_validateAndSave {c : BoxConfig} {verb : String} {args : Json} {reply onError : Dict} :
    KeepsApplied (validateAndSave T w c verb args reply onError) := by
  rw [validateAndSave]
  split
  · exact keeps_bind keeps_lift fun _ => keeps_saveAndAudit
  · exact keeps_pure

theorem keeps_saveRemoved {c : BoxConfig} {verb : String} {args : Json} {removed : Bool} {reply : Dict} :
    KeepsApplied (saveRemoved w c verb args removed reply) := by
  refine keeps_bind keeps_save fun _ => ?_
  cases removed with
  | true => exact keeps_bind keeps_audit fun _ => keeps_pure
  | false => exact keeps_pure

theorem keeps_require {args : List String} {n : Nat} : KeepsApplied (require args n) := by
  rw [require]
  split
  · exact keeps_pure
  · exact keeps_raise

theorem keeps_requireRest {args : List String} : KeepsApplied (requireRest args) := by
  rw [requireRest]
  split
  · exact keeps_raise
  · exact keeps_pure

theorem keeps_mintToken {verb previous : String} : KeepsApplied (mintToken w verb previous) := by
  rw [mintToken]
  split
  · exact keeps_pure
  · refine keeps_bind (observes_modify fun _ => rfl) fun _ => ?_
    exact keeps_bind keeps_audit fun _ => keeps_pure

/-! ### The verbs -/

theorem keeps_cmdHash : KeepsApplied (cmdHash T) := by
  refine keeps_bind keeps_loadRaw fun raw => ?_
  split_ifs
  · exact keeps_pure
  · split
    · exact keeps_pure
    · exact keeps_pure
    · exact keeps_raise

theorem keeps_cmdValidate : KeepsApplied (cmdValidate T) := by
  refine keeps_bind keeps_loadRaw fun raw => ?_
  split_ifs <;> exact keeps_pure

theorem keeps_cmdInit {force : Bool} : KeepsApplied (cmdInit T w force) := by
  refine keeps_bind keeps_get fun box => ?_
  simp only
  split_ifs
  · exact keeps_pure
  · exact keeps_bind keeps_liftPy fun _ => keeps_saveAndAudit

theorem keeps_cmdAppliedHash : KeepsApplied cmdAppliedHash := by
  refine keeps_bind (keeps_bind keeps_get fun box => ?_) fun _ => keeps_pure
  split <;> exact keeps_pure

theorem keeps_cmdAppliedShow : KeepsApplied (cmdAppliedShow T) := by
  refine keeps_bind keeps_readAppliedSnapshot fun found => ?_
  split <;> exact keeps_pure

theorem keeps_cmdRestoreApplied : KeepsApplied (cmdRestoreApplied T w) := by
  refine keeps_bind keeps_readAppliedSnapshot fun found => ?_
  split
  · exact keeps_pure
  · exact keeps_saveAndAudit

theorem keeps_cmdSetRaw {payload : String} : KeepsApplied (cmdSetRaw T w payload) := by
  rw [cmdSetRaw]
  split
  · exact keeps_pure
  · split
    · split
      · exact keeps_pure
      · exact keeps_raise
      · exact keeps_saveAndAudit
    · exact keeps_pure

theorem keeps_cmdMountAdd {payload : String} : KeepsApplied (cmdMountAdd T w payload) :=
  keeps_bind keeps_decodePayload fun _ => keeps_bind keeps_loadOrInit fun _ =>
    keeps_bind keeps_liftPy fun _ => keeps_validateAndSave

theorem keeps_cmdVolumeAdd {payload : String} : KeepsApplied (cmdVolumeAdd T w payload) :=
  keeps_bind keeps_decodePayload fun _ => keeps_bind keeps_loadOrInit fun _ =>
    keeps_bind keeps_liftPy fun _ => keeps_validateAndSave

theorem keeps_cmdPackagesAdd {S : PackageSection} {payload : String} :
    KeepsApplied (cmdPackagesAdd T w S payload) := by
  refine keeps_bind keeps_decodePayload fun data => ?_
  refine keeps_bind keeps_liftPy fun newPkgs => ?_
  split
  · refine keeps_bind keeps_loadOrInit fun current => ?_
    refine keeps_bind keeps_liftPy fun keys => ?_
    split
    · exact keeps_pure
    · exact keeps_validateAndSave
  · exact keeps_pure

theorem keeps_cmdPackagesRemove {S : PackageSection} {names : List String} :
    KeepsApplied (cmdPackagesRemove T w S names) :=
  keeps_bind keeps_loadOrInit fun _ => keeps_bind keeps_liftPy fun _ => keeps_saveRemoved

theorem keeps_cmdPipImportLegacy : KeepsApplied (cmdPipImportLegacy T w) := by
  refine keeps_bind keeps_loadOrInit fun current => ?_
  refine keeps_bind keeps_liftPy fun result => ?_
  simp only
  split_ifs
  · exact keeps_pure
  · exact keeps_validateAndSave

theorem keeps_cmdEntriesSet {S : EntrySection} {payload : String} : KeepsApplied (cmdEntriesSet T w S payload) := by
  refine keeps_bind keeps_decodePayload fun data => ?_
  refine keeps_bind keeps_liftPy fun entries => ?_
  split
  · refine keeps_bind keeps_loadOrInit fun current => ?_
    split
    · exact keeps_pure
    · exact keeps_validateAndSave
  · exact keeps_pure

theorem keeps_cmdEntriesUnset {S : EntrySection} {keys : List String} :
    KeepsApplied (cmdEntriesUnset T w S keys) :=
  keeps_bind keeps_loadOrInit fun _ => keeps_bind keeps_liftPy fun _ => keeps_saveRemoved

theorem keeps_cmdNetworkModeSet {payload : String} : KeepsApplied (cmdNetworkModeSet T w payload) := by
  refine keeps_bind keeps_decodePayload fun data => ?_
  refine keeps_bind keeps_liftPy fun mode => ?_
  split
  · split_ifs
    · exact keeps_bind keeps_loadOrBare fun _ => keeps_validateAndSave
    · exact keeps_pure
  · exact keeps_pure

theorem keeps_cmdUdevAdd {payload : String} : KeepsApplied (cmdUdevAdd T w payload) := by
  refine keeps_bind keeps_decodePayload fun data => ?_
  refine keeps_bind keeps_liftPy fun newRules => ?_
  split
  · refine keeps_bind keeps_loadOrInit fun current => ?_
    simp only
    split
    · exact keeps_pure
    · exact keeps_validateAndSave
  · exact keeps_pure

theorem keeps_cmdMcpTokenEnable : KeepsApplied (cmdMcpTokenEnable w) := by
  refine keeps_bind keeps_get fun box => ?_
  split
  · exact keeps_mintToken
  · exact keeps_pure

theorem keeps_cmdMcpTokenRotate : KeepsApplied (cmdMcpTokenRotate w) := by
  refine keeps_bind keeps_get fun box => ?_
  split
  · exact keeps_pure
  · exact keeps_mintToken

theorem keeps_cmdMcpTokenDisable : KeepsApplied (cmdMcpTokenDisable w) := by
  refine keeps_bind keeps_get fun box => ?_
  split
  · exact keeps_pure
  · split
    · exact keeps_pure
    · refine keeps_bind (observes_modify fun _ => rfl) fun _ => ?_
      exact keeps_bind keeps_audit fun _ => keeps_pure

/-- **Every verb but one** leaves the snapshot alone. -/
theorem keeps_dispatchTable : ∀ entry ∈ dispatchTable T w, entry.1 ≠ "set-applied-hash" →
    ∀ args, KeepsApplied (entry.2 args) := by
  simp only [dispatchTable, List.forall_mem_cons, List.not_mem_nil, false_implies, implies_true, and_true]
  refine ⟨?_, ?_, ?_, ?_, ?_, ?_, ?_, ?_, ?_, ?_, ?_, ?_, ?_, ?_, ?_, ?_, ?_, ?_, ?_, ?_, ?_, ?_, ?_, ?_, ?_, ?_, ?_,
    ?_, ?_, ?_, ?_, ?_, ?_, ?_, ?_, ?_, ?_⟩ <;> intro hname args
  · exact keeps_loadRaw
  · exact keeps_cmdValidate
  · exact keeps_cmdInit
  · exact keeps_saveAndAudit
  · exact keeps_cmdHash
  · exact keeps_cmdAppliedHash
  · exact keeps_cmdAppliedShow
  · exact keeps_cmdRestoreApplied
  · exact absurd rfl hname
  · exact keeps_bind keeps_require fun _ => keeps_cmdMountAdd
  · exact keeps_bind keeps_require fun _ => keeps_bind keeps_require fun _ =>
      keeps_bind keeps_loadOrInit fun _ => keeps_saveRemoved
  · exact keeps_bind keeps_require fun _ => keeps_cmdVolumeAdd
  · exact keeps_bind keeps_require fun _ => keeps_bind keeps_loadOrInit fun _ => keeps_saveRemoved
  · exact keeps_bind keeps_require fun _ => keeps_cmdPackagesAdd
  · exact keeps_bind keeps_requireRest fun _ => keeps_cmdPackagesRemove
  · exact keeps_cmdPipImportLegacy
  · exact keeps_bind keeps_require fun _ => keeps_cmdPackagesAdd
  · exact keeps_bind keeps_requireRest fun _ => keeps_cmdPackagesRemove
  · exact keeps_bind keeps_require fun _ => keeps_cmdEntriesSet
  · exact keeps_bind keeps_requireRest fun _ => keeps_cmdEntriesUnset
  · exact keeps_bind keeps_require fun _ => keeps_cmdEntriesSet
  · exact keeps_bind keeps_requireRest fun _ => keeps_cmdEntriesUnset
  · exact keeps_bind keeps_require fun _ => keeps_cmdPackagesAdd
  · exact keeps_bind keeps_requireRest fun _ => keeps_cmdPackagesRemove
  · exact keeps_bind keeps_require fun _ => keeps_cmdPackagesAdd
  · exact keeps_bind keeps_requireRest fun _ => keeps_cmdPackagesRemove
  · exact keeps_bind keeps_require fun _ => keeps_cmdUdevAdd
  · exact keeps_bind keeps_requireRest fun _ => keeps_bind keeps_loadOrInit fun _ => keeps_saveRemoved
  · exact keeps_bind keeps_loadRaw fun _ => keeps_pure
  · exact keeps_bind keeps_require fun _ => keeps_cmdNetworkModeSet
  · exact keeps_bind keeps_loadOrBare fun _ => keeps_validateAndSave
  · exact keeps_bind keeps_get fun _ => keeps_pure
  · exact keeps_cmdMcpTokenEnable
  · exact keeps_cmdMcpTokenRotate
  · exact keeps_cmdMcpTokenDisable
  · exact keeps_bind keeps_require fun _ => keeps_cmdSetRaw
  · exact keeps_bind keeps_get fun _ => keeps_pure

/-- The verb of an invocation. -/
def verbOf (args : List String) : String := args.headD "show"

theorem cli_applied {args : List String} (h : verbOf args ≠ "set-applied-hash") (box : Box) :
    (cli T w args box).2.applied = box.applied := by
  have hkeeps : KeepsApplied (dispatch T w args) := by
    rw [dispatch]
    split
    · exact keeps_pure
    · rename_i handler hlookup
      obtain ⟨l₁, l₂, htable, -⟩ := List.lookup_eq_some_iff.mp hlookup
      exact keeps_dispatchTable (args.headD "show", handler) (by rw [htable]; simp) h args
  have hsame := (hkeeps box).1
  rw [cli]
  split_ifs
  · rfl
  · split <;> simp_all

end Lager.BoxConfig
