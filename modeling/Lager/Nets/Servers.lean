import Lager.Nets.Concurrent

/-!
# The saved nets on the two servers

`PUT /nets/<name>` and `DELETE /nets/<name>` exist twice: port 9000's go through `Net`, port 5000's
(`python/service.py`) work on the file. On a table without old scope channels both read the same records, and what is
left to compare is what a handler removes and what record it stores (`servers_agree_iff`).

The name is the decoded one; a `DELETE` has the values of `role` in its query, in order.
-/

namespace Lager.Nets

open Lager.Py

/-! ### The requests -/

/-- A request that both servers answer. -/
inductive Shared
  | put (name : String) (body : Json)
  | delete (name : String) (roles : List String)

/-- `request.args.get('role') or None`. -/
def roleArg9000 : List String → Json
  | [] => .null
  | role :: _ => if role = "" then .null else .str role

/-- `parse_qs(parsed.query).get('role', [None])[0]`: `parse_qs` leaves empty values out. -/
def roleArg5000 (roles : List String) : Option String := (roles.filter (· ≠ "")).head?

def Shared.on9000 : Shared → Request
  | .put name body => .update name body
  | .delete name roles => .delete (.str name) (roleArg9000 roles)

def Shared.on5000 : Shared → Request
  | .put name body => .put name body
  | .delete name roles => .drop name (roleArg5000 roles)

/-- The request is not turned down: it is carried out, or its net is not there. -/
def Accepts (env : Env) (r : Request) (file : Table) : Prop := ∀ reason, (exec env r file).2 ≠ .refused reason

/-- A record that has nothing in it that only `save_local_net` looks at. -/
structure Plain (env : Env) (data : Dict) : Prop where
  identity : ¬ (Dict.get data "role" = .str "uart" ∧ (Dict.get data "usb_identity").truthy = false ∧
    (env.usbIdentity data).truthy = true)
  livePath : Dict.get? data "live_path" = none
  port : (Dict.get data "port").truthy = false
  channelKey : (Dict.get data "channel_key").truthy = false

/-- The role that port 5000 deletes. -/
def role5000 (roles : List String) : Json := ((roleArg5000 roles).map Json.str).getD .null

/-- What makes the servers agree: a `PUT` has a plain record whose key is free or that the path names; a `DELETE`
has the same role for both, or every net of that name has the role port 5000 sees. -/
def Shared.Agrees (env : Env) (file : Table) : Shared → Prop
  | .put name body => ∀ data, body = .obj data → Plain env data ∧ PutFree (.str name) data file
  | .delete name roles => roleArg9000 roles = role5000 roles ∨
      ∀ net ∈ file, hasName (.str name) net = true → hasRole (role5000 roles) net = true

/-! ### The records -/

theorem get?_withMapping {env : Env} {data : Dict} {name : Json} {extra : Dict} {key : String} (h : key ≠ "mappings")
    (h' : key ≠ "scope_points") : Dict.get? (withMapping env data name extra) key = Dict.get? data key := by
  rw [withMapping, Dict.get?_set_ne _ _ h', Dict.get?_set_ne _ _ h]

theorem get_withMapping {env : Env} {data : Dict} {name : Json} {extra : Dict} {key : String} (h : key ≠ "mappings")
    (h' : key ≠ "scope_points") : Dict.get (withMapping env data name extra) key = Dict.get data key := by
  rw [Dict.get, get?_withMapping h h', Dict.get]

/-- The stored mapping says what was copied into it. -/
theorem withMapping_extra {env : Env} {data : Dict} {name : Json} {extra extra' : Dict}
    (h : withMapping env data name extra = withMapping env data name extra') : extra = extra' := by
  have hget : ∀ extra, Dict.get (withMapping env data name extra) "mappings" = .arr [.obj ([("net", name),
      ("pin", (Dict.get? data "pin").getD (.int 0)),
      ("location", .str (env.str ((Dict.get? data "pin").getD (.int 0))))] ++ extra)] := by
    intro extra
    rw [withMapping, Dict.get_set_ne _ _ (by decide), Dict.get_set_self]
  have hmappings := hget extra
  rw [h, hget extra'] at hmappings
  have hobj := (List.cons.inj (Json.arr.inj hmappings)).1
  exact (List.append_cancel_left (Json.obj.inj hobj)).symm

theorem pop_of_get?_none {d : Dict} {key : String} (h : Dict.get? d key = none) : Dict.pop d key = d := by
  rw [Dict.pop, List.filter_eq_self]
  intro kv hkv
  rw [Dict.get?, List.lookup_eq_none_iff] at h
  simpa [bne, BEq.comm] using h kv hkv

theorem copied_eq_nil {data : Dict} {key target : String} :
    copied data key target = [] ↔ (Dict.get data key).truthy = false := by
  rw [copied]
  split_ifs with htruthy
  · simp [htruthy]
  · simpa using htruthy

theorem get?_pop_self (d : Dict) (key : String) : Dict.get? (Dict.pop d key) key = none := by
  rw [Dict.get?, List.lookup_eq_none_iff]
  intro kv hkv
  simpa [bne, BEq.comm] using (List.mem_filter.mp hkv).2

/-- What `save_local_net` makes of the record before it looks at the name. -/
def cleaned (env : Env) (data : Dict) : Dict :=
  Dict.pop (if Dict.get data "role" = .str "uart" ∧ (Dict.get data "usb_identity").truthy = false ∧
    (env.usbIdentity data).truthy = true then Dict.set data "usb_identity" (env.usbIdentity data) else data) "live_path"

theorem prepared_spec {env : Env} {data record : Dict} (h : prepared env data = .ok record) :
    ∃ name, Dict.get? (cleaned env data) "name" = some name ∧
      record = withMapping env (cleaned env data) name (copied (cleaned env data) "address" "device_override" ++
        (if Dict.get (cleaned env data) "serial" ≠ .null then [("serial", Dict.get (cleaned env data) "serial")]
          else []) ++
        copied (cleaned env data) "port" "port" ++ copied (cleaned env data) "channel_key" "channel_key") := by
  simp only [prepared] at h
  split at h
  · cases h
  · rename_i name hname
    cases h
    exact ⟨name, hname, rfl⟩

theorem cleaned_of_plain {env : Env} {data : Dict} (h : Plain env data) : cleaned env data = data := by
  rw [cleaned, if_neg h.identity, pop_of_get?_none h.livePath]

/-- **Both store the same record** exactly when it is plain. -/
theorem prepared_eq_iff {env : Env} {data record : Dict} (h : prepared env data = .ok record) :
    record = prepared5000 env data ↔ Plain env data := by
  obtain ⟨name, hname, hrecord⟩ := prepared_spec h
  constructor
  · intro heq
    rw [hrecord, prepared5000] at heq
    have hidentity : ¬ (Dict.get data "role" = .str "uart" ∧ (Dict.get data "usb_identity").truthy = false ∧
        (env.usbIdentity data).truthy = true) := by
      intro huart
      have hget := congrArg (Dict.get · "usb_identity") heq
      rw [get_withMapping (by decide) (by decide), get_withMapping (by decide) (by decide), cleaned, if_pos huart,
        Dict.get_pop_ne _ (by decide), Dict.get_set_self] at hget
      have htruthy := huart.2.1
      rw [← hget, huart.2.2] at htruthy
      cases htruthy
    have hlive : Dict.get? data "live_path" = none := by
      have hget := congrArg (Dict.get? · "live_path") heq
      rw [get?_withMapping (by decide) (by decide), get?_withMapping (by decide) (by decide), cleaned,
        get?_pop_self] at hget
      exact hget.symm
    have hclean : cleaned env data = data := by
      rw [cleaned, if_neg hidentity, pop_of_get?_none hlive]
    have hget : Dict.get data "name" = name := by
      rw [hclean] at hname
      rw [Dict.get, hname, Option.getD_some]
    rw [hclean, hget] at heq
    have hextra := withMapping_extra heq
    rw [List.append_assoc, List.append_right_eq_self, List.append_eq_nil_iff] at hextra
    exact ⟨hidentity, hlive, copied_eq_nil.mp hextra.1, copied_eq_nil.mp hextra.2⟩
  · intro hplain
    have hclean := cleaned_of_plain hplain
    rw [hclean] at hname hrecord
    have hget : Dict.get data "name" = name := by
      rw [Dict.get, hname, Option.getD_some]
    rw [hrecord, prepared5000, copied_eq_nil.mpr hplain.port, copied_eq_nil.mpr hplain.channelKey, List.append_nil,
      List.append_nil, hget]

theorem get_prepared {env : Env} {data record : Dict} (h : prepared env data = .ok record) (key : String)
    (hmappings : key ≠ "mappings") (hpoints : key ≠ "scope_points") (hlive : key ≠ "live_path")
    (hidentity : key ≠ "usb_identity") : Dict.get record key = Dict.get data key := by
  obtain ⟨name, -, rfl⟩ := prepared_spec h
  rw [get_withMapping hmappings hpoints, cleaned, Dict.get_pop_ne _ hlive]
  split_ifs
  · exact Dict.get_set_ne _ _ hidentity
  · rfl

/-! ### The tables -/

section Settled

variable {env : Env} {file : Table} (hsettled : ∀ net ∈ file, isPinned net = .ok false)

include hsettled

theorem readTable_settled (viaNet : Bool) : readTable env viaNet file = .ok file := by
  rw [readTable]
  split_ifs
  · rw [migrate_unpinned hsettled]
    rfl
  · rfl

/-- The last edit of a request. -/
theorem execEdits_one (viaNet : Bool) (edit : Edit) :
    execEdits env viaNet [edit] file = (edit file).elim (file, .notFound) fun newNets => (newNets, .ok) := by
  rw [execEdits_cons (readTable_settled hsettled viaNet)]
  cases edit file <;> rfl

/-- Port 9000's update after a change of name: the deletion goes on whether or not it finds something. -/
theorem execEdits_rename (name : Json) (record : Dict) :
    execEdits env true [deleteEdit name .null, saveEdit record] file =
      execEdits env true [saveEdit record] (file.filter fun net => !hasName name net) := by
  rw [execEdits_cons (readTable_settled hsettled true)]
  by_cases hlength : (filterNets file name .null).length ≠ file.length
  · rw [deleteEdit, if_pos hlength]
    rfl
  · have hsame : (file.filter fun net => !hasName name net) = file := by
      rw [filterNets, if_pos rfl, not_not] at hlength
      exact List.filter_sublist.eq_of_length hlength
    rw [deleteEdit, if_neg hlength, hsame]

end Settled

theorem isPinned_of_accepts {env : Env} {file : Table} {r : Request} {edits : List Edit} (hvia : r.viaNet = true)
    (hedits : r.edits env = .ok edits) (hne : edits ≠ []) (haccepts : Accepts env r file)
    (hscope : ∀ net ∈ file, pinned net = false) : ∀ net ∈ file, isPinned net = .ok false := by
  cases edits with
  | nil => exact absurd rfl hne
  | cons edit rest =>
    cases hmigrate : migrate env.lower file with
    | error e =>
      refine absurd ?_ (haccepts (.raised e))
      rw [exec, hedits]
      simp only [execEdits, readTable, hvia, if_true, hmigrate, Except.map]
    | ok out =>
      intro net hnet
      obtain ⟨b, hb⟩ := (migrate_spec hmigrate).1 net hnet
      rw [hb, ← pinned_eq hb, hscope net hnet]

theorem filter_eq_filter_iff {α : Type} {p q : α → Bool} {l : List α} :
    l.filter p = l.filter q ↔ ∀ x ∈ l, p x = q x := by
  refine ⟨fun h x hx => ?_, List.filter_congr⟩
  have hmem : x ∈ l.filter p ↔ x ∈ l.filter q := by
    rw [h]
  rw [List.mem_filter, List.mem_filter, and_iff_right hx, and_iff_right hx] at hmem
  exact Bool.eq_iff_iff.mpr hmem

/-! ### `DELETE` -/

theorem role_cases (roles : List String) :
    roleArg9000 roles = role5000 roles ∨ roleArg9000 roles = .null ∧ ∃ role, role5000 roles = .str role := by
  cases roles with
  | nil => exact Or.inl rfl
  | cons role rest =>
    by_cases hrole : role = ""
    · subst hrole
      cases hhead : (("" :: rest).filter (· ≠ "")).head? with
      | none =>
        left
        rw [role5000, roleArg5000, hhead]
        rfl
      | some role =>
        refine Or.inr ⟨rfl, role, ?_⟩
        rw [role5000, roleArg5000, hhead]
        rfl
    · left
      simp [roleArg9000, role5000, roleArg5000, hrole]

theorem drop_edits (env : Env) (name : String) (roles : List String) :
    (Request.drop name (roleArg5000 roles)).edits env = .ok [deleteEdit (.str name) (role5000 roles)] := by
  cases hrole : roleArg5000 roles with
  | none => simp [Request.edits, role5000, hrole]
  | some role =>
    have hne : role ≠ "" := by
      have hmem := List.mem_of_mem_head? hrole
      simpa using (List.mem_filter.mp hmem).2
    simp [Request.edits, role5000, hrole, hne]

/-- A deletion leaves what it filters, whether or not it writes it. -/
theorem deleteEdit_elim (name role : Json) (file : Table) :
    (deleteEdit name role file).elim (file, Reply.notFound) (fun newNets => (newNets, .ok)) =
      (filterNets file name role, if (filterNets file name role).length ≠ file.length then .ok else .notFound) := by
  rw [deleteEdit]
  split_ifs with hlength
  · rfl
  · have hsub : (filterNets file name role).Sublist file := by
      rw [filterNets]
      split_ifs
      · exact List.filter_sublist
      · exact List.filter_sublist
    rw [hsub.eq_of_length (not_not.mp hlength)]
    rfl

theorem exec_delete {env : Env} {file : Table} (hsettled : ∀ net ∈ file, isPinned net = .ok false) {r : Request}
    {name role : Json} (hedits : r.edits env = .ok [deleteEdit name role]) :
    exec env r file = (filterNets file name role,
      if (filterNets file name role).length ≠ file.length then .ok else .notFound) := by
  rw [exec, hedits]
  exact (execEdits_one hsettled r.viaNet _).trans (deleteEdit_elim name role file)

theorem delete_agrees_iff {env : Env} {file : Table} (hsettled : ∀ net ∈ file, isPinned net = .ok false) (name : String)
    (roles : List String) :
    exec env (Shared.delete name roles).on9000 file = exec env (Shared.delete name roles).on5000 file ↔
      (Shared.delete name roles).Agrees env file := by
  have hedits : (Shared.delete name roles).on9000.edits env =
      .ok [deleteEdit (.str name) (roleArg9000 roles)] := rfl
  have hedits' : (Shared.delete name roles).on5000.edits env = .ok [deleteEdit (.str name) (role5000 roles)] :=
    drop_edits env name roles
  rw [exec_delete hsettled hedits, exec_delete hsettled hedits', Shared.Agrees]
  have hall : ∀ role : String, filterNets file (.str name) .null = filterNets file (.str name) (.str role) ↔
      ∀ net ∈ file, hasName (.str name) net = true → hasRole (.str role) net = true := by
    intro role
    rw [filterNets, filterNets, if_pos rfl, if_neg (by simp), filter_eq_filter_iff]
    refine forall₂_congr fun net _ => ?_
    cases hasName (.str name) net <;> simp
  rcases role_cases roles with hsame | ⟨h9, role, h5⟩
  · rw [hsame]
    exact iff_of_true rfl (Or.inl rfl)
  · rw [h9, h5, ← hall role]
    constructor
    · intro heq
      exact Or.inr (Prod.mk.inj heq).1
    · rintro (hnull | heq)
      · cases hnull
      · rw [heq]

/-! ### `PUT` -/

theorem edits_of_accepts {env : Env} {r : Request} {file : Table} (h : Accepts env r file) :
    ∃ edits, r.edits env = .ok edits := by
  cases hedits : r.edits env with
  | error reason =>
    refine absurd ?_ (h reason)
    rw [exec, hedits]
  | ok edits => exact ⟨edits, rfl⟩

theorem update_edits {env : Env} {name : String} {body : Json} {edits : List Edit}
    (h : (Request.update name body).edits env = .ok edits) :
    ∃ data record, body = .obj data ∧ missingRequired data = false ∧ prepared env data = .ok record ∧
      edits = (if (Dict.get data "name").pyEq (.str name) then [] else [deleteEdit (.str name) .null]) ++
        [saveEdit record] := by
  simp only [Request.edits] at h
  split_ifs at h with hbody
  split at h
  · rename_i data
    split at h
    · cases h
    · rename_i hmissing
      split at h
      · cases h
      · cases h
      · rename_i record _ hprepared
        cases h
        exact ⟨data, record, rfl, by simpa using hmissing, hprepared, rfl⟩
  · cases h

/-- The table before the record is appended: what port 9000 keeps. -/
def kept9000 (name : Json) (data : Dict) (file : Table) : Table :=
  (if (Dict.get data "name").pyEq name then file else file.filter fun net => !hasName name net).filter fun net =>
    !(hasName (Dict.get data "name") net && hasRole (Dict.get data "role") net)

/-- What port 5000 keeps. -/
def kept5000 (name : Json) (data : Dict) (file : Table) : Table :=
  if (Dict.get data "name").pyEq name then file.filter fun net => !(hasName name net && hasRole (Dict.get data "role") net)
  else (file.filter fun net => !(hasName name net && hasRole (Dict.get data "role") net)).filter fun net =>
    !hasName name net

/-- **Both remove the same records** exactly when the key of the record is free or the path names it. -/
theorem kept_eq_iff {name : String} {data : Dict} {file : Table} :
    kept9000 (.str name) data file = kept5000 (.str name) data file ↔ PutFree (.str name) data file := by
  by_cases hsame : (Dict.get data "name").pyEq (.str name) = true
  · rw [kept9000, kept5000, if_pos hsame, if_pos hsame, Json.pyEq_str.mp hsame]
    exact iff_of_true rfl (Or.inl hsame)
  · have hfilter : ((file.filter fun net => !(hasName (.str name) net && hasRole (Dict.get data "role") net)).filter
        fun net => !hasName (.str name) net) = file.filter fun net => !hasName (.str name) net := by
      rw [List.filter_filter]
      refine List.filter_congr fun net _ => ?_
      cases hasName (.str name) net <;> simp
    rw [kept9000, kept5000, if_neg hsame, if_neg hsame, hfilter, List.filter_eq_self, PutFree, or_iff_right hsame]
    constructor
    · intro hall net hnet hkey
      -- a record under the key of the body does not bear the name in the path
      have hname : hasName (.str name) net = false := by
        rw [Bool.eq_false_iff]
        exact fun hc => hsame (pyEq_of_pyEq (Json.pyEq_symm hkey.1) (Json.pyEq_symm hc))
      have hkept := hall net (List.mem_filter.mpr ⟨hnet, by rw [hname]; rfl⟩)
      rw [hkey.1, hkey.2] at hkept
      cases hkept
    · intro hfree net hnet
      have hnot := hfree net (List.mem_filter.mp hnet).1
      rw [Bool.not_eq_true', Bool.eq_false_iff, ne_eq, Bool.and_eq_true]
      exact hnot

theorem update_exec {env : Env} {name : String} {data record : Dict} {file : Table}
    (hsettled : ∀ net ∈ file, isPinned net = .ok false) (hprepared : prepared env data = .ok record) :
    execEdits env true ((if (Dict.get data "name").pyEq (.str name) then [] else [deleteEdit (.str name) .null]) ++
      [saveEdit record]) file = (kept9000 (.str name) data file ++ [record], .ok) := by
  have hname := get_prepared hprepared "name" (by decide) (by decide) (by decide) (by decide)
  have hrole := get_prepared hprepared "role" (by decide) (by decide) (by decide) (by decide)
  rw [kept9000]
  split_ifs
  · rw [List.nil_append, execEdits_one hsettled, saveEdit, hname, hrole]
    rfl
  · have hsettled' : ∀ net ∈ file.filter fun net => !hasName (.str name) net, isPinned net = .ok false :=
      fun net hnet => hsettled net (List.mem_filter.mp hnet).1
    rw [List.singleton_append, execEdits_rename hsettled, execEdits_one hsettled', saveEdit, hname, hrole]
    rfl

theorem put_exec {env : Env} {name : String} {data : Dict} {file : Table}
    (hsettled : ∀ net ∈ file, isPinned net = .ok false) (hrequired : missingRequired data = false) :
    exec env (.put name (.obj data)) file = (kept5000 (.str name) data file ++ [prepared5000 env data], .ok) := by
  have hname : Dict.get (prepared5000 env data) "name" = Dict.get data "name" :=
    get_withMapping (by decide) (by decide)
  have hrole : Dict.get (prepared5000 env data) "role" = Dict.get data "role" :=
    get_withMapping (by decide) (by decide)
  have hedits : (Request.put name (.obj data)).edits env = .ok [putEdit (.str name) (prepared5000 env data)] := by
    simp [Request.edits, hrequired]
  rw [exec, hedits]
  refine (execEdits_one hsettled false _).trans ?_
  rw [putEdit, hname, hrole, kept5000]
  rfl

theorem put_agrees_iff {env : Env} {file : Table} (hsettled : ∀ net ∈ file, isPinned net = .ok false) {name : String}
    {body : Json} {edits : List Edit} (hedits : (Request.update name body).edits env = .ok edits) :
    exec env (Shared.put name body).on9000 file = exec env (Shared.put name body).on5000 file ↔
      (Shared.put name body).Agrees env file := by
  obtain ⟨data, record, rfl, hrequired, hprepared, rfl⟩ := update_edits hedits
  have h9000 : exec env (Shared.put name (.obj data)).on9000 file =
      (kept9000 (.str name) data file ++ [record], .ok) := by
    rw [Shared.on9000, exec, hedits]
    exact update_exec hsettled hprepared
  rw [h9000, Shared.on5000, put_exec hsettled hrequired, Prod.mk.injEq, and_iff_left rfl, Shared.Agrees]
  have hagree : Plain env data ∧ PutFree (.str name) data file ↔
      ∀ data', Json.obj data = .obj data' → Plain env data' ∧ PutFree (.str name) data' file := by
    refine ⟨fun h data' heq => ?_, fun h => h data rfl⟩
    rw [← Json.obj.inj heq]
    exact h
  rw [← hagree, ← prepared_eq_iff hprepared, ← kept_eq_iff, and_comm]
  constructor
  · intro heq
    obtain ⟨hkept, hrecord⟩ := List.append_inj' heq rfl
    exact ⟨hkept, (List.cons.inj hrecord).1⟩
  · rintro ⟨hkept, hrecord⟩
    rw [hkept, hrecord]

/-- **The two servers agree** on a table without old scope channels, about a request that port 9000 accepts (port
5000 then does too): the same table and the same status, exactly when the record is plain and its key free, or the
role of the deletion is the same for both. -/
theorem servers_agree_iff (env : Env) (file : Table) (r : Shared) (hscope : ∀ net ∈ file, pinned net = false)
    (h9000 : Accepts env r.on9000 file) :
    exec env r.on9000 file = exec env r.on5000 file ↔ r.Agrees env file := by
  obtain ⟨edits, hedits⟩ := edits_of_accepts h9000
  obtain ⟨edit, rest, hcons, -, -⟩ := edits_shape hedits
  have hne : edits ≠ [] := by
    rw [hcons]
    exact List.cons_ne_nil _ _
  cases r with
  | put name body => exact put_agrees_iff (isPinned_of_accepts rfl hedits hne h9000 hscope) hedits
  | delete name roles => exact delete_agrees_iff (isPinned_of_accepts rfl hedits hne h9000 hscope) name roles

/-- A changed name: `led` becomes `fan`. -/
theorem servers_agree_rename :
    exec plainEnv (.update "led" (.obj (gpioNet "fan"))) [gpioNet "led", gpioNet "lamp"] =
      exec plainEnv (.put "led" (.obj (gpioNet "fan"))) [gpioNet "led", gpioNet "lamp"] := by
  have haccepts : Accepts plainEnv (.update "led" (.obj (gpioNet "fan"))) [gpioNet "led", gpioNet "lamp"] := by
    have hreply : (exec plainEnv (.update "led" (.obj (gpioNet "fan"))) [gpioNet "led", gpioNet "lamp"]).2 = .ok := by
      decide +kernel
    intro reason
    rw [hreply]
    exact fun h => by cases h
  refine (servers_agree_iff plainEnv _ (.put "led" (.obj (gpioNet "fan"))) (by decide +kernel) haccepts).mpr ?_
  intro data hdata
  rw [← Json.obj.inj hdata]
  exact ⟨⟨by decide +kernel, by decide +kernel, by decide +kernel, by decide +kernel⟩, by decide +kernel⟩

/-- A record with a `port`, which only port 9000 puts into the mapping, and a rename onto a name in use, after which port
5000 has the name twice. Both requests are carried out by both servers. -/
theorem servers_differ :
    (exec plainEnv (.update "led" (.obj (gpioNet "led" ++ [("port", .str "A")]))) []).2 = .ok ∧
    (exec plainEnv (.put "led" (.obj (gpioNet "led" ++ [("port", .str "A")]))) []).2 = .ok ∧
    (exec plainEnv (.update "led" (.obj (gpioNet "led" ++ [("port", .str "A")]))) []).1 ≠
      (exec plainEnv (.put "led" (.obj (gpioNet "led" ++ [("port", .str "A")]))) []).1 ∧
    (exec plainEnv (.update "led" (.obj (gpioNet "fan"))) [gpioNet "led", gpioNet "fan"]).1.length = 1 ∧
    (exec plainEnv (.put "led" (.obj (gpioNet "fan"))) [gpioNet "led", gpioNet "fan"]).1.length = 2 := by
  decide +kernel

end Lager.Nets
