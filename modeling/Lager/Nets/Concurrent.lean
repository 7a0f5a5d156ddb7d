import Lager.Nets.Unique

/-!
# Concurrent requests on the saved nets

The read and write steps of requests that run at the same time, in the threads of the two servers. Port 9000
reads through `NetsCache`, which loads the file again only when its modification time differs from the one it
remembers; port 5000 and `net_cli` read the file. Nothing locks the table between the read and the write of an
edit, nor between the two edits of a renaming `PUT`.

The main result is that runs in which no request reads between the first read and the last write of another
one end in the table of the successful requests executed one after the other.
-/

namespace Lager.Nets

open Lager.Py

/-- Port 9000's handlers share `NetsCache`. -/
def Request.cached : Request → Bool
  | .delete _ _ => true
  | .update _ _ => true
  | .setSafetyLimits _ _ => true
  | _ => false

/-- A request on its way. `wrote`: it has changed the file already. -/
inductive Job where
  /-- The next edit is about to read; `started` when an edit was done before. -/
  | waiting (started wrote : Bool) (edits : List Edit)
  /-- The table read needed migration: it is written back before the edit goes on. -/
  | migrating (wrote : Bool) (nets : Table) (edit : Edit) (rest : List Edit)
  | writing (wrote : Bool) (newNets : Table) (rest : List Edit)
  | done (reply : Reply)

/-- Between the first read and the last write. -/
def Job.isOpen : Job → Bool
  | .waiting started _ _ => started
  | .migrating _ _ _ _ => true
  | .writing _ _ _ => true
  | .done _ => false

/-- The job of a request that has arrived. -/
def Job.start (env : Env) (r : Request) : Job :=
  match r.edits env with
  | .error reason => .done (.refused reason)
  | .ok edits => .waiting false false edits

/-- The job once its edit has the table in hand. -/
def Job.next (wrote : Bool) (nets : Table) (edit : Edit) (rest : List Edit) : Job :=
  match edit nets, rest with
  | some newNets, _ => .writing wrote newNets rest
  | none, [] => .done .notFound
  | none, _ :: _ => .waiting true wrote rest

structure Box where
  file : Table
  mtime : Nat
  cacheNets : Table
  /-- 0 after `invalidate`. -/
  cacheMtime : Nat
  jobs : Nat → Job

inductive Act where
  | read
  /-- A write of the file, which gets a modification time. -/
  | write (mtime : Nat)
  /-- A write that raises. -/
  | fail

structure Event where
  id : Nat
  act : Act

namespace Box

variable (s : Box)

def setJob (id : Nat) (job : Job) : Box := { s with jobs := fun i => if i = id then job else s.jobs i }

/-- `NetsCache._reload_if_needed`, for the handlers that go through the cache. -/
def reload (r : Request) : Box :=
  if r.cached = true ∧ s.mtime ≠ s.cacheMtime then { s with cacheNets := s.file, cacheMtime := s.mtime } else s

/-- The table a request sees. -/
def seen (r : Request) : Table := if r.cached then (s.reload r).cacheNets else s.file

/-- `os.replace`, and `invalidate` in the process of the cache. -/
def write (r : Request) (nets : Table) (mtime : Nat) : Box :=
  { s with file := nets, mtime := mtime, cacheMtime := if r.cached then 0 else s.cacheMtime }

end Box

/-- What a read hands over, and whether it was migrated. -/
def readStep (env : Env) (r : Request) (seen : Table) : Except PyErr (Table × Bool) :=
  if r.viaNet then migrate env.lower seen else .ok (seen, false)

/-- One step of a request; `reqs id` is the request with that number. -/
def step (env : Env) (reqs : Nat → Request) (s : Box) (e : Event) : Option Box :=
  let r := reqs e.id
  match e.act, s.jobs e.id with
  | .read, .waiting _ wrote (edit :: rest) =>
    match readStep env r (s.seen r) with
    | .error err => some ((s.reload r).setJob e.id (.done (.refused (.raised err))))
    | .ok (nets, true) => some ((s.reload r).setJob e.id (.migrating wrote nets edit rest))
    | .ok (nets, false) => some ((s.reload r).setJob e.id (.next wrote nets edit rest))
  | .write m, .migrating _ nets edit rest => some ((s.write r nets m).setJob e.id (.next true nets edit rest))
  | .write m, .writing _ newNets rest =>
    some ((s.write r newNets m).setJob e.id (match rest with
      | [] => .done .ok
      | _ :: _ => .waiting true true rest))
  -- a migration that cannot be written back is a warning in the log; a save that cannot be written raises
  | .fail, .migrating wrote nets edit rest => some (s.setJob e.id (.next wrote nets edit rest))
  | .fail, .writing _ _ _ => some (s.setJob e.id (.done (.refused (.raised .osError))))
  | _, _ => none

/-- The box with a table on disk, before any request. -/
def start (env : Env) (reqs : Nat → Request) (file : Table) : Box :=
  { file := file, mtime := 1, cacheNets := [], cacheMtime := 0, jobs := fun i => .start env (reqs i) }

/-- The table after executing requests one after the other. -/
def execAll (env : Env) (reqs : Nat → Request) (order : List Nat) (file : Table) : Table :=
  order.foldl (fun file i => (exec env (reqs i) file).1) file

/-- What a step must meet: a read finds no other request between its first read and its last write, a write gets
a modification time that the cache has not seen, a request whose net is not there has not written a migrated
table, and a write does not fail after an earlier write of the same request. -/
def Alone (s : Box) (e : Event) : Prop :=
  match e.act, s.jobs e.id with
  | .read, _ => ∀ i, i ≠ e.id → (s.jobs i).isOpen = false
  | .write m, .migrating _ nets edit rest => m ≠ 0 ∧ m ≠ s.cacheMtime ∧ (edit nets = none → rest ≠ [])
  | .write m, _ => m ≠ 0 ∧ m ≠ s.cacheMtime
  | .fail, .writing wrote _ _ => wrote = false
  | .fail, _ => True

/-! ### The shape of a request -/

/-- What may follow an edit: nothing, or one save, which always writes. -/
def Tail (rest : List Edit) : Prop := rest = [] ∨ ∃ data, rest = [saveEdit data]

/-- A request is one edit, or a deletion and a save. -/
theorem edits_shape {env : Env} {r : Request} {edits : List Edit} (h : r.edits env = .ok edits) :
    ∃ edit rest, edits = edit :: rest ∧ Tail rest ∧ (rest ≠ [] → ∃ name role, edit = deleteEdit name role) := by
  have hone : ∀ edit : Edit, edits = [edit] → ∃ edit rest, edits = edit :: rest ∧ Tail rest ∧
      (rest ≠ [] → ∃ name role, edit = deleteEdit name role) := fun edit hedit =>
    ⟨edit, [], hedit, .inl rfl, fun hne => absurd rfl hne⟩
  cases r with
  | save data =>
    simp only [Request.edits] at h
    split at h <;> cases h
    exact hone _ rfl
  | delete name role =>
    cases h
    exact hone _ rfl
  | rename oldName newName =>
    cases h
    exact hone _ rfl
  | update name body =>
    simp only [Request.edits] at h
    split_ifs at h with hbody
    split at h
    · split_ifs at h with hmissing hname
      · split at h <;> cases h
        exact hone _ rfl
      · split at h <;> cases h
        rename_i record _ _
        exact ⟨deleteEdit (.str name) .null, [saveEdit record], rfl, .inr ⟨record, rfl⟩, fun _ => ⟨_, _, rfl⟩⟩
    · cases h
  | setSafetyLimits name body =>
    simp only [Request.edits] at h
    cases hlimits : validateSafetyLimits body with
    | error reason => simp [hlimits, Except.map] at h
    | ok limits =>
      simp only [hlimits, Except.map, Except.ok.injEq] at h
      exact hone _ h.symm
  | put name body =>
    simp only [Request.edits] at h
    split at h
    · split_ifs at h with hmissing
      cases h
      exact hone _ rfl
    · cases h
  | drop name role =>
    cases h
    exact hone _ rfl

theorem execEdits_cons {env : Env} {viaNet : Bool} {edit : Edit} {rest : List Edit} {file nets : Table}
    (h : readTable env viaNet file = .ok nets) :
    execEdits env viaNet (edit :: rest) file = match edit nets, rest with
      | some newNets, _ => execEdits env viaNet rest newNets
      | none, [] => (nets, .notFound)
      | none, _ :: _ => execEdits env viaNet rest nets := by
  cases hedit : edit nets with
  | some newNets => simp only [execEdits, h, hedit]
  | none => cases rest <;> simp only [execEdits, h, hedit]

theorem readStep_eq {env : Env} {r : Request} {file nets : Table} {changed : Bool}
    (h : readStep env r file = .ok (nets, changed)) :
    readTable env r.viaNet file = .ok nets ∧ (changed = false → nets = file) := by
  unfold readStep at h
  unfold readTable
  split_ifs at h ⊢ with hvia
  · rw [h]
    refine ⟨rfl, fun hchanged => ?_⟩
    subst hchanged
    exact migrate_unchanged h
  · cases h
    exact ⟨rfl, fun _ => rfl⟩

theorem readStep_error {env : Env} {r : Request} {file : Table} {e : PyErr} (h : readStep env r file = .error e) :
    readTable env r.viaNet file = .error e := by
  unfold readStep at h
  unfold readTable
  split_ifs at h ⊢ with hvia
  rw [h]
  rfl

/-! ### The invariant -/

/-- A job that is open on a file resumes the execution of its request on the table `t` it found. -/
def Resumes (env : Env) (r : Request) (t file : Table) : Job → Prop
  | .waiting _ wrote edits => ∃ data nets, edits = [saveEdit data] ∧ readTable env r.viaNet file = .ok nets ∧
      execEdits env r.viaNet edits file = exec env r t ∧ (wrote = false → file = t)
  | .migrating wrote nets edit rest => readTable env r.viaNet file = .ok nets ∧ Tail rest ∧
      (rest ≠ [] → ∃ name role, edit = deleteEdit name role) ∧
      execEdits env r.viaNet (edit :: rest) file = exec env r t ∧ (wrote = false → file = t) ∧
      (edit nets = none → rest = [] → wrote = false)
  | .writing wrote newNets rest => Tail rest ∧
      (rest ≠ [] → ∃ nets, readTable env r.viaNet newNets = .ok nets) ∧
      execEdits env r.viaNet rest newNets = exec env r t ∧ (wrote = false → file = t)
  | .done _ => False

/-- The cache, when its time is the file's, holds the file. -/
def Coherent (s : Box) : Prop := s.mtime ≠ 0 ∧ (s.mtime = s.cacheMtime → s.cacheNets = s.file)

/-- The requests in `order` have succeeded, one after the other; of all others none is open, or exactly one, and
that one will have executed its request on the table they left. -/
structure Serial (env : Env) (reqs : Nat → Request) (file : Table) (s : Box) (order : List Nat) : Prop where
  nodup : order.Nodup
  mem : ∀ i, i ∈ order ↔ s.jobs i = .done .ok
  closed : ∀ i, (s.jobs i).isOpen = false → s.jobs i = .start env (reqs i) ∨ ∃ reply, s.jobs i = .done reply
  one : ∀ i j, (s.jobs i).isOpen = true → (s.jobs j).isOpen = true → i = j
  quiet : (∀ i, (s.jobs i).isOpen = false) → s.file = execAll env reqs order file
  busy : ∀ i, (s.jobs i).isOpen = true →
    Resumes env (reqs i) (execAll env reqs order file) s.file (s.jobs i)

theorem seen_eq {s : Box} (h : Coherent s) (r : Request) : s.seen r = s.file := by
  unfold Box.seen Box.reload
  split_ifs with hcached hreload
  · rfl
  · have hsame : s.mtime = s.cacheMtime := by
      by_contra hne
      exact hreload ⟨hcached, hne⟩
    exact h.2 hsame
  · rfl

theorem coherent_reload {s : Box} (h : Coherent s) (r : Request) : Coherent (s.reload r) := by
  unfold Box.reload
  split_ifs
  · exact ⟨h.1, fun _ => rfl⟩
  · exact h

theorem coherent_write {s : Box} {r : Request} {nets : Table} {m : Nat} (h0 : m ≠ 0) (hm : m ≠ s.cacheMtime) :
    Coherent (s.write r nets m) := by
  refine ⟨h0, fun hsame => ?_⟩
  simp only [Box.write] at hsame
  split_ifs at hsame
  · exact absurd hsame h0
  · exact absurd hsame hm

section Steps

variable {env : Env} {reqs : Nat → Request} {file : Table} {s : Box} {order : List Nat} {id : Nat}

theorem setJob_jobs (s : Box) (id i : Nat) (job : Job) : (s.setJob id job).jobs i = if i = id then job else s.jobs i :=
  rfl

/-- Only `id` can be open. -/
def OnlyOpen (s : Box) (id : Nat) : Prop := ∀ i, i ≠ id → (s.jobs i).isOpen = false

/-- The open request goes on: its new job resumes the same execution. -/
theorem Serial.goOn (h : Serial env reqs file s order) {s' : Box} {job : Job} (hjobs : s'.jobs = s.jobs)
    (hnot : s.jobs id ≠ .done .ok) (honly : OnlyOpen s id) (hopen : job.isOpen = true)
    (hres : Resumes env (reqs id) (execAll env reqs order file) s'.file job) :
    Serial env reqs file (s'.setJob id job) order := by
  have hother : ∀ i, i ≠ id → (s'.setJob id job).jobs i = s.jobs i := fun i hi => by
    rw [setJob_jobs, if_neg hi, hjobs]
  have hself : (s'.setJob id job).jobs id = job := if_pos rfl
  have hclosed : ∀ i, ((s'.setJob id job).jobs i).isOpen = true → i = id := by
    intro i hi
    by_contra hne
    rw [hother i hne, honly i hne] at hi
    cases hi
  refine ⟨h.nodup, fun i => ?_, fun i hi => ?_, fun i j hi hj => (hclosed i hi).trans (hclosed j hj).symm,
    fun hall => ?_, fun i hi => ?_⟩
  · by_cases hi : i = id
    · subst hi
      rw [hself, h.mem]
      refine ⟨fun hc => absurd hc hnot, fun hc => ?_⟩
      rw [hc] at hopen
      cases hopen
    · rw [hother i hi, h.mem]
  · by_cases hid : i = id
    · subst hid
      rw [hself, hopen] at hi
      cases hi
    · rw [hother i hid] at hi ⊢
      exact h.closed i hi
  · have hc := hall id
    rw [hself, hopen] at hc
    cases hc
  · obtain rfl := hclosed i hi
    rw [hself]
    exact hres

/-- The open request ends without success and leaves the table it found. -/
theorem Serial.giveUp (h : Serial env reqs file s order) {s' : Box} {reply : Reply} (hjobs : s'.jobs = s.jobs)
    (hnot : s.jobs id ≠ .done .ok) (honly : OnlyOpen s id) (hreply : reply ≠ .ok)
    (hfile : s'.file = execAll env reqs order file) : Serial env reqs file (s'.setJob id (.done reply)) order := by
  have hother : ∀ i, i ≠ id → (s'.setJob id (.done reply)).jobs i = s.jobs i := fun i hi => by
    rw [setJob_jobs, if_neg hi, hjobs]
  have hself : (s'.setJob id (.done reply)).jobs id = .done reply := if_pos rfl
  have hclosed : ∀ i, ((s'.setJob id (.done reply)).jobs i).isOpen = false := by
    intro i
    by_cases hi : i = id
    · subst hi
      rw [hself]
      rfl
    · rw [hother i hi]
      exact honly i hi
  refine ⟨h.nodup, fun i => ?_, fun i hi => ?_, fun i j hi => ?_, fun _ => hfile, fun i hi => ?_⟩
  · by_cases hi : i = id
    · subst hi
      rw [hself, h.mem]
      refine ⟨fun hc => absurd hc hnot, fun hc => ?_⟩
      cases hc
      exact absurd rfl hreply
    · rw [hother i hi, h.mem]
  · by_cases hid : i = id
    · subst hid
      exact .inr ⟨reply, hself⟩
    · rw [hother i hid] at hi ⊢
      exact h.closed i hi
  · rw [hclosed i] at hi
    cases hi
  · rw [hclosed i] at hi
    cases hi

/-- The open request succeeds: it is the last one in the order. -/
theorem Serial.succeed (h : Serial env reqs file s order) {s' : Box} (hjobs : s'.jobs = s.jobs)
    (hnot : s.jobs id ≠ .done .ok) (honly : OnlyOpen s id)
    (hfile : s'.file = (exec env (reqs id) (execAll env reqs order file)).1) :
    Serial env reqs file (s'.setJob id (.done .ok)) (order ++ [id]) := by
  have hother : ∀ i, i ≠ id → (s'.setJob id (.done .ok)).jobs i = s.jobs i := fun i hi => by
    rw [setJob_jobs, if_neg hi, hjobs]
  have hself : (s'.setJob id (.done .ok)).jobs id = .done .ok := if_pos rfl
  have hclosed : ∀ i, ((s'.setJob id (.done .ok)).jobs i).isOpen = false := by
    intro i
    by_cases hi : i = id
    · subst hi
      rw [hself]
      rfl
    · rw [hother i hi]
      exact honly i hi
  refine ⟨?_, fun i => ?_, fun i hi => ?_, fun i j hi => ?_, fun _ => ?_, fun i hi => ?_⟩
  · rw [List.nodup_append]
    refine ⟨h.nodup, List.nodup_singleton id, fun a ha b hb hab => ?_⟩
    rw [List.mem_singleton.mp hb] at hab
    exact hnot ((h.mem id).mp (hab ▸ ha))
  · by_cases hi : i = id
    · subst hi
      simp [hself]
    · rw [hother i hi, List.mem_append, h.mem]
      simp [hi]
  · by_cases hid : i = id
    · subst hid
      exact .inr ⟨.ok, hself⟩
    · rw [hother i hid] at hi ⊢
      exact h.closed i hi
  · rw [hclosed i] at hi
    cases hi
  · rw [execAll, List.foldl_append]
    exact hfile
  · rw [hclosed i] at hi
    cases hi

/-- The edit goes on with the table `nets` that its read gave, `file` being on disk by now. -/
theorem Serial.next (h : Serial env reqs file s order) {s' : Box} {wrote : Bool} {nets : Table} {edit : Edit}
    {rest : List Edit} (hjobs : s'.jobs = s.jobs) (hnot : s.jobs id ≠ .done .ok) (honly : OnlyOpen s id)
    (hread : readTable env (reqs id).viaNet s'.file = .ok nets) (htail : Tail rest)
    (hdelete : rest ≠ [] → ∃ name role, edit = deleteEdit name role)
    (hexec : execEdits env (reqs id).viaNet (edit :: rest) s'.file =
      exec env (reqs id) (execAll env reqs order file))
    (hwrote : wrote = false → s'.file = execAll env reqs order file)
    (hnone : edit nets = none → rest = [] → wrote = false) :
    Serial env reqs file (s'.setJob id (.next wrote nets edit rest)) order := by
  rw [execEdits_cons hread] at hexec
  unfold Job.next
  cases he : edit nets with
  | some newNets =>
    simp only [he] at hexec ⊢
    refine h.goOn hjobs hnot honly rfl ⟨htail, fun hne => ?_, hexec, hwrote⟩
    obtain ⟨name, role, rfl⟩ := hdelete hne
    exact ⟨newNets, readTable_again hread (mem_of_deleteEdit he)⟩
  | none =>
    rcases htail with rfl | ⟨data, rfl⟩
    · simp only [he] at hexec ⊢
      exact h.giveUp hjobs hnot honly (by simp) (hwrote (hnone he rfl))
    · simp only [he] at hexec ⊢
      have hagain := readTable_again hread fun _ hnet => hnet
      refine h.goOn hjobs hnot honly rfl ⟨data, nets, rfl, hread, ?_, hwrote⟩
      rw [← hexec, execEdits_cons hread, execEdits_cons hagain]

theorem reload_jobs (s : Box) (r : Request) : (s.reload r).jobs = s.jobs := by
  unfold Box.reload
  split_ifs <;> rfl

theorem reload_file (s : Box) (r : Request) : (s.reload r).file = s.file := by
  unfold Box.reload
  split_ifs <;> rfl

/-- What a job that is about to read brings along. -/
structure Ready (env : Env) (reqs : Nat → Request) (file : Table) (s : Box) (order : List Nat) (id : Nat)
    (wrote : Bool) (edit : Edit) (rest : List Edit) : Prop where
  tail : Tail rest
  delete : rest ≠ [] → ∃ name role, edit = deleteEdit name role
  exec : execEdits env (reqs id).viaNet (edit :: rest) s.file = Nets.exec env (reqs id) (execAll env reqs order file)
  found : wrote = false → s.file = execAll env reqs order file
  sure : ∀ nets, edit nets = none → rest = [] → wrote = false
  reads : ∀ err, readTable env (reqs id).viaNet s.file = .error err → wrote = false

theorem Serial.ready (h : Serial env reqs file s order) {started wrote : Bool} {edit : Edit} {rest : List Edit}
    (honly : OnlyOpen s id) (hjob : s.jobs id = .waiting started wrote (edit :: rest)) :
    Ready env reqs file s order id wrote edit rest := by
  cases started with
  | true =>
    have hres := h.busy id (by rw [hjob]; rfl)
    rw [hjob] at hres
    obtain ⟨data, nets, hedits, hread, hexec, hwrote⟩ := hres
    obtain ⟨rfl, rfl⟩ := List.cons.inj hedits
    refine ⟨.inl rfl, fun hne => absurd rfl hne, hexec, hwrote, fun nets he => ?_, fun err herr => ?_⟩
    · cases he
    · rw [hread] at herr
      cases herr
  | false =>
    -- a request that has just arrived: nobody is open, and it has all its edits before it
    have hclosed := h.closed id (by rw [hjob]; rfl)
    rw [hjob] at hclosed
    rcases hclosed with hstart | ⟨reply, hdone⟩
    · unfold Job.start at hstart
      cases hedits : (reqs id).edits env with
      | error reason => simp [hedits] at hstart
      | ok edits =>
        simp only [hedits, Job.waiting.injEq, true_and] at hstart
        obtain ⟨rfl, rfl⟩ := hstart
        obtain ⟨edit', rest', hcons, htail, hdelete⟩ := edits_shape hedits
        obtain ⟨rfl, rfl⟩ := List.cons.inj hcons
        have hfile : s.file = execAll env reqs order file := by
          refine h.quiet fun i => ?_
          by_cases hi : i = id
          · rw [hi, hjob]
            rfl
          · exact honly i hi
        refine ⟨htail, hdelete, ?_, fun _ => hfile, fun _ _ _ => rfl, fun _ _ => rfl⟩
        rw [Nets.exec, hedits, hfile]
    · cases hdone

/-- A read. -/
theorem Serial.read (h : Serial env reqs file s order) {wrote : Bool} {edit : Edit} {rest : List Edit}
    (hready : Ready env reqs file s order id wrote edit rest) (hnot : s.jobs id ≠ .done .ok)
    (honly : OnlyOpen s id) {t : Box}
    (hstep : (match readStep env (reqs id) s.file with
      | .error err => some ((s.reload (reqs id)).setJob id (.done (.refused (.raised err))))
      | .ok (nets, true) => some ((s.reload (reqs id)).setJob id (.migrating wrote nets edit rest))
      | .ok (nets, false) => some ((s.reload (reqs id)).setJob id (.next wrote nets edit rest))) = some t) :
    Serial env reqs file t order := by
  have hjobs := reload_jobs s (reqs id)
  have hfile := reload_file s (reqs id)
  cases hread : readStep env (reqs id) s.file with
  | error err =>
    simp only [hread, Option.some.injEq] at hstep
    subst hstep
    have hwrote := hready.reads err (readStep_error hread)
    exact h.giveUp hjobs hnot honly (by simp) (hfile.trans (hready.found hwrote))
  | ok result =>
    obtain ⟨nets, changed⟩ := result
    obtain ⟨htable, hsame⟩ := readStep_eq hread
    cases changed with
    | true =>
      simp only [hread, Option.some.injEq] at hstep
      subst hstep
      refine h.goOn hjobs hnot honly rfl ⟨?_, hready.tail, hready.delete, ?_, ?_, hready.sure nets⟩
      · rw [hfile]
        exact htable
      · rw [hfile]
        exact hready.exec
      · rw [hfile]
        exact hready.found
    | false =>
      simp only [hread, Option.some.injEq] at hstep
      subst hstep
      rw [← hfile] at htable
      refine h.next hjobs hnot honly htable hready.tail hready.delete ?_ ?_ (hready.sure nets)
      · rw [hfile]
        exact hready.exec
      · rw [hfile]
        exact hready.found

end Steps

/-- **One step keeps the order of the successful requests.** -/
theorem Serial.step {env : Env} {reqs : Nat → Request} {file : Table} {s t : Box} {order : List Nat} {e : Event}
    (h : Serial env reqs file s order) (hcoh : Coherent s) (hok : Alone s e) (hstep : step env reqs s e = some t) :
    Coherent t ∧ ∃ order', Serial env reqs file t order' := by
  obtain ⟨id, act⟩ := e
  have hseen := seen_eq hcoh (reqs id)
  -- when the request is open, no other one is
  have honly : (s.jobs id).isOpen = true → OnlyOpen s id := by
    intro hopen i hi
    by_contra hc
    exact hi (h.one i id (by simpa using hc) hopen)
  cases act with
  | read =>
    cases hjob : s.jobs id with
    | waiting started wrote edits =>
      cases edits with
      | nil => simp [Nets.step, hjob] at hstep
      | cons edit rest =>
        simp only [Alone] at hok
        simp only [Nets.step, hjob, hseen] at hstep
        have hnot : s.jobs id ≠ .done .ok := by
          rw [hjob]
          simp
        have hserial := h.read (h.ready hok hjob) hnot hok hstep
        refine ⟨?_, order, hserial⟩
        have hreload := coherent_reload hcoh (reqs id)
        split at hstep <;> cases hstep <;> exact hreload
    | migrating wrote nets edit rest => simp [Nets.step, hjob] at hstep
    | writing wrote newNets rest => simp [Nets.step, hjob] at hstep
    | done reply => simp [Nets.step, hjob] at hstep
  | write m =>
    cases hjob : s.jobs id with
    | waiting started wrote edits => simp [Nets.step, hjob] at hstep
    | migrating wrote nets edit rest =>
      have hres := h.busy id (by rw [hjob]; rfl)
      rw [hjob] at hres
      obtain ⟨hread, htail, hdelete, hexec, hwrote, hnone⟩ := hres
      simp only [Nets.step, hjob, Option.some.injEq] at hstep
      simp only [Alone, hjob] at hok
      subst hstep
      have hagain := readTable_again hread fun _ hnet => hnet
      refine ⟨coherent_write hok.1 hok.2.1, order, ?_⟩
      refine h.next rfl (by rw [hjob]; simp) (honly (by rw [hjob]; rfl)) hagain htail hdelete ?_ (by simp)
        fun he hrest => absurd hrest (hok.2.2 he)
      rw [← hexec, execEdits_cons hread]
      exact execEdits_cons hagain
    | writing wrote newNets rest =>
      have hres := h.busy id (by rw [hjob]; rfl)
      rw [hjob] at hres
      obtain ⟨htail, hreads, hexec, hwrote⟩ := hres
      simp only [Nets.step, hjob, Option.some.injEq] at hstep
      simp only [Alone, hjob] at hok
      subst hstep
      refine ⟨coherent_write hok.1 hok.2, ?_⟩
      rcases htail with rfl | ⟨data, rfl⟩
      · refine ⟨order ++ [id], h.succeed rfl (by rw [hjob]; simp) (honly (by rw [hjob]; rfl)) ?_⟩
        rw [← hexec]
        rfl
      · obtain ⟨nets, hnets⟩ := hreads (by simp)
        refine ⟨order, h.goOn rfl (by rw [hjob]; simp) (honly (by rw [hjob]; rfl)) rfl
          ⟨data, nets, rfl, hnets, hexec, by simp⟩⟩
    | done reply => simp [Nets.step, hjob] at hstep
  | fail =>
    cases hjob : s.jobs id with
    | waiting started wrote edits => simp [Nets.step, hjob] at hstep
    | migrating wrote nets edit rest =>
      have hres := h.busy id (by rw [hjob]; rfl)
      rw [hjob] at hres
      obtain ⟨hread, htail, hdelete, hexec, hwrote, hnone⟩ := hres
      simp only [Nets.step, hjob, Option.some.injEq] at hstep
      subst hstep
      exact ⟨hcoh, order, h.next rfl (by rw [hjob]; simp) (honly (by rw [hjob]; rfl)) hread htail hdelete hexec
        hwrote hnone⟩
    | writing wrote newNets rest =>
      have hres := h.busy id (by rw [hjob]; rfl)
      rw [hjob] at hres
      simp only [Nets.step, hjob, Option.some.injEq] at hstep
      simp only [Alone, hjob] at hok
      subst hstep
      exact ⟨hcoh, order, h.giveUp rfl (by rw [hjob]; simp) (honly (by rw [hjob]; rfl)) (by simp)
        (hres.2.2.2 hok)⟩
    | done reply => simp [Nets.step, hjob] at hstep

theorem isOpen_start (env : Env) (r : Request) : (Job.start env r).isOpen = false := by
  unfold Job.start
  split <;> rfl

theorem start_ne_ok (env : Env) (r : Request) : Job.start env r ≠ .done .ok := by
  unfold Job.start
  split <;> simp

theorem serial_start (env : Env) (reqs : Nat → Request) (file : Table) :
    Serial env reqs file (start env reqs file) [] := by
  have hclosed : ∀ i, ((start env reqs file).jobs i).isOpen = false := fun i => isOpen_start env (reqs i)
  refine ⟨List.nodup_nil, fun i => ?_, fun i _ => .inl rfl, fun i j hi => ?_, fun _ => rfl, fun i hi => ?_⟩
  · simp only [List.not_mem_nil, false_iff]
    exact start_ne_ok env (reqs i)
  · rw [hclosed i] at hi
    cases hi
  · rw [hclosed i] at hi
    cases hi

/-- **No lost update, one request at a time.** A run in which no request reads while another one is between its
first read and its last write, every write gets a new modification time, and no failed request has changed the
file, ends, when no request is open any more, in the table of the successful requests executed in some order. -/
theorem no_lost_update (env : Env) (reqs : Nat → Request) (file : Table) (es : List Event) (s : Box)
    (halone : Lib.Along (step env reqs) Alone (start env reqs file) es)
    (hrun : Lib.run (step env reqs) (start env reqs file) es = some s)
    (hquiet : ∀ i, (s.jobs i).isOpen = false) :
    ∃ order : List Nat, order.Nodup ∧ (∀ i, i ∈ order ↔ s.jobs i = .done .ok) ∧
      s.file = execAll env reqs order file := by
  have hinv : Coherent s ∧ ∃ order, Serial env reqs file s order := by
    refine Lib.run_invariant (fun s => Coherent s ∧ ∃ order, Serial env reqs file s order)
      (fun s e t hok hs hstep => ?_) halone ⟨?_, [], serial_start env reqs file⟩ hrun
    · obtain ⟨hcoh, order, hserial⟩ := hs
      exact hserial.step hcoh hok hstep
    · exact ⟨by simp [start], by simp [start]⟩
  obtain ⟨-, order, hserial⟩ := hinv
  exact ⟨order, hserial.nodup, hserial.mem, hserial.quiet hquiet⟩

/-- A save through port 9000 and one through port 5000. -/
def twoSaves (i : Nat) : Request :=
  if i = 0 then .update "led" (.obj (gpioNet "led")) else .put "fan" (.obj (gpioNet "fan"))

/-- The state the steps of the two saves lead to. -/
def savesReach (es : List Event) : Option Box := Lib.run (step plainEnv twoSaves) (start plainEnv twoSaves []) es

theorem step_jobs_other {env : Env} {reqs : Nat → Request} {s t : Box} {e : Event}
    (h : step env reqs s e = some t) {i : Nat} (hi : i ≠ e.id) : t.jobs i = s.jobs i := by
  have hset : ∀ (u : Box) (job : Job), u.jobs = s.jobs → (u.setJob e.id job).jobs i = s.jobs i := by
    intro u job hu
    rw [setJob_jobs, if_neg hi, hu]
  simp only [step] at h
  split at h
  · have hjobs := reload_jobs s (reqs e.id)
    split at h <;> cases h <;> exact hset _ _ hjobs
  · cases h
    exact hset _ _ rfl
  · cases h
    exact hset _ _ rfl
  · cases h
    exact hset _ _ rfl
  · cases h
    exact hset _ _ rfl
  · cases h

/-- A request that takes no step stays as it arrived. -/
theorem run_jobs_other {env : Env} {reqs : Nat → Request} {s t : Box} {es : List Event}
    (h : Lib.run (step env reqs) s es = some t) {i : Nat} (hi : ∀ e ∈ es, i ≠ e.id) : t.jobs i = s.jobs i := by
  induction es generalizing s with
  | nil =>
    cases h
    rfl
  | cons e es ih =>
    obtain ⟨u, hu, hrest⟩ := Option.bind_eq_some_iff.mp (Lib.run_cons s e es ▸ h)
    obtain ⟨he, hes⟩ := List.forall_mem_cons.mp hi
    rw [ih hrest hes, step_jobs_other hu he]

/-- In a run of the two saves only these two can be open. -/
theorem savesReach_closed {es : List Event} {s : Box} (h : savesReach es = some s) (hids : ∀ e ∈ es, e.id < 2)
    (h0 : (s.jobs 0).isOpen = false) (h1 : (s.jobs 1).isOpen = false) (i : Nat) : (s.jobs i).isOpen = false := by
  match i with
  | 0 => exact h0
  | 1 => exact h1
  | i + 2 =>
    rw [run_jobs_other h fun e he hi => by have := hids e he; omega]
    exact isOpen_start plainEnv (twoSaves (i + 2))

theorem no_lost_update_in_turn :
    ∃ s, savesReach [⟨0, .read⟩, ⟨0, .write 2⟩, ⟨1, .read⟩, ⟨1, .write 3⟩] = some s ∧ s.file.length = 2 ∧
      ∃ order : List Nat, order.Nodup ∧ (∀ i, i ∈ order ↔ s.jobs i = .done .ok) ∧
        s.file = execAll plainEnv twoSaves order [] := by
  obtain ⟨s, hs⟩ : ∃ s, savesReach [⟨0, .read⟩, ⟨0, .write 2⟩, ⟨1, .read⟩, ⟨1, .write 3⟩] = some s := ⟨_, rfl⟩
  obtain ⟨u, hu⟩ : ∃ u, savesReach [⟨0, .read⟩, ⟨0, .write 2⟩] = some u := ⟨_, rfl⟩
  refine ⟨s, hs, by cases hs; decide +kernel, ?_⟩
  refine no_lost_update plainEnv twoSaves [] [⟨0, .read⟩, ⟨0, .write 2⟩, ⟨1, .read⟩, ⟨1, .write 3⟩] s ?_ hs ?_
  · refine ⟨fun i _ => isOpen_start _ _, fun t ht => ?_⟩
    obtain rfl := Option.some.inj ht
    refine ⟨⟨by decide, by decide⟩, fun t ht => ?_⟩
    have hsame : t = u := Option.some.inj (ht.symm.trans hu)
    subst hsame
    refine ⟨fun i _ => savesReach_closed hu (by decide) ?_ ?_ i, fun v hv => ?_⟩
    · cases hu
      rfl
    · cases hu
      rfl
    · cases hu
      obtain rfl := Option.some.inj hv
      exact ⟨⟨by decide, by decide⟩, fun _ _ => trivial⟩
  · refine savesReach_closed hs (by decide) ?_ ?_
    · cases hs
      rfl
    · cases hs
      rfl

/-- Two saves that both read before either writes: the second write drops the net of the first. -/
theorem saves_lost_update :
    ∃ s, savesReach [⟨0, .read⟩, ⟨1, .read⟩, ⟨0, .write 2⟩, ⟨1, .write 3⟩] = some s ∧
      (∀ i, (s.jobs i).isOpen = false) ∧
      ¬∃ order : List Nat, order.Nodup ∧ (∀ i, i ∈ order ↔ s.jobs i = .done .ok) ∧
        s.file = execAll plainEnv twoSaves order [] := by
  obtain ⟨s, hs⟩ : ∃ s, savesReach [⟨0, .read⟩, ⟨1, .read⟩, ⟨0, .write 2⟩, ⟨1, .write 3⟩] = some s := ⟨_, rfl⟩
  have hfile : s.file.length = 1 := by
    cases hs
    decide +kernel
  have h0 : s.jobs 0 = .done .ok := by
    cases hs
    rfl
  have h1 : s.jobs 1 = .done .ok := by
    cases hs
    rfl
  refine ⟨s, hs, savesReach_closed hs (by decide) (by rw [h0]; rfl) (by rw [h1]; rfl), ?_⟩
  rintro ⟨order, hnodup, hmem, heq⟩
  -- the order can only be one of the two, and both keep both nets
  have hperm : order.Perm [0, 1] := by
    refine (List.perm_ext_iff_of_nodup hnodup (by decide)).mpr fun i => ?_
    match i with
    | 0 => simp [hmem, h0]
    | 1 => simp [hmem, h1]
    | i + 2 =>
      have hstart : (start plainEnv twoSaves []).jobs (i + 2) ≠ .done .ok := start_ne_ok plainEnv (twoSaves (i + 2))
      rw [hmem, run_jobs_other hs (by simp)]
      simpa using hstart
  have hlen : (execAll plainEnv twoSaves order []).length = 2 := by
    obtain ⟨a, b, rfl⟩ := List.length_eq_two.mp hperm.length_eq
    have ha : a = 0 ∨ a = 1 := by simpa using hperm.mem_iff.mp (List.mem_cons_self)
    have hb : b = 0 ∨ b = 1 := by simpa using hperm.mem_iff.mp (List.mem_cons_of_mem a List.mem_cons_self)
    have hab : a ≠ b := by simpa using hnodup
    rcases ha with rfl | rfl <;> rcases hb with rfl | rfl
    · exact absurd rfl hab
    · decide +kernel
    · decide +kernel
    · exact absurd rfl hab
  rw [← heq, hfile] at hlen
  cases hlen

end Lager.Nets
