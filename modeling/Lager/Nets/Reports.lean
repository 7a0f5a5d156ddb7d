import Lager.Nets.Sweep

/-!
# Every net is reported once

What the lines of a sweep say about the saved nets, over every order in which workers, clock and main thread move.
The history of a run is the list of its probe results: every net with the entry that its own group found out for
it, place by place. `cutShort` and the array form join by name instead, so the entries that are written agree with
the probe results only as far as names tell nets apart: inside a group for the stream, over the whole table for
the array.
-/

namespace Lager.Nets.Sweep

open Lager.Py Lager.Lib

/-- A name stands for one role. -/
def NamesFixRoles (recs : List NetRec) : Prop :=
  ∀ a ∈ recs, ∀ b ∈ recs, a.name = b.name → a.role = b.role

instance (recs : List NetRec) : Decidable (NamesFixRoles recs) :=
  inferInstanceAs (Decidable (∀ a ∈ recs, ∀ b ∈ recs, a.name = b.name → a.role = b.role))

/-! ### Answers -/

theorem AnswerOf.name_eq {rec : NetRec} {e : Entry} (h : AnswerOf rec e) : e.name = rec.name := congrArg Prod.fst h

/-- What is told of a net by name and role alone can be read from its answer. -/
theorem Answers.map_eq {recs : List NetRec} {entries : List Entry} (h : Answers recs entries) {κ : Type}
    {view : Entry → κ} {ofRec : NetRec → κ} (hanswer : ∀ rec e, AnswerOf rec e → view e = ofRec rec) :
    entries.map view = recs.map ofRec := by
  induction h with
  | nil => rfl
  | cons hhead _ ih => rw [List.map_cons, List.map_cons, hanswer _ _ hhead, ih]

theorem Answers.nets_eq {recs : List NetRec} {entries : List Entry} (h : Answers recs entries) :
    entries.map Entry.net = recs.map NetRec.net :=
  h.map_eq fun _ _ hanswer => hanswer

theorem Answers.names_eq {recs : List NetRec} {entries : List Entry} (h : Answers recs entries) :
    entries.map Entry.name = recs.map NetRec.name :=
  h.map_eq fun _ _ hanswer => hanswer.name_eq

/-- An entry among the answers is about one of the nets. -/
theorem Answers.exists_rec {recs : List NetRec} {entries : List Entry} (h : Answers recs entries) {e : Entry}
    (he : e ∈ entries) : ∃ rec ∈ recs, AnswerOf rec e := by
  have hmem : e.net ∈ recs.map NetRec.net := h.nets_eq ▸ List.mem_map_of_mem he
  obtain ⟨rec, hrec, hnet⟩ := List.mem_map.mp hmem
  exact ⟨rec, hrec, hnet.symm⟩

theorem Answers.zip_fst {recs : List NetRec} {entries : List Entry} (h : Answers recs entries) :
    (recs.zip entries).map Prod.fst = recs :=
  List.map_fst_zip h.length_eq.le

theorem Answers.zip_snd {recs : List NetRec} {entries : List Entry} (h : Answers recs entries) :
    (recs.zip entries).map Prod.snd = entries :=
  List.map_snd_zip h.length_eq.ge

theorem Answers.of_mem_zip {recs : List NetRec} {entries : List Entry} (h : Answers recs entries)
    {p : NetRec × Entry} (hp : p ∈ recs.zip entries) : AnswerOf p.1 p.2 :=
  (List.forall₂_iff_zip.mp h).2 hp

/-- The sink holds answers of the first nets of the group. -/
def Publishes (recs : List NetRec) (sink : List Entry) : Prop := Answers (recs.take sink.length) sink

theorem Publishes.length_le {recs : List NetRec} {sink : List Entry} (h : Publishes recs sink) :
    sink.length ≤ recs.length := by
  have hlen := h.length_eq
  rw [List.length_take] at hlen
  omega

theorem Publishes.append {recs : List NetRec} {sink more : List Entry} (h : Publishes recs sink)
    (hmore : Answers (recs.drop sink.length) more) : Answers recs (sink ++ more) := by
  have hjoin : Answers (recs.take sink.length ++ recs.drop sink.length) (sink ++ more) :=
    List.rel_append h hmore
  rwa [List.take_append_drop] at hjoin

theorem Answers.publishes {recs : List NetRec} {entries : List Entry} (h : Answers recs entries) :
    Publishes recs entries := by
  rw [Publishes, ← h.length_eq, List.take_length]
  exact h

theorem Publishes.snoc {recs : List NetRec} {sink : List Entry} {rec : NetRec} {e : Entry} (h : Publishes recs sink)
    (hrec : recs[sink.length]? = some rec) (he : AnswerOf rec e) : Publishes recs (sink ++ [e]) := by
  rw [Publishes, List.length_append, List.length_singleton, List.take_add_one, hrec]
  exact List.rel_append (R := AnswerOf) h (.cons he .nil)

/-! ### Cutting a group short -/

/-- The answer of every net in its own place: those of the sink, and the reason for the rest. -/
def ownAnswers (recs : List NetRec) (sink : List Entry) (reasonForRest : NetRec → Entry) : List Entry :=
  sink ++ (recs.drop sink.length).map reasonForRest

section Cut

variable {recs : List NetRec} {sink : List Entry} {reasonForRest : NetRec → Entry}

theorem ownAnswers_answers (h : Publishes recs sink) (hreason : ∀ rec, AnswerOf rec (reasonForRest rec)) :
    Answers recs (ownAnswers recs sink reasonForRest) :=
  h.append (answers_map fun rec _ => hreason rec)

/-- An entry found under the name of a net is about that net if the names fix the roles. -/
theorem byKey_net (hroles : NamesFixRoles recs) (h : Publishes recs sink) {rec : NetRec} (hrec : rec ∈ recs)
    {e : Entry} (he : byKey Entry.name sink rec.name = some e) : e.net = rec.net := by
  obtain ⟨hmem, hname⟩ := byKey_some he
  obtain ⟨own, hown, hanswer⟩ := h.exists_rec hmem
  have hownName : own.name = rec.name := hanswer.name_eq.symm.trans hname
  have hrole := hroles own (List.mem_of_mem_take hown) rec hrec hownName
  rw [hanswer, NetRec.net, hownName, hrole, NetRec.net]

/-- A group that is cut short reports what `view` sees of each of its nets once, if `view` sees the same in every
entry that is found under the name of a net. -/
theorem cutShort_view {κ : Type} {view : Entry → κ} {ofRec : NetRec → κ} (h : Publishes recs sink)
    (hanswer : ∀ rec e, AnswerOf rec e → view e = ofRec rec)
    (hfound : ∀ rec ∈ recs, ∀ e, byKey Entry.name sink rec.name = some e → view e = ofRec rec)
    (hreason : ∀ rec, AnswerOf rec (reasonForRest rec)) :
    (((cutShort recs sink reasonForRest).1 ++ (cutShort recs sink reasonForRest).2).map view).Perm
      ((ownAnswers recs sink reasonForRest).map view) := by
  rw [(ownAnswers_answers h hreason).map_eq hanswer, cutShort, List.map_append]
  set done := byKey Entry.name sink
  have hrest : ((recs.filter fun rec => (done rec.name).isNone).map reasonForRest).map view =
      (recs.filter fun rec => (done rec.name).isNone).map ofRec := by
    rw [List.map_map]
    exact List.map_congr_left fun rec _ => hanswer rec _ (hreason rec)
  have hanswered : (recs.filterMap fun rec => done rec.name).map view =
      (recs.filter fun rec => (done rec.name).isSome).map ofRec := by
    rw [List.map_filterMap, ← List.filterMap_eq_map, List.filterMap_filter]
    apply List.filterMap_congr
    intro rec hrec
    cases hdone : done rec.name with
    | none => rfl
    | some e =>
      simp only [Option.map_some, Option.isSome_some, if_true, Function.comp_apply]
      rw [hfound rec hrec e hdone]
  rw [hrest, hanswered, ← List.map_append]
  apply List.Perm.map
  have hsplit := List.filter_append_perm (fun rec : NetRec => (done rec.name).isSome) recs
  simpa using hsplit

/-- With one net per name, what stands in the sink under the name of a net is its own answer. -/
theorem byKey_own {pre : List NetRec} (hnodup : (pre.map NetRec.name).Nodup) (h : Answers pre sink) :
    List.Forall₂ (fun rec e => byKey Entry.name sink rec.name = some e) pre sink := by
  rw [← h.names_eq] at hnodup
  refine List.forall₂_iff_zip.mpr ⟨h.length_eq, fun {rec e} hmem => ?_⟩
  have hname : e.name = rec.name := (h.of_mem_zip hmem).name_eq
  rw [← hname]
  refine byKey_of_unique (List.of_mem_zip hmem).2 fun y hy hsame => ?_
  exact List.inj_on_of_nodup_map hnodup hy (List.of_mem_zip hmem).2 hsame

theorem filterMap_of_forall₂ {α β : Type*} {f : α → Option β} {xs : List α} {ys : List β}
    (h : List.Forall₂ (fun x y => f x = some y) xs ys) : xs.filterMap f = ys := by
  induction h with
  | nil => rfl
  | cons hhead _ ih => rw [List.filterMap_cons_some hhead, ih]

/-- With one net per name, cutting short gives every net its own answer. -/
theorem cutShort_own (hnodup : (recs.map NetRec.name).Nodup) (h : Publishes recs sink) :
    (cutShort recs sink reasonForRest).1 ++ (cutShort recs sink reasonForRest).2 =
      ownAnswers recs sink reasonForRest := by
  set pre := recs.take sink.length with hpre
  set post := recs.drop sink.length with hpost
  have hrecs : recs = pre ++ post := (List.take_append_drop _ _).symm
  rw [hrecs, List.map_append, List.nodup_append] at hnodup
  obtain ⟨hnodupPre, -, hdisjoint⟩ := hnodup
  have hown := byKey_own hnodupPre h
  have hpostNone : ∀ rec ∈ post, byKey Entry.name sink rec.name = none := by
    intro rec hrec
    refine byKey_eq_none_iff.mpr fun e he hname => ?_
    have hmem : e.name ∈ pre.map NetRec.name := h.names_eq ▸ List.mem_map_of_mem he
    exact hdisjoint e.name hmem rec.name (List.mem_map_of_mem hrec) hname
  have hpreSome : ∀ rec ∈ pre, (byKey Entry.name sink rec.name).isNone = false := by
    intro rec hrec
    have hmem : rec.name ∈ sink.map Entry.name := h.names_eq ▸ List.mem_map_of_mem hrec
    obtain ⟨e, he, hname⟩ := List.mem_map.mp hmem
    cases hget : byKey Entry.name sink rec.name with
    | none => exact absurd hname (byKey_eq_none_iff.mp hget e he)
    | some _ => rfl
  have hanswered : (recs.filterMap fun rec => byKey Entry.name sink rec.name) = sink := by
    rw [hrecs, List.filterMap_append, filterMap_of_forall₂ hown,
      List.filterMap_eq_nil_iff.mpr hpostNone, List.append_nil]
  have hrest : (recs.filter fun rec => (byKey Entry.name sink rec.name).isNone) = post := by
    rw [hrecs, List.filter_append, List.filter_eq_nil_iff.mpr fun rec hrec => by simp [hpreSome rec hrec],
      List.nil_append, List.filter_eq_self.mpr fun rec hrec => by rw [hpostNone rec hrec, Option.isNone_none]]
  rw [cutShort, ownAnswers, hanswered, hrest]

end Cut

/-! ### Groups -/

section Plan

variable {env : Env} {nets : List NetRec}

theorem mem_groups {g : Group} (h : g ∈ groups env nets) : (g.key, g.recs) ∈ grouped groupKey nets := by
  obtain ⟨⟨key, recs⟩, hmem, hg⟩ := List.mem_filterMap.mp h
  simp only [Option.ite_none_right_eq_some, Option.some.injEq] at hg
  rw [← hg.2]
  exact hmem

theorem key_of_mem {g : Group} (h : g ∈ groups env nets) {rec : NetRec} (hrec : rec ∈ g.recs) :
    groupKey rec = g.key :=
  keyed_grouped groupKey nets (g.key, g.recs) (mem_groups h) rec hrec

theorem mem_nets_of_mem {g : Group} (h : g ∈ groups env nets) {rec : NetRec} (hrec : rec ∈ g.recs) : rec ∈ nets :=
  (grouped_perm groupKey nets).mem_iff.mp (List.mem_flatMap.mpr ⟨(g.key, g.recs), mem_groups h, hrec⟩)

theorem nodup_keys_groups : ((groups env nets).map Group.key).Nodup := by
  have hnodup := nodup_keys_grouped groupKey nets
  rw [List.Nodup, List.pairwise_map] at hnodup ⊢
  rw [groups, List.pairwise_filterMap]
  refine hnodup.imp fun {a b} hne g hg g' hg' => ?_
  simp only [Option.ite_none_right_eq_some, Option.some.injEq] at hg hg'
  rw [← hg.2, ← hg'.2]
  exact hne

theorem eq_of_key_eq {g g' : Group} (h : g ∈ groups env nets) (h' : g' ∈ groups env nets) (hkey : g.key = g'.key) :
    g = g' :=
  List.inj_on_of_nodup_map nodup_keys_groups h h' hkey

theorem atOnce_answers {key : GroupKey} {recs : List NetRec} {entries : List Entry}
    (h : atOnce env key recs = some entries) : Answers recs entries := by
  rw [atOnce] at h
  split_ifs at h
  · cases h
    exact answers_map fun _ _ => rfl
  · cases h
    exact answers_map fun _ _ => rfl
  · obtain ⟨item, -, hentries⟩ := Option.map_eq_some_iff.mp h
    cases hentries
    exact answers_map fun _ _ => rfl

theorem answeredAtOnce_answers {p : List NetRec × List Entry} (h : p ∈ answeredAtOnce env nets) :
    Answers p.1 p.2 := by
  obtain ⟨⟨key, recs⟩, -, hp⟩ := List.mem_filterMap.mp h
  obtain ⟨entries, hentries, hpair⟩ := Option.map_eq_some_iff.mp hp
  rw [← hpair]
  exact atOnce_answers hentries

/-- Every net is answered at once or belongs to a group. -/
theorem plan_perm :
    ((answeredAtOnce env nets).flatMap (·.1) ++ (groups env nets).flatMap Group.recs).Perm nets := by
  refine List.Perm.trans ?_ (grouped_perm groupKey nets)
  rw [answeredAtOnce, groups]
  induction grouped groupKey nets with
  | nil => exact .nil
  | cons group rest ih =>
    obtain ⟨key, recs⟩ := group
    cases hatOnce : atOnce env key recs with
    | none =>
      simp only [List.filterMap_cons, hatOnce, Option.map_none, Option.isNone_none, if_true, List.flatMap_cons]
      exact (List.perm_append_comm_assoc _ recs _).trans (ih.append_left recs)
    | some entries =>
      simp only [List.filterMap_cons, hatOnce, Option.map_some, Option.isNone_some, Bool.false_eq_true, if_false,
        List.flatMap_cons, List.append_assoc]
      exact ih.append_left recs

end Plan

/-! ### Workers -/

/-- The answers that a worker has ended with. -/
def Future.out : Future → Option (List Entry)
  | .returned out => some out
  | .published out => some out
  | .done (.ok out) => some out
  | _ => none

/-- What a worker publishes or returns are answers of its nets, in their order. -/
structure WorkOk (recs : List NetRec) (w : Work) : Prop where
  sink : Publishes recs w.sink
  out : ∀ out, w.future.out = some out → Answers recs out

section Worker

variable {g : Group} {w w' : Work} {deadline clock : Nat} {act : WorkerAct}

theorem workOk_idle {recs : List NetRec} : WorkOk recs .idle where
  sink := List.Forall₂.nil
  out := fun _ h => by cases h

theorem workOk_after {recs : List NetRec} {result : Except PyErr (List Entry)} (h : Publishes recs w.sink)
    (hresult : ∀ out, result = .ok out → Answers recs out) : WorkOk recs { w with future := .after result } := by
  refine ⟨h, fun out hout => ?_⟩
  cases result with
  | error e => cases hout
  | ok entries =>
    cases hout
    exact hresult out rfl

theorem workStep_ok (hkey : ∀ rec ∈ g.recs, groupKey rec = g.key) (h : WorkOk g.recs w)
    (hstep : workStep deadline clock g w act = some w') : WorkOk g.recs w' := by
  cases act with
  | start =>
    simp only [workStep] at hstep
    split at hstep <;> cases hstep
    exact ⟨h.sink, fun _ hout => by cases hout⟩
  | ask =>
    simp only [workStep] at hstep
    split at hstep
    · split at hstep
      · -- the loop is over: the sink holds an answer of every net
        rename_i hnone
        cases hstep
        refine ⟨h.sink, fun out hout => ?_⟩
        cases hout
        have hlen : w.sink.length = g.recs.length := by
          have hge := List.getElem?_eq_none_iff.mp hnone
          have hle := h.sink.length_le
          omega
        have hall := h.sink
        rwa [Publishes, hlen, List.take_length] at hall
      · rename_i rec hrec
        split_ifs at hstep
        · cases hstep
          refine ⟨h.sink.snoc hrec (timedOut_answer rec none), fun out hout => h.out out hout⟩
        · cases hstep
          exact ⟨h.sink, fun _ hout => by cases hout⟩
    · cases hstep
  | answer outcome =>
    simp only [workStep] at hstep
    split at hstep <;> cases hstep
    rename_i rec _ hrec
    exact ⟨h.sink.snoc hrec (probeNetState_answer rec outcome), fun _ hout => by cases hout⟩
  | labjack outcome =>
    simp only [workStep] at hstep
    split at hstep <;> cases hstep
    exact workOk_after h.sink fun out hout => labjackEntries_answers hout
  | batch outcome =>
    simp only [workStep] at hstep
    split at hstep <;> cases hstep
    rename_i role _ hpath
    exact workOk_after h.sink fun out hout => batchEntries_answers (role_of_path_batch hkey hpath) hout
  | publish =>
    simp only [workStep] at hstep
    split at hstep <;> cases hstep
    rename_i out hfuture
    have hout : Answers g.recs out := h.out out (by rw [hfuture]; rfl)
    have hall : Answers g.recs (w.sink ++ out.drop w.sink.length) :=
      h.sink.append (List.forall₂_drop _ hout)
    exact ⟨hall.publishes, fun out' hout' => by cases hout'; exact hout⟩
  | finish =>
    simp only [workStep] at hstep
    split at hstep <;> cases hstep
    rename_i out hfuture
    exact ⟨h.sink, fun out' hout' => by cases hout'; exact h.out out (by rw [hfuture]; rfl)⟩

theorem collected_answers {entries : List Entry} (h : WorkOk g.recs w) (hcollected : collected g w = some entries) :
    Answers g.recs entries := by
  rw [collected] at hcollected
  split at hcollected
  · rename_i out hfuture
    cases hcollected
    exact h.out entries (by rw [hfuture]; rfl)
  · cases hcollected
    exact answers_map fun rec _ => unknown_answer rec _
  · cases hcollected

/-- A group that is done stays as it is. -/
theorem workStep_collected (hdone : (collected g w).isSome) : workStep deadline clock g w act = none := by
  rw [collected] at hdone
  cases hfuture : w.future with
  | done result => cases act <;> simp [workStep, hfuture]
  | _ => simp [hfuture] at hdone

end Worker

/-! ### The main thread -/

/-- The groups the main thread is about to go through. -/
def Pc.todo : Pc → List Group
  | .collecting done => done
  | .expiring _ rest => rest
  | .cutting rest _ _ => rest
  | _ => []

/-- Those of them that `wait` gave back as done. -/
def Pc.collects : Pc → List Group
  | .collecting done => done
  | _ => []

/-- How long it sleeps. -/
def Pc.wake : Pc → Nat
  | .waiting wake => wake
  | _ => 0

/-- The bookkeeping of the main thread. -/
structure Inv (env : Env) (nets : List NetRec) (s : State) : Prop where
  work : ∀ g ∈ groups env nets, WorkOk g.recs (s.work g.key)
  pending : ∀ g ∈ s.pending, g ∈ groups env nets
  pending_nodup : s.pending.Nodup
  todo : ∀ g ∈ s.pc.todo, g ∈ s.pending
  todo_nodup : s.pc.todo.Nodup
  collects : ∀ g ∈ s.pc.collects, (collected g (s.work g.key)).isSome
  wake : s.pc.wake ≤ requestDeadline env

section Main

variable {env : Env} {nets : List NetRec} {s t : State} {order : List Group}

theorem wakeFor_le (wake : Nat) (g : Group) : wakeFor s wake g ≤ wake := by
  unfold wakeFor
  split
  · exact le_rfl
  · exact min_le_left _ _

theorem foldl_wakeFor_le (gs : List Group) (wake : Nat) : gs.foldl (wakeFor s) wake ≤ wake := by
  induction gs generalizing wake with
  | nil => exact le_rfl
  | cons g gs ih => exact (ih _).trans (wakeFor_le wake g)

theorem wakeTime_le : wakeTime env s ≤ requestDeadline env := by
  unfold wakeTime
  split_ifs
  · exact (min_le_left _ _).trans (foldl_wakeFor_le _ _)
  · exact foldl_wakeFor_le _ _

theorem inv_init : Inv env nets (init env nets) where
  work _ _ := workOk_idle
  pending _ h := h
  pending_nodup := nodup_keys_groups.of_map
  todo _ h := by cases h
  todo_nodup := List.nodup_nil
  collects _ h := by cases h
  wake := Nat.zero_le _

/-- A step after which the main thread has no groups in hand. -/
theorem Inv.rest (h : Inv env nets s) {pc : Pc} (htodo : pc.todo = []) (hcollects : pc.collects = [])
    (hwake : pc.wake ≤ requestDeadline env) {lines : List Line} :
    Inv env nets { s with pc := pc, lines := lines } where
  work := h.work
  pending := h.pending
  pending_nodup := h.pending_nodup
  todo g hg := by simp [htodo] at hg
  todo_nodup := by simp [htodo]
  collects g hg := by simp [hcollects] at hg
  wake := hwake

/-- The main thread takes up its pending groups in some order. -/
theorem Inv.take (h : Inv env nets s) {pc : Pc} (htodo : pc.todo.Perm s.pending) (hcollects : pc.collects = [])
    (hwake : pc.wake = 0) : Inv env nets { s with pc := pc } where
  work := h.work
  pending := h.pending
  pending_nodup := h.pending_nodup
  todo _ hg := htodo.mem_iff.mp hg
  todo_nodup := htodo.nodup_iff.mpr h.pending_nodup
  collects g hg := by simp [hcollects] at hg
  wake := by simp [hwake]

/-- The main thread is done with the first group it has in hand, which may have left the pending ones. -/
theorem Inv.next (h : Inv env nets s) {g : Group} {pc : Pc} (htodo : s.pc.todo = g :: pc.todo)
    (hcollects : ∀ g' ∈ pc.collects, g' ∈ s.pc.collects) (hwake : pc.wake = 0) {pending : List Group}
    (hpending : pending = s.pending ∨ pending = s.pending.erase g) {lines : List Line}
    {cooldown : GroupKey → Option CooldownItem} :
    Inv env nets { s with pc := pc, pending := pending, lines := lines, cooldown := cooldown } := by
  have hnodup := h.todo_nodup
  rw [htodo, List.nodup_cons] at hnodup
  have hmem : ∀ g' ∈ pc.todo, g' ∈ s.pending := fun g' hg' => h.todo g' (htodo ▸ List.mem_cons_of_mem g hg')
  have hsub : ∀ g' ∈ pending, g' ∈ s.pending := by
    obtain rfl | rfl := hpending
    · exact fun _ hg' => hg'
    · exact fun _ hg' => List.mem_of_mem_erase hg'
  refine ⟨h.work, fun g' hg' => h.pending g' (hsub g' hg'), ?_, ?_, hnodup.2,
    fun g' hg' => h.collects g' (hcollects g' hg'), by simp [hwake]⟩
  · obtain rfl | rfl := hpending
    · exact h.pending_nodup
    · exact h.pending_nodup.erase g
  · intro g' hg'
    obtain rfl | rfl := hpending
    · exact hmem g' hg'
    · refine (List.mem_erase_of_ne ?_).mpr (hmem g' hg')
      rintro rfl
      exact hnodup.1 hg'

theorem inv_mainStep (h : Inv env nets s) (hstep : mainStep env nets s order = some t) : Inv env nets t := by
  unfold mainStep at hstep
  split at hstep
  · cases hstep
    exact h.rest rfl rfl (Nat.zero_le _)
  · split_ifs at hstep with hpending hdeadline hperm
    · cases hstep
      exact h.rest rfl rfl (Nat.zero_le _)
    · cases hstep
      exact h.take hperm rfl rfl
    · cases hstep
      refine h.rest rfl rfl ?_
      exact wakeTime_le
  · split_ifs at hstep with hguard
    cases hstep
    obtain ⟨hnodup, hdone, -⟩ := hguard
    exact ⟨h.work, h.pending, h.pending_nodup, fun g hg => (hdone g hg).1, hnodup,
      fun g hg => (hdone g hg).2, Nat.zero_le _⟩
  · rename_i g rest hpc
    obtain ⟨entries, -, ht⟩ := Option.map_eq_some_iff.mp hstep
    cases ht
    refine h.next (g := g) (by rw [hpc]; rfl) (fun g' hg' => ?_) rfl (.inr rfl)
    rw [hpc]
    exact List.mem_cons_of_mem g hg'
  · split_ifs at hstep with hperm
    cases hstep
    exact h.take hperm rfl rfl
  · rename_i now g rest hpc
    split_ifs at hstep
    · cases hstep
      exact h.next (g := g) (by rw [hpc]; rfl) (fun _ hg' => by cases hg') rfl (.inr rfl)
    · cases hstep
      exact h.next (g := g) (by rw [hpc]; rfl) (fun _ hg' => by cases hg') rfl (.inl rfl)
  · cases hstep
    exact h.rest rfl rfl (Nat.zero_le _)
  · rename_i g rest answered cutOff hpc
    cases hstep
    exact h.next (g := g) (by rw [hpc]; rfl) (fun _ hg' => by cases hg') rfl (.inl rfl)
  · cases hstep
    exact h.rest rfl rfl (Nat.zero_le _)
  · cases hstep
    exact h.rest rfl rfl (Nat.zero_le _)
  · cases hstep
  · cases hstep

/-- What a step of a worker changes. -/
theorem worker_step {g : Group} {act : WorkerAct} (hstep : step env nets s (.worker g act) = some t) :
    g ∈ groups env nets ∧ ∃ w, workStep (requestDeadline env) s.clock g (s.work g.key) act = some w ∧
      t = { s with work := Function.update s.work g.key w } := by
  simp only [step] at hstep
  split_ifs at hstep with hguard
  obtain ⟨w, hw, ht⟩ := Option.map_eq_some_iff.mp hstep
  exact ⟨hguard.1, w, hw, ht.symm⟩

theorem inv_step {e : Event} (h : Inv env nets s) (hstep : step env nets s e = some t) : Inv env nets t := by
  cases e with
  | tick ms =>
    cases hstep
    exact ⟨h.work, h.pending, h.pending_nodup, h.todo, h.todo_nodup, h.collects, h.wake⟩
  | worker g act =>
    obtain ⟨hg, w, hw, rfl⟩ := worker_step hstep
    have hkeep : ∀ g' ∈ groups env nets, g' ≠ g → Function.update s.work g.key w g'.key = s.work g'.key :=
      fun g' hg' hne => Function.update_of_ne (fun hkey => hne (eq_of_key_eq hg' hg hkey)) _ _
    refine ⟨fun g' hg' => ?_, h.pending, h.pending_nodup, h.todo, h.todo_nodup, fun g' hg' => ?_, h.wake⟩
    · by_cases heq : g' = g
      · subst heq
        simp only [Function.update_self]
        exact workStep_ok (fun rec hrec => key_of_mem hg hrec) (h.work g' hg) hw
      · simp only [hkeep g' hg' heq]
        exact h.work g' hg'
    · by_cases heq : g' = g
      · -- a group that is done does not step
        subst heq
        rw [workStep_collected (h.collects g' hg')] at hw
        cases hw
      · have hmem : g' ∈ groups env nets := by
          refine h.pending g' (h.todo g' ?_)
          cases hpc : s.pc with
          | collecting done => simpa [hpc, Pc.collects, Pc.todo] using hg'
          | _ => simp [hpc, Pc.collects] at hg'
        simp only [hkeep g' hmem heq]
        exact h.collects g' hg'
  | main order => exact inv_mainStep h hstep
  | hangup =>
    simp only [step] at hstep
    split at hstep
    · cases hstep
    · cases hstep
      exact h.rest rfl rfl (Nat.zero_le _)

end Main

/-! ### The probe results of a run -/

section Results

variable (env : Env) (nets : List NetRec)

/-- The probe results that a step settles: every net of a group with the answer in its place. -/
def settled (s : State) : Event → List (NetRec × Entry)
  | .main _ =>
    match s.pc with
    | .start => (answeredAtOnce env nets).flatMap fun p => p.1.zip p.2
    | .collecting (g :: _) => g.recs.zip ((collected g (s.work g.key)).getD [])
    | .expiring now (g :: _) =>
      if expired env now g (s.work g.key) then
        g.recs.zip (ownAnswers g.recs (s.work g.key).sink fun rec => timedOut rec (some g.budget))
      else []
    | .cutting (g :: _) _ _ =>
      g.recs.zip (ownAnswers g.recs (s.work g.key).sink fun rec => unknown rec reasonDeadline)
    | _ => []
  | _ => []

/-- Every net with its own answer, in the order in which the run settles them. -/
def probeResults (es : List Event) : List (NetRec × Entry) :=
  gather (step env nets) (settled env nets) (init env nets) es

/-- The nets that are not settled yet. -/
def unsaid (s : State) : List NetRec :=
  match s.pc with
  | .start => (answeredAtOnce env nets).flatMap (·.1) ++ s.pending.flatMap Group.recs
  | .cutting rest _ _ => rest.flatMap Group.recs
  | .closing _ => []
  | .finished => []
  | _ => s.pending.flatMap Group.recs

end Results

/-- The entries the generator has in hand and will put on a line. -/
def Pc.held : Pc → List Entry
  | .cutting _ answered cutOff => answered ++ cutOff
  | .closing cutOff => cutOff
  | _ => []

/-- The entries on the lines so far, and those in hand. -/
def told (s : State) : List Entry := s.lines.flatMap Line.entries ++ s.pc.held

/-- What a step tells against what it settles: the same, or the two views of a group that is cut short. -/
inductive Joined (env : Env) (nets : List NetRec) : List Entry → List Entry → Prop where
  | same (entries : List Entry) : Joined env nets entries entries
  | cut {g : Group} {sink : List Entry} {reasonForRest : NetRec → Entry} (hg : g ∈ groups env nets)
      (hsink : Publishes g.recs sink) (hreason : ∀ rec, AnswerOf rec (reasonForRest rec)) :
      Joined env nets ((cutShort g.recs sink reasonForRest).1 ++ (cutShort g.recs sink reasonForRest).2)
        (ownAnswers g.recs sink reasonForRest)

/-- What one step does to the accounts. -/
structure Moves (env : Env) (nets : List NetRec) (s : State) (results : List (NetRec × Entry)) (t : State) : Prop where
  unsaid : (unsaid env nets s).Perm (results.map Prod.fst ++ unsaid env nets t)
  answers : ∀ p ∈ results, AnswerOf p.1 p.2
  told : ∃ entries, (told t).Perm (told s ++ entries) ∧ Joined env nets entries (results.map Prod.snd)

section Moves

variable {env : Env} {nets : List NetRec} {s t : State} {order : List Group}

theorem moves_quiet (hunsaid : (unsaid env nets s).Perm (unsaid env nets t)) (htold : (told t).Perm (told s)) :
    Moves env nets s [] t where
  unsaid := hunsaid
  answers _ h := by cases h
  told := ⟨[], by rwa [List.append_nil], .same []⟩

/-- A group is settled with one answer per net. -/
theorem moves_group {g : Group} {answers entries : List Entry} (hanswers : Answers g.recs answers)
    (hunsaid : (unsaid env nets s).Perm (g.recs ++ unsaid env nets t)) (htold : (told t).Perm (told s ++ entries))
    (hjoined : Joined env nets entries answers) : Moves env nets s (g.recs.zip answers) t where
  unsaid := by rwa [hanswers.zip_fst]
  answers _ hp := hanswers.of_mem_zip hp
  told := ⟨entries, htold, by rwa [hanswers.zip_snd]⟩

theorem entries_nonemptyLine (entries : List Entry) : (nonemptyLine entries).flatMap Line.entries = entries := by
  unfold nonemptyLine
  split_ifs with hempty
  · rw [hempty]
    rfl
  · exact List.append_nil _

variable (env nets) in
theorem zip_answeredAtOnce :
    ((answeredAtOnce env nets).flatMap fun p => p.1.zip p.2).map Prod.fst = (answeredAtOnce env nets).flatMap (·.1) ∧
    ((answeredAtOnce env nets).flatMap fun p => p.1.zip p.2).map Prod.snd = immediate env nets := by
  rw [immediate, List.map_flatMap, List.map_flatMap]
  constructor
  · exact List.flatMap_congr fun p hp => (answeredAtOnce_answers hp).zip_fst
  · exact List.flatMap_congr fun p hp => (answeredAtOnce_answers hp).zip_snd

theorem pending_perm (h : Inv env nets s) {g : Group} (hg : g ∈ s.pc.todo) :
    (s.pending.flatMap Group.recs).Perm (g.recs ++ (s.pending.erase g).flatMap Group.recs) :=
  (List.perm_cons_erase (h.todo g hg)).flatMap_right _

theorem told_append (lines : List Line) (more : List Line) (held entries : List Entry)
    (h : more.flatMap Line.entries = entries) :
    ((lines ++ more).flatMap Line.entries ++ held).Perm ((lines.flatMap Line.entries ++ held) ++ entries) := by
  rw [List.flatMap_append, h, List.append_assoc, List.append_assoc]
  exact List.perm_append_comm.append_left _

theorem moves_mainStep (h : Inv env nets s) (hstep : mainStep env nets s order = some t) :
    Moves env nets s (settled env nets s (.main order)) t := by
  unfold mainStep at hstep
  unfold settled
  split at hstep
  · -- the nets that are answered at once
    rename_i hpc
    cases hstep
    simp only [hpc]
    obtain ⟨hfst, hsnd⟩ := zip_answeredAtOnce env nets
    refine ⟨?_, ?_, immediate env nets, ?_, ?_⟩
    · rw [hfst]
      simp [unsaid, hpc]
    · intro p hp
      obtain ⟨q, hq, hmem⟩ := List.mem_flatMap.mp hp
      exact (answeredAtOnce_answers hq).of_mem_zip hmem
    · simp only [told, hpc]
      exact told_append _ _ [] _ (entries_nonemptyLine _)
    · rw [hsnd]
      exact .same _
  · rename_i hpc
    split_ifs at hstep with hpending hdeadline hperm
    · cases hstep
      simp only [hpc]
      exact moves_quiet (by simp [unsaid, hpc, hpending]) (by simp [told, hpc, Pc.held])
    · cases hstep
      simp only [hpc]
      refine moves_quiet ?_ (by simp [told, hpc, Pc.held])
      simp only [unsaid, hpc]
      exact (hperm.flatMap_right _).symm
    · cases hstep
      simp only [hpc]
      exact moves_quiet (by simp [unsaid, hpc]) (by simp [told, hpc, Pc.held])
  · rename_i hpc
    split_ifs at hstep
    cases hstep
    simp only [hpc]
    exact moves_quiet (by simp [unsaid, hpc]) (by simp [told, hpc, Pc.held])
  · -- a group that is done
    rename_i g rest hpc
    obtain ⟨entries, hentries, ht⟩ := Option.map_eq_some_iff.mp hstep
    cases ht
    have hg : g ∈ s.pc.todo := by rw [hpc]; exact List.mem_cons_self
    have hanswers := collected_answers (h.work g (h.pending g (h.todo g hg))) hentries
    simp only [hpc, hentries, Option.getD_some]
    refine moves_group hanswers ?_ ?_ (.same entries)
    · simpa only [unsaid, hpc] using pending_perm h hg
    · simp only [told, hpc]
      exact told_append _ _ [] _ (List.append_nil entries)
  · rename_i hpc
    split_ifs at hstep
    cases hstep
    simp only [hpc]
    exact moves_quiet (by simp [unsaid, hpc]) (by simp [told, hpc, Pc.held])
  · -- a group whose budget is over
    rename_i now g rest hpc
    have hg : g ∈ s.pc.todo := by rw [hpc]; exact List.mem_cons_self
    have hgroup := h.pending g (h.todo g hg)
    have hsink := (h.work g hgroup).sink
    split_ifs at hstep with hexpired
    · cases hstep
      simp only [hpc, hexpired, if_true]
      refine moves_group (ownAnswers_answers hsink fun rec => timedOut_answer rec _) ?_ ?_
        (.cut hgroup hsink fun rec => timedOut_answer rec _)
      · simpa only [unsaid, hpc] using pending_perm h hg
      · simp only [told, hpc]
        exact told_append _ _ [] _ (List.append_nil _)
    · cases hstep
      simp only [hpc, hexpired]
      exact moves_quiet (by simp [unsaid, hpc]) (by simp [told, hpc, Pc.held])
  · rename_i hpc
    cases hstep
    simp only [hpc]
    exact moves_quiet (by simp [unsaid, hpc]) (by simp [told, hpc, Pc.held])
  · -- a group that the deadline cuts off
    rename_i g rest answered cutOff hpc
    have hg : g ∈ s.pc.todo := by rw [hpc]; exact List.mem_cons_self
    have hgroup := h.pending g (h.todo g hg)
    have hsink := (h.work g hgroup).sink
    cases hstep
    simp only [hpc]
    refine moves_group (ownAnswers_answers hsink fun rec => unknown_answer rec _) ?_ ?_
      (.cut hgroup hsink fun rec => unknown_answer rec _)
    · simp only [unsaid, hpc, List.flatMap_cons]
      exact .rfl
    · simp only [told, hpc, Pc.held, List.append_assoc]
      refine List.Perm.append_left _ (List.Perm.append_left _ ?_)
      exact List.perm_append_comm_assoc _ _ _
  · rename_i answered cutOff hpc
    cases hstep
    simp only [hpc]
    refine moves_quiet (by simp [unsaid, hpc]) ?_
    simp only [told, hpc, Pc.held, List.flatMap_append, entries_nonemptyLine, List.append_assoc]
    exact .rfl
  · rename_i cutOff hpc
    cases hstep
    simp only [hpc]
    refine moves_quiet (by simp [unsaid, hpc]) ?_
    simp only [told, hpc, Pc.held, List.flatMap_append, List.append_nil]
    refine List.Perm.append_left _ ?_
    show (savedOrder nets cutOff ++ []).Perm cutOff
    rw [List.append_nil]
    exact List.perm_insertionSort _ _
  · cases hstep
  · cases hstep

/-- A step of the clock or of a worker does not touch the accounts. -/
theorem moves_step {e : Event} (h : Inv env nets s) (hstep : step env nets s e = some t) (hclosed : t.pc ≠ .closed) :
    Moves env nets s (settled env nets s e) t := by
  cases e with
  | tick ms =>
    cases hstep
    exact moves_quiet .rfl .rfl
  | worker g act =>
    obtain ⟨-, w, -, rfl⟩ := worker_step hstep
    exact moves_quiet .rfl .rfl
  | main order => exact moves_mainStep h hstep
  | hangup =>
    simp only [step] at hstep
    split at hstep
    · cases hstep
    · cases hstep
      exact absurd rfl hclosed

end Moves

/-! ### Whole runs -/

section Run

variable {env : Env} {nets : List NetRec} {κ : Type} {view : Entry → κ}

/-- What the entries on the lines say, as far as `view` sees it, is what the probe results say. -/
structure Accounts (env : Env) (nets : List NetRec) (view : Entry → κ) (results : List (NetRec × Entry)) (s : State) :
    Prop where
  nets : (results.map Prod.fst ++ unsaid env nets s).Perm nets
  answers : ∀ p ∈ results, AnswerOf p.1 p.2
  told : ((told s).map view).Perm ((results.map Prod.snd).map view)

/-- Joining by name does not change what `view` sees of a group. -/
def CutsRight (env : Env) (nets : List NetRec) (view : Entry → κ) : Prop :=
  ∀ entries answers, Joined env nets entries answers → (entries.map view).Perm (answers.map view)

theorem accounts_init : Accounts env nets view [] (init env nets) where
  nets := plan_perm
  answers _ h := by cases h
  told := .nil

theorem Accounts.step {results added : List (NetRec × Entry)} {s t : State} (h : Accounts env nets view results s)
    (hmoves : Moves env nets s added t) (hview : CutsRight env nets view) :
    Accounts env nets view (results ++ added) t := by
  obtain ⟨entries, htold, hjoined⟩ := hmoves.told
  refine ⟨?_, ?_, ?_⟩
  · rw [List.map_append, List.append_assoc]
    exact (hmoves.unsaid.symm.append_left _).trans h.nets
  · intro p hp
    obtain hp | hp := List.mem_append.mp hp
    · exact h.answers p hp
    · exact hmoves.answers p hp
  · have hmap := htold.map view
    rw [List.map_append] at hmap
    rw [List.map_append, List.map_append]
    exact hmap.trans (h.told.append (hview _ _ hjoined))

theorem closed_step {s t : State} {e : Event} (h : s.pc = .closed) (hstep : step env nets s e = some t) :
    t.pc = .closed := by
  cases e with
  | tick ms =>
    cases hstep
    exact h
  | worker g act =>
    obtain ⟨-, w, -, rfl⟩ := worker_step hstep
    exact h
  | main order =>
    simp only [step, mainStep, h] at hstep
    cases hstep
  | hangup =>
    simp only [step, h] at hstep
    cases hstep
    rfl

theorem run_inv {es : List Event} {s : State} (hrun : run (step env nets) (init env nets) es = some s) :
    Inv env nets s :=
  run_preserves (Inv env nets) (fun _ _ _ h hstep => inv_step h hstep) inv_init hrun

/-- The accounts of every run, under a view that joining by name does not change. -/
theorem run_accounts (hview : CutsRight env nets view) {es : List Event} {s : State}
    (hrun : run (step env nets) (init env nets) es = some s) (hclosed : s.pc ≠ .closed) :
    Accounts env nets view (probeResults env nets es) s := by
  unfold probeResults
  refine (run_gather (I := fun results s => Inv env nets s ∧ (s.pc ≠ .closed → Accounts env nets view results s))
    ?_ ⟨inv_init, fun _ => accounts_init⟩ hrun).2 hclosed
  intro results s e t ⟨hinv, hacc⟩ hstep
  refine ⟨inv_step hinv hstep, fun ht => ?_⟩
  exact (hacc fun hs => ht (closed_step hs hstep)).step (moves_step hinv hstep ht) hview

theorem cutsRight_net (hroles : ∀ g ∈ groups env nets, NamesFixRoles g.recs) : CutsRight env nets Entry.net := by
  rintro _ _ (_ | ⟨hg, hsink, hreason⟩)
  · exact .rfl
  · exact cutShort_view hsink (fun _ _ h => h) (fun rec hrec e he => byKey_net (hroles _ hg) hsink hrec he) hreason

/-- By name alone every net is told of once, whatever the table. -/
theorem cutsRight_name : CutsRight env nets Entry.name := by
  rintro _ _ (_ | ⟨hg, hsink, hreason⟩)
  · exact .rfl
  · exact cutShort_view hsink (fun _ _ h => h.name_eq) (fun rec _ e he => (byKey_some he).2) hreason

theorem cutsRight_own (hnames : ∀ g ∈ groups env nets, (g.recs.map NetRec.name).Nodup) :
    CutsRight env nets (id : Entry → Entry) := by
  rintro _ _ (_ | ⟨hg, hsink, hreason⟩)
  · exact .rfl
  · rw [cutShort_own (hnames _ hg) hsink]

/-- Only the last line is a `done` line, and only when the generator has finished. -/
structure Shape (s : State) : Prop where
  going : s.pc ≠ .finished → ∀ line ∈ s.lines, ∃ entries, line = .states entries
  finished : s.pc = .finished → ∃ front entries ms, s.lines = front ++ [.done entries ms] ∧
    ∀ line ∈ front, ∃ entries, line = .states entries

theorem shape_init : Shape (init env nets) where
  going _ _ h := by cases h
  finished h := by cases h

theorem shape_append {lines more : List Line} (h : ∀ line ∈ lines, ∃ entries, line = .states entries)
    (hmore : ∀ line ∈ more, ∃ entries, line = .states entries) :
    ∀ line ∈ lines ++ more, ∃ entries, line = .states entries := by
  intro line hline
  obtain hline | hline := List.mem_append.mp hline
  · exact h line hline
  · exact hmore line hline

theorem shape_nonemptyLine (entries : List Entry) :
    ∀ line ∈ nonemptyLine entries, ∃ entries', line = .states entries' := by
  intro line hline
  unfold nonemptyLine at hline
  split_ifs at hline
  · cases hline
  · exact ⟨entries, List.mem_singleton.mp hline⟩

/-- A step of the generator adds one `done` line, or at most `states` lines. -/
theorem mainStep_lines {s t : State} {order : List Group} (hstep : mainStep env nets s order = some t) :
    (∃ cutOff ms, s.pc = .closing cutOff ∧ t.pc = .finished ∧
        t.lines = s.lines ++ [.done (savedOrder nets cutOff) ms]) ∨
      (t.pc ≠ .finished ∧ s.pc ≠ .finished ∧ ∃ more, t.lines = s.lines ++ more ∧
        ∀ line ∈ more, ∃ entries, line = .states entries) := by
  have hone : ∀ entries, ∀ line ∈ [Line.states entries], ∃ entries', line = .states entries' :=
    fun entries line hline => ⟨entries, List.mem_singleton.mp hline⟩
  unfold mainStep at hstep
  split at hstep
  · cases hstep
    exact .inr ⟨by simp, by simp [*], _, rfl, shape_nonemptyLine _⟩
  · split_ifs at hstep <;> cases hstep <;>
      exact .inr ⟨by simp, by simp [*], [], (List.append_nil _).symm, by simp⟩
  · split_ifs at hstep
    cases hstep
    exact .inr ⟨by simp, by simp [*], [], (List.append_nil _).symm, by simp⟩
  · obtain ⟨entries, -, ht⟩ := Option.map_eq_some_iff.mp hstep
    cases ht
    exact .inr ⟨by simp, by simp [*], _, rfl, hone _⟩
  · split_ifs at hstep
    cases hstep
    exact .inr ⟨by simp, by simp [*], [], (List.append_nil _).symm, by simp⟩
  · split_ifs at hstep
    · cases hstep
      exact .inr ⟨by simp, by simp [*], _, rfl, hone _⟩
    · cases hstep
      exact .inr ⟨by simp, by simp [*], [], (List.append_nil _).symm, by simp⟩
  · cases hstep
    exact .inr ⟨by simp, by simp [*], [], (List.append_nil _).symm, by simp⟩
  · cases hstep
    exact .inr ⟨by simp, by simp [*], [], (List.append_nil _).symm, by simp⟩
  · cases hstep
    exact .inr ⟨by simp, by simp [*], _, rfl, shape_nonemptyLine _⟩
  · rename_i cutOff hpc
    cases hstep
    exact .inl ⟨cutOff, _, hpc, rfl, rfl⟩
  · cases hstep
  · cases hstep

theorem shape_step {s t : State} {e : Event} (h : Shape s) (hstep : step env nets s e = some t) : Shape t := by
  cases e with
  | tick ms =>
    cases hstep
    exact ⟨h.going, h.finished⟩
  | worker g act =>
    obtain ⟨-, w, -, rfl⟩ := worker_step hstep
    exact ⟨h.going, h.finished⟩
  | main order =>
    obtain ⟨cutOff, ms, hs, ht, hlines⟩ | ⟨ht, hs, more, hlines, hmore⟩ := mainStep_lines hstep
    · refine ⟨fun hne => absurd ht hne, fun _ => ⟨s.lines, _, ms, hlines, h.going ?_⟩⟩
      rw [hs]
      exact nofun
    · refine ⟨fun _ => ?_, fun heq => absurd heq ht⟩
      rw [hlines]
      exact shape_append (h.going hs) hmore
  | hangup =>
    simp only [step] at hstep
    split at hstep
    · cases hstep
    · rename_i hne
      cases hstep
      exact ⟨fun _ => h.going fun hs => hne hs, nofun⟩

/-- After the last line nothing is written. -/
theorem finished_step {s t : State} {e : Event} (h : s.pc = .finished) (hstep : step env nets s e = some t) :
    t.pc = .finished ∧ t.lines = s.lines := by
  cases e with
  | tick ms =>
    cases hstep
    exact ⟨h, rfl⟩
  | worker g act =>
    obtain ⟨-, w, -, rfl⟩ := worker_step hstep
    exact ⟨h, rfl⟩
  | main order =>
    simp only [step, mainStep, h] at hstep
    cases hstep
  | hangup =>
    simp only [step, h] at hstep
    cases hstep

end Run

/-! ### The end of a sweep -/

/-- How many steps the generator can still take once the deadline has passed. -/
def rank (s : State) : Nat :=
  match s.pc with
  | .start => 3 * s.pending.length + 8
  | .waiting _ => 3 * s.pending.length + 7
  | .collecting done => 2 * s.pending.length + done.length + 6
  | .expiring _ rest => s.pending.length + rest.length + 5
  | .top => s.pending.length + 4
  | .cutting rest _ _ => rest.length + 2
  | .closing _ => 1
  | .finished => 0
  | .closed => 0

section Progress

variable {env : Env} {nets : List NetRec} {s t : State} {order : List Group}

/-- Past the deadline no step of the generator waits for a worker: one is always possible. -/
theorem main_enabled (h : Inv env nets s) (hdeadline : requestDeadline env ≤ s.clock) (hfinished : s.pc ≠ .finished)
    (hclosed : s.pc ≠ .closed) : ∃ order, (mainStep env nets s order).isSome := by
  unfold mainStep
  cases hpc : s.pc with
  | start => exact ⟨[], rfl⟩
  | top =>
    refine ⟨s.pending, ?_⟩
    simp only
    split_ifs with hpending hperm
    · rfl
    · rfl
    · exact absurd .rfl hperm
  | waiting wake =>
    have hwake := h.wake
    rw [hpc] at hwake
    refine ⟨[], ?_⟩
    have : wake ≤ s.clock := hwake.trans hdeadline
    simp [this]
  | collecting done =>
    cases done with
    | nil =>
      refine ⟨s.pending, ?_⟩
      simp
    | cons g rest =>
      refine ⟨[], ?_⟩
      have hdone := h.collects g (by rw [hpc]; exact List.mem_cons_self)
      simpa using hdone
  | expiring now rest =>
    refine ⟨[], ?_⟩
    cases rest with
    | nil => rfl
    | cons g rest =>
      simp only
      split_ifs <;> rfl
  | cutting rest answered cutOff =>
    refine ⟨[], ?_⟩
    cases rest <;> rfl
  | closing cutOff => exact ⟨[], rfl⟩
  | finished => exact absurd hpc hfinished
  | closed => exact absurd hpc hclosed

theorem rank_lt (h : Inv env nets s) (hdeadline : requestDeadline env ≤ s.clock)
    (hstep : mainStep env nets s order = some t) : rank t < rank s := by
  have herase : ∀ g ∈ s.pc.todo, (s.pending.erase g).length + 1 = s.pending.length := by
    intro g hg
    have hmem := h.todo g hg
    rw [List.length_erase_of_mem hmem]
    have hpos := List.length_pos_of_mem hmem
    omega
  unfold mainStep at hstep
  split at hstep
  · cases hstep
    simp only [rank, *]
    omega
  · rename_i hpc
    split_ifs at hstep with hpending hperm
    · cases hstep
      simp only [rank, hpc]
      omega
    · cases hstep
      simp only [rank, hpc, hperm.length_eq]
      omega
  · rename_i wake hpc
    split_ifs at hstep with hguard
    cases hstep
    have hle : order.length ≤ s.pending.length :=
      (List.subperm_of_subset hguard.1 fun g hg => (hguard.2.1 g hg).1).length_le
    simp only [rank, hpc]
    omega
  · rename_i g rest hpc
    obtain ⟨entries, -, ht⟩ := Option.map_eq_some_iff.mp hstep
    cases ht
    have hlen := herase g (by rw [hpc]; exact List.mem_cons_self)
    simp only [rank, hpc, List.length_cons]
    omega
  · rename_i hpc
    split_ifs at hstep with hperm
    cases hstep
    simp only [rank, hpc, List.length_nil, hperm.length_eq]
    omega
  · rename_i now g rest hpc
    have hlen := herase g (by rw [hpc]; exact List.mem_cons_self)
    split_ifs at hstep
    · cases hstep
      simp only [rank, hpc, List.length_cons]
      omega
    · cases hstep
      simp only [rank, hpc, List.length_cons]
      omega
  · rename_i hpc
    cases hstep
    simp only [rank, hpc, List.length_nil]
    omega
  · rename_i g rest answered cutOff hpc
    cases hstep
    simp only [rank, hpc, List.length_cons]
    omega
  · rename_i hpc
    cases hstep
    simp only [rank, hpc, List.length_nil]
    omega
  · rename_i hpc
    cases hstep
    simp only [rank, hpc]
    omega
  · cases hstep
  · cases hstep

end Progress

/-! ### The stream and the array -/

section Forms

variable {env : Env} {nets : List NetRec} {s : State} {results : List (NetRec × Entry)}

/-- `states` lines and then one `done` line. -/
def DoneOnce (lines : List Line) : Prop :=
  ∃ front cutOff ms, lines = front ++ [.done cutOff ms] ∧ ∀ line ∈ front, ∃ entries, line = .states entries

/-- The lines have one entry for every saved net. -/
def EachOnce (nets : List NetRec) (lines : List Line) : Prop :=
  ((lines.flatMap Line.entries).map Entry.net).Perm (nets.map NetRec.net)

/-- Every place of the array holds the probe result of the net in that place. -/
def ArrayRight (nets : List NetRec) (results : List (NetRec × Entry)) (array : List Entry) : Prop :=
  List.Forall₂ (fun rec e => AnswerOf rec e ∧ (rec, e) ∈ results) nets array

theorem names_nodup_of_group (h : (nets.map NetRec.name).Nodup) {g : Group} (hg : g ∈ groups env nets) :
    (g.recs.map NetRec.name).Nodup := by
  have hall : ((grouped groupKey nets).flatMap fun group => group.2.map NetRec.name).Nodup := by
    rw [← List.map_flatMap]
    exact ((grouped_perm groupKey nets).map _).nodup_iff.mpr h
  exact (List.nodup_flatMap.mp hall).1 (g.key, g.recs) (mem_groups hg)

theorem told_finished (hpc : s.pc = .finished) : told s = s.lines.flatMap Line.entries := by
  rw [told, hpc]
  exact List.append_nil _

theorem results_nets {κ : Type} {view : Entry → κ} (h : Accounts env nets view results s) (hpc : s.pc = .finished) :
    (results.map Prod.fst).Perm nets := by
  have hnets := h.nets
  rwa [unsaid, hpc, List.append_nil] at hnets

/-- What is told of the nets by name and role, read from the probe results. -/
theorem results_view {κ : Type} {view : Entry → κ} {ofRec : NetRec → κ}
    (hanswer : ∀ rec e, AnswerOf rec e → view e = ofRec rec) (h : Accounts env nets view results s)
    (hpc : s.pc = .finished) : ((s.lines.flatMap Line.entries).map view).Perm (nets.map ofRec) := by
  have htold := h.told
  rw [told_finished hpc] at htold
  have hsame : (results.map Prod.snd).map view = (results.map Prod.fst).map ofRec := by
    rw [List.map_map, List.map_map]
    exact List.map_congr_left fun p hp => hanswer p.1 p.2 (h.answers p hp)
  rw [hsame] at htold
  exact htold.trans ((results_nets h hpc).map ofRec)

/-- With one net per name the array holds the probe result of every net. -/
theorem array_own (hnames : (nets.map NetRec.name).Nodup) (h : Accounts env nets (id : Entry → Entry) results s)
    (hpc : s.pc = .finished) : ArrayRight nets results (stateArray nets s.lines) := by
  have hnets := results_nets h hpc
  have htold := h.told
  rw [told_finished hpc, List.map_id, List.map_id] at htold
  have hnodup : (results.map fun p => p.1.name).Nodup := by
    have hperm := hnets.map NetRec.name
    rw [List.map_map] at hperm
    exact hperm.nodup_iff.mpr hnames
  rw [ArrayRight, stateArray, List.forall₂_map_right_iff, List.forall₂_same]
  intro rec hrec
  obtain ⟨⟨_, e⟩, hmem, rfl⟩ := List.mem_map.mp (hnets.mem_iff.mpr hrec)
  have hanswer := h.answers _ hmem
  have hfound : byKey Entry.name (s.lines.flatMap Line.entries) e.name = some e := by
    refine byKey_of_unique (htold.mem_iff.mpr (List.mem_map_of_mem hmem)) fun y hy hsame => ?_
    obtain ⟨⟨other, _⟩, hother, rfl⟩ := List.mem_map.mp (htold.mem_iff.mp hy)
    have hpair := List.inj_on_of_nodup_map hnodup hother hmem
      ((h.answers _ hother).name_eq.symm.trans (hsame.trans hanswer.name_eq))
    exact congrArg Prod.snd hpair
  rw [hanswer.name_eq] at hfound
  rw [hfound, Option.getD_some]
  exact ⟨hanswer, hmem⟩

/-- Every name of the table is found when the lines are joined by name. -/
theorem array_found (h : Accounts env nets Entry.name results s) (hpc : s.pc = .finished) {rec : NetRec}
    (hrec : rec ∈ nets) : ∃ e, byKey Entry.name (s.lines.flatMap Line.entries) rec.name = some e := by
  have hnames := results_view (fun _ _ hanswer => hanswer.name_eq) h hpc
  obtain ⟨e, he, hname⟩ := List.mem_map.mp (hnames.mem_iff.mpr (List.mem_map_of_mem hrec))
  cases hget : byKey Entry.name (s.lines.flatMap Line.entries) rec.name with
  | none => exact absurd hname (byKey_eq_none_iff.mp hget e he)
  | some e' => exact ⟨e', rfl⟩

/-- **Names and roles of the array.** They are those of the saved nets exactly when no name is saved under two
roles: nets of one name share one entry. -/
theorem array_nets_iff {es : List Event} (hrun : run (step env nets) (init env nets) es = some s)
    (hpc : s.pc = .finished) : Answers nets (stateArray nets s.lines) ↔ NamesFixRoles nets := by
  have hclosed : s.pc ≠ .closed := by rw [hpc]; exact nofun
  have hfound := fun {rec} (hrec : rec ∈ nets) => array_found (run_accounts cutsRight_name hrun hclosed) hpc hrec
  rw [Answers, stateArray, List.forall₂_map_right_iff, List.forall₂_same]
  constructor
  · intro h a ha b hb hname
    obtain ⟨e, he⟩ := hfound ha
    have hroleA := h a ha
    have hroleB := h b hb
    rw [he, Option.getD_some] at hroleA
    rw [← hname, he, Option.getD_some] at hroleB
    exact congrArg Prod.snd (hroleA.symm.trans hroleB)
  · intro hroles rec hrec
    have hgroups : ∀ g ∈ groups env nets, NamesFixRoles g.recs := fun g hg a ha b hb =>
      hroles a (mem_nets_of_mem hg ha) b (mem_nets_of_mem hg hb)
    have hnets := results_view (fun _ _ hanswer => hanswer) (run_accounts (cutsRight_net hgroups) hrun hclosed) hpc
    obtain ⟨e, he⟩ := hfound hrec
    obtain ⟨hmem, hname⟩ := byKey_some he
    obtain ⟨own, hown, hnet⟩ := List.mem_map.mp (hnets.mem_iff.mp (List.mem_map_of_mem hmem))
    have hownName : own.name = rec.name := (congrArg Prod.fst hnet).trans hname
    have hrole := hroles own hown rec hrec hownName
    rw [he, Option.getD_some, AnswerOf, ← hnet, NetRec.net, hownName, hrole]
    rfl

/-- **Each net exactly once.** In every run of a sweep that has finished, the lines are `states` lines and one `done`
line, and nothing is written after it; past the deadline the generator always has a step and takes at most
`rank` more. If no group that is probed has one name under two roles, every saved net is on exactly one line.
If no two nets share a name, every place of the array holds the name, the role and the probe result of the net in
that place; the names and roles alone are right exactly when no name is saved under two roles. -/
theorem sweep_reports_each_net (env : Env) (nets : List NetRec) (es : List Event) (s : State)
    (hrun : run (step env nets) (init env nets) es = some s) :
    (s.pc = .finished → DoneOnce s.lines ∧
      ∀ later t, run (step env nets) s later = some t → t.lines = s.lines) ∧
    (requestDeadline env ≤ s.clock → s.pc ≠ .finished → s.pc ≠ .closed →
      (∃ order, (mainStep env nets s order).isSome) ∧
        ∀ order t, mainStep env nets s order = some t → rank t < rank s) ∧
    (s.pc = .finished → (∀ g ∈ groups env nets, NamesFixRoles g.recs) → EachOnce nets s.lines) ∧
    (s.pc = .finished → (nets.map NetRec.name).Nodup →
      ((probeResults env nets es).map Prod.fst).Perm nets ∧
        ArrayRight nets (probeResults env nets es) (stateArray nets s.lines)) ∧
    (s.pc = .finished → (Answers nets (stateArray nets s.lines) ↔ NamesFixRoles nets)) := by
  have hinv := run_inv hrun
  have hshape : Shape s := run_preserves Shape (fun _ _ _ h hstep => shape_step h hstep) shape_init hrun
  have hopen : s.pc = .finished → s.pc ≠ .closed := fun hpc => by rw [hpc]; exact nofun
  refine ⟨fun hpc => ⟨hshape.finished hpc, fun later t hlater => ?_⟩, fun hdeadline hfinished hclosed => ?_,
    fun hpc hroles => ?_, fun hpc hnames => ?_, array_nets_iff hrun⟩
  · have hkept := run_preserves (fun t => t.pc = .finished ∧ t.lines = s.lines)
      (fun a e b ha hstep => by
        obtain ⟨hpcb, hlinesb⟩ := finished_step ha.1 hstep
        exact ⟨hpcb, hlinesb.trans ha.2⟩) ⟨hpc, rfl⟩ hlater
    exact hkept.2
  · exact ⟨main_enabled hinv hdeadline hfinished hclosed, fun order t hstep => rank_lt hinv hdeadline hstep⟩
  · exact results_view (fun _ _ hanswer => hanswer) (run_accounts (cutsRight_net hroles) hrun (hopen hpc)) hpc
  · have hacc := run_accounts (cutsRight_own fun g hg => names_nodup_of_group hnames hg) hrun (hopen hpc)
    exact ⟨results_nets hacc hpc, array_own hnames hacc hpc⟩

end Forms

/-! ### Two nets on one LabJack -/

/-- A bench where everything is connected and nothing cools down. -/
def quietEnv : Env where
  started := 0
  recAbsent := none
  addressOf rec := rec.address
  identityKeys _ := []
  cooldown _ := none
  lastOk _ := none
  snapshotAt := 0
  coolNow := 0

def labjackNet (name role : String) : NetRec := ⟨name, role, "LabJack_T7", "USB0::1", []⟩

def labjackGroup (nets : List NetRec) : Group := ⟨("_labjack_", "LabJack_T7", "USB0::1"), nets⟩

/-- The batch answers while the main thread, whose wait has timed out, goes on to the budgets. -/
def lateAnswer (nets : List NetRec) : List Event :=
  let g := labjackGroup nets
  [.worker g .start, .main [], .main [], .tick 3000, .main [],
    .worker g (.labjack (.answered (fun _ => .str "on") (fun _ => none) fun _ => none)), .worker g .publish,
    .main [g], .main [], .main [], .main [], .main []]

/-- Two nets of different names. -/
def twoNames : List NetRec := [labjackNet "x" "gpio", labjackNet "y" "adc"]

/-- One name under two roles. -/
def oneName : List NetRec := [labjackNet "x" "gpio", labjackNet "x" "adc"]

/-- The lines of the two runs, by name and role. -/
theorem lateAnswer_lines :
    ((run (step quietEnv twoNames) (init quietEnv twoNames) (lateAnswer twoNames)).map fun s =>
      (s.pc, (s.lines.flatMap Line.entries).map Entry.net)) = some (.finished, [("x", "gpio"), ("y", "adc")]) ∧
    ((run (step quietEnv oneName) (init quietEnv oneName) (lateAnswer oneName)).map fun s =>
      (s.pc, (s.lines.flatMap Line.entries).map Entry.net, (stateArray oneName s.lines).map Entry.net)) =
      some (.finished, [("x", "adc"), ("x", "adc")], [("x", "adc"), ("x", "adc")]) := by
  decide +kernel

/-- Both nets of the first table are told of, on lines and in the array. -/
theorem sweep_reports_twoNames :
    ∃ s, run (step quietEnv twoNames) (init quietEnv twoNames) (lateAnswer twoNames) = some s ∧
      DoneOnce s.lines ∧ EachOnce twoNames s.lines ∧
      ArrayRight twoNames (probeResults quietEnv twoNames (lateAnswer twoNames)) (stateArray twoNames s.lines) := by
  obtain ⟨s, hrun, hs⟩ := Option.map_eq_some_iff.mp lateAnswer_lines.1
  have hpc : s.pc = .finished := congrArg Prod.fst hs
  obtain ⟨hdone, -, honce, harray, -⟩ := sweep_reports_each_net quietEnv twoNames (lateAnswer twoNames) s hrun
  have hroles : ∀ g ∈ groups quietEnv twoNames, NamesFixRoles g.recs := by decide +kernel
  exact ⟨s, hrun, (hdone hpc).1, honce hpc hroles, (harray hpc (by decide)).2⟩

/-- Of a name under two roles the stream reports one net twice and the other never, and so does the array. -/
theorem oneName_reported_twice :
    ∃ s, run (step quietEnv oneName) (init quietEnv oneName) (lateAnswer oneName) = some s ∧ s.pc = .finished ∧
      ¬EachOnce oneName s.lines ∧ ¬Answers oneName (stateArray oneName s.lines) := by
  obtain ⟨s, hrun, hs⟩ := Option.map_eq_some_iff.mp lateAnswer_lines.2
  have hpc : s.pc = .finished := congrArg Prod.fst hs
  have hlines : (s.lines.flatMap Line.entries).map Entry.net = [("x", "adc"), ("x", "adc")] :=
    congrArg (fun p => p.2.1) hs
  have harray : (stateArray oneName s.lines).map Entry.net = [("x", "adc"), ("x", "adc")] :=
    congrArg (fun p => p.2.2) hs
  refine ⟨s, hrun, hpc, fun honce => ?_, fun hanswers => ?_⟩
  · rw [EachOnce, hlines] at honce
    exact absurd honce (by decide)
  · have hnets := hanswers.nets_eq
    rw [harray] at hnets
    exact absurd hnets (by decide)

end Lager.Nets.Sweep
