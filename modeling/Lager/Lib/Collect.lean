import Lager.Lib.Assoc
import Lager.Lib.Fold
import Mathlib.Data.List.Nodup

/-!
# Dict comprehensions

`{k: f(k, x) for k, x in d.items()}` whose values may raise: `collect`. The keys of the result are those of the
items, each once, and the error is that of the first item that raises one.
-/

namespace Lager.Lib

/-- The first item that is not fine is bad. -/
def FirstAt {α : Type} (fine bad : α → Prop) (l : List α) : Prop :=
  ∃ before x after, l = before ++ x :: after ∧ (∀ y ∈ before, fine y) ∧ bad x

theorem firstAt_congr {α : Type} {fine bad bad' : α → Prop} (h : ∀ x, bad x ↔ bad' x) (l : List α) :
    FirstAt fine bad l ↔ FirstAt fine bad' l := by
  unfold FirstAt
  simp only [h]

/-- A loop whose body raises whatever the state is: its error is that of the first item with one. -/
theorem foldlM_error_iff {ε σ α β : Type} {g : α → Except ε β} {put : σ → α → β → σ} {e : ε} {xs : List α} {s : σ} :
    xs.foldlM (fun s x => g x >>= fun b => .ok (put s x b)) s = .error e ↔
      FirstAt (fun x => ∃ b, g x = .ok b) (fun x => g x = .error e) xs := by
  induction xs generalizing s with
  | nil =>
    constructor
    · intro h
      cases h
    · rintro ⟨before, x, after, hxs, -⟩
      exact absurd hxs (by simp)
  | cons x xs ih =>
    rw [List.foldlM_cons]
    cases hx : g x with
    | error e' =>
      constructor
      · intro h
        obtain rfl := Except.error.inj h
        exact ⟨[], x, xs, rfl, fun _ hy => absurd hy List.not_mem_nil, hx⟩
      · rintro ⟨before, y, after, hxs, hfine, hbad⟩
        cases before with
        | nil =>
          obtain ⟨rfl, -⟩ := List.cons.inj hxs
          rw [hx] at hbad
          rw [Except.error.inj hbad]
          rfl
        | cons z before =>
          obtain ⟨rfl, -⟩ := List.cons.inj hxs
          obtain ⟨b, hb⟩ := hfine x List.mem_cons_self
          rw [hx] at hb
          cases hb
    | ok b =>
      rw [ok_bind, ok_bind, ih]
      constructor
      · rintro ⟨before, y, after, rfl, hfine, hbad⟩
        refine ⟨x :: before, y, after, rfl, ?_, hbad⟩
        rw [List.forall_mem_cons]
        exact ⟨⟨b, hx⟩, hfine⟩
      · rintro ⟨before, y, after, hxs, hfine, hbad⟩
        cases before with
        | nil =>
          obtain ⟨rfl, -⟩ := List.cons.inj hxs
          rw [hx] at hbad
          cases hbad
        | cons z before =>
          obtain ⟨rfl, rfl⟩ := List.cons.inj hxs
          exact ⟨before, y, after, rfl, fun w hw => hfine w (List.mem_cons_of_mem _ hw), hbad⟩

variable {ε κ α β : Type} [BEq κ] [LawfulBEq κ]

theorem keys_assign (k : κ) (b : β) (l : List (κ × β)) :
    (assign k b l).map Prod.fst = l.map Prod.fst ∧ k ∈ l.map Prod.fst ∨
      (assign k b l).map Prod.fst = l.map Prod.fst ++ [k] ∧ k ∉ l.map Prod.fst := by
  by_cases h : k ∈ l.map Prod.fst
  · refine Or.inl ⟨?_, h⟩
    induction l with
    | nil => exact absurd h List.not_mem_nil
    | cons entry l ih =>
      rw [assign]
      by_cases heq : (entry.1 == k) = true
      · rw [if_pos heq, List.map_cons, List.map_cons, eq_of_beq heq]
      · rw [List.map_cons, List.mem_cons] at h
        rcases h with rfl | h
        · exact absurd BEq.rfl heq
        · rw [if_neg heq, List.map_cons, ih h, List.map_cons]
  · rw [assign_of_not_mem b h, List.map_append]
    exact Or.inr ⟨rfl, h⟩

/-- The comprehension. -/
def collect (f : κ → α → Except ε β) (d : List (κ × α)) : Except ε (List (κ × β)) :=
  d.foldlM (fun done entry => f entry.1 entry.2 >>= fun b => .ok (assign entry.1 b done)) []

omit [LawfulBEq κ] in
theorem collect_error_iff {f : κ → α → Except ε β} {d : List (κ × α)} {e : ε} :
    collect f d = .error e ↔
      FirstAt (fun entry => ∃ b, f entry.1 entry.2 = .ok b) (fun entry => f entry.1 entry.2 = .error e) d :=
  foldlM_error_iff

/-- What a comprehension makes. -/
structure Collected (f : κ → α → Except ε β) (d : List (κ × α)) (l : List (κ × β)) : Prop where
  nodup : (l.map Prod.fst).Nodup
  made : ∀ entry ∈ l, ∃ x, (entry.1, x) ∈ d ∧ f entry.1 x = .ok entry.2
  keys : ∀ k, k ∈ l.map Prod.fst ↔ k ∈ d.map Prod.fst

theorem collect_ok {f : κ → α → Except ε β} {d : List (κ × α)} {l : List (κ × β)} (h : collect f d = .ok l) :
    Collected f d l := by
  refine foldlM_history (Collected f) (fun done before entry after hdone hstep => ?_) ?_ h
  · obtain ⟨b, hb, hafter⟩ := bind_eq_ok hstep
    obtain rfl := Except.ok.inj hafter
    refine ⟨?_, fun other hother => ?_, fun k => ?_⟩
    · rcases keys_assign entry.1 b before with ⟨hkeys, -⟩ | ⟨hkeys, hnew⟩
      · rw [hkeys]
        exact hdone.nodup
      · rw [hkeys]
        exact hdone.nodup.append (List.nodup_singleton _) (by simpa using hnew)
    · rcases mem_assign hother with rfl | hother
      · exact ⟨entry.2, List.mem_append_right _ List.mem_cons_self, hb⟩
      · obtain ⟨x, hx, hfx⟩ := hdone.made other hother
        exact ⟨x, List.mem_append_left _ hx, hfx⟩
    · rw [List.map_append, List.mem_append, ← hdone.keys k]
      rcases keys_assign entry.1 b before with ⟨hkeys, hold⟩ | ⟨hkeys, -⟩
      · rw [hkeys]
        refine ⟨Or.inl, ?_⟩
        rintro (hk | hk)
        · exact hk
        · rwa [List.mem_singleton.mp hk]
      · rw [hkeys, List.mem_append]
        rfl
  · exact ⟨List.nodup_nil, fun _ h => absurd h List.not_mem_nil, fun _ => Iff.rfl⟩

/-- A comprehension over items with different keys, each of which has its value. -/
theorem collect_again {f : κ → α → Except ε β} {g : β → α} {l : List (κ × β)} (hnodup : (l.map Prod.fst).Nodup)
    (h : ∀ entry ∈ l, f entry.1 (g entry.2) = .ok entry.2) :
    collect f (l.map fun entry => (entry.1, g entry.2)) = .ok l := by
  suffices hrun : ∀ done : List (κ × β), ((done ++ l).map Prod.fst).Nodup →
      (l.map fun entry => (entry.1, g entry.2)).foldlM
        (fun done entry => f entry.1 entry.2 >>= fun b => .ok (assign entry.1 b done)) done = .ok (done ++ l) from
    hrun [] hnodup
  clear hnodup
  induction l with
  | nil =>
    intro done _
    rw [List.append_nil]
    rfl
  | cons entry l ih =>
    intro done hnodup
    have hnew : entry.1 ∉ done.map Prod.fst := by
      intro hmem
      rw [List.map_append, List.map_cons] at hnodup
      exact (List.nodup_append.mp hnodup).2.2 _ hmem _ List.mem_cons_self rfl
    rw [List.map_cons, List.foldlM_cons, h entry List.mem_cons_self, ok_bind, ok_bind, assign_of_not_mem _ hnew,
      ih (fun other hother => h other (List.mem_cons_of_mem entry hother))]
    · rw [List.append_assoc, List.singleton_append]
    · rw [List.append_assoc, List.singleton_append]
      exact hnodup

end Lager.Lib
