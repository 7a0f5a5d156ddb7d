import Mathlib.Data.List.Basic

/-!
# A broadcast channel of bounded depth

Everything that was sent, and a receiver that stands before the value it reads next. The channel holds the last
`depth` values: a receiver that has fallen further behind is told how many it missed, and goes on with the oldest
value that is still held.
-/

namespace Lager.Lib

variable {α : Type*}

inductive Received (α : Type*) where
  | value (a : α)
  | lagged (missed : Nat)

/-- What the receiver at `next` gets, and where it stands then; `none` while there is nothing to receive. -/
def recv (depth : Nat) (sent : List α) (next : Nat) : Option (Received α × Nat) :=
  if next + depth < sent.length then some (.lagged (sent.length - depth - next), sent.length - depth)
  else sent[next]?.map fun a => (.value a, next + 1)

/-- A value that is received is the next one of the channel. -/
theorem recv_value {depth next next' : Nat} {sent : List α} {a : α}
    (h : recv depth sent next = some (.value a, next')) : next' = next + 1 ∧ sent.drop next = a :: sent.drop next' := by
  unfold recv at h
  split at h
  · cases h
  · obtain ⟨b, hb, heq⟩ := Option.map_eq_some_iff.mp h
    cases heq
    obtain ⟨hlt, rfl⟩ := List.getElem?_eq_some_iff.mp hb
    exact ⟨rfl, List.drop_eq_getElem_cons hlt⟩

/-- A receiver that has lagged goes on further ahead, and not past the end. -/
theorem recv_lagged {depth next next' missed : Nat} {sent : List α}
    (h : recv depth sent next = some (.lagged missed, next')) :
    0 < missed ∧ next' = next + missed ∧ next' ≤ sent.length := by
  unfold recv at h
  split at h
  · cases h
    omega
  · obtain ⟨b, -, heq⟩ := Option.map_eq_some_iff.mp h
    cases heq

/-- What is still to come stays to come when more is sent. -/
theorem drop_of_le {next next' : Nat} {sent : List α} (h : next ≤ next') {a : α} (ha : a ∈ sent.drop next') :
    a ∈ sent.drop next := by
  obtain ⟨k, rfl⟩ := Nat.exists_eq_add_of_le h
  rw [← List.drop_drop] at ha
  exact List.mem_of_mem_drop ha

end Lager.Lib
