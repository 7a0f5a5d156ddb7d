import Mathlib.Computability.RegularExpressions

/-!
# Anchored patterns

Regular expressions over characters are Mathlib's. This adds the character classes and repetitions that
patterns are written with, and how `re.match` reads a pattern `^…$`: the whole text must match, or all of it
but one newline at the end, where `$` matches too.
-/

namespace Lager.Lib.Regex

open RegularExpression

/-- The characters from `a` to `b`. -/
def range (a b : Char) : List Char :=
  (List.range (b.toNat + 1 - a.toNat)).map fun i => Char.ofNat (a.toNat + i)

/-- `[…]`: one character of the class. -/
def oneOf (cs : List Char) : RegularExpression Char := cs.foldr (fun c r => char c + r) 0

/-- `(…)?`. -/
def opt (r : RegularExpression Char) : RegularExpression Char := 1 + r

/-- `(…)+`. -/
def some1 (r : RegularExpression Char) : RegularExpression Char := r * star r

/-- `re.match(r"^…$", text)` finds a match. -/
def matchLine (r : RegularExpression Char) (text : String) : Bool :=
  r.rmatch text.toList || text.toList.getLast? == some '\n' && r.rmatch text.toList.dropLast

/-- The characters that occur in an expression. -/
def alphabet : RegularExpression Char → List Char
  | .zero => []
  | .epsilon => []
  | .char c => [c]
  | .plus r s => alphabet r ++ alphabet s
  | .comp r s => alphabet r ++ alphabet s
  | .star r => alphabet r

/-- What matches is written in the alphabet of the expression. -/
theorem mem_alphabet {r : RegularExpression Char} {text : List Char} (h : r.rmatch text = true) {c : Char}
    (hc : c ∈ text) : c ∈ alphabet r := by
  induction r generalizing text with
  | zero =>
    rw [zero_def, zero_rmatch] at h
    cases h
  | epsilon =>
    rw [one_def, one_rmatch_iff] at h
    subst h
    cases hc
  | char a =>
    rw [char_rmatch_iff] at h
    subst h
    exact hc
  | plus r s ihr ihs =>
    rw [plus_def, add_rmatch_iff] at h
    rw [alphabet, List.mem_append]
    exact h.imp (fun hr => ihr hr hc) fun hs => ihs hs hc
  | comp r s ihr ihs =>
    obtain ⟨t, u, rfl, ht, hu⟩ := (mul_rmatch_iff r s text).mp h
    rw [alphabet, List.mem_append]
    exact (List.mem_append.mp hc).imp (fun hr => ihr ht hr) fun hs => ihs hu hs
  | star r ih =>
    obtain ⟨parts, rfl, hparts⟩ := (star_rmatch_iff r text).mp h
    obtain ⟨part, hpart, hcpart⟩ := List.mem_flatten.mp hc
    exact ih (hparts part hpart).2 hcpart

/-- What `re.match` accepts is written in the alphabet of the pattern and newlines. -/
theorem mem_of_matchLine {r : RegularExpression Char} {text : String} (h : matchLine r text = true) {c : Char}
    (hc : c ∈ text.toList) : c ∈ alphabet r ∨ c = '\n' := by
  simp only [matchLine, Bool.or_eq_true, Bool.and_eq_true, beq_iff_eq] at h
  rcases h with hall | ⟨hlast, hinit⟩
  · exact .inl (mem_alphabet hall hc)
  · rw [← List.dropLast_append_getLast? '\n' hlast, List.mem_append, List.mem_singleton] at hc
    exact hc.imp (mem_alphabet hinit) id

end Lager.Lib.Regex
