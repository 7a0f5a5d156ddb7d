import Mathlib.Data.List.Basic

/-!
# Quoted words

`shlex.quote` writes a text as one word of a shell, and this reads such words back: `words` is the part of bash
that reads the elements of an array or the value of an assignment, and `source` reads a file of comments and
assignments. What bash would give a further meaning (an expansion, an operator, a second command) is refused. When
bash sources a file it drops the null characters.

`words_items` is the round trip: quoted texts joined by blanks are read as these texts, up to null characters.
-/

namespace Lager.Lib.Shell

abbrev Word := List Char

def nul : Char := '\x00'

/-! ### Writing -/

/-- The characters `shlex.quote` finds safe: letters, digits and ten others. -/
def isPlain (c : Char) : Bool := c.isAlphanum || c ∈ ['_', '@', '%', '+', '=', ':', ',', '.', '/', '-']

/-- A single quote inside single quotes: they are closed, it stands in double quotes, they are opened again. -/
def escape (c : Char) : List Char := if c = '\'' then ['\'', '"', '\'', '"', '\''] else [c]

/-- `shlex.quote` -/
def quote (s : Word) : List Char :=
  if s = [] then ['\'', '\''] else if s.all isPlain then s else '\'' :: (s.flatMap escape ++ ['\''])

/-! ### Reading -/

inductive Mode
  | bare
  | single
  | double

/-- The word so far with one more character; `none` between two words. -/
def put (word : Option Word) (c : Char) : Option Word := some (word.getD [] ++ [c])

/-- The words up to an unquoted `stop`, and what follows it. -/
def words (stop : Char) : Mode → Option Word → List Char → Option (List Word × List Char)
  | _, _, [] => none
  | mode, word, c :: rest =>
    if c = nul then words stop mode word rest
    else
      match mode with
      | .bare =>
        if c = stop then some (word.toList, rest)
        else if c ∈ [' ', '\t', '\n'] then (words stop .bare none rest).map fun r => (word.toList ++ r.1, r.2)
        else if c = '\'' then words stop .single (some (word.getD [])) rest
        else if c = '"' then words stop .double (some (word.getD [])) rest
        else if isPlain c then words stop .bare (put word c) rest
        else none
      | .single => if c = '\'' then words stop .bare word rest else words stop .single (put word c) rest
      | .double =>
        if c = '"' then words stop .bare word rest
        else if c ∈ ['$', '\x60', '\\', '!'] then none
        else words stop .double (put word c) rest

-- the equations of the reader, for all the lemmas below
section
attribute [local simp] words
end

def isNameChar (c : Char) : Bool := c.isAlphanum || c = '_'

/-- One statement: an array or a single word is assigned, and the line ends. -/
def assignment (text : List Char) : Option ((Word × List Word) × List Char) :=
  let name := text.takeWhile isNameChar
  match text.drop name.length with
  | '=' :: '(' :: rest =>
    match words ')' .bare none rest with
    | some (ws, '\n' :: rest) => some ((name, ws), rest)
    | _ => none
  | '=' :: rest =>
    match words '\n' .bare none rest with
    | some ([w], rest) => some ((name, [w]), rest)
    | _ => none
  | _ => none

/-- The variables a file assigns, in order. -/
def source : Nat → List Char → Option (List (Word × List Word))
  | _, [] => some []
  | 0, _ :: _ => none
  | n + 1, c :: text =>
    if c = '#' then source n ((text.dropWhile (· ≠ '\n')).drop 1)
    else (assignment (c :: text)).bind fun r => (source n r.2).map (r.1 :: ·)

/-! ### One word -/

def dropNul (s : Word) : Word := s.filter (· ≠ nul)

/-- A character that ends a list of words, and is none of the characters a word is written with. -/
structure Ends (stop : Char) : Prop where
  not_nul : stop ≠ nul
  not_plain : isPlain stop = false
  not_single : stop ≠ '\''
  not_double : stop ≠ '"'

theorem ends_paren : Ends ')' := ⟨by decide, by decide, by decide, by decide⟩

theorem ends_newline : Ends '\n' := ⟨by decide, by decide, by decide, by decide⟩

theorem plain_facts {c : Char} (h : isPlain c = true) :
    c ≠ nul ∧ c ∉ [' ', '\t', '\n'] ∧ c ≠ '\'' ∧ c ≠ '"' := by
  refine ⟨?_, ?_, ?_, ?_⟩
  · rintro rfl
    exact absurd h (by decide)
  · intro hc
    simp only [List.mem_cons, List.not_mem_nil, or_false] at hc
    rcases hc with rfl | rfl | rfl <;> exact absurd h (by decide)
  · rintro rfl
    exact absurd h (by decide)
  · rintro rfl
    exact absurd h (by decide)

theorem dropNul_plain {s : Word} (h : ∀ c ∈ s, isPlain c = true) : dropNul s = s := by
  rw [dropNul, List.filter_eq_self]
  intro c hc
  simpa using (plain_facts (h c hc)).1

section Reading

variable {stop : Char} (hstop : Ends stop)
include hstop

theorem words_plain_cons {c : Char} (h : isPlain c = true) (word : Option Word) (rest : List Char) :
    words stop .bare word (c :: rest) = words stop .bare (put word c) rest := by
  obtain ⟨hnul, hblank, hsingle, hdouble⟩ := plain_facts h
  have hne : c ≠ stop := fun he => by rw [he, hstop.not_plain] at h; cases h
  rw [words, if_neg hnul]
  simp only [if_neg hne, if_neg hblank, if_neg hsingle, if_neg hdouble, if_pos h]

theorem words_single (word : Option Word) (rest : List Char) :
    words stop .bare word ('\'' :: rest) = words stop .single (some (word.getD [])) rest := by
  rw [words, if_neg (by decide)]
  simp only [if_neg (Ne.symm hstop.not_single)]
  rfl

theorem words_double (word : Option Word) (rest : List Char) :
    words stop .bare word ('"' :: rest) = words stop .double (some (word.getD [])) rest := by
  rw [words, if_neg (by decide)]
  simp only [if_neg (Ne.symm hstop.not_double)]
  rfl

theorem words_plain {s : Word} (h : ∀ c ∈ s, isPlain c = true) (w : Word) (rest : List Char) :
    words stop .bare (some w) (s ++ rest) = words stop .bare (some (w ++ s)) rest := by
  induction s generalizing w with
  | nil => rw [List.nil_append, List.append_nil]
  | cons c s ih =>
    rw [List.cons_append, words_plain_cons hstop (h c List.mem_cons_self)]
    show words stop .bare (some (w ++ [c])) (s ++ rest) = _
    rw [ih fun d hd => h d (List.mem_cons_of_mem c hd), List.append_assoc, List.singleton_append]

/-- Inside single quotes, up to the closing one. -/
theorem words_escaped (s w : Word) (rest : List Char) :
    words stop .single (some w) (s.flatMap escape ++ '\'' :: rest) =
      words stop .bare (some (w ++ dropNul s)) rest := by
  induction s generalizing w with
  | nil =>
    rw [List.flatMap_nil, List.nil_append, words, if_neg (by decide), dropNul, List.filter_nil, List.append_nil]
    rfl
  | cons c s ih =>
    rw [List.flatMap_cons, List.append_assoc]
    by_cases hquote : c = '\''
    · subst hquote
      have hclose : ∀ text : List Char,
          words stop .single (some w) ('\'' :: text) = words stop .bare (some w) text := fun _ => rfl
      have hinside : ∀ text : List Char,
          words stop .double (some w) ('\'' :: '"' :: text) = words stop .bare (some (w ++ ['\''])) text :=
        fun _ => rfl
      have hkept : dropNul ('\'' :: s) = '\'' :: dropNul s := rfl
      show words stop .single (some w)
        ('\'' :: '"' :: '\'' :: '"' :: '\'' :: (s.flatMap escape ++ '\'' :: rest)) = _
      rw [hclose, words_double hstop, Option.getD_some, hinside, words_single hstop, Option.getD_some, ih, hkept,
        List.append_assoc, List.singleton_append]
    · rw [escape, if_neg hquote, List.singleton_append]
      by_cases hnul : c = nul
      · have hdropped : dropNul (c :: s) = dropNul s := by
          rw [dropNul, List.filter_cons_of_neg (by simpa using hnul), dropNul]
        rw [words, if_pos hnul, ih, hdropped]
      · have hkept : dropNul (c :: s) = c :: dropNul s := by
          rw [dropNul, List.filter_cons_of_pos (by simpa using hnul), dropNul]
        rw [words, if_neg hnul]
        simp only [if_neg hquote]
        show words stop .single (some (w ++ [c])) (s.flatMap escape ++ '\'' :: rest) = _
        rw [ih, hkept, List.append_assoc, List.singleton_append]

/-- A quoted text is read as one word. -/
theorem words_quote (s : Word) (rest : List Char) :
    words stop .bare none (quote s ++ rest) = words stop .bare (some (dropNul s)) rest := by
  rw [quote]
  by_cases hnil : s = []
  · rw [if_pos hnil, hnil]
    show words stop .bare none ('\'' :: '\'' :: rest) = _
    rw [words_single hstop]
    rfl
  · rw [if_neg hnil]
    by_cases hplain : s.all isPlain = true
    · have hall : ∀ c ∈ s, isPlain c = true := List.all_eq_true.mp hplain
      rw [if_pos hplain, dropNul_plain hall]
      obtain ⟨c, s, rfl⟩ := List.exists_cons_of_ne_nil hnil
      rw [List.cons_append, words_plain_cons hstop (hall c List.mem_cons_self)]
      exact words_plain hstop (fun d hd => hall d (List.mem_cons_of_mem c hd)) [c] rest
    · rw [if_neg hplain, List.cons_append, words_single hstop, List.append_assoc]
      exact words_escaped hstop s [] rest

end Reading

/-! ### Arrays and files -/

/-- The elements of an array. -/
def joined (items : List Word) : List Char := [' '].intercalate (items.map quote)

/-- **Round trip.** Quoted texts joined by blanks are read as these texts. -/
theorem words_items (items : List Word) (rest : List Char) :
    words ')' .bare none (joined items ++ ')' :: rest) = some (items.map dropNul, rest) := by
  have hend : ∀ w : Word, words ')' .bare (some w) (')' :: rest) = some ([w], rest) := fun _ => rfl
  induction items with
  | nil => rfl
  | cons s items ih =>
    cases items with
    | nil =>
      show words ')' .bare none (quote s ++ [] ++ ')' :: rest) = _
      rw [List.append_nil, words_quote ends_paren, hend]
      rfl
    | cons t items =>
      have hblank : ∀ (w : Word) (text : List Char), words ')' .bare (some w) (' ' :: text) =
          (words ')' .bare none text).map fun r => (w :: r.1, r.2) := fun _ _ => rfl
      show words ')' .bare none (quote s ++ ([' '] ++ joined (t :: items)) ++ ')' :: rest) = _
      rw [List.append_assoc, words_quote ends_paren, List.append_assoc, List.singleton_append, hblank, ih]
      rfl

/-- A line of a comment is read over. -/
theorem source_comment (n : Nat) {line : List Char} (h : ∀ c ∈ line, c ≠ '\n') (rest : List Char) :
    source (n + 1) ('#' :: (line ++ '\n' :: rest)) = source n rest := by
  have hline : (line ++ '\n' :: rest).dropWhile (· ≠ '\n') = '\n' :: rest := by
    rw [List.dropWhile_append_of_pos fun c hc => by simpa using h c hc]
    rfl
  rw [source, if_pos rfl, hline]
  rfl

theorem takeWhile_name {name : Word} (hname : ∀ c ∈ name, isNameChar c = true) (rest : List Char) :
    (name ++ '=' :: rest).takeWhile isNameChar = name := by
  rw [List.takeWhile_append_of_pos hname]
  show name ++ [] = name
  rw [List.append_nil]

theorem assignment_array {name : Word} (hname : ∀ c ∈ name, isNameChar c = true) (items : List Word)
    (rest : List Char) : assignment (name ++ '=' :: '(' :: (joined items ++ ')' :: '\n' :: rest)) =
      some ((name, items.map dropNul), rest) := by
  rw [assignment, takeWhile_name hname, List.drop_left]
  simp only [words_items]

/-- A quoted text does not look like an array. -/
theorem quote_ne_paren (s : Word) (rest x : List Char) : quote s ++ rest ≠ '(' :: x := by
  intro h
  rw [quote] at h
  split_ifs at h with hnil hplain
  · cases h
  · obtain ⟨c, s, rfl⟩ := List.exists_cons_of_ne_nil hnil
    cases h
    exact absurd (List.all_eq_true.mp hplain '(' List.mem_cons_self) (by decide)
  · cases h

theorem assignment_scalar {name : Word} (hname : ∀ c ∈ name, isNameChar c = true) (s : Word)
    (rest : List Char) :
    assignment (name ++ '=' :: (quote s ++ '\n' :: rest)) = some ((name, [dropNul s]), rest) := by
  have hread : words '\n' .bare none (quote s ++ '\n' :: rest) = some ([dropNul s], rest) := by
    rw [words_quote ends_newline]
    rfl
  have hparen : ∀ x, quote s ++ '\n' :: rest ≠ '(' :: x := quote_ne_paren s _
  rw [assignment, takeWhile_name hname, List.drop_left]
  generalize quote s ++ '\n' :: rest = text at hread hparen
  split
  · rename_i heq
    cases heq
    exact absurd rfl (hparen _)
  · rename_i heq
    cases heq
    rw [hread]
  · rename_i hscalar
    exact absurd rfl (hscalar text)

/-- A file goes on after an assignment. -/
theorem source_assignment (n : Nat) {text rest : List Char} {r : Word × List Word}
    (h : assignment text = some (r, rest)) (hcomment : text.head? ≠ some '#') (hne : text ≠ []) :
    source (n + 1) text = (source n rest).map (r :: ·) := by
  obtain ⟨c, text, rfl⟩ := List.exists_cons_of_ne_nil hne
  have hc : c ≠ '#' := fun he => hcomment (by rw [he]; rfl)
  rw [source, if_neg hc, h]
  rfl

end Lager.Lib.Shell
