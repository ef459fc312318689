import PocketShell.Shell.Parse

/-! One step of the scanner that cuts a line and of the lexer that reads a stage, for each thing that
can stand at the front of the text. -/
namespace PocketShell.Shell

open Text (singleQuote doubleQuote)

variable {separators : List (List Char)} {marks : Bool} {word : Option (List Char)}
  {quote : Option Char} {text command after rest : List Char} {q c : Char}

/-- What a line is cut at. -/
def lineMarks : List (List Char) := operators.map (·.mark.toList)

/-- What a segment is cut at. -/
def stageMarks : List (List Char) := ["||", "|"].map String.toList

/-! ## Pieces -/

@[simp] theorem Pieces.before_before (front middle : List Char) (pieces : Pieces) :
    Pieces.before front (Pieces.before middle pieces) = Pieces.before (front ++ middle) pieces := by
  cases pieces <;> simp [Pieces.before]

@[simp] theorem Pieces.before_nil (front : List Char) : Pieces.before front [] = [(front, none)] :=
  rfl

@[simp] theorem Pieces.before_cons (front piece : List Char) (separator : Option (List Char))
    (pieces : Pieces) : Pieces.before front ((piece, separator) :: pieces) =
      (front ++ piece, separator) :: pieces :=
  rfl

theorem Pieces.before_ne_nil (front : List Char) (pieces : Pieces) :
    Pieces.before front pieces ≠ [] := by
  cases pieces <;> simp [Pieces.before]

/-! ## The scanner -/

section

attribute [local simp] cut

@[simp] theorem cut_nil : cut separators quote [] = [([], none)] := by
  cases quote <;> simp

end

theorem cut_ne_nil (text : List Char) : cut separators quote text ≠ [] := by
  unfold cut
  repeat' split
  all_goals simp [Pieces.before_ne_nil]

@[simp] theorem Pieces.before_nil_cut :
    Pieces.before [] (cut separators quote text) = cut separators quote text := by
  cases whole : cut separators quote text with
  | nil => exact absurd whole (cut_ne_nil text)
  | cons piece pieces => rfl

/-- Between double quotes a backslash takes the next character along. -/
theorem cut_protected (d : Char) (rest : List Char) :
    cut separators (some doubleQuote) ('\\' :: d :: rest) =
      Pieces.before ['\\', d] (cut separators (some doubleQuote) rest) := by
  rw [cut]
  simp

theorem cut_quoted (bare : c = '\\' → q = doubleQuote → rest = []) :
    cut separators (some q) (c :: rest) =
      Pieces.before [c] (cut separators (if c = q then none else some q) rest) := by
  cases rest with
  | nil => simp [cut]
  | cons d rest =>
    rw [cut, if_neg]
    rintro ⟨escaping, double⟩
    cases bare escaping double

theorem cut_escaped (d : Char) (rest : List Char) :
    cut separators none ('\\' :: d :: rest) = Pieces.before ['\\', d] (cut separators none rest) := by
  rw [cut]

theorem cut_quote (opens : isQuote q = true) :
    cut separators none (q :: rest) = Pieces.before [q] (cut separators (some q) rest) := by
  rw [cut, if_pos opens]
  rintro d rest' rfl
  cases opens

/-- A span begins with its opening. -/
theorem opening_of_substitution (found : substitution? text = some (command, after)) :
    ∃ rest, text = '$' :: '(' :: rest :=
  ⟨command ++ [')'] ++ after, eq_append_of_substitution found⟩

theorem cut_span (found : substitution? text = some (command, after)) :
    cut separators none text = Pieces.before (spanOf command) (cut separators none after) := by
  obtain ⟨rest, rfl⟩ := opening_of_substitution found
  rw [cut, if_neg (by decide)]
  · split
    · rename_i again
      cases found.symm.trans again
      rfl
    · rename_i missing
      cases found.symm.trans missing
  · simp

theorem cut_plain (opens : isQuote c = false) (escapes : c = '\\' → rest = [])
    (spanless : substitution? (c :: rest) = none) :
    cut separators none (c :: rest) = match separator? separators (c :: rest) with
      | some (separator, after) => ([], some separator) :: cut separators none after
      | none => Pieces.before [c] (cut separators none rest) := by
  rw [cut, if_neg (by simp [opens])]
  · split
    · rename_i found
      cases spanless.symm.trans found
    · split <;> split <;> simp_all
  · rintro d rest' same rfl
    cases escapes same

theorem mem_of_separator {separator : List Char}
    (found : separator? separators text = some (separator, after)) : separator ∈ separators := by
  obtain ⟨candidate, held, same⟩ := Option.map_eq_some_iff.mp found
  cases same
  exact List.mem_of_find?_eq_some held

/-- The character opens no quote, escapes nothing and begins no substitution. -/
def inert (c : Char) : Bool := !isQuote c && c != '\\' && c != '$'

/-- An inert character is read like any other, whatever follows it. -/
theorem plain_of_inert (idle : inert c = true) (rest : List Char) :
    isQuote c = false ∧ (c = '\\' → rest = []) ∧ substitution? (c :: rest) = none := by
  simp only [inert, Bool.and_eq_true, Bool.not_eq_true', bne_iff_ne, ne_eq] at idle
  obtain ⟨⟨opens, escapes⟩, spans⟩ := idle
  refine ⟨opens, fun same => absurd same escapes, ?_⟩
  unfold substitution?
  split
  · rename_i same
    cases same
    exact absurd rfl spans
  · rfl

theorem cut_inert (idle : inert c = true) (stays : separator? separators (c :: rest) = none) :
    cut separators none (c :: rest) = Pieces.before [c] (cut separators none rest) := by
  obtain ⟨opens, escapes, spanless⟩ := plain_of_inert idle rest
  rw [cut_plain opens escapes spanless, stays]

/-! ## The lexer -/

section

attribute [local simp] lex

@[simp] theorem lex_nil : lex marks quote word [] = flush word := by
  cases quote <;> simp

end

/-- The lexer looks at the character behind a backslash before anything else; this tells whether
there is one. -/
private theorem escape_or_not (c : Char) (rest : List Char) :
    (∃ d more, c = '\\' ∧ rest = d :: more) ∨ ∀ d more, c = '\\' → rest = d :: more → False := by
  rcases rest with _ | ⟨d, more⟩
  · exact .inr fun _ _ _ impossible => nomatch impossible
  · by_cases escaping : c = '\\'
    · exact .inl ⟨d, more, escaping, rfl⟩
    · exact .inr fun _ _ same _ => escaping same

theorem lex_close : lex marks (some q) word (q :: rest) = lex marks none word rest := by
  rcases escape_or_not q rest with ⟨d, more, rfl, rfl⟩ | bare
  · rw [lex, if_pos rfl]
  · rw [lex, if_pos rfl]
    exact bare

theorem lex_singleQuoted (inside : c ≠ singleQuote) :
    lex marks (some singleQuote) word (c :: rest) =
      lex marks (some singleQuote) (grow word (literally c)) rest := by
  rcases escape_or_not c rest with ⟨d, more, rfl, rfl⟩ | bare
  · rw [lex, if_neg inside, if_pos rfl]
  · rw [lex, if_neg inside, if_pos rfl]
    exact bare

theorem lex_protected {d : Char} (kept : isProtected d = true ∨ d = '$') (rest : List Char) :
    lex marks (some doubleQuote) word ('\\' :: d :: rest) =
      lex marks (some doubleQuote) (grow word (literally d)) rest := by
  rw [lex, if_neg (by decide), if_neg (by decide), if_pos (by simpa using kept)]

theorem lex_unprotected {d : Char} (stays : ¬ (isProtected d = true ∨ d = '$'))
    (rest : List Char) : lex marks (some doubleQuote) word ('\\' :: d :: rest) =
      lex marks (some doubleQuote) (grow word ['\\']) (d :: rest) := by
  rw [lex, if_neg (by decide), if_neg (by decide), if_neg (by simpa using stays)]

theorem lex_doubleQuoted_span (found : substitution? text = some (command, after)) :
    lex marks (some doubleQuote) word text =
      lex marks (some doubleQuote) (grow word (spanOf command)) after := by
  obtain ⟨rest, rfl⟩ := opening_of_substitution found
  rw [lex, if_neg (by decide), if_neg (by decide)]
  · split
    · rename_i again
      cases found.symm.trans again
      rfl
    · rename_i missing
      cases found.symm.trans missing
  · simp

theorem lex_doubleQuoted (inside : c ≠ doubleQuote) (bare : c = '\\' → rest = [])
    (spanless : substitution? (c :: rest) = none) :
    lex marks (some doubleQuote) word (c :: rest) =
      lex marks (some doubleQuote) (grow word [c]) rest := by
  rw [lex, if_neg inside, if_neg (by decide)]
  · split
    · rename_i found
      cases spanless.symm.trans found
    · rfl
  · rintro d rest' same rfl
    cases bare same

theorem lex_escaped (d : Char) (rest : List Char) : lex marks none word ('\\' :: d :: rest) =
    lex marks none (grow word (literally d)) rest := by
  rw [lex]

theorem lex_quote (opens : isQuote q = true) :
    lex marks none word (q :: rest) = lex marks (some q) (grow word []) rest := by
  rw [lex, if_pos opens]
  rintro d rest' rfl
  cases opens

theorem lex_span (found : substitution? text = some (command, after)) :
    lex marks none word text = lex marks none (grow word (spanOf command)) after := by
  obtain ⟨rest, rfl⟩ := opening_of_substitution found
  rw [lex, if_neg (by decide)]
  · split
    · rename_i again
      cases found.symm.trans again
      rfl
    · rename_i missing
      cases found.symm.trans missing
  · simp

theorem lex_plain (opens : isQuote c = false) (escapes : c = '\\' → rest = [])
    (spanless : substitution? (c :: rest) = none) :
    lex marks none word (c :: rest) =
      if Text.isBlank c then flush word ++ lex marks none none rest
      else match if marks then mark? word.isSome (c :: rest) else none with
        | some (mark, after) => flush word ++ .mark mark :: lex marks none none after
        | none => lex marks none (grow word [c]) rest := by
  rw [lex, if_neg (by simp [opens])]
  · split
    · rename_i found
      cases spanless.symm.trans found
    · split
      · rfl
      · split <;> split <;> simp_all
  · rintro d rest' same rfl
    cases escapes same

end PocketShell.Shell
