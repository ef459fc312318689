import PocketShell.Proofs.Shell.Rendering
import PocketShell.Proofs.Shell.Spans

/-! Two lines joined by a semicolon. If nothing is left open at the end of the first one, the scanner
cuts there and goes on as if the second one were a line of its own, although it looks ahead for the
end of a substitution as far as the text goes; so the segments are those of both. -/
namespace PocketShell.Shell

open Text (doubleQuote)

/-- The text leaves nothing open, read by the scanner with the given quote open: no quote, no
substitution outside quotes and no backslash without a character to take along. -/
inductive Finished : Option Char → List Char → Prop
  | done : Finished none []
  | pair {d rest} : Finished (some doubleQuote) rest → Finished (some doubleQuote) ('\\' :: d :: rest)
  | quoted {q c rest} : ¬ (c = '\\' ∧ q = doubleQuote) →
      Finished (if c = q then none else some q) rest → Finished (some q) (c :: rest)
  | escaped {d rest} : Finished none rest → Finished none ('\\' :: d :: rest)
  | quote {q rest} : isQuote q = true → Finished (some q) rest → Finished none (q :: rest)
  | span {text command rest} : substitution? text = some (command, rest) → Finished none rest →
      Finished none text
  | cut {text separator rest} : separator? lineMarks text = some (separator, rest) →
      Finished none rest → Finished none text
  | plain {c rest} : isQuote c = false → c ≠ '\\' → (c = '$' → rest.head? ≠ some '(') →
      separator? lineMarks (c :: rest) = none → Finished none rest → Finished none (c :: rest)

/-- The pieces of a line that goes on behind a semicolon. -/
def Pieces.goOn (more : Pieces) : Pieces → Pieces
  | [] => more
  | [(piece, _)] => (piece, some [';']) :: more
  | piece :: pieces => piece :: Pieces.goOn more pieces

/-- The line begins with a mark that makes it a comment. -/
def Commented (line : String) : Prop := (line.toList.dropWhile Text.isBlank).head? = some '#'

instance (line : String) : Decidable (Commented line) := inferInstanceAs (Decidable (_ = _))

/-- Another line can follow the line behind a semicolon: nothing is left open, a command stands behind
the last separator, and the line is no comment. -/
structure Continuable (line : String) : Prop where
  finished : Finished none line.toList
  inhabited : ∀ last ∈ (cut lineMarks none line.toList).getLast?,
    parsePipeline (String.ofList last.1) ≠ []
  uncommented : ¬ Commented line

/-- The segments with another operator behind the last one. -/
def endWith (operator : Operator) : List Segment → List Segment
  | [] => []
  | [last] => [{ last with operator }]
  | segment :: rest => segment :: endWith operator rest

variable {quote : Option Char} {q c d : Char} {text rest after separator : List Char}
  {pieces : Pieces} {segments : List Segment}
  {operator : Operator} {line : String}

/-! ## The scanner -/

private theorem goOn_cons (more : Pieces) (piece : List Char × Option (List Char))
    (inhabited : pieces ≠ []) : Pieces.goOn more (piece :: pieces) = piece :: Pieces.goOn more pieces := by
  cases pieces with
  | nil => exact absurd rfl inhabited
  | cons => rfl

private theorem before_goOn (front : List Char) (more : Pieces) (inhabited : pieces ≠ []) :
    Pieces.before front (Pieces.goOn more pieces) = Pieces.goOn more (Pieces.before front pieces) := by
  match pieces with
  | [] => exact absurd rfl inhabited
  | [(piece, separator)] => rfl
  | (piece, separator) :: next :: pieces => rfl

private theorem lineMarks_eq : lineMarks = [['&', '&'], ['|', '|'], [';']] := rfl

private theorem separator_none_iff : separator? lineMarks (c :: rest) = none ↔
    c ≠ ';' ∧ (c = '&' → rest.head? ≠ some '&') ∧ (c = '|' → rest.head? ≠ some '|') := by
  rw [separator?, Option.map_eq_none_iff, List.find?_eq_none, lineMarks_eq]
  cases rest with
  | nil => simp [eq_comm (a := c)]
  | cons d rest => simp; grind

private theorem separator_append (found : separator? lineMarks text = some (separator, rest))
    (more : List Char) :
    separator? lineMarks (text ++ more) = some (separator, rest ++ more) := by
  obtain ⟨rfl, -⟩ := eq_append_of_separator found
  have member := mem_of_separator found
  rw [lineMarks_eq] at member
  simp only [List.mem_cons, List.not_mem_nil, or_false] at member
  rcases member with rfl | rfl | rfl <;> rfl

private theorem cut_lineMark (found : separator? lineMarks text = some (separator, rest)) :
    cut lineMarks none text = ([], some separator) :: cut lineMarks none rest := by
  have idle : ∀ mark ∈ lineMarks, mark.head?.map inert = some true := by decide
  obtain ⟨rfl, -⟩ := eq_append_of_separator found
  obtain ⟨c, first, inert⟩ := Option.map_eq_some_iff.mp (idle _ (mem_of_separator found))
  obtain ⟨others, rfl⟩ := List.head?_eq_some_iff.mp first
  obtain ⟨opens, escapes, spanless⟩ := plain_of_inert inert (others ++ rest)
  rw [List.cons_append] at found ⊢
  rw [cut_plain opens escapes spanless, found]

/-- The scanner cuts at the semicolon and reads what follows it as a line of its own. -/
theorem cut_goOn (finished : Finished quote text) (more : List Char) :
    cut lineMarks quote (text ++ ';' :: more) =
      Pieces.goOn (cut lineMarks none more) (cut lineMarks quote text) := by
  have inhabited {quote : Option Char} {text : List Char} : cut lineMarks quote text ≠ [] :=
    cut_ne_nil text
  induction finished with
  | done =>
    rw [List.nil_append, cut_lineMark (show separator? lineMarks (';' :: more) = some _ from rfl),
      cut_nil]
    rfl
  | pair _ ih =>
    rw [List.cons_append, List.cons_append, cut_protected, cut_protected, ih,
      before_goOn _ _ inhabited]
  | quoted bare _ ih =>
    rw [List.cons_append, cut_quoted fun same double => absurd ⟨same, double⟩ bare,
      cut_quoted fun same double => absurd ⟨same, double⟩ bare, ih, before_goOn _ _ inhabited]
  | escaped _ ih =>
    rw [List.cons_append, List.cons_append, cut_escaped, cut_escaped, ih,
      before_goOn _ _ inhabited]
  | quote opens _ ih =>
    rw [List.cons_append, cut_quote opens, cut_quote opens, ih, before_goOn _ _ inhabited]
  | span found _ ih =>
    rw [cut_span found, cut_span (substitution_append found _), ih, before_goOn _ _ inhabited]
  | cut found _ ih =>
    rw [cut_lineMark found, cut_lineMark (separator_append found _), ih, goOn_cons _ _ inhabited]
  | @plain c rest shut bare unopened passed _ ih =>
    have unslashed {rest : List Char} : c = '\\' → rest = [] := fun same => absurd same bare
    have unopenedOn : c = '$' → (rest ++ ';' :: more).head? ≠ some '(' := by
      intro same
      rcases rest with _ | ⟨d, rest⟩
      · simp
      · exact unopened same
    have passedOn : separator? lineMarks (c :: (rest ++ ';' :: more)) = none := by
      rw [separator_none_iff] at passed ⊢
      rcases rest with _ | ⟨d, rest⟩
      · exact ⟨passed.1, by simp, by simp⟩
      · exact passed
    rw [List.cons_append, cut_plain shut unslashed (substitution_unopened unopenedOn), passedOn,
      cut_plain shut unslashed (substitution_unopened unopened), passed, ih]
    exact before_goOn _ _ inhabited

/-! ## Segments -/

private theorem closeLast_eq_endWith (segments : List Segment) :
    closeLast segments = endWith .done segments := by
  fun_induction closeLast segments with
  | case1 => rfl
  | case2 => rfl
  | case3 segment rest several ih => rw [endWith, ih]; exact several

theorem endWith_cons (operator : Operator) (segment : Segment) (inhabited : segments ≠ []) :
    endWith operator (segment :: segments) = segment :: endWith operator segments := by
  rw [endWith]
  exact inhabited

theorem endWith_eq_nil_iff : endWith operator segments = [] ↔ segments = [] := by
  fun_cases endWith operator segments <;> simp

private theorem endWith_append (operator : Operator) (front : List Segment)
    (inhabited : segments ≠ []) :
    endWith operator (front ++ segments) = front ++ endWith operator segments := by
  induction front with
  | nil => rfl
  | cons segment front ih =>
    rw [List.cons_append, endWith_cons _ _ (by simp [inhabited]), ih, List.cons_append]

/-- Only the last operator that is put there counts. -/
private theorem endWith_endWith (operator other : Operator) (segments : List Segment) :
    endWith operator (endWith other segments) = endWith operator segments := by
  fun_induction endWith other segments with
  | case1 => rfl
  | case2 => rfl
  | case3 segment rest several ih =>
    have inhabited : rest ≠ [] := several
    rw [endWith_cons _ _ (mt endWith_eq_nil_iff.mp inhabited), ih, endWith_cons _ _ inhabited]

private theorem segmentOf_inhabited {piece : List Char}
    (inhabited : parsePipeline (String.ofList piece) ≠ []) (separator : Option (List Char)) :
    segmentOf (piece, separator) =
      some ⟨parsePipeline (String.ofList piece), operatorOf separator⟩ := by
  rw [segmentOf]
  split
  · contradiction
  · rfl

/-- The last command gets the semicolon, and the segments of the other line follow. -/
private theorem segments_goOn (more : Pieces) (inhabited : pieces ≠ [])
    (last : ∀ last ∈ pieces.getLast?, parsePipeline (String.ofList last.1) ≠ []) :
    pieces.filterMap segmentOf ≠ [] ∧
      (Pieces.goOn more pieces).filterMap segmentOf =
        endWith .sequence (pieces.filterMap segmentOf) ++ more.filterMap segmentOf := by
  fun_induction Pieces.goOn more pieces with
  | case1 => exact absurd rfl inhabited
  | case2 piece separator =>
    have held : ∀ separator, segmentOf (piece, separator) = _ :=
      segmentOf_inhabited (last (piece, separator) rfl)
    rw [List.filterMap_cons, List.filterMap_cons, held, held]
    exact ⟨List.cons_ne_nil _ _, rfl⟩
  | case3 piece pieces several ih =>
    have inhabited : pieces ≠ [] := several piece.1 piece.2 rfl
    obtain ⟨found, follow⟩ := ih inhabited fun final member => last final (by
      obtain ⟨next, others, rfl⟩ := List.exists_cons_of_ne_nil inhabited
      exact member)
    rw [List.filterMap_cons, List.filterMap_cons, follow]
    cases segmentOf piece with
    | none => exact ⟨found, rfl⟩
    | some segment =>
      exact ⟨List.cons_ne_nil _ _, by rw [endWith_cons _ _ found, List.cons_append]⟩

private theorem parseLine_eq (uncommented : ¬ Commented line) :
    parseLine line = endWith .done ((cut lineMarks none line.toList).filterMap segmentOf) := by
  rw [← closeLast_eq_endWith]
  exact if_neg uncommented

/-- Nothing stands behind the last segment of a line. -/
theorem endWith_parseLine (line : String) : endWith .done (parseLine line) = parseLine line := by
  by_cases commented : Commented line
  · have none : parseLine line = [] := if_pos commented
    rw [none]
    rfl
  · rw [parseLine_eq commented, endWith_endWith]

private theorem uncommented_join {first : String} (uncommented : ¬ Commented first)
    (second : String) : ¬ Commented (first ++ ";" ++ second) := by
  have whole : (first ++ ";" ++ second).toList = first.toList ++ ';' :: second.toList := by simp
  rw [Commented, whole, List.dropWhile_append]
  split
  · simp [Text.isBlank]
  · rename_i inhabited
    obtain ⟨c, rest, begins⟩ := List.exists_cons_of_ne_nil
      (l := first.toList.dropWhile Text.isBlank) (by simpa using inhabited)
    rw [Commented, begins] at uncommented
    rw [begins]
    exact uncommented

theorem parseLine_ne_nil (continuable : Continuable line) : parseLine line ≠ [] := by
  rw [parseLine_eq continuable.uncommented]
  exact mt endWith_eq_nil_iff.mp
    (segments_goOn [] (cut_ne_nil line.toList) continuable.inhabited).1

/-- The segments of two lines joined by a semicolon: those of the first, with the semicolon behind
them if others follow, and those of the second. -/
theorem parseLine_join {first second : String} (continuable : Continuable first)
    (uncommented : ¬ Commented second) :
    parseLine (first ++ ";" ++ second) = if parseLine second = [] then parseLine first
      else endWith .sequence (parseLine first) ++ parseLine second := by
  have whole : (first ++ ";" ++ second).toList = first.toList ++ ';' :: second.toList := by simp
  obtain ⟨found, segments⟩ := segments_goOn (cut lineMarks none second.toList)
    (cut_ne_nil first.toList) continuable.inhabited
  rw [parseLine_eq (uncommented_join continuable.uncommented second), whole,
    cut_goOn continuable.finished, segments, parseLine_eq continuable.uncommented,
    parseLine_eq uncommented]
  split
  · rename_i empty
    rw [endWith_eq_nil_iff.mp empty, List.append_nil, endWith_endWith]
  · rename_i several
    rw [endWith_append _ _ (mt endWith_eq_nil_iff.mpr several), endWith_endWith]

end PocketShell.Shell
