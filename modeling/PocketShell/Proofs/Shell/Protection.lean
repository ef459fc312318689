import PocketShell.Proofs.Shell.Scanning

/-! What the scanner and the lexer take for protected. The lexer reads a text in lexemes, some of
which stand exposed: outside quotes, not behind a backslash and outside substitutions. The scanner
cuts at exposed characters only, as long as no substitution between double quotes has held a double
quote of its own: the scanner does not know substitutions there and leaves the quotes with it. -/
namespace PocketShell.Shell

open Text (singleQuote doubleQuote)

/-! ## Lexemes -/

/-- What the lexer takes at a time. -/
inductive Lexeme
  | blank (c : Char)
  | marking (mark : Mark)
  | bare (c : Char)
  | escaped (c : Char)
  | opening (quote : Char)
  | closing (quote : Char)
  | quoted (quote c : Char)
  | guarded (c : Char)
  | span (quoted : Bool) (command : List Char)

namespace Lexeme

/-- The text of a lexeme as it stands in the line. -/
def source : Lexeme → List Char
  | .blank c => [c]
  | .marking mark => mark.text.toList
  | .bare c => [c]
  | .escaped c => ['\\', c]
  | .opening quote => [quote]
  | .closing quote => [quote]
  | .quoted _ c => [c]
  | .guarded c => ['\\', c]
  | .span _ command => spanOf command

/-- The lexeme is outside quotes, not behind a backslash and no substitution. -/
def exposed : Lexeme → Bool
  | .blank _ => true
  | .marking _ => true
  | .bare _ => true
  | _ => false

/-- The quote that is open behind the lexeme. -/
def quoteAfter (quote : Option Char) : Lexeme → Option Char
  | .opening quote => some quote
  | .closing _ => none
  | _ => quote

/-- A word has begun behind the lexeme. -/
def wordAfter (inWord : Bool) : Lexeme → Bool
  | .blank _ => false
  | .marking _ => false
  | .closing _ => inWord
  | _ => true

/-- The word read so far, behind the lexeme. -/
def extend (word : Option (List Char)) : Lexeme → Option (List Char)
  | .blank _ => none
  | .marking _ => none
  | .bare c => grow word [c]
  | .escaped c => grow word (literally c)
  | .opening _ => grow word []
  | .closing _ => word
  | .quoted quote c => grow word (if quote = singleQuote then literally c else [c])
  | .guarded c => grow word (literally c)
  | .span _ command => grow word (spanOf command)

/-- The tokens that are complete with the lexeme. -/
def tokens (word : Option (List Char)) : Lexeme → List Token
  | .blank _ => flush word
  | .marking mark => flush word ++ [.mark mark]
  | _ => []

theorem isSome_extend (word : Option (List Char)) (lexeme : Lexeme) :
    (lexeme.extend word).isSome = lexeme.wordAfter word.isSome := by
  cases lexeme <;> rfl

end Lexeme

/-- What the lexer finds at the front of a text, case by case; an open quote is one of the two. -/
inductive Reads (marks inWord : Bool) :
    Option Char → List Char → Lexeme → List Char → Prop
  | closing {q rest} : Reads marks inWord (some q) (q :: rest) (.closing q) rest
  | single {c rest} : c ≠ singleQuote →
      Reads marks inWord (some singleQuote) (c :: rest) (.quoted singleQuote c) rest
  | guarded {d rest} : isProtected d = true ∨ d = '$' →
      Reads marks inWord (some doubleQuote) ('\\' :: d :: rest) (.guarded d) rest
  | unguarded {d rest} : ¬ (isProtected d = true ∨ d = '$') →
      Reads marks inWord (some doubleQuote) ('\\' :: d :: rest) (.quoted doubleQuote '\\')
        (d :: rest)
  | quotedSpan {text command rest} : substitution? text = some (command, rest) →
      Reads marks inWord (some doubleQuote) text (.span true command) rest
  | double {c rest} : c ≠ doubleQuote → (c = '\\' → rest = []) →
      substitution? (c :: rest) = none →
      Reads marks inWord (some doubleQuote) (c :: rest) (.quoted doubleQuote c) rest
  | escaped {d rest} : Reads marks inWord none ('\\' :: d :: rest) (.escaped d) rest
  | opening {q rest} : isQuote q = true → Reads marks inWord none (q :: rest) (.opening q) rest
  | span {text command rest} : substitution? text = some (command, rest) →
      Reads marks inWord none text (.span false command) rest
  | blank {c rest} : isQuote c = false → (c = '\\' → rest = []) →
      substitution? (c :: rest) = none → Text.isBlank c = true →
      Reads marks inWord none (c :: rest) (.blank c) rest
  | marking {c more mark rest} : isQuote c = false → (c = '\\' → more = []) →
      substitution? (c :: more) = none → Text.isBlank c = false → marks = true →
      mark? inWord (c :: more) = some (mark, rest) →
      Reads marks inWord none (c :: more) (.marking mark) rest
  | bare {c rest} : isQuote c = false → (c = '\\' → rest = []) →
      substitution? (c :: rest) = none → Text.isBlank c = false →
      (marks = true → mark? inWord (c :: rest) = none) →
      Reads marks inWord none (c :: rest) (.bare c) rest

/-- The lexemes of a text, read with the given quote open and, if `inWord`, behind the beginning of a
word. -/
inductive Reading (marks : Bool) : Option Char → Bool → List Char → List Lexeme → Prop
  | done {quote inWord} : Reading marks quote inWord [] []
  | step {quote inWord text lexeme rest lexemes} : Reads marks inWord quote text lexeme rest →
      Reading marks (lexeme.quoteAfter quote) (lexeme.wordAfter inWord) rest lexemes →
      Reading marks quote inWord text (lexeme :: lexemes)

/-- The tokens that lexemes make up; `word` is the word read so far. -/
def assemble (word : Option (List Char)) : List Lexeme → List Token
  | [] => flush word
  | lexeme :: lexemes => lexeme.tokens word ++ assemble (lexeme.extend word) lexemes

variable {separators : List (List Char)} {marks inWord : Bool} {quote : Option Char}
  {text rest : List Char} {word : Option (List Char)} {lexeme : Lexeme} {lexemes : List Lexeme}

private theorem eq_append_of_mark {mark : Mark} (found : mark? inWord text = some (mark, rest)) :
    text = mark.text.toList ++ rest := by
  unfold mark? at found
  split at found
  case h_5 => split at found <;> cases found <;> rfl
  all_goals cases found
  all_goals rfl

/-- A lexeme is a part of the text that is not empty. -/
theorem Reads.eq_append (reads : Reads marks inWord quote text lexeme rest) :
    text = lexeme.source ++ rest ∧ lexeme.source ≠ [] := by
  cases reads with
  | quotedSpan found => exact ⟨eq_append_of_substitution found, List.cons_ne_nil _ _⟩
  | span found => exact ⟨eq_append_of_substitution found, List.cons_ne_nil _ _⟩
  | @marking _ _ mark _ _ _ _ _ _ found =>
    refine ⟨eq_append_of_mark found, ?_⟩
    rcases mark with (_ | _ | _ | _) | _ <;> decide
  | _ => exact ⟨rfl, List.cons_ne_nil _ _⟩

theorem Reading.source_eq (reading : Reading marks quote inWord text lexemes) :
    lexemes.flatMap Lexeme.source = text := by
  induction reading with
  | done => rfl
  | step reads _ ih => rw [List.flatMap_cons, ih, reads.eq_append.1]

theorem Reads.lex_eq (reads : Reads marks word.isSome quote text lexeme rest) :
    lex marks quote word text =
      lexeme.tokens word ++ lex marks (lexeme.quoteAfter quote) (lexeme.extend word) rest := by
  cases reads with
  | closing => exact lex_close
  | single inside => exact lex_singleQuoted inside
  | guarded kept => exact lex_protected kept _
  | unguarded stays => exact lex_unprotected stays _
  | quotedSpan found => exact lex_doubleQuoted_span found
  | double inside escapes spanless => exact lex_doubleQuoted inside escapes spanless
  | escaped => exact lex_escaped _ _
  | opening opens => exact lex_quote opens
  | span found => exact lex_span found
  | blank opens escapes spanless blank =>
    rw [lex_plain opens escapes spanless, if_pos blank]
    rfl
  | marking opens escapes spanless solid marks found =>
    rw [lex_plain opens escapes spanless, if_neg (by simp [solid]), if_pos marks, found]
    simp [Lexeme.tokens, Lexeme.extend, Lexeme.quoteAfter]
  | bare opens escapes spanless solid unmarked =>
    rw [lex_plain opens escapes spanless, if_neg (by simp [solid])]
    cases marks with
    | false => rfl
    | true =>
      rw [if_pos rfl, unmarked rfl]
      rfl

/-- The tokens are the lexemes put together. -/
theorem Reading.lex_eq (reading : Reading marks quote inWord text lexemes)
    (begun : word.isSome = inWord) : lex marks quote word text = assemble word lexemes := by
  induction reading generalizing word with
  | done => simp [assemble]
  | step reads _ ih =>
    subst begun
    rw [reads.lex_eq, ih (Lexeme.isSome_extend _ _), assemble]

/-- Only the two quotes are ever open. -/
private def Quoting (quote : Option Char) : Prop := ∀ q ∈ quote, isQuote q = true

private theorem exists_reads_quoted {q c : Char} (opened : isQuote q = true) :
    ∃ lexeme after, Reads marks inWord (some q) (c :: rest) lexeme after := by
  by_cases same : c = q
  · subst same
    exact ⟨_, _, .closing⟩
  by_cases single : q = singleQuote
  · subst single
    exact ⟨_, _, .single same⟩
  obtain rfl : q = doubleQuote := by simpa [isQuote, single] using opened
  by_cases escaping : c = '\\' ∧ rest ≠ []
  · obtain ⟨rfl, more⟩ := escaping
    obtain ⟨d, after, rfl⟩ := List.exists_cons_of_ne_nil more
    by_cases kept : isProtected d = true ∨ d = '$'
    · exact ⟨_, _, .guarded kept⟩
    · exact ⟨_, _, .unguarded kept⟩
  cases spanned : substitution? (c :: rest) with
  | some found => exact ⟨_, _, .quotedSpan spanned⟩
  | none => exact ⟨_, _, .double same (by simpa using escaping) spanned⟩

private theorem exists_reads_unquoted (c : Char) :
    ∃ lexeme after, Reads marks inWord none (c :: rest) lexeme after := by
  by_cases escaping : c = '\\' ∧ rest ≠ []
  · obtain ⟨rfl, more⟩ := escaping
    obtain ⟨d, after, rfl⟩ := List.exists_cons_of_ne_nil more
    exact ⟨_, _, .escaped⟩
  have escapes : c = '\\' → rest = [] := by simpa using escaping
  cases opens : isQuote c with
  | true => exact ⟨_, _, .opening opens⟩
  | false =>
    cases spanned : substitution? (c :: rest) with
    | some found => exact ⟨_, _, .span spanned⟩
    | none =>
      cases blank : Text.isBlank c with
      | true => exact ⟨_, _, .blank opens escapes spanned blank⟩
      | false =>
        by_cases marked : marks = true ∧ (mark? inWord (c :: rest)).isSome = true
        · obtain ⟨⟨mark, after⟩, found⟩ := Option.isSome_iff_exists.mp marked.2
          exact ⟨_, _, .marking opens escapes spanned blank marked.1 found⟩
        · exact ⟨_, _, .bare opens escapes spanned blank (by simpa using marked)⟩

private theorem Quoting.quoteAfter (quoting : Quoting quote)
    (reads : Reads marks inWord quote text lexeme rest) : Quoting (lexeme.quoteAfter quote) := by
  cases reads with
  | closing => exact fun q impossible => nomatch impossible
  | opening opens =>
    intro q same
    cases same
    exact opens
  | _ => exact quoting

/-- Every text has lexemes. -/
theorem exists_reading (marks inWord : Bool) (quote : Option Char) (text : List Char)
    (quoting : Quoting quote) : ∃ lexemes, Reading marks quote inWord text lexemes := by
  match text with
  | [] => exact ⟨[], .done⟩
  | c :: rest =>
    have first : ∃ lexeme after, Reads marks inWord quote (c :: rest) lexeme after := by
      cases quote with
      | none => exact exists_reads_unquoted c
      | some q => exact exists_reads_quoted (quoting q rfl)
    obtain ⟨lexeme, after, reads⟩ := first
    have shorter : after.length < (c :: rest).length := by
      obtain ⟨whole, inhabited⟩ := reads.eq_append
      have := List.length_pos_iff.mpr inhabited
      rw [whole, List.length_append]
      omega
    obtain ⟨lexemes, reading⟩ := exists_reading marks (lexeme.wordAfter inWord)
      (lexeme.quoteAfter quote) after (quoting.quoteAfter reads)
    exact ⟨lexeme :: lexemes, .step reads reading⟩
  termination_by text.length
  decreasing_by exact shorter

/-! ## Without marks -/

/-- The lexeme as it is read where marks are not told from words. -/
def Lexeme.spread : Lexeme → List Lexeme
  | .marking mark => mark.text.toList.map .bare
  | lexeme => [lexeme]

private theorem Reads.spread (reads : Reads marks inWord quote text lexeme rest)
    (unmarked : ∀ mark, lexeme ≠ .marking mark) (begun : Bool) :
    Reads false begun quote text lexeme rest := by
  cases reads with
  | closing => exact .closing
  | single inside => exact .single inside
  | guarded kept => exact .guarded kept
  | unguarded stays => exact .unguarded stays
  | quotedSpan found => exact .quotedSpan found
  | double inside escapes spanless => exact .double inside escapes spanless
  | escaped => exact .escaped
  | opening opens => exact .opening opens
  | span found => exact .span found
  | blank opens escapes spanless blank => exact .blank opens escapes spanless blank
  | marking => exact absurd rfl (unmarked _)
  | bare opens escapes spanless solid => exact .bare opens escapes spanless solid nofun

/-- An inert character is read on its own. -/
private theorem Reading.bare {c : Char} (idle : inert c = true) (solid : Text.isBlank c = false)
    (reading : Reading false none true text lexemes) :
    Reading false none inWord (c :: text) (.bare c :: lexemes) :=
  have ⟨opens, escapes, spanless⟩ := plain_of_inert idle text
  .step (.bare opens escapes spanless solid nofun) reading

private theorem Reading.of_mark (mark : Mark) (begun : Bool)
    (reading : ∀ begun, Reading false none begun rest lexemes) :
    Reading false none begun (mark.text.toList ++ rest) (mark.text.toList.map .bare ++ lexemes) := by
  have angle {begun : Bool} {text : List Char} {lexemes : List Lexeme}
      (reading : Reading false none true text lexemes) :
      Reading false none begun ('>' :: text) (.bare '>' :: lexemes) :=
    .bare rfl rfl reading
  rcases mark with redirect | _
  · cases redirect with
    | overwrite => exact angle (reading true)
    | append => exact angle (angle (reading true))
    | errors => exact .bare rfl rfl (angle (reading true))
    | both => exact .bare rfl rfl (angle (reading true))
  · exact .bare rfl rfl (reading true)

/-- Where marks are not told from words the lexemes are the same, but for the marks. -/
private theorem Reading.spread (reading : Reading marks quote inWord text lexemes) (begun : Bool) :
    Reading false quote begun text (lexemes.flatMap Lexeme.spread) := by
  induction reading generalizing begun with
  | done => exact .done
  | @step quote inWord text lexeme rest lexemes reads _ ih =>
    by_cases marking : ∃ mark, lexeme = .marking mark
    · obtain ⟨mark, rfl⟩ := marking
      cases reads with
      | marking _ _ _ _ _ found =>
        rw [eq_append_of_mark found]
        exact .of_mark mark begun ih
    · have unmarked : ∀ mark, lexeme ≠ .marking mark := fun mark same => marking ⟨mark, same⟩
      have alone : lexeme.spread = [lexeme] := by
        cases lexeme <;> first | rfl | exact absurd rfl (unmarked _)
      rw [List.flatMap_cons, alone]
      exact .step (reads.spread unmarked begun) (ih _)

/-! ## Cuts and places -/

/-- A double quote in the text is not behind a backslash. -/
def holdsQuote : List Char → Bool
  | [] => false
  | '\\' :: _ :: rest => holdsQuote rest
  | c :: rest => c == doubleQuote || holdsQuote rest

/-- A substitution between double quotes with a double quote in it. -/
def Lexeme.leaks : Lexeme → Bool
  | .span true command => holdsQuote command
  | _ => false

/-- What a character is to the lexer. -/
inductive Place
  | exposed
  | hidden
  | leaking

/-- The place of every character of a lexeme. -/
def Lexeme.place (lexeme : Lexeme) : Place :=
  if lexeme.exposed then .exposed else if lexeme.leaks then .leaking else .hidden

/-- The places of the characters of a lexeme. -/
def Lexeme.places (lexeme : Lexeme) : List Place := lexeme.source.map fun _ => lexeme.place

/-- For every character of the line whether it belongs to a separator that was cut out. -/
def Pieces.flags (pieces : Pieces) : List Bool :=
  pieces.flatMap fun (piece, separator) =>
    piece.map (fun _ => false) ++ (separator.getD []).map fun _ => true

/-- All flags are at exposed places, at least up to the first leak. -/
private inductive Agree : List Bool → List Place → Prop
  | nil {places} : Agree [] places
  | leak {flags places} : Agree flags (.leaking :: places)
  | pass {flags place places} : Agree flags places → Agree (false :: flags) (place :: places)
  | hit {flags places} : Agree flags places → Agree (true :: flags) (.exposed :: places)

private theorem Agree.index {flags : List Bool} {places : List Place} {index : Nat}
    (agree : Agree flags places) (flagged : flags[index]? = some true) :
    places[index]? = some .exposed ∨ ∃ earlier ≤ index, places[earlier]? = some .leaking := by
  induction agree generalizing index with
  | nil => cases flagged
  | leak => exact .inr ⟨0, by omega, rfl⟩
  | pass _ ih =>
    cases index with
    | zero => cases flagged
    | succ index =>
      rcases ih (by simpa using flagged) with found | ⟨earlier, bound, found⟩
      · exact .inl (by simpa using found)
      · exact .inr ⟨earlier + 1, by omega, by simpa using found⟩
  | hit _ ih =>
    cases index with
    | zero => exact .inl rfl
    | succ index =>
      rcases ih (by simpa using flagged) with found | ⟨earlier, bound, found⟩
      · exact .inl (by simpa using found)
      · exact .inr ⟨earlier + 1, by omega, by simpa using found⟩

private theorem flags_before (front : List Char) {pieces : Pieces} (inhabited : pieces ≠ []) :
    (Pieces.before front pieces).flags = front.map (fun _ => false) ++ pieces.flags := by
  cases pieces with
  | nil => contradiction
  | cons piece pieces =>
    simp only [Pieces.flags, Pieces.before, List.flatMap_cons, List.map_append, List.append_assoc]

private theorem Agree.passes {flags : List Bool} {places more : List Place} {text : List Char}
    (sized : text.length = places.length) (agree : Agree flags more) :
    Agree (text.map (fun _ => false) ++ flags) (places ++ more) := by
  induction text generalizing places with
  | nil =>
    obtain rfl := List.length_eq_zero_iff.mp sized.symm
    exact agree
  | cons c text ih =>
    obtain ⟨place, places, rfl⟩ := List.exists_cons_of_length_eq_add_one sized.symm
    exact .pass (ih (by simpa using sized))

/-- The scanner goes over a lexeme. -/
private theorem Agree.over (passes : cut separators quote text =
    Pieces.before lexeme.source (cut separators (lexeme.quoteAfter quote) rest))
    (agree : Agree (cut separators (lexeme.quoteAfter quote) rest).flags
      (lexemes.flatMap Lexeme.places)) :
    Agree (cut separators quote text).flags ((lexeme :: lexemes).flatMap Lexeme.places) := by
  rw [passes, flags_before _ (cut_ne_nil _), List.flatMap_cons]
  exact .passes (by simp [Lexeme.places]) agree

/-- Nothing of the separators quotes or escapes anything. -/
private def Plain (separators : List (List Char)) : Prop :=
  ∀ separator ∈ separators, ∀ c ∈ separator, inert c = true

/-- Inert characters are exposed one by one. -/
private theorem Reading.plain {front : List Char} (plain : ∀ c ∈ front, inert c = true)
    (reading : Reading false none inWord (front ++ rest) lexemes) :
    ∃ begun later, Reading false none begun rest later ∧ lexemes.flatMap Lexeme.places =
      front.map (fun _ => .exposed) ++ later.flatMap Lexeme.places := by
  induction front generalizing inWord lexemes with
  | nil => exact ⟨inWord, lexemes, reading, rfl⟩
  | cons c front ih =>
    have idle := plain c List.mem_cons_self
    have after {begun : Bool} {lexemes : List Lexeme}
        (reading : Reading false none begun (front ++ rest) lexemes) :=
      ih (fun c member => plain c (List.mem_cons_of_mem _ member)) reading
    rw [List.cons_append] at reading
    generalize front ++ rest = tail at reading after
    cases reading with
    | step reads reading =>
      cases reads with
      | escaped => cases idle
      | opening opens => simp [inert, opens] at idle
      | span found =>
        rw [(plain_of_inert idle tail).2.2] at found
        cases found
      | blank =>
        obtain ⟨begun, later, reading, places⟩ := after reading
        exact ⟨begun, later, reading, by rw [List.flatMap_cons, places]; rfl⟩
      | marking _ _ _ _ marks => cases marks
      | bare =>
        obtain ⟨begun, later, reading, places⟩ := after reading
        exact ⟨begun, later, reading, by rw [List.flatMap_cons, places]; rfl⟩

private theorem Agree.hits {flags : List Bool} {places : List Place} (text : List Char)
    (agree : Agree flags places) :
    Agree (text.map (fun _ => true) ++ flags) (text.map (fun _ => .exposed) ++ places) := by
  induction text with
  | nil => exact agree
  | cons c text ih => exact .hit ih

/-- At an exposed character the scanner may cut, and then what it cuts out is exposed. -/
private theorem agree_exposed {c : Char} (plain : Plain separators) (opens : isQuote c = false)
    (escapes : c = '\\' → rest = []) (spanless : substitution? (c :: rest) = none)
    (alone : lexeme.source = [c]) (unquoted : lexeme.quoteAfter none = none)
    (reading : Reading false none inWord (c :: rest) (lexeme :: lexemes))
    (later : ∀ {begun after lexemes}, after.length < (c :: rest).length →
      Reading false none begun after lexemes →
      Agree (cut separators none after).flags (lexemes.flatMap Lexeme.places))
    (tail : Agree (cut separators none rest).flags (lexemes.flatMap Lexeme.places)) :
    Agree (cut separators none (c :: rest)).flags ((lexeme :: lexemes).flatMap Lexeme.places) := by
  have cutting : cut separators none (c :: rest) = _ := cut_plain opens escapes spanless
  cases found : separator? separators (c :: rest) with
  | none =>
    rw [found] at cutting
    refine .over ?_ (unquoted ▸ tail)
    rw [cutting, alone, unquoted]
  | some split =>
    obtain ⟨separator, after⟩ := split
    obtain ⟨whole, inhabited⟩ := eq_append_of_separator found
    have member : separator ∈ separators := mem_of_separator found
    rw [found] at cutting
    rw [whole] at reading later
    obtain ⟨begun, others, reading, places⟩ := reading.plain (plain separator member)
    have shorter : after.length < (separator ++ after).length := by
      have := List.length_pos_iff.mpr inhabited
      rw [List.length_append]
      omega
    rw [cutting, places]
    exact .hits separator (later shorter reading)

/-- Between double quotes the scanner goes over whatever holds no double quote. -/
private theorem cut_sealed {text : List Char} (rest : List Char) (sealed : holdsQuote text = false)
    (last : text.getLast? ≠ some '\\') :
    cut separators (some doubleQuote) (text ++ rest) =
      Pieces.before text (cut separators (some doubleQuote) rest) := by
  fun_induction holdsQuote text with
  | case1 => simp
  | case2 d text ih =>
    have open_ : text.getLast? ≠ some '\\' := fun final => last (by simp [List.getLast?_cons, final])
    rw [List.cons_append, List.cons_append, cut_protected, ih sealed open_, Pieces.before_before]
    rfl
  | case3 c text bare ih =>
    have open_ : text.getLast? ≠ some '\\' := fun final => last (by simp [List.getLast?_cons, final])
    simp only [Bool.or_eq_false_iff, beq_eq_false_iff_ne] at sealed
    rw [List.cons_append, cut_quoted, if_neg sealed.1, ih sealed.2 open_, Pieces.before_before]
    · rfl
    · rintro rfl -
      cases text with
      | nil => exact absurd rfl last
      | cons d text => exact absurd rfl (bare d text rfl)

private theorem holdsQuote_paren (command : List Char) :
    holdsQuote (command ++ [')']) = holdsQuote command := by
  fun_induction holdsQuote command with
  | case1 => rfl
  | case2 d text ih => simpa [holdsQuote] using ih
  | case3 c text bare ih =>
    cases text with
    | nil =>
      by_cases escaping : c = '\\'
      · subst escaping
        rfl
      · simp [holdsQuote, escaping, doubleQuote]
    | cons d text =>
      have escaping : c ≠ '\\' := fun same => bare d text same rfl
      rw [List.cons_append, holdsQuote, ih]
      exact fun _ _ same _ => escaping same

/-- What is cut out is exposed, as long as nothing has leaked. -/
private theorem agree_cut (plain : Plain separators) (quoting : Quoting quote)
    (reading : Reading false quote inWord text lexemes) :
    Agree (cut separators quote text).flags (lexemes.flatMap Lexeme.places) := by
  induction size : text.length using Nat.strongRecOn generalizing quote inWord text lexemes with
  | ind size ih =>
  subst size
  cases reading with
  | done => simpa [Pieces.flags] using Agree.nil
  | @step _ _ _ lexeme rest lexemes reads reading =>
    have shorter : rest.length < text.length := by
      obtain ⟨whole, inhabited⟩ := reads.eq_append
      have := List.length_pos_iff.mpr inhabited
      rw [whole, List.length_append]
      omega
    have later := ih _ shorter (quoting.quoteAfter reads) reading rfl
    cases reads with
    | @closing q _ =>
      refine .over ?_ later
      rw [cut_quoted, if_pos rfl]
      · rfl
      · exact fun same double => absurd (same.symm.trans double) (by decide)
    | single inside =>
      refine .over ?_ later
      rw [cut_quoted, if_neg inside]
      · rfl
      · exact fun _ double => absurd double (by decide)
    | guarded kept => exact .over (cut_protected _ _) later
    | unguarded stays =>
      -- the scanner takes the next character along, which the lexer reads on its own
      cases reading with
      | step reads reading =>
        cases reads with
        | closing => exact absurd (.inl rfl) stays
        | guarded => exact absurd (.inl rfl) stays
        | unguarded => exact absurd (.inl rfl) stays
        | quotedSpan found =>
          obtain ⟨more, same⟩ := opening_of_substitution found
          exact absurd (.inr (List.cons.inj same).1) stays
        | double =>
          have later := ih _ (Nat.lt_succ_of_lt (Nat.lt_succ_self _)) quoting reading rfl
          rw [cut_protected, flags_before _ (cut_ne_nil _)]
          change Agree _ ([Place.hidden, .hidden] ++ _)
          exact .passes rfl later
    | @quotedSpan _ command _ found =>
      cases leaks : holdsQuote command with
      | true =>
        have leaking : Lexeme.places (.span true command) =
            .leaking :: (Lexeme.places (.span true command)).tail := by
          simp [Lexeme.places, Lexeme.place, Lexeme.source, Lexeme.exposed, Lexeme.leaks, leaks, spanOf]
        rw [List.flatMap_cons, leaking]
        exact .leak
      | false =>
        refine .over ?_ later
        have sealed : holdsQuote (spanOf command) = false := by
          simpa [spanOf, holdsQuote, doubleQuote, holdsQuote_paren] using leaks
        rw [eq_append_of_substitution found]
        exact cut_sealed _ sealed (by rw [spanOf, List.getLast?_concat]; decide)
    | double inside escapes spanless =>
      refine .over ?_ later
      rw [cut_quoted, if_neg inside]
      · rfl
      · exact fun same _ => escapes same
    | escaped => exact .over (cut_escaped _ _) later
    | opening opens => exact .over (cut_quote opens) later
    | span found => exact .over (cut_span found) later
    | blank opens escapes spanless blank =>
      exact agree_exposed plain opens escapes spanless rfl rfl
        (.step (.blank opens escapes spanless blank) reading)
        (fun shorter reading => ih _ shorter quoting reading rfl) later
    | marking _ _ _ _ marks => cases marks
    | bare opens escapes spanless solid unmarked =>
      exact agree_exposed plain opens escapes spanless rfl rfl
        (.step (.bare opens escapes spanless solid unmarked) reading)
        (fun shorter reading => ih _ shorter quoting reading rfl) later

/-! ## Protection -/

private theorem plain_of_all {separators : List (List Char)}
    (all : separators.all (fun separator => separator.all inert) = true) : Plain separators :=
  fun separator member => List.all_eq_true.mp (List.all_eq_true.mp all separator member)

private theorem plain_lineMarks : Plain lineMarks := plain_of_all (by decide)

private theorem plain_stageMarks : Plain stageMarks := plain_of_all (by decide)

private theorem places_spread (lexemes : List Lexeme) :
    (lexemes.flatMap Lexeme.spread).flatMap Lexeme.places = lexemes.flatMap Lexeme.places := by
  rw [List.flatMap_assoc]
  congr 1
  funext lexeme
  cases lexeme with
  | marking mark => rcases mark with (_ | _ | _ | _) | _ <;> rfl
  | _ => simp [Lexeme.spread]

/-- The text that pieces were cut from. -/
def Pieces.source (pieces : Pieces) : List Char :=
  pieces.flatMap fun (piece, separator) => piece ++ separator.getD []

/-- The separator is cut out of the line at the position. -/
def CutAt (separators : List String) (line : String) (separator : List Char) (position : Nat) :
    Prop :=
  ∃ front piece back, pieces separators line = front ++ (piece, some separator) :: back ∧
    (Pieces.source front ++ piece).length = position

/-- The character at the position belongs to the lexeme. -/
def LiesIn (lexemes : List Lexeme) (position : Nat) (lexeme : Lexeme) : Prop :=
  ∃ front back, lexemes = front ++ lexeme :: back ∧
    (front.flatMap Lexeme.source).length ≤ position ∧
    position < (front.flatMap Lexeme.source).length + lexeme.source.length

/-- The character at the position is outside quotes, not behind a backslash and outside
substitutions. -/
def ExposedAt (lexemes : List Lexeme) (position : Nat) : Prop :=
  ∃ lexeme, LiesIn lexemes position lexeme ∧ lexeme.exposed = true

/-- A substitution between double quotes that has a double quote in it begins at the position or
before it. -/
def LeaksUpTo (lexemes : List Lexeme) (position : Nat) : Prop :=
  ∃ lexeme, ∃ earlier ≤ position, LiesIn lexemes earlier lexeme ∧ lexeme.leaks = true

private theorem liesIn_of_place {position : Nat} {place : Place}
    (found : (lexemes.flatMap Lexeme.places)[position]? = some place) :
    ∃ lexeme, LiesIn lexemes position lexeme ∧ lexeme.place = place := by
  induction lexemes generalizing position with
  | nil => cases found
  | cons lexeme lexemes ih =>
    rw [List.flatMap_cons, List.getElem?_append] at found
    split at found
    · rename_i inside
      have size : position < lexeme.source.length := by simpa [Lexeme.places] using inside
      refine ⟨lexeme, ⟨[], lexemes, rfl, by simp, by simpa using size⟩, ?_⟩
      simpa [Lexeme.places, size] using found
    · rename_i outside
      have size : lexeme.source.length ≤ position := by simpa [Lexeme.places] using outside
      obtain ⟨holder, ⟨front, back, whole, least, most⟩, place⟩ := ih found
      have width : lexeme.places.length = lexeme.source.length := by simp [Lexeme.places]
      rw [width] at least most
      refine ⟨holder, ⟨lexeme :: front, back, by simp [whole], ?_, ?_⟩, place⟩ <;>
        · simp only [List.flatMap_cons, List.length_append]
          omega

theorem Lexeme.place_eq_exposed : lexeme.place = .exposed ↔ lexeme.exposed = true := by
  unfold place
  split <;> rename_i shown
  · simp [shown]
  · split <;> simp [shown]

theorem Lexeme.place_eq_leaking : lexeme.place = .leaking ↔ lexeme.leaks = true := by
  unfold place
  split <;> rename_i shown
  · cases lexeme <;> simp_all [exposed, leaks]
  · split <;> simp_all

private theorem flags_of_cut {front back : Pieces} {piece separator : List Char} {index : Nat}
    (inside : index < separator.length) :
    (Pieces.flags (front ++ (piece, some separator) :: back))[
      (Pieces.source front ++ piece).length + index]? = some true := by
  have width : (Pieces.flags front).length = (Pieces.source front).length := by
    simp [Pieces.flags, Pieces.source, List.length_flatMap]
  have whole : Pieces.flags (front ++ (piece, some separator) :: back) =
      (Pieces.flags front ++ piece.map fun _ => false) ++
        ((separator.map fun _ => true) ++ Pieces.flags back) := by
    simp [Pieces.flags]
  have start : (Pieces.flags front ++ piece.map fun _ => false).length =
      (Pieces.source front ++ piece).length := by
    simp [width]
  rw [whole, ← start, List.getElem?_append_right (Nat.le_add_right _ _), Nat.add_sub_cancel_left,
    List.getElem?_append_left (by simpa using inside)]
  simp [inside]

/-- The lexer puts together what it reads from lexemes, and each character of a separator that the
scanner cuts out of the same text is exposed among them; unless the lexer has kept a substitution
between double quotes, there or before, that holds a double quote. -/
theorem cuts_exposed (marks : Bool) (line : String) :
    (∃ lexemes, Reading marks none false line.toList lexemes) ∧
    ∀ lexemes, Reading marks none false line.toList lexemes →
      lex marks none none line.toList = assemble none lexemes ∧
      ∀ separators ∈ [operators.map Operator.mark, ["||", "|"]],
        ∀ separator position, CutAt separators line separator position →
          ∀ index < separator.length,
            ExposedAt lexemes (position + index) ∨ LeaksUpTo lexemes (position + index) := by
  have quoting : Quoting none := fun q impossible => nomatch impossible
  refine ⟨exists_reading marks false none _ quoting,
    fun lexemes reading => ⟨reading.lex_eq rfl, ?_⟩⟩
  rintro separators listed separator position ⟨front, piece, back, cutting, rfl⟩ index inside
  have plain : Plain (separators.map String.toList) := by
    simp only [List.mem_cons, List.not_mem_nil, or_false] at listed
    rcases listed with rfl | rfl
    · exact plain_lineMarks
    · exact plain_stageMarks
  have agree := agree_cut plain quoting (reading.spread false)
  rw [places_spread] at agree
  change Agree (Pieces.flags (pieces separators line)) _ at agree
  rw [cutting] at agree
  rcases agree.index (flags_of_cut inside) with found | ⟨earlier, bound, found⟩
  · obtain ⟨lexeme, lies, place⟩ := liesIn_of_place found
    exact .inl ⟨lexeme, lies, Lexeme.place_eq_exposed.mp place⟩
  · obtain ⟨lexeme, lies, place⟩ := liesIn_of_place found
    exact .inr ⟨lexeme, earlier, bound, lies, Lexeme.place_eq_leaking.mp place⟩

private theorem LiesIn.mem {position : Nat} (lies : LiesIn lexemes position lexeme) :
    lexeme ∈ lexemes := by
  obtain ⟨front, back, rfl, -⟩ := lies
  simp

private theorem reading_sealed : Reading true none false "\"$(a)\";b".toList
    [.opening '"', .span true ['a'], .closing '"', .bare ';', .bare 'b'] := by
  change Reading true none false ['"', '$', '(', 'a', ')', '"', ';', 'b'] _
  have span : Reads true true (some doubleQuote) ['$', '(', 'a', ')', '"', ';', 'b']
      (.span true ['a']) ['"', ';', 'b'] := .quotedSpan (by decide)
  refine .step (.opening rfl) (.step span (.step .closing ?_))
  exact .step (.bare rfl nofun rfl rfl fun _ => rfl)
    (.step (.bare rfl nofun rfl rfl fun _ => rfl) .done)

/-- Behind a substitution between double quotes that holds no double quote the line is cut where the
lexer reads a bare character. -/
theorem exposed_behind_span : ∃ lexemes, Reading true none false "\"$(a)\";b".toList lexemes ∧
    CutAt (operators.map Operator.mark) "\"$(a)\";b" [';'] 6 ∧ ExposedAt lexemes 6 := by
  have cutting : CutAt (operators.map Operator.mark) "\"$(a)\";b" [';'] 6 :=
    ⟨[], "\"$(a)\"".toList, [(['b'], none)], by decide +kernel, rfl⟩
  refine ⟨_, reading_sealed, cutting, ?_⟩
  obtain ⟨-, exposed⟩ := (cuts_exposed true "\"$(a)\";b").2 _ reading_sealed
  rcases exposed _ (by simp) _ _ cutting 0 (by decide) with exposed | ⟨lexeme, _, _, lies, leaks⟩
  · exact exposed
  · have tight : ∀ lexeme ∈ [Lexeme.opening '"', .span true ['a'], .closing '"', .bare ';',
        .bare 'b'], lexeme.leaks = false := by
      simp [Lexeme.leaks, holdsQuote, doubleQuote]
    exact absurd leaks (by simp [tight lexeme lies.mem])

/-- A semicolon in a substitution that the lexer keeps in one word, quotes and all, splits the line
nevertheless: the substitution stands between double quotes and has double quotes of its own. -/
theorem cut_within_span : ∃ lexemes, Reading true none false "\"$(\";\")\"".toList lexemes ∧
    lex true none none "\"$(\";\")\"".toList = [.word "$(\";\")"] ∧
    CutAt (operators.map Operator.mark) "\"$(\";\")\"" [';'] 4 ∧ ¬ ExposedAt lexemes 4 ∧
    parseLine "\"$(\";\")\"" =
      [⟨[⟨"$(", [], none, none⟩], .sequence⟩, ⟨[⟨")", [], none, none⟩], .done⟩] := by
  have reading : Reading true none false ['"', '$', '(', '"', ';', '"', ')', '"']
      [.opening '"', .span true ['"', ';', '"'], .closing '"'] := by
    have span : Reads true true (some doubleQuote) ['$', '(', '"', ';', '"', ')', '"']
        (.span true ['"', ';', '"']) ['"'] := .quotedSpan (by decide)
    exact .step (.opening rfl) (.step span (.step .closing .done))
  refine ⟨_, reading, by decide +kernel, ⟨[], "\"$(\"".toList, [("\")\"".toList, none)],
    by decide +kernel, rfl⟩, ?_, by decide +kernel⟩
  rintro ⟨lexeme, ⟨front, back, whole, least, most⟩, exposed⟩
  have shut : ∀ lexeme ∈ [Lexeme.opening '"', .span true ['"', ';', '"'], .closing '"'],
      lexeme.exposed = false := by
    simp [Lexeme.exposed]
  exact absurd exposed (by simp [shut lexeme (by simp [whole])])

end PocketShell.Shell
