import PocketShell.Proofs.Shell.Protection
import PocketShell.Proofs.Shell.Spans

/-! Commands within substitutions. A command that is complete for the lexer, in quotes, escapes and
substitutions, can stand in a substitution as it is if it is balanced. It is, unless a backslash
outside quotes hides a quote or a parenthesis from the lexer, or a substitution between double
quotes holds a double quote: the finder of the closing parenthesis goes by neither. -/
namespace PocketShell.Shell

open Text (singleQuote doubleQuote)

deriving instance DecidableEq for Lexeme

variable {depth : Nat} {inWord : Bool} {quote : Option Char}
  {text inner after rest command : List Char} {lexeme : Lexeme} {lexemes : List Lexeme}

/-- The lexemes end outside quotes and not with a backslash that escapes nothing, every substitution
that opens outside quotes is closed, and no parenthesis closes what is not open. -/
structure SelfContained (lexemes : List Lexeme) : Prop where
  unquoted : lexemes.foldl (fun quote lexeme => lexeme.quoteAfter quote) none = none
  finished : Lexeme.bare '\\' ∉ lexemes
  closed : ¬ [Lexeme.bare '$', .bare '('] <:+: lexemes
  unclosing : Lexeme.bare ')' ∉ lexemes

/-- The finder takes the lexeme for something else than the lexer does. -/
def Lexeme.misleads : Lexeme → Bool
  | .escaped c => isQuote c || c == ')'
  | lexeme => lexeme.leaks

/-- No lexeme misleads the finder, and no dollar sign behind a backslash stands before an opening
parenthesis. -/
structure Straight (lexemes : List Lexeme) : Prop where
  plain : ∀ lexeme ∈ lexemes, lexeme.misleads = false
  opening : ¬ [Lexeme.escaped '$', .bare '('] <:+: lexemes

private theorem sealed_span (tight : holdsQuote command = false) : Sealed (spanOf command) := by
  have body : Sealed (command ++ [')']) := by
    fun_induction holdsQuote command with
    | case1 => exact .char (by decide) (by decide) .nil
    | case2 d text ih => exact .pair (ih tight)
    | case3 c text bare ih =>
      simp only [Bool.or_eq_false_iff, beq_eq_false_iff_ne] at tight
      by_cases escaping : c = '\\'
      · -- a backslash at the end takes the closing parenthesis along
        cases text with
        | nil => rw [escaping]; exact .pair .nil
        | cons d text => exact absurd rfl (bare d text escaping)
      · exact .char escaping tight.1 (ih tight.2)
  exact .char (by decide) (by decide) (.char (by decide) (by decide) body)

private theorem Sealed.goesOn (hidden : Sealed text) (closes : Closes depth (some doubleQuote) rest) :
    Closes depth (some doubleQuote) (text ++ rest) := by
  induction hidden with
  | nil => exact closes
  | pair _ ih => exact .pair ih
  | char escapes inside _ ih =>
    exact .quoted (fun both => escapes both.1) (by rw [if_neg inside]; exact ih)

private theorem Reading.of_paren (reading : Reading false none inWord ('(' :: rest) lexemes) :
    ∃ others, lexemes = .bare '(' :: others := by
  cases reading with
  | step reads _ =>
    cases reads with
    | opening opens => cases opens
    | span found => cases found
    | blank _ _ _ blank => cases blank
    | marking _ _ _ _ marks => cases marks
    | bare => exact ⟨_, rfl⟩

private theorem closes_span (found : substitution? text = some (command, rest))
    (closes : Closes depth none rest) : Closes depth none text := by
  have whole := eq_append_of_substitution found
  rw [whole] at found ⊢
  have balanced := substitution_iff_balanced.mp found
  simp only [spanOf, List.cons_append, List.append_assoc, List.nil_append]
  exact .opening (balanced.closes (.closing closes) (by simp))

/-- The finder goes over a lexeme that does not mislead it. -/
private theorem Reads.closes (reads : Reads false inWord quote text lexeme rest)
    (straight : lexeme.misleads = false) (unclosing : lexeme ≠ .bare ')')
    (apart : lexeme = .bare '$' ∨ lexeme = .escaped '$' → rest.head? ≠ some '(')
    (closes : Closes depth (lexeme.quoteAfter quote) rest) : Closes depth quote text := by
  cases reads with
  | @closing q _ =>
    have bare : ¬ (q = '\\' ∧ q = doubleQuote) := by
      rintro ⟨rfl, impossible⟩
      exact absurd impossible (by decide)
    exact .quoted bare (by rw [if_pos rfl]; exact closes)
  | single inside =>
    exact .quoted (fun both => absurd both.2 (by decide)) (by rw [if_neg inside]; exact closes)
  | guarded => exact .pair closes
  | unguarded stays =>
    -- the finder takes the next character along, which the lexer reads on its own
    cases closes with
    | pair => exact absurd (.inl rfl) stays
    | quoted _ closes =>
      split at closes
      · rename_i double
        exact absurd (.inl (by rw [double]; rfl)) stays
      · exact .pair closes
  | quotedSpan found =>
    rw [eq_append_of_substitution found]
    exact (sealed_span straight).goesOn closes
  | double inside escapes =>
    refine .quoted (fun both => ?_) (by rw [if_neg inside]; exact closes)
    rw [escapes both.1] at closes
    cases closes
  | @escaped d _ =>
    simp only [Lexeme.misleads, Bool.or_eq_false_iff, beq_eq_false_iff_ne] at straight
    refine .plain rfl (by decide) (fun impossible => absurd impossible (by decide)) ?_
    exact .plain straight.1 straight.2 (fun dollar => apart (.inr (by rw [dollar]))) closes
  | opening opens => exact .quote opens closes
  | span found => exact closes_span found closes
  | @blank c _ opens _ _ blank =>
    have apart : c ≠ ')' ∧ c ≠ '$' := by
      constructor <;>
        · rintro rfl
          cases blank
    exact .plain opens apart.1 (fun dollar => absurd dollar apart.2) closes
  | marking _ _ _ _ marks => cases marks
  | bare opens =>
    exact .plain opens (fun same => unclosing (by rw [same]))
      (fun dollar => apart (.inl (by rw [dollar]))) closes

/-- By induction on the lexemes; what the finder has open behind a lexeme is what the lexer has. -/
private theorem closes_of_reading (reading : Reading false quote inWord text lexemes)
    (unquoted : lexemes.foldl (fun quote lexeme => lexeme.quoteAfter quote) quote = none)
    (closed : ¬ [Lexeme.bare '$', .bare '('] <:+: lexemes)
    (unclosing : Lexeme.bare ')' ∉ lexemes) (straight : Straight lexemes) :
    Closes 0 quote text := by
  induction reading with
  | done =>
    obtain rfl : _ = none := unquoted
    exact .done
  | @step _ _ _ lexeme rest lexemes reads reading ih =>
    simp only [List.mem_cons, not_or] at unclosing
    have further : Straight lexemes :=
      ⟨fun lexeme member => straight.plain lexeme (List.mem_cons_of_mem _ member),
        fun listed => straight.opening (List.infix_cons listed)⟩
    have closes := ih unquoted (fun listed => closed (List.infix_cons listed)) unclosing.2 further
    refine reads.closes (straight.plain _ List.mem_cons_self) (Ne.symm unclosing.1) ?_ closes
    intro dollar begins
    obtain ⟨rest, rfl⟩ := List.head?_eq_some_iff.mp begins
    rcases dollar with rfl | rfl
    · cases reads
      obtain ⟨others, rfl⟩ := reading.of_paren
      exact closed (List.prefix_append [Lexeme.bare '$', .bare '('] others).isInfix
    · cases reads
      obtain ⟨others, rfl⟩ := reading.of_paren
      exact straight.opening (List.prefix_append [Lexeme.escaped '$', .bare '('] others).isInfix

/-- A command that is complete for the lexer can stand in a substitution, whatever follows, and is
then one word with one part, exactly if it is balanced; and it is if nothing in it misleads the
finder. -/
theorem embedded_whole_iff (reading : Reading false none false command lexemes)
    (contained : SelfContained lexemes) :
    ((∀ rest, substitution? (spanOf command ++ rest) = some (command, rest)) ∧
      words (String.ofList (spanOf command)) = [String.ofList (spanOf command)] ∧
      parts (spanOf command) = [.command command] ↔ Balanced command) ∧
    (Straight lexemes → Balanced command) := by
  refine ⟨⟨fun embedded => substitution_iff_balanced.mp (embedded.1 []), fun balanced => ?_⟩,
    fun straight => ?_⟩
  · have found : ∀ rest, substitution? (spanOf command ++ rest) = some (command, rest) :=
      fun rest => substitution_iff_balanced.mpr balanced
    have alone : substitution? (spanOf command) = some (command, []) := by simpa using found []
    refine ⟨found, ?_, by rw [parts_span alone, parts_nil]⟩
    rw [words, String.toList_ofList, lex_span alone, lex_nil]
    rfl
  · have closes := closes_of_reading reading contained.unquoted contained.closed
      contained.unclosing straight
    exact closes_iff_balanced.mp closes

/-- Two substitutions, one of them between double quotes, and a parenthesis in single quotes. -/
private def nestedCommand : List Char := "\"$(b)\" ')' $(c)".toList

private def nestedLexemes : List Lexeme :=
  [.opening '"', .span true ['b'], .closing '"', .blank ' ', .opening '\x27',
    .quoted '\x27' ')', .closing '\x27', .blank ' ', .span false ['c']]

private theorem reading_nested : Reading false none false nestedCommand nestedLexemes := by
  change Reading false none false ['"', '$', '(', 'b', ')', '"', ' ', '\x27', ')', '\x27', ' ',
    '$', '(', 'c', ')'] _
  have inner : Reads false true (some doubleQuote) ['$', '(', 'b', ')', '"', ' ', '\x27', ')', '\x27',
      ' ', '$', '(', 'c', ')'] (.span true ['b']) ['"', ' ', '\x27', ')', '\x27', ' ', '$', '(', 'c', ')'] :=
    .quotedSpan (by decide)
  have last : Reads false false none ['$', '(', 'c', ')'] (.span false ['c']) [] :=
    .span (by decide)
  have blank {inWord : Bool} {rest : List Char} :
      Reads false inWord none (' ' :: rest) (.blank ' ') rest :=
    .blank rfl nofun rfl rfl
  refine .step (.opening rfl) (.step inner (.step .closing (.step blank ?_)))
  exact .step (.opening rfl) (.step (.single (by decide)) (.step .closing (.step blank
    (.step last .done))))

/-- They stand in a substitution as they are. -/
theorem embedded_nested : ∃ lexemes, Reading false none false nestedCommand lexemes ∧
    SelfContained lexemes ∧ Straight lexemes ∧
    parts (spanOf nestedCommand) = [.command nestedCommand] := by
  have contained : SelfContained nestedLexemes :=
    ⟨rfl, by decide, by decide, by decide⟩
  have straight : Straight nestedLexemes := ⟨by decide, by decide⟩
  obtain ⟨whole, balanced⟩ := embedded_whole_iff reading_nested contained
  exact ⟨_, reading_nested, contained, straight, (whole.mpr (balanced straight)).2.2⟩

/-- A backslash outside quotes hides a parenthesis or a quote from the lexer only, and a substitution
between double quotes may hold double quotes for the lexer only. The finder closes the first command
too early, does not close the second and cuts the third in its inner quotes. -/
theorem misled_finder :
    (Reading false none false ['\\', ')'] [.escaped ')'] ∧ SelfContained [.escaped ')'] ∧
      parts (spanOf ['\\', ')']) = [.command ['\\'], .literal [')']]) ∧
    (Reading false none false ['\\', '"'] [.escaped '"'] ∧ SelfContained [.escaped '"'] ∧
      substitution? (spanOf ['\\', '"']) = none) ∧
    ∃ lexemes, Reading false none false "\"$(\")\")\"".toList lexemes ∧ SelfContained lexemes ∧
      parts (spanOf "\"$(\")\")\"".toList) = [.command "\"$(\"".toList, .literal "\")\")".toList] := by
  refine ⟨⟨.step .escaped .done, ⟨rfl, by decide, by decide, by decide⟩, by decide +kernel⟩,
    ⟨.step .escaped .done, ⟨rfl, by decide, by decide, by decide⟩, by decide⟩,
    [.opening '"', .span true ['"', ')', '"'], .closing '"'], ?_,
    ⟨rfl, by decide, by decide, by decide⟩, by decide +kernel⟩
  change Reading false none false ['"', '$', '(', '"', ')', '"', ')', '"'] _
  have span : Reads false true (some doubleQuote) ['$', '(', '"', ')', '"', ')', '"']
      (.span true ['"', ')', '"']) ['"'] := .quotedSpan (by decide)
  exact .step (.opening rfl) (.step span (.step .closing .done))

end PocketShell.Shell
