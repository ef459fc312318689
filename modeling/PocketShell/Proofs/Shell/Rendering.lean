import PocketShell.Proofs.Shell.Scanning
import PocketShell.Shell.Variable

/-! Reading back a written command line. A line is written with every word in single quotes; the
scanner that finds the operators, the one that finds the pipes and the lexer of a stage all take
such a word whole, so that whatever stands in it, parsing gives the same segments again. -/
namespace PocketShell.Shell

open Text (singleQuote)

variable {separators : List (List Char)} {marks : Bool} {text more rest : List Char}

/-! ## Writing -/

/-- A character within single quotes; a single quote has to leave them. -/
def spell (c : Char) : List Char :=
  if c = singleQuote then [singleQuote, '\\', singleQuote, singleQuote] else [c]

/-- A word in single quotes. -/
def writeWord (word : String) : List Char :=
  singleQuote :: word.toList.flatMap spell ++ [singleQuote]

/-- A redirection behind what stands before it. -/
def writeRedirect (mark : Mark) (path : String) : List Char :=
  [' '] ++ mark.text.toList ++ [' '] ++ writeWord path

/-- The redirection of output, if there is one. -/
def writeOutput : Option (Redirect × String) → List Char
  | some (redirect, path) => writeRedirect (.output redirect) path
  | none => []

/-- The redirection of input, if there is one. -/
def writeInput : Option String → List Char
  | some path => writeRedirect .input path
  | none => []

/-- The redirections of an action, in one order or the other. -/
def writeRedirects (inputFirst : Bool) (action : Action) : List Char :=
  if inputFirst then writeInput action.input ++ writeOutput action.output
  else writeOutput action.output ++ writeInput action.input

/-- The words of an action and its redirections. -/
def writeAction (inputFirst : Action → Bool) (action : Action) : List Char :=
  writeWord action.name ++ action.args.flatMap (fun word => [' '] ++ writeWord word) ++
    writeRedirects (inputFirst action) action

/-- Actions joined by pipes. -/
def writePipeline (inputFirst : Action → Bool) : Pipeline → List Char
  | [] => []
  | [action] => writeAction inputFirst action
  | action :: stages =>
    writeAction inputFirst action ++ [' ', '|', ' '] ++ writePipeline inputFirst stages

/-- Segments joined by their operators. -/
def writeLine (inputFirst : Action → Bool) : List Segment → List Char
  | [] => []
  | [segment] => writePipeline inputFirst segment.pipeline
  | segment :: segments => writePipeline inputFirst segment.pipeline ++ [' '] ++
      segment.operator.mark.toList ++ [' '] ++ writeLine inputFirst segments

/-- The action with the dollar signs of all its texts protected. -/
def Action.escaped (action : Action) : Action where
  name := escapeDollars action.name
  args := action.args.map escapeDollars
  output := action.output.map fun (redirect, path) => (redirect, escapeDollars path)
  input := action.input.map escapeDollars

/-- The segment with its actions escaped. -/
def Segment.escaped (segment : Segment) : Segment :=
  { segment with pipeline := segment.pipeline.map Action.escaped }

/-! ## Scanning -/

/-- The scanner goes over the text without a cut, whatever follows it. -/
private def Passes (separators : List (List Char)) (text : List Char) : Prop :=
  ∀ rest, cut separators none (text ++ rest) = Pieces.before text (cut separators none rest)

private theorem Passes.nil : Passes separators [] := by
  simp [Passes]

private theorem Passes.append (first : Passes separators text) (second : Passes separators more) :
    Passes separators (text ++ more) := by
  intro rest
  rw [List.append_assoc, first, second, Pieces.before_before]

/-- At the end the text is the last piece. -/
private theorem Passes.cut_eq (passes : Passes separators text) :
    cut separators none text = [(text, none)] := by
  simpa using passes []

private theorem cut_spelled (cs rest : List Char) :
    cut separators (some singleQuote) (cs.flatMap spell ++ singleQuote :: rest) =
      Pieces.before (cs.flatMap spell ++ [singleQuote]) (cut separators none rest) := by
  have inner : ∀ (c : Char) (rest : List Char), cut separators (some singleQuote) (c :: rest) =
      Pieces.before [c]
        (cut separators (if c = singleQuote then none else some singleQuote) rest) :=
    fun c rest => cut_quoted fun _ double => absurd double (by decide)
  induction cs with
  | nil => simp [inner]
  | cons c cs ih =>
    by_cases leaves : c = singleQuote
    · subst leaves
      simp only [List.flatMap_cons, spell, ↓reduceIte, List.cons_append, List.nil_append, inner,
        cut_escaped, cut_quote (q := singleQuote) (by decide), ih, Pieces.before_before]
    · simp [spell, leaves, inner, ih]

private theorem passes_writeWord (word : String) : Passes separators (writeWord word) := by
  intro rest
  simp [writeWord, cut_quote (q := singleQuote) (by decide), cut_spelled]

/-- What a piece keeps of the blanks around the separators. -/
private inductive Pad : List Char → Prop
  | none : Pad []
  | blank : Pad [' ']

/-- The two lists of separators that lines are cut at. -/
private inductive Cuts : List (List Char) → Prop
  | line : Cuts lineMarks
  | stage : Cuts stageMarks

private theorem passes_blank (cuts : Cuts separators) : Passes separators [' '] := by
  intro rest
  cases cuts <;> exact cut_inert rfl rfl

private theorem passes_mark (cuts : Cuts separators) (mark : Mark) :
    Passes separators mark.text.toList := by
  have single : ∀ c, inert c = true → (∀ rest, separator? separators (c :: rest) = none) →
      Passes separators [c] :=
    fun c idle stays rest => cut_inert idle (stays rest)
  have angle : Passes separators ['>'] := by
    cases cuts <;> exact single _ rfl fun _ => rfl
  rcases mark with _ | _
  · rename_i redirect
    cases redirect with
    | overwrite => exact angle
    | append => exact angle.append angle
    | errors =>
      have digit : Passes separators ['2'] := by
        cases cuts <;> exact single _ rfl fun _ => rfl
      exact digit.append angle
    | both =>
      -- by itself the first character could be half of an operator
      intro rest
      change cut separators none ('&' :: (['>'] ++ rest)) = Pieces.before (['&'] ++ ['>']) _
      rw [cut_inert rfl (by cases cuts <;> rfl), angle,
        Pieces.before_before]
  · cases cuts <;> exact single _ rfl fun _ => rfl

private theorem passes_writeRedirect (cuts : Cuts separators) (mark : Mark) (path : String) :
    Passes separators (writeRedirect mark path) := by
  have blank := passes_blank cuts
  exact ((blank.append (passes_mark cuts mark)).append blank).append (passes_writeWord path)

private theorem passes_writeRedirects (cuts : Cuts separators) (inputFirst : Bool)
    (action : Action) : Passes separators (writeRedirects inputFirst action) := by
  have output : Passes separators (writeOutput action.output) := by
    cases action.output with
    | none => exact .nil
    | some target => exact passes_writeRedirect cuts _ _
  have input : Passes separators (writeInput action.input) := by
    cases action.input with
    | none => exact .nil
    | some path => exact passes_writeRedirect cuts _ _
  unfold writeRedirects
  split
  · exact input.append output
  · exact output.append input

private theorem passes_writeAction (cuts : Cuts separators) (inputFirst : Action → Bool)
    (action : Action) : Passes separators (writeAction inputFirst action) := by
  have args : Passes separators (action.args.flatMap fun word => [' '] ++ writeWord word) := by
    induction action.args with
    | nil => exact .nil
    | cons word words ih => exact ((passes_blank cuts).append (passes_writeWord word)).append ih
  exact ((passes_writeWord _).append args).append (passes_writeRedirects cuts _ _)

private theorem passes_writePipeline (inputFirst : Action → Bool) (pipeline : Pipeline) :
    Passes lineMarks (writePipeline inputFirst pipeline) := by
  have pipe : Passes lineMarks [' ', '|', ' '] := by
    intro rest
    change cut _ none (' ' :: '|' :: ' ' :: rest) = _
    rw [cut_inert rfl rfl, cut_inert rfl rfl,
      cut_inert rfl rfl, Pieces.before_before, Pieces.before_before]
    rfl
  induction pipeline with
  | nil => exact .nil
  | cons action stages ih =>
    have first := passes_writeAction .line inputFirst action
    cases stages with
    | nil => exact first
    | cons next stages => exact (first.append pipe).append ih

/-! ## Words and marks -/

theorem toList_escapeDollars (text : String) :
    (escapeDollars text).toList = text.toList.flatMap literally := by
  rw [escapeDollars, Text.replaceAll, String.toList_ofList]
  change Text.replaceFrom ['$'] ['\\', '$'] 0 text.toList = _
  induction text.toList with
  | nil => rfl
  | cons c cs ih =>
    rw [Text.replaceFrom, List.flatMap_cons]
    by_cases dollar : c = '$'
    · subst dollar
      simp [literally, ih]
    · simp [literally, dollar, Ne.symm dollar, ih]

/-- Between single quotes every character is taken as it is, a single quote too. -/
theorem lex_spelled (cs rest built : List Char) :
    lex marks (some singleQuote) (some built) (cs.flatMap spell ++ singleQuote :: rest) =
      lex marks none (some (built ++ cs.flatMap literally)) rest := by
  induction cs generalizing built with
  | nil => simp [lex_close]
  | cons c cs ih =>
    by_cases leaves : c = singleQuote
    · subst leaves
      have step := ih (built ++ literally singleQuote)
      simp only [List.flatMap_cons, spell, ↓reduceIte, List.cons_append, List.nil_append,
        lex_close, lex_escaped, lex_quote (q := singleQuote) (by decide), grow, Option.getD_some,
        List.append_nil, step, List.append_assoc]
    · simp [spell, leaves, lex_singleQuoted leaves, grow, ih]

/-- The text ends a word, and tokens begin anew with it. -/
private def Ends (rest : List Char) : Prop := ∀ built : List Char,
  lex true none (some built) rest = .word (String.ofList built) :: lex true none none rest

private theorem lex_blank (word : Option (List Char)) (rest : List Char) :
    lex true none word (' ' :: rest) = flush word ++ lex true none none rest := by
  rw [lex_plain rfl (fun same => absurd same (by decide)) rfl, if_pos (by decide)]

private theorem ends_nil : Ends [] := by
  intro built
  simp [flush]

private theorem ends_blank (rest : List Char) : Ends (' ' :: rest) := by
  intro built
  rw [lex_blank, lex_blank]
  rfl

private theorem lex_writeWord (word : String) (ends : Ends rest) :
    lex true none none (writeWord word ++ rest) =
      .word (escapeDollars word) :: lex true none none rest := by
  have quoted : lex true _ _ _ = _ := lex_spelled word.toList rest []
  simp only [writeWord, List.cons_append, List.append_assoc, lex_quote (q := singleQuote) rfl, grow,
    Option.getD_none, List.nil_append]
  rw [quoted, ends, ← toList_escapeDollars]
  simp

/-- The text is read as the tokens, whatever follows, and ends the word before it. -/
private structure Gives (text : List Char) (tokens : List Token) : Prop where
  ends : ∀ {rest}, Ends rest → Ends (text ++ rest)
  read : ∀ {rest}, Ends rest → lex true none none (text ++ rest) = tokens ++ lex true none none rest

variable {tokens others : List Token}

private theorem Gives.nil : Gives [] [] := ⟨id, fun _ => rfl⟩

private theorem Gives.append (first : Gives text tokens) (second : Gives more others) :
    Gives (text ++ more) (tokens ++ others) where
  ends ending := by
    rw [List.append_assoc]
    exact first.ends (second.ends ending)
  read ending := by
    rw [List.append_assoc, first.read (second.ends ending), second.read ending, List.append_assoc]

private theorem gives_word (word : String) :
    Gives ([' '] ++ writeWord word) [.word (escapeDollars word)] where
  ends _ := ends_blank _
  read ending := by
    rw [List.append_assoc, List.singleton_append, lex_blank, lex_writeWord word ending]
    rfl

private theorem lex_mark (mark : Mark) (rest : List Char) :
    lex true none none (mark.text.toList ++ ' ' :: rest) =
      .mark mark :: lex true none none (' ' :: rest) := by
  rcases mark with (_ | _ | _ | _) | _ <;>
    exact lex_plain rfl (fun same => absurd same (by decide)) rfl

private theorem gives_writeRedirect (mark : Mark) (path : String) :
    Gives (writeRedirect mark path) [.mark mark, .word (escapeDollars path)] where
  ends _ := ends_blank _
  read ending := by
    have target := (gives_word path).read ending
    simp only [List.cons_append, List.nil_append] at target
    simp only [writeRedirect, List.append_assoc, List.cons_append, List.nil_append]
    rw [lex_blank, lex_mark, target]
    rfl

/-- The tokens of the redirections of an action. -/
private def redirectTokens (inputFirst : Bool) (action : Action) : List Token :=
  let output := match action.output with
    | some (redirect, path) => [Token.mark (.output redirect), .word path]
    | none => []
  let input := match action.input with
    | some path => [Token.mark .input, .word path]
    | none => []
  if inputFirst then input ++ output else output ++ input

private theorem gives_writeRedirects (inputFirst : Bool) (action : Action) :
    Gives (writeRedirects inputFirst action) (redirectTokens inputFirst action.escaped) := by
  have output : Gives (writeOutput action.output) (match action.escaped.output with
      | some (redirect, path) => [.mark (.output redirect), .word path]
      | none => []) := by
    unfold Action.escaped
    cases action.output with
    | none => exact .nil
    | some target => exact gives_writeRedirect _ _
  have input : Gives (writeInput action.input) (match action.escaped.input with
      | some path => [.mark .input, .word path]
      | none => []) := by
    unfold Action.escaped
    cases action.input with
    | none => exact .nil
    | some path => exact gives_writeRedirect _ _
  unfold writeRedirects redirectTokens
  split
  · exact input.append output
  · exact output.append input

/-- Blanks around a stage make no difference to its tokens. -/
private theorem lex_writeAction (inputFirst : Action → Bool) (action : Action)
    {front back : List Char} (before : Pad front) (behind : Pad back) :
    lex true none none (front ++ writeAction inputFirst action ++ back) =
      (action.escaped.name :: action.escaped.args).map .word ++
        redirectTokens (inputFirst action) action.escaped := by
  have args : Gives (action.args.flatMap fun word => [' '] ++ writeWord word)
      ((action.args.map escapeDollars).map .word) := by
    induction action.args with
    | nil => exact .nil
    | cons word words ih => exact (gives_word word).append ih
  have whole := args.append (gives_writeRedirects (inputFirst action) action)
  have closed : Ends back ∧ lex true none none back = [] := by
    cases behind
    · exact ⟨ends_nil, by simp [flush]⟩
    · exact ⟨ends_blank [], by simp [lex_blank, flush]⟩
  have trimmed : lex true none none (front ++ writeAction inputFirst action ++ back) =
      lex true none none (writeAction inputFirst action ++ back) := by
    cases before
    · rfl
    · rw [List.append_assoc, List.singleton_append, lex_blank]
      rfl
  rw [trimmed, writeAction, List.append_assoc, List.append_assoc,
    lex_writeWord action.name (by rw [← List.append_assoc]; exact whole.ends closed.1),
    ← List.append_assoc, whole.read closed.1, closed.2]
  simp [Action.escaped]

/-! ## Actions -/

/-- Words that no mark stands before are passed over. -/
private theorem takeRedirect_words (mark : Mark) (words : List String)
    (slots : List (Option Token)) :
    takeRedirect mark (words.map (some <| .word ·) ++ slots) =
      (takeRedirect mark slots).map fun (path, rest) =>
        (path, words.map (some <| .word ·) ++ rest) := by
  induction words with
  | nil => simp
  | cons word words ih =>
    simp [takeRedirect, ih]
    rfl

private theorem takeRedirect_only_words (mark : Mark) (words : List String) :
    takeRedirect mark (words.map (some <| .word ·)) = none := by
  simpa [takeRedirect] using takeRedirect_words mark words []

private theorem takeOutput_words (words : List String) (slots : List (Option Token)) :
    takeOutput (words.map (some <| .word ·) ++ slots) =
      (takeOutput slots).map fun (target, rest) =>
        (target, words.map (some <| .word ·) ++ rest) := by
  unfold takeOutput
  rw [List.map_findSome?]
  congr 1
  funext redirect
  rw [takeRedirect_words]
  cases found : takeRedirect (.output redirect) slots <;> simp [found]

private theorem parseAction_eq {stage : String} {action : Action} {inputFirst : Bool}
    (read : lex true none none stage.toList =
      (action.name :: action.args).map .word ++ redirectTokens inputFirst action) :
    parseAction stage = some action := by
  obtain ⟨name, args, output, input⟩ := action
  unfold parseAction
  simp only [read, List.map_append, List.map_map, Function.comp_def, takeOutput_words]
  -- the words are only taken apart once the redirections are gone
  generalize whole : name :: args = words
  rcases output with _ | ⟨_ | _ | _ | _, path⟩ <;> rcases input with _ | source <;>
    cases inputFirst <;>
    simp [redirectTokens, takeOutput, takeRedirect, Redirect.byPrecedence, takeRedirect_words,
      takeRedirect_only_words, Function.comp_def, Token.text, ← whole]

private theorem parseAction_writeAction (inputFirst : Action → Bool) (action : Action)
    {front back : List Char} (before : Pad front) (behind : Pad back) :
    parseAction (String.ofList (front ++ writeAction inputFirst action ++ back)) =
      some action.escaped := by
  apply parseAction_eq
  rw [String.toList_ofList]
  exact lex_writeAction inputFirst action before behind

/-! ## Pipelines and lines -/

/-- At a separator that follows it, the text is a piece of its own. -/
private theorem Passes.cut_append {separator : List Char} (passes : Passes separators text)
    {c : Char} (idle : inert c = true)
    (cuts : separator? separators (c :: more) = some (separator, rest)) :
    cut separators none (text ++ c :: more) = (text, some separator) :: cut separators none rest := by
  obtain ⟨opens, escapes, spanless⟩ := plain_of_inert idle more
  rw [passes, cut_plain opens escapes spanless, cuts]
  simp

private theorem passes_front (cuts : Cuts separators) {front : List Char} (before : Pad front) :
    Passes separators front := by
  cases before
  · exact .nil
  · exact passes_blank cuts

private theorem parsePipeline_writePipeline (inputFirst : Action → Bool) (pipeline : Pipeline)
    {front back : List Char} (before : Pad front) (behind : Pad back) (inhabited : pipeline ≠ []) :
    parsePipeline (String.ofList (front ++ writePipeline inputFirst pipeline ++ back)) =
      pipeline.map Action.escaped := by
  unfold parsePipeline splitPipeline pieces
  rw [String.toList_ofList, List.filterMap_map]
  change (cut stageMarks none _).filterMap _ = _
  induction pipeline generalizing front with
  | nil => contradiction
  | cons action stages ih =>
    have first := (passes_front .stage before).append (passes_writeAction .stage inputFirst action)
    cases stages with
    | nil =>
      have whole := (first.append (passes_front .stage behind)).cut_eq
      have parsed := parseAction_writeAction inputFirst action before behind
      rw [writePipeline, whole, List.filterMap_cons, Function.comp_apply, parsed]
      rfl
    | cons next stages =>
      have parsed := parseAction_writeAction inputFirst action before .blank
      have cutting : cut stageMarks none
          (front ++ writePipeline inputFirst (action :: next :: stages) ++ back) =
            (front ++ writeAction inputFirst action ++ [' '], some ['|']) ::
              cut stageMarks none ([' '] ++ writePipeline inputFirst (next :: stages) ++ back) := by
        have found (tail : List Char) : separator? stageMarks ('|' :: ' ' :: tail) =
          some (['|'], ' ' :: tail) := rfl
        have cutting := (first.append (passes_blank .stage)).cut_append rfl
          (found (writePipeline inputFirst (next :: stages) ++ back))
        simpa [writePipeline] using cutting
      rw [cutting, List.filterMap_cons, Function.comp_apply, parsed, ih .blank (by simp)]
      rfl

/-- A line as it is written: segments with stages, joined by operators up to the last. -/
structure Written (segments : List Segment) : Prop where
  inhabited : segments ≠ []
  stages : ∀ segment ∈ segments, segment.pipeline ≠ []
  joined : ∀ segment ∈ segments.dropLast, segment.operator ≠ .done
  closed : ∀ segment ∈ segments.getLast?, segment.operator = .done

/-- Every operator that joins is found where it is written and known again. -/
private theorem operator_written {operator : Operator} (joins : operator ≠ .done)
    (more : List Char) : ∃ c rest, operator.mark.toList = c :: rest ∧ inert c = true ∧
      separator? lineMarks (operator.mark.toList ++ ' ' :: more) =
        some (operator.mark.toList, ' ' :: more) ∧
      operatorOf (some operator.mark.toList) = operator := by
  cases operator with
  | done => exact absurd rfl joins
  | and => exact ⟨'&', ['&'], rfl, rfl, rfl, rfl⟩
  | or => exact ⟨'|', ['|'], rfl, rfl, rfl, rfl⟩
  | sequence => exact ⟨';', [], rfl, rfl, rfl, rfl⟩

/-- The segment of a piece, unless it is empty. -/
def segmentOf : List Char × Option (List Char) → Option Segment
  | (piece, separator) => match parsePipeline (String.ofList piece) with
    | [] => none
    | pipeline => some ⟨pipeline, operatorOf separator⟩

private theorem segmentOf_eq {piece : List Char} {separator : Option (List Char)}
    {segment : Segment} (inhabited : segment.pipeline ≠ [])
    (parsed : parsePipeline (String.ofList piece) = segment.pipeline.map Action.escaped)
    (joined : operatorOf separator = segment.operator) :
    segmentOf (piece, separator) = some segment.escaped := by
  obtain ⟨pipeline, operator⟩ := segment
  cases pipeline with
  | nil => exact absurd rfl inhabited
  | cons action stages => simp [segmentOf, parsed, joined, Segment.escaped]

private theorem segments_writeLine (inputFirst : Action → Bool) {segments : List Segment}
    (written : Written segments) {front : List Char} (before : Pad front) :
    (cut lineMarks none (front ++ writeLine inputFirst segments)).filterMap segmentOf =
      segments.map Segment.escaped := by
  induction segments generalizing front with
  | nil => exact absurd rfl written.inhabited
  | cons segment segments ih =>
    have first := (passes_front .line before).append
      (passes_writePipeline inputFirst segment.pipeline)
    have inhabited := written.stages segment (by simp)
    cases segments with
    | nil =>
      have parsed := parsePipeline_writePipeline inputFirst segment.pipeline before .none inhabited
      have last : operatorOf none = segment.operator := (written.closed segment rfl).symm
      rw [List.append_nil] at parsed
      rw [writeLine, first.cut_eq, List.filterMap_cons, segmentOf_eq inhabited parsed last]
      rfl
    | cons next segments =>
      have parsed := parsePipeline_writePipeline inputFirst segment.pipeline before .blank inhabited
      obtain ⟨c, mark, begins, idle, found, known⟩ :=
        operator_written (written.joined segment (by simp)) (writeLine inputFirst (next :: segments))
      have cutting : cut lineMarks none
          (front ++ writeLine inputFirst (segment :: next :: segments)) =
            (front ++ writePipeline inputFirst segment.pipeline ++ [' '],
              some segment.operator.mark.toList) ::
                cut lineMarks none ([' '] ++ writeLine inputFirst (next :: segments)) := by
        rw [begins, List.cons_append] at found
        have cutting := (first.append (passes_blank .line)).cut_append idle found
        simpa [writeLine, begins] using cutting
      have rest : Written (next :: segments) := {
        inhabited := by simp
        stages := fun segment member => written.stages segment (List.mem_cons_of_mem _ member)
        joined := fun segment member => written.joined segment (by simp [member])
        closed := fun segment last => written.closed segment (by simpa using last) }
      rw [cutting, List.filterMap_cons, segmentOf_eq inhabited parsed known,
        ih rest .blank]
      rfl

private theorem closeLast_eq {segments : List Segment}
    (closed : ∀ segment ∈ segments.getLast?, segment.operator = .done) :
    closeLast segments = segments := by
  induction segments with
  | nil => rfl
  | cons segment segments ih =>
    cases segments with
    | nil => simp [closeLast, ← closed segment rfl]
    | cons next segments => rw [closeLast, ih closed]; simp

/-- A written line begins with the quote of its first name. -/
private theorem head_writeLine (inputFirst : Action → Bool) {segments : List Segment}
    (written : Written segments) :
    ∃ rest, writeLine inputFirst segments = singleQuote :: rest := by
  rcases segments with _ | ⟨⟨pipeline, operator⟩, segments⟩
  · exact absurd rfl written.inhabited
  rcases pipeline with _ | ⟨action, stages⟩
  · exact absurd rfl (written.stages _ List.mem_cons_self)
  rcases stages with _ | _ <;> rcases segments with _ | _ <;> exact ⟨_, rfl⟩

/-- Parsing a written line gives its segments again, with all words escaped, whichever of the two
redirections of an action is written first. -/
theorem parseLine_writeLine (inputFirst : Action → Bool) (segments : List Segment)
    (written : Written segments) :
    parseLine (String.ofList (writeLine inputFirst segments)) = segments.map Segment.escaped := by
  obtain ⟨rest, quoted⟩ := head_writeLine inputFirst written
  have commandLine : ((writeLine inputFirst segments).dropWhile Text.isBlank).head? ≠ some '#' := by
    simp [quoted, Text.isBlank, singleQuote]
  have closed : ∀ segment ∈ (segments.map Segment.escaped).getLast?, segment.operator = .done := by
    rw [List.getLast?_map]
    intro segment last
    obtain ⟨plain, held, rfl⟩ := Option.map_eq_some_iff.mp last
    exact written.closed plain held
  unfold parseLine pieces
  rw [String.toList_ofList, if_neg commandLine]
  change closeLast ((cut lineMarks none ([] ++ _)).filterMap segmentOf) = _
  rw [segments_writeLine inputFirst written .none, closeLast_eq closed]

/-- An action without a name that reads from a file named like a substitution, piped to one with an
argument full of operators. -/
def awkwardSegments : List Segment :=
  [⟨[⟨"", [], some (.both, "a'b"), some "$(x)"⟩, ⟨"cat", ["&& || ; | > \\\"\n'"], none, none⟩], .or⟩,
    ⟨[⟨"echo", ["", "$HOME"], some (.errors, ";"), none⟩], .done⟩]

/-- They are read back from the line that is written for them, with backslashes before the dollar
signs. -/
theorem parseLine_awkwardSegments : Written awkwardSegments ∧
    parseLine (String.ofList (writeLine (fun _ => true) awkwardSegments)) =
      [⟨[⟨"", [], some (.both, "a'b"), some "\\$(x)"⟩,
          ⟨"cat", ["&& || ; | > \\\"\n'"], none, none⟩], .or⟩,
        ⟨[⟨"echo", ["", "\\$HOME"], some (.errors, ";"), none⟩], .done⟩] := by
  have written : Written awkwardSegments := ⟨by decide, by decide, by decide, by decide⟩
  refine ⟨written, ?_⟩
  rw [parseLine_writeLine _ awkwardSegments written]
  decide

end PocketShell.Shell
