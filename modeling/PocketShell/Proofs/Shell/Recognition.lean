import PocketShell.Proofs.Shell.Protection
import PocketShell.Proofs.Shell.Spans

/-! Substitutions that were written and substitutions that are found. The lexer copies a
substitution into its word as it stands, and before the word is used its substitutions are looked
for again. Those that are found are those that were written, unless a backslash has come to stand
before one of them, or a dollar sign before what looks like the rest of one. -/
namespace PocketShell.Shell

open Text (singleQuote doubleQuote)

/-! ## Words as lexemes -/

/-- What a lexeme puts into its word; a mark is a word of its own. -/
def Lexeme.text : Lexeme → List Char
  | .blank _ => []
  | .marking mark => mark.text.toList
  | .bare c => [c]
  | .escaped c => literally c
  | .opening _ => []
  | .closing _ => []
  | .quoted quote c => if quote = singleQuote then literally c else [c]
  | .guarded c => literally c
  | .span _ command => spanOf command

/-- The command of a substitution that was copied. -/
def Lexeme.command? : Lexeme → Option (List Char)
  | .span _ command => some command
  | _ => none

/-- The text of a word. -/
def wordText (word : List Lexeme) : List Char := word.flatMap Lexeme.text

/-- The word read so far, behind the lexeme. -/
def Lexeme.join (word : Option (List Lexeme)) : Lexeme → Option (List Lexeme)
  | .blank _ => none
  | .marking _ => none
  | .closing quote => word.map (· ++ [.closing quote])
  | lexeme => some (word.getD [] ++ [lexeme])

/-- The words that are complete with the lexeme. -/
def Lexeme.completes (word : Option (List Lexeme)) : Lexeme → List (List Lexeme)
  | .blank _ => word.toList
  | .marking mark => word.toList ++ [[.marking mark]]
  | _ => []

/-- The words and marks that lexemes make up; `word` is the word read so far. -/
def gather (word : Option (List Lexeme)) : List Lexeme → List (List Lexeme)
  | [] => word.toList
  | lexeme :: lexemes => lexeme.completes word ++ gather (lexeme.join word) lexemes

/-- The parts with literal text in front, if there is any. -/
def Part.behind (front : List Char) (parts : List Part) : List Part :=
  if front = [] then parts else Part.before front parts

/-- The parts of a word as they were written, with neighbouring literal texts as one. -/
def writtenParts : List Lexeme → List Part
  | [] => []
  | .span _ command :: word => .command command :: writtenParts word
  | lexeme :: word => Part.behind lexeme.text (writtenParts word)

/-- Every substitution of a word is found, and no other. A backslash directly before a substitution
would hide it; a dollar sign of its own would begin one if what follows it in the word went on like
one and no backslash stood before it. -/
structure Faithful (word : List Lexeme) : Prop where
  found : ∀ front quoted command back, word = front ++ .span quoted command :: back →
    (wordText front).getLast? ≠ some '\\'
  only : ∀ front lexeme back, word = front ++ lexeme :: back → lexeme.text = ['$'] →
    (wordText front).getLast? ≠ some '\\' → substitution? ('$' :: wordText back) = none

variable {marks inWord : Bool} {quote : Option Char} {c : Char}
  {text rest after command front : List Char} {begun : Option (List Lexeme)} {lexeme : Lexeme}
  {word lexemes : List Lexeme} {found written : List Part}

private theorem join_wordText (lexeme : Lexeme) :
    (lexeme.join begun).map wordText = lexeme.extend (begun.map wordText) := by
  cases lexeme <;> cases begun <;>
    simp [Lexeme.join, Lexeme.extend, wordText, grow, Lexeme.text]

private theorem text_flush (begun : Option (List Lexeme)) :
    (flush (begun.map wordText)).map (·.text.toList) = begun.toList.map wordText := by
  cases begun <;> simp [flush, Token.text]

private theorem completes_wordText (lexeme : Lexeme) :
    (lexeme.tokens (begun.map wordText)).map (·.text.toList) =
      (lexeme.completes begun).map wordText := by
  cases lexeme with
  | blank => exact text_flush begun
  | marking mark =>
    rw [Lexeme.tokens, Lexeme.completes, List.map_append, List.map_append, text_flush]
    simp [wordText, Lexeme.text, Token.text]
  | _ => rfl

/-- The tokens that lexemes make up have the texts of the words. -/
private theorem assemble_eq_gather (begun : Option (List Lexeme)) (lexemes : List Lexeme) :
    (assemble (begun.map wordText) lexemes).map (·.text.toList) =
      (gather begun lexemes).map wordText := by
  induction lexemes generalizing begun with
  | nil => exact text_flush begun
  | cons lexeme lexemes ih =>
    rw [assemble, gather, List.map_append, List.map_append, completes_wordText, ← join_wordText, ih]

/-! ## Parts -/

@[simp] theorem Part.before_before (front middle : List Char) (parts : List Part) :
    Part.before front (Part.before middle parts) = Part.before (front ++ middle) parts := by
  rcases parts with _ | ⟨_ | _, _⟩ <;> simp [Part.before]

private theorem behind_behind (front middle : List Char) (parts : List Part) :
    Part.behind front (Part.behind middle parts) = Part.behind (front ++ middle) parts := by
  unfold Part.behind
  by_cases first : front = [] <;> by_cases second : middle = [] <;> simp [first, second]

/-- No literal text that comes first is empty. -/
private def Solid (parts : List Part) : Prop := parts.head? ≠ some (.literal [])

private theorem solid_before (inhabited : front ≠ []) (parts : List Part) :
    Solid (Part.before front parts) := by
  rcases parts with _ | ⟨_ | _, _⟩ <;> simp [Solid, Part.before, inhabited]

private theorem solid_parts (text : List Char) : Solid (parts text) := by
  unfold parts
  repeat' split
  all_goals first
    | exact solid_before (by simp) _
    | simp [Solid]

private theorem solid_writtenParts (word : List Lexeme) : Solid (writtenParts word) := by
  fun_induction writtenParts word with
  | case1 => simp [Solid]
  | case2 => simp [Solid]
  | case3 lexeme word spanless ih =>
    unfold Part.behind
    split
    · exact ih
    · exact solid_before (by assumption) _

private theorem behind_inj (front : List Char) (first : Solid found) (second : Solid written) :
    Part.behind front found = Part.behind front written ↔ found = written := by
  unfold Part.behind
  split
  · rfl
  · refine ⟨fun same => ?_, fun same => same ▸ rfl⟩
    rcases found with _ | ⟨_ | _, _⟩ <;> rcases written with _ | ⟨_ | _, _⟩ <;>
      simp_all [Part.before, Solid]

/-- What a lexeme that is no substitution puts into its word: characters that are neither backslash
nor dollar sign, one of the two, or both. -/
private inductive Stroke : List Char → Prop
  | plain {text : List Char} : (∀ c ∈ text, c ≠ '\\' ∧ c ≠ '$') → Stroke text
  | backslash : Stroke ['\\']
  | dollar : Stroke ['$']
  | kept : Stroke ['\\', '$']

private theorem stroke_char (c : Char) : Stroke [c] := by
  by_cases dollar : c = '$'
  · exact dollar ▸ .dollar
  by_cases backslash : c = '\\'
  · exact backslash ▸ .backslash
  · exact .plain (by simp [dollar, backslash])

private theorem stroke_literally (c : Char) : Stroke (literally c) := by
  unfold literally
  split
  · exact .kept
  · exact stroke_char c

private theorem stroke_text (spanless : ∀ quoted command, lexeme ≠ .span quoted command) :
    Stroke lexeme.text := by
  cases lexeme with
  | blank => exact .plain (by simp [Lexeme.text])
  | marking mark =>
    rcases mark with (_ | _ | _ | _) | _ <;>
      exact .plain (by simp [Lexeme.text, Mark.text, Redirect.mark])
  | bare c => exact stroke_char c
  | escaped c => exact stroke_literally c
  | opening => exact .plain (by simp [Lexeme.text])
  | closing => exact .plain (by simp [Lexeme.text])
  | quoted quote c =>
    rw [Lexeme.text]
    split
    · exact stroke_literally c
    · exact stroke_char c
  | guarded c => exact stroke_literally c
  | span quoted command => exact absurd rfl (spanless quoted command)

private theorem parts_plain (plain : ∀ c ∈ text, c ≠ '\\' ∧ c ≠ '$') (rest : List Char) :
    parts (text ++ rest) = Part.behind text (parts rest) := by
  induction text with
  | nil => rfl
  | cons c text ih =>
    have first := plain c List.mem_cons_self
    rw [List.cons_append, parts_char (fun same => absurd same first.1) (substitution_none first.2),
      ih fun c member => plain c (List.mem_cons_of_mem _ member)]
    unfold Part.behind
    split
    · rename_i last
      simp [last]
    · simp

private theorem parts_backslash (bare : rest.head? ≠ some '$') :
    parts ('\\' :: rest) = Part.behind ['\\'] (parts rest) :=
  parts_char (fun _ => bare) (substitution_none (by decide))

/-! ## Finding again -/

/-- The word is faithful behind other text. -/
private structure FaithfulBehind (before : List Char) (word : List Lexeme) : Prop where
  found : ∀ front quoted command back, word = front ++ .span quoted command :: back →
    (before ++ wordText front).getLast? ≠ some '\\'
  only : ∀ front lexeme back, word = front ++ lexeme :: back → lexeme.text = ['$'] →
    (before ++ wordText front).getLast? ≠ some '\\' → substitution? ('$' :: wordText back) = none

private theorem faithfulBehind_nil (before : List Char) : FaithfulBehind before [] :=
  ⟨by simp, by simp⟩

/-- What stands before counts only by whether it ends in a backslash. -/
private theorem FaithfulBehind.congr {before instead : List Char}
    (same : before.getLast? = some '\\' ↔ instead.getLast? = some '\\')
    (faithful : FaithfulBehind before word) : FaithfulBehind instead word := by
  have last : ∀ text : List Char, (instead ++ text).getLast? = some '\\' ↔
      (before ++ text).getLast? = some '\\' := by
    intro text
    rcases List.eq_nil_or_concat text with rfl | ⟨front, c, rfl⟩
    · simpa using same.symm
    · simp
  constructor
  · intro front quoted command back whole
    rw [ne_eq, last]
    exact faithful.found front quoted command back whole
  · intro front lexeme back whole dollar
    rw [ne_eq, last]
    exact faithful.only front lexeme back whole dollar

private theorem faithfulBehind_congr {before instead : List Char}
    (same : before.getLast? = some '\\' ↔ instead.getLast? = some '\\') :
    FaithfulBehind before word ↔ FaithfulBehind instead word :=
  ⟨.congr same, .congr same.symm⟩

private theorem faithfulBehind_cons {before : List Char} : FaithfulBehind before (lexeme :: word) ↔
    ((∀ quoted command, lexeme = .span quoted command → before.getLast? ≠ some '\\') ∧
      (lexeme.text = ['$'] → before.getLast? ≠ some '\\' →
        substitution? ('$' :: wordText word) = none)) ∧
      FaithfulBehind (before ++ lexeme.text) word := by
  constructor
  · rintro ⟨found, only⟩
    refine ⟨⟨fun quoted command same => ?_, fun dollar bare => ?_⟩,
      fun front quoted command back whole => ?_, fun front other back whole dollar => ?_⟩
    · simpa [wordText] using found [] quoted command word (by rw [same]; rfl)
    · exact only [] lexeme word rfl dollar (by simpa [wordText] using bare)
    · simpa [wordText] using found (lexeme :: front) quoted command back (by rw [whole]; rfl)
    · simpa [wordText] using only (lexeme :: front) other back (by rw [whole]; rfl) dollar
  · rintro ⟨⟨spans, dollars⟩, found, only⟩
    refine ⟨fun front quoted command back whole => ?_, fun front other back whole dollar => ?_⟩
    · cases front with
      | nil =>
        cases whole
        simpa [wordText] using spans quoted command rfl
      | cons first front =>
        cases whole
        simpa [wordText] using found front quoted command back rfl
    · cases front with
      | nil =>
        cases whole
        simpa [wordText] using dollars dollar
      | cons first front =>
        cases whole
        simpa [wordText] using only front other back rfl dollar

/-- A backslash that has not been read yet, or nothing. -/
private inductive Pending : List Char → Prop
  | none : Pending []
  | backslash : Pending ['\\']

/-- A substitution is found unless a backslash stands before it. -/
private theorem parts_behind_span {before : List Char} {quoted : Bool} (pending : Pending before)
    (closes : Closes 0 none command)
    (later : parts (wordText word) = writtenParts word ↔ FaithfulBehind [] word) :
    parts (before ++ (spanOf command ++ wordText word)) =
        Part.behind before (writtenParts (.span quoted command :: word)) ↔
      FaithfulBehind before (.span quoted command :: word) := by
  have dollarless : (Lexeme.span quoted command).text ≠ ['$'] := by simp [Lexeme.text, spanOf]
  rw [faithfulBehind_cons]
  cases pending with
  | none =>
    have found : substitution? (spanOf command ++ wordText word) = some (command, wordText word) :=
      substitution_spanOf_iff.mpr closes
    have start : FaithfulBehind ([] ++ (Lexeme.span quoted command).text) word ↔
        FaithfulBehind [] word := faithfulBehind_congr (by
          rw [Lexeme.text, List.nil_append, spanOf, List.getLast?_concat]
          decide)
    rw [start, ← later, List.nil_append, parts_span found]
    simp [Part.behind, writtenParts, dollarless]
  | backslash =>
    refine iff_of_false (fun same => ?_) (fun faithful => faithful.1.1 _ _ rfl rfl)
    have hidden : parts ('\\' :: (spanOf command ++ wordText word)) =
        Part.before ['\\', '$'] (parts ('(' :: (command ++ [')'] ++ wordText word))) := by
      simp [spanOf, parts_protected]
    have shown : Part.behind ['\\'] (writtenParts (.span quoted command :: word)) =
        .literal ['\\'] :: .command command :: writtenParts word := rfl
    rw [List.singleton_append, hidden, shown] at same
    generalize parts ('(' :: (command ++ [')'] ++ wordText word)) = others at same
    rcases others with _ | ⟨_ | _, _⟩ <;> simp [Part.before] at same

private theorem parts_pending_plain {before : List Char} (pending : Pending before)
    (plain : ∀ c ∈ text, c ≠ '\\' ∧ c ≠ '$') (inhabited : text ≠ []) :
    parts (before ++ text ++ rest) = Part.behind (before ++ text) (parts rest) := by
  cases pending with
  | none => exact parts_plain plain rest
  | backslash =>
    obtain ⟨c, tail, rfl⟩ := List.exists_cons_of_ne_nil inhabited
    have begins : (c :: tail ++ rest).head? ≠ some '$' := by
      simpa using (plain c List.mem_cons_self).2
    rw [List.append_assoc, List.singleton_append, parts_backslash begins, parts_plain plain,
      behind_behind]

/-- Other text is read as it was written, unless it is a dollar sign that begins a substitution. -/
private theorem parts_behind_stroke {before : List Char} (pending : Pending before)
    (stroke : Stroke text)
    (later : ∀ {before : List Char}, Pending before →
      (parts (before ++ wordText word) = Part.behind before (writtenParts word) ↔
        FaithfulBehind before word)) :
    parts (before ++ (text ++ wordText word)) =
        Part.behind before (Part.behind text (writtenParts word)) ↔
      (text = ['$'] → before.getLast? ≠ some '\\' →
        substitution? ('$' :: wordText word) = none) ∧ FaithfulBehind (before ++ text) word := by
  have bare {front : List Char} (same : (before ++ front).getLast? ≠ some '\\') :
      FaithfulBehind (before ++ front) word ↔ FaithfulBehind [] word :=
    faithfulBehind_congr (by simpa using same)
  have pass {front : List Char} (goes : parts (before ++ front ++ wordText word) =
      Part.behind (before ++ front) (parts (wordText word))) :
      parts (before ++ (front ++ wordText word)) =
          Part.behind before (Part.behind front (writtenParts word)) ↔ FaithfulBehind [] word := by
    rw [← List.append_assoc, goes, behind_behind, behind_inj _ (solid_parts _) (solid_writtenParts _)]
    simpa [Part.behind] using later .none
  cases stroke with
  | plain plain =>
    have dollarless : text ≠ ['$'] := by
      rintro rfl
      exact (plain '$' List.mem_cons_self).2 rfl
    rw [and_iff_right fun same => absurd same dollarless]
    rcases text.eq_nil_or_concat with rfl | ⟨front, c, rfl⟩
    · simpa [Part.behind] using later pending
    · rw [List.concat_eq_append] at plain ⊢
      have last : (before ++ (front ++ [c])).getLast? ≠ some '\\' := by
        rw [← List.append_assoc, List.getLast?_concat]
        simpa using (plain c (by simp)).1
      rw [bare last, pass (parts_pending_plain pending plain (by simp))]
  | backslash =>
    have slashed := later .backslash
    cases pending with
    | none => simpa [Part.behind] using slashed
    | backslash =>
      have again : FaithfulBehind (['\\'] ++ ['\\']) word ↔ FaithfulBehind ['\\'] word :=
        faithfulBehind_congr (by simp)
      have first : parts ('\\' :: (['\\'] ++ wordText word)) =
          Part.behind ['\\'] (parts (['\\'] ++ wordText word)) := parts_backslash (by simp)
      have solid : Solid (Part.behind ['\\'] (writtenParts word)) := solid_before (by simp) _
      rw [List.singleton_append, first, behind_inj _ (solid_parts _) solid, slashed, again]
      simp
  | dollar =>
    cases pending with
    | none =>
      cases spanned : substitution? ('$' :: wordText word) with
      | none =>
        rw [bare (by simp), pass (parts_char (fun impossible => absurd impossible (by decide)) spanned)]
        simp
      | some split =>
        refine iff_of_false (fun same => ?_) (fun faithful => by simpa using faithful.1)
        rw [List.nil_append, List.singleton_append, parts_span spanned] at same
        generalize writtenParts word = others at same
        rcases others with _ | ⟨_ | _, _⟩ <;> simp [Part.behind, Part.before] at same
    | backslash =>
      rw [bare (by simp), pass (parts_protected _)]
      simp
  | kept =>
    have kept : parts (before ++ ['\\', '$'] ++ wordText word) =
        Part.behind (before ++ ['\\', '$']) (parts (wordText word)) := by
      cases pending with
      | none => exact parts_protected _
      | backslash =>
        have first : parts ('\\' :: '\\' :: '$' :: wordText word) =
          Part.behind ['\\'] (parts ('\\' :: '$' :: wordText word)) := parts_backslash (by simp)
        exact first.trans (by rw [parts_protected]; simp [Part.behind])
    rw [bare (by simp), pass kept]
    simp

/-- The parts of a word, with a backslash that may stand before it. By induction on the lexemes; only
the last character of what was read matters for the next one. -/
private theorem parts_behind {before : List Char} (pending : Pending before)
    (closed : ∀ command ∈ word.filterMap Lexeme.command?, Closes 0 none command) :
    parts (before ++ wordText word) = Part.behind before (writtenParts word) ↔
      FaithfulBehind before word := by
  induction word generalizing before with
  | nil =>
    refine iff_of_true ?_ (faithfulBehind_nil before)
    rw [show wordText [] = [] from rfl, List.append_nil, writtenParts]
    cases pending with
    | none => simp [Part.behind]
    | backslash => rw [parts_backslash (by simp), parts_nil]
  | cons lexeme word ih =>
    have ih {before : List Char} (pending : Pending before) := ih pending fun command member =>
      closed command ((List.sublist_cons_self lexeme word).filterMap _ |>.mem member)
    have whole : wordText (lexeme :: word) = lexeme.text ++ wordText word := rfl
    rw [whole]
    by_cases spanned : ∃ quoted command, lexeme = .span quoted command
    · obtain ⟨quoted, command, rfl⟩ := spanned
      have closes := closed command (by simp [Lexeme.command?])
      exact parts_behind_span pending closes (by simpa [Part.behind] using ih .none)
    · have spanless : ∀ quoted command, lexeme ≠ .span quoted command :=
        fun quoted command same => spanned ⟨quoted, command, same⟩
      have written : writtenParts (lexeme :: word) =
          Part.behind lexeme.text (writtenParts word) := by
        cases lexeme <;> first | rfl | exact absurd rfl (spanless _ _)
      rw [written, faithfulBehind_cons, parts_behind_stroke pending (stroke_text spanless) ih]
      simp [spanless]

private theorem parts_eq_written_iff
    (closed : ∀ command ∈ word.filterMap Lexeme.command?, Closes 0 none command) :
    parts (wordText word) = writtenParts word ↔ Faithful word := by
  have whole := parts_behind .none closed
  simp only [List.nil_append, Part.behind, ↓reduceIte] at whole
  exact whole.trans ⟨fun ⟨found, only⟩ => ⟨found, only⟩, fun ⟨found, only⟩ => ⟨found, only⟩⟩

private theorem closes_of_copied (reading : Reading marks quote inWord text lexemes) :
    ∀ command ∈ lexemes.filterMap Lexeme.command?, Closes 0 none command := by
  induction reading with
  | done => simp
  | @step _ _ _ lexeme _ _ reads _ ih =>
    intro command member
    obtain ⟨other, listed, copied⟩ := List.mem_filterMap.mp member
    rcases List.mem_cons.mp listed with rfl | later
    · cases reads <;> cases copied
      · exact closes_of_substitution (by assumption)
      · exact closes_of_substitution (by assumption)
    · exact ih command (List.mem_filterMap.mpr ⟨other, later, copied⟩)

/-- No substitution is lost among the words. -/
private theorem commands_gather (begun : Option (List Lexeme)) (lexemes : List Lexeme) :
    (gather begun lexemes).flatMap (List.filterMap Lexeme.command?) =
      (begun.getD []).filterMap Lexeme.command? ++ lexemes.filterMap Lexeme.command? := by
  induction lexemes generalizing begun with
  | nil => cases begun <;> simp [gather]
  | cons lexeme lexemes ih =>
    have here : (lexeme.completes begun).flatMap (List.filterMap Lexeme.command?) ++
        ((lexeme.join begun).getD []).filterMap Lexeme.command? =
          (begun.getD []).filterMap Lexeme.command? ++ [lexeme].filterMap Lexeme.command? := by
      cases lexeme <;> cases begun <;> simp [Lexeme.completes, Lexeme.join, Lexeme.command?]
    rw [gather, List.flatMap_append, ih, ← List.append_assoc, here, List.append_assoc,
      ← List.filterMap_append, List.singleton_append]

/-! ## Commands -/

/-- The command of a part. -/
def Part.command? : Part → Option (List Char)
  | .literal _ => none
  | .command text => some text

/-- The commands that are found in a word. -/
def commandsIn (word : String) : List (List Char) := (parts word.toList).filterMap Part.command?

private theorem commands_writtenParts (word : List Lexeme) :
    (writtenParts word).filterMap Part.command? = word.filterMap Lexeme.command? := by
  have kept (front : List Char) (parts : List Part) :
      (Part.behind front parts).filterMap Part.command? = parts.filterMap Part.command? := by
    unfold Part.behind
    split
    · rfl
    · rcases parts with _ | ⟨_ | _, _⟩ <;> rfl
  fun_induction writtenParts word with
  | case1 => rfl
  | case2 => simp_all [Part.command?, Lexeme.command?]
  | case3 lexeme word spanless ih =>
    have none : lexeme.command? = none := by
      cases lexeme <;> first | rfl | exact absurd rfl (spanless _ _)
    rw [kept, ih, List.filterMap_cons, none]

/-- All texts of an action. -/
def Action.texts (action : Action) : List String :=
  action.name :: action.args ++ (action.output.map (·.2)).toList ++ action.input.toList

/-- The commands of what has not been taken out of a stage. -/
private def commandsLeft (slots : List (Option Token)) : List (List Char) :=
  slots.flatMap fun slot => (slot.map (commandsIn ·.text)).getD []

/-- What is taken out are the commands of a path; the others keep their order. -/
private structure Taken (slots : List (Option Token)) (path : List (List Char))
    (left : List (Option Token)) : Prop where
  all : (path ++ commandsLeft left).Perm (commandsLeft slots)
  order : (commandsLeft left).Sublist (commandsLeft slots)

private theorem taken_nothing (slots : List (Option Token)) : Taken slots [] slots :=
  ⟨.refl _, .refl _⟩

private theorem commandsIn_mark (mark : Mark) : commandsIn mark.text = [] := by
  rcases mark with (_ | _ | _ | _) | _ <;> decide +kernel

private theorem Taken.keep {slots left : List (Option Token)} {path : List (List Char)}
    (taken : Taken slots path left) (slot : Option Token) :
    Taken (slot :: slots) path (slot :: left) := by
  have front (slots : List (Option Token)) : commandsLeft (slot :: slots) =
      (slot.map (commandsIn ·.text)).getD [] ++ commandsLeft slots := rfl
  refine ⟨?_, by rw [front, front]; exact taken.order.append_left _⟩
  rw [front, front, ← List.append_assoc]
  refine (List.perm_append_comm.append_right _).trans ?_
  rw [List.append_assoc]
  exact taken.all.append_left _

private theorem Taken.append {slots left last : List (Option Token)} {path other : List (List Char)}
    (taken : Taken slots path left) (next : Taken left other last) :
    Taken slots (path ++ other) last where
  all := by
    rw [List.append_assoc]
    exact (next.all.append_left path).trans taken.all
  order := next.order.trans taken.order

private theorem takeRedirect_taken {mark : Mark} {slots left : List (Option Token)} {path : String}
    (took : takeRedirect mark slots = some (path, left)) :
    Taken slots (commandsIn path) left := by
  fun_induction takeRedirect mark slots generalizing left with
  | case1 => cases took
  | case2 =>
    cases took
    have left (slots : List (Option Token)) : commandsLeft (none :: none :: slots) =
        commandsLeft slots := rfl
    have whole (slots : List (Option Token)) :
        commandsLeft (some (.mark mark) :: some (.word path) :: slots) =
          commandsIn path ++ commandsLeft slots := by
      change commandsIn mark.text ++ (commandsIn path ++ commandsLeft slots) = _
      rw [commandsIn_mark, List.nil_append]
    constructor
    · rw [left, whole]
    · rw [left, whole]
      exact List.sublist_append_right _ _
  | case3 _ _ _ _ ih =>
    obtain ⟨⟨other, rest⟩, found, same⟩ := Option.map_eq_some_iff.mp took
    cases same
    exact (ih found).keep _
  | case4 _ _ _ ih =>
    obtain ⟨⟨other, rest⟩, found, same⟩ := Option.map_eq_some_iff.mp took
    cases same
    exact (ih found).keep _

private theorem takeOutput_taken {redirect : Redirect} {slots left : List (Option Token)}
    {path : String} (took : takeOutput slots = some ((redirect, path), left)) :
    Taken slots (commandsIn path) left := by
  obtain ⟨kind, -, took⟩ := List.exists_of_findSome?_eq_some took
  obtain ⟨⟨other, rest⟩, took, same⟩ := Option.map_eq_some_iff.mp took
  cases same
  exact takeRedirect_taken took

private theorem commandsLeft_eq (left : List (Option Token)) :
    commandsLeft left = (left.filterMap fun slot => slot.map Token.text).flatMap commandsIn := by
  induction left with
  | nil => rfl
  | cons slot left ih =>
    rw [commandsLeft, List.flatMap_cons, ← commandsLeft, ih]
    cases slot <;> simp

/-- An action is what is left of its stage once its redirections have been taken out. -/
private theorem parseAction_taken (stage : String) : ∃ output input left,
    Taken ((lex true none none stage.toList).map some)
        ((output.map (·.2)).toList.flatMap commandsIn ++ input.toList.flatMap commandsIn) left ∧
      parseAction stage = match left.filterMap fun slot => slot.map Token.text with
        | name :: args => some ⟨name, args, output, input⟩
        | [] => if output.isNone && input.isNone then none else some ⟨"", [], output, input⟩ := by
  unfold parseAction
  generalize (lex true none none stage.toList).map some = slots
  dsimp only
  cases first : takeOutput slots with
  | none =>
    cases second : takeRedirect .input slots with
    | none => exact ⟨none, none, slots, taken_nothing slots, rfl⟩
    | some took => exact ⟨none, some took.1, took.2, by simpa using takeRedirect_taken second, rfl⟩
  | some out =>
    have outputs := takeOutput_taken first
    cases second : takeRedirect .input out.2 with
    | none => exact ⟨some out.1, none, out.2, by simpa using outputs, rfl⟩
    | some took =>
      exact ⟨some out.1, some took.1, took.2,
        by simpa using outputs.append (takeRedirect_taken second), rfl⟩

/-- The commands of an action are those of its stage, and those of its words keep their order. -/
private theorem parseAction_commands {stage : String} {action : Action}
    (parsed : parseAction stage = some action) :
    (action.texts.flatMap commandsIn).Perm
        ((lex true none none stage.toList).flatMap (commandsIn ·.text)) ∧
      ((action.name :: action.args).flatMap commandsIn).Sublist
        ((lex true none none stage.toList).flatMap (commandsIn ·.text)) := by
  have start : commandsLeft ((lex true none none stage.toList).map some) =
      (lex true none none stage.toList).flatMap (commandsIn ·.text) := by
    simp [commandsLeft, List.flatMap_map]
  obtain ⟨output, input, left, taken, shape⟩ := parseAction_taken stage
  have words : action.output = output ∧ action.input = input ∧
      (action.name :: action.args).flatMap commandsIn = commandsLeft left := by
    rw [shape] at parsed
    rw [commandsLeft_eq]
    split at parsed
    · rename_i name args listed
      cases parsed
      exact ⟨rfl, rfl, by rw [listed]⟩
    · rename_i listed
      split at parsed
      · cases parsed
      · cases parsed
        have empty : commandsIn "" = [] := by decide +kernel
        exact ⟨rfl, rfl, by rw [listed]; simp [empty]⟩
  obtain ⟨rfl, rfl, words⟩ := words
  rw [← start]
  refine ⟨?_, words ▸ taken.order⟩
  refine List.Perm.trans ?_ taken.all
  rw [Action.texts, List.flatMap_append, List.flatMap_append, words, List.append_assoc]
  exact List.perm_append_comm

/-! ## Substitutions -/

section

variable {stage : String}

private theorem texts_eq (reading : Reading marks none false stage.toList lexemes) :
    (lex marks none none stage.toList).map (·.text.toList) =
      (gather none lexemes).map wordText := by
  rw [reading.lex_eq rfl]
  exact assemble_eq_gather none lexemes

private theorem closed_words (reading : Reading marks none false stage.toList lexemes) :
    ∀ word ∈ gather none lexemes, ∀ command ∈ word.filterMap Lexeme.command?,
      Closes 0 none command := by
  intro word listed command member
  refine closes_of_copied reading command ?_
  have all := commands_gather none lexemes
  rw [Option.getD_none, List.filterMap_nil, List.nil_append] at all
  rw [← all]
  exact List.mem_flatMap.mpr ⟨word, listed, member⟩

private theorem all_parts_iff (reading : Reading marks none false stage.toList lexemes) :
    (lex marks none none stage.toList).map (fun token => parts token.text.toList) =
        (gather none lexemes).map writtenParts ↔ ∀ word ∈ gather none lexemes, Faithful word := by
  have found : (lex marks none none stage.toList).map (fun token => parts token.text.toList) =
      (gather none lexemes).map fun word => parts (wordText word) := by
    simpa [Function.comp_def] using congrArg (List.map parts) (texts_eq reading)
  rw [found, List.map_inj_left]
  exact forall₂_congr fun word listed => parts_eq_written_iff (closed_words reading word listed)

private theorem commands_eq (reading : Reading marks none false stage.toList lexemes)
    (faithful : ∀ word ∈ gather none lexemes, Faithful word) :
    (lex marks none none stage.toList).flatMap (fun token => commandsIn token.text) =
      lexemes.filterMap Lexeme.command? := by
  have whole := (all_parts_iff reading).mpr faithful
  calc (lex marks none none stage.toList).flatMap (fun token => commandsIn token.text)
      = ((lex marks none none stage.toList).map fun token => parts token.text.toList).flatMap
          (List.filterMap Part.command?) := by rw [List.flatMap_map]; rfl
    _ = (gather none lexemes).flatMap (List.filterMap Lexeme.command?) := by
        rw [whole, List.flatMap_map]
        exact congrArg (List.flatMap · _) (funext commands_writtenParts)
    _ = lexemes.filterMap Lexeme.command? := commands_gather none lexemes

end

/-- The parts of every word are those that were written exactly if every word is faithful. Then the
commands that are found are those of the substitutions that the lexer copied, in their order; and an
action has them all, those of its words in their order. -/
theorem substitutions_written_iff (marks : Bool) (stage : String) :
    (∃ lexemes, Reading marks none false stage.toList lexemes) ∧
    ∀ lexemes, Reading marks none false stage.toList lexemes →
      ((lex marks none none stage.toList).map (fun token => parts token.text.toList) =
          (gather none lexemes).map writtenParts ↔ ∀ word ∈ gather none lexemes, Faithful word) ∧
      ((∀ word ∈ gather none lexemes, Faithful word) →
        (lex marks none none stage.toList).flatMap (fun token => commandsIn token.text) =
            lexemes.filterMap Lexeme.command? ∧
          (marks = true → ∀ action, parseAction stage = some action →
            (action.texts.flatMap commandsIn).Perm (lexemes.filterMap Lexeme.command?) ∧
              ((action.name :: action.args).flatMap commandsIn).Sublist
                (lexemes.filterMap Lexeme.command?))) := by
  refine ⟨exists_reading marks false none stage.toList (fun _ impossible => nomatch impossible),
    fun lexemes reading => ⟨all_parts_iff reading, fun faithful => ?_⟩⟩
  have commands := commands_eq reading faithful
  refine ⟨commands, ?_⟩
  rintro rfl action parsed
  rw [← commands]
  exact parseAction_commands parsed

private def mixedLexemes : List Lexeme :=
  [.opening '\x27', .quoted '\x27' '$', .quoted '\x27' '(', .closing '\x27', .opening '"',
    .span true ['a'], .closing '"', .blank ' ', .escaped '$', .escaped '(', .span false ['b']]

private theorem reading_mixed :
    Reading true none false "'$('\"$(a)\" \\$\\($(b)".toList mixedLexemes := by
  change Reading true none false ['\x27', '$', '(', '\x27', '"', '$', '(', 'a', ')', '"', ' ', '\\',
    '$', '\\', '(', '$', '(', 'b', ')'] _
  have first : Reads true true (some doubleQuote) ['$', '(', 'a', ')', '"', ' ', '\\', '$', '\\', '(',
      '$', '(', 'b', ')'] (.span true ['a']) ['"', ' ', '\\', '$', '\\', '(', '$', '(', 'b', ')'] :=
    .quotedSpan (by decide)
  have second : Reads true true none ['$', '(', 'b', ')'] (.span false ['b']) [] := .span (by decide)
  have blank {rest : List Char} : Reads true true none (' ' :: rest) (.blank ' ') rest :=
    .blank rfl nofun rfl rfl
  refine .step (.opening rfl) (.step (.single (by decide)) (.step (.single (by decide)) ?_))
  refine .step .closing (.step (.opening rfl) (.step first (.step .closing (.step blank ?_))))
  exact .step .escaped (.step .escaped (.step second .done))

/-- Of two quoted or escaped openings and two substitutions only the substitutions are found. -/
theorem substitutions_mixed : ∃ lexemes,
    Reading true none false "'$('\"$(a)\" \\$\\($(b)".toList lexemes ∧
    (∀ word ∈ gather none lexemes, Faithful word) ∧
    (lex true none none "'$('\"$(a)\" \\$\\($(b)".toList).flatMap
      (fun token => commandsIn token.text) = [['a'], ['b']] := by
  have iff := ((substitutions_written_iff true "'$('\"$(a)\" \\$\\($(b)").2 _ reading_mixed)
  have faithful := iff.1.mp (by decide +kernel)
  exact ⟨_, reading_mixed, faithful, (iff.2 faithful).1⟩

/-- A dollar sign before an escaped parenthesis begins a substitution that nobody wrote, and an escaped
backslash before a substitution hides it. -/
theorem substitutions_confused :
    (∃ lexemes, Reading true none false "$\\(id\\)".toList lexemes ∧
      lexemes.filterMap Lexeme.command? = [] ∧
      (lex true none none "$\\(id\\)".toList).flatMap (fun token => commandsIn token.text) =
        ["id".toList]) ∧
    ∃ lexemes, Reading true none false "\\\\$(id)".toList lexemes ∧
      lexemes.filterMap Lexeme.command? = ["id".toList] ∧
      (lex true none none "\\\\$(id)".toList).flatMap (fun token => commandsIn token.text) = [] := by
  have forged : Reading true none false ['$', '\\', '(', 'i', 'd', '\\', ')']
      [.bare '$', .escaped '(', .bare 'i', .bare 'd', .escaped ')'] := by
    refine .step (.bare rfl nofun rfl rfl fun _ => rfl) (.step .escaped ?_)
    refine .step (.bare rfl nofun rfl rfl fun _ => rfl) ?_
    exact .step (.bare rfl nofun rfl rfl fun _ => rfl) (.step .escaped .done)
  have hidden : Reading true none false ['\\', '\\', '$', '(', 'i', 'd', ')']
      [.escaped '\\', .span false ['i', 'd']] := by
    have span : Reads true true none ['$', '(', 'i', 'd', ')'] (.span false ['i', 'd']) [] :=
      .span (by decide)
    exact .step .escaped (.step span .done)
  exact ⟨⟨_, forged, rfl, by decide +kernel⟩, _, hidden, rfl, by decide +kernel⟩

end PocketShell.Shell
