import PocketShell.Proofs.Pattern.Verbatim
import PocketShell.Proofs.Shell.Piping

/-! Substitution of a text for a word. A script guards the characters of the text that have a
meaning by backslashes, which are taken off in three rounds: those before delimiters when the script
is cut, those before `&` when matches are referred to, and those before backslashes when the
replacement is read. The cut takes the delimiter behind a backslash for a guarded one, though the
backslash may be guarded itself. -/
namespace PocketShell.Command

open Shell Text

variable {caller : Caller Command} {workspace : Workspace} {c : Char} {rest : List Char}

/-! ## Cutting a script -/

private theorem scriptParts_delimiter (rest : List Char) :
    scriptParts '/' ('/' :: rest) = [] :: scriptParts '/' rest := by
  simp [scriptParts]

private theorem scriptParts_plain (slash : c ≠ '\\') (other : c ≠ '/') (rest : List Char) :
    scriptParts '/' (c :: rest) = addToFirst c (scriptParts '/' rest) := by
  rw [scriptParts.eq_3 _ _ _ (by simp [slash]), if_neg other]

/-- A backslash is a character like others unless a delimiter comes behind it. -/
private theorem scriptParts_backslash (apart : rest.head? ≠ some '/') :
    scriptParts '/' ('\\' :: rest) = addToFirst '\\' (scriptParts '/' rest) := by
  cases rest with
  | nil => simp [scriptParts]
  | cons d rest =>
    have other : d ≠ '/' := by simpa using apart
    rw [scriptParts, if_neg other, if_neg (by decide)]

private theorem foldr_addToFirst (cs part : List Char) (more : List (List Char)) :
    cs.foldr addToFirst (part :: more) = (cs ++ part) :: more := by
  induction cs with
  | nil => rfl
  | cons c rest ih => rw [List.foldr_cons, ih, addToFirst, List.cons_append]

/-- Of guarded delimiters the guards go. The last backslash of the text is taken for the guard of a
delimiter that comes behind it. -/
private theorem scriptParts_guarded {text tail : List Char}
    (apart : Pattern.Sealed text ∨ tail.head? ≠ some '/') :
    scriptParts '/' (guarded ['\\', '&', '/'] text ++ tail) =
      (guarded ['\\', '&'] text).foldr addToFirst (scriptParts '/' tail) := by
  induction text with
  | nil => rfl
  | cons c rest ih =>
    have further : Pattern.Sealed rest ∨ tail.head? ≠ some '/' := by
      refine apart.imp_left fun closed ends => closed ?_
      rw [List.getLast?_cons, ends]
      rfl
    by_cases slash : c = '/'
    · subst slash
      rw [guarded_cons_of_mem (by decide), guarded_cons_of_notMem (by decide), List.foldr_cons,
        ← ih further]
      simp [scriptParts]
    by_cases ampersand : c = '&'
    · subst ampersand
      rw [guarded_cons_of_mem (by decide), guarded_cons_of_mem (by decide), List.foldr_cons,
        List.foldr_cons, ← ih further, List.cons_append, List.cons_append,
        scriptParts_backslash (by simp), scriptParts_plain (by decide) (by decide)]
    by_cases backslash : c = '\\'
    · subst backslash
      have behind : (guarded ['\\', '&', '/'] rest ++ tail).head? ≠ some '/' := by
        cases rest with
        | nil => exact apart.resolve_left fun closed => closed rfl
        | cons d more =>
          by_cases inside : d ∈ ['\\', '&', '/']
          · simp [guarded_cons_of_mem inside]
          · have other : d ≠ '/' := fun same => inside (by simp [same])
            rw [guarded_cons_of_notMem inside]
            simpa using other
      rw [guarded_cons_of_mem (by decide), guarded_cons_of_mem (by decide), List.foldr_cons,
        List.foldr_cons, ← ih further, List.cons_append, List.cons_append,
        scriptParts_backslash (by simp), scriptParts_backslash behind]
    · rw [guarded_cons_of_notMem (by simp [backslash, ampersand, slash]),
        guarded_cons_of_notMem (by simp [backslash, ampersand]), List.foldr_cons, ← ih further,
        List.cons_append, scriptParts_plain backslash slash]

/-! ## Referring to matches -/

/-- A guarded `&` refers to no match. -/
private theorem markMatches_guarded (escaped : Bool) (text : List Char) :
    markMatches escaped (guarded ['\\', '&'] text) = guarded ['\\', '&'] text := by
  induction text generalizing escaped with
  | nil => rfl
  | cons c rest ih =>
    by_cases ampersand : c = '&'
    · subst ampersand
      rw [guarded_cons_of_mem (by decide)]
      simp [markMatches, ih]
    by_cases backslash : c = '\\'
    · subst backslash
      rw [guarded_cons_of_mem (by decide)]
      simp [markMatches, ih]
    · rw [guarded_cons_of_notMem (by simp [backslash, ampersand])]
      simp [markMatches, ih, ampersand]

/-! ## Reading a script -/

/-- The script that puts a text for a word, once in each line or wherever the word stands. -/
def substitution (word new : String) (all : Bool) : String :=
  "s/" ++ word ++ "/" ++ String.ofList (guarded ['\\', '&', '/'] new.toList) ++ "/" ++
    if all then "g" else ""

private theorem toList_substitution (word new : String) (all : Bool) :
    (substitution word new all).toList = 's' :: '/' :: (word.toList ++ '/' ::
      (guarded ['\\', '&', '/'] new.toList ++ '/' :: if all then ['g'] else [])) := by
  cases all <;> simp [substitution]

private theorem scriptParts_word {word : List Char} (plain : ∀ c ∈ word, c.isAlphanum = true)
    (rest : List Char) :
    scriptParts '/' (word ++ '/' :: rest) = word :: scriptParts '/' rest := by
  induction word with
  | nil => exact scriptParts_delimiter rest
  | cons c word ih =>
    obtain ⟨first, others⟩ := List.forall_mem_cons.mp plain
    have slash : c ≠ '\\' := by
      rintro rfl
      exact absurd first (by decide)
    have other : c ≠ '/' := by
      rintro rfl
      exact absurd first (by decide)
    rw [List.cons_append, scriptParts_plain slash other, ih others]
    rfl

/-- Behind the word come the text, of which only backslashes and `&` are still guarded, and the
letters. -/
private theorem scriptParts_new {new : List Char} (closed : Pattern.Sealed new) (all : Bool) :
    scriptParts '/' (guarded ['\\', '&', '/'] new ++ '/' :: if all then ['g'] else []) =
      [guarded ['\\', '&'] new, if all then ['g'] else []] := by
  have letters : scriptParts '/' (if all then ['g'] else []) = [if all then ['g'] else []] := by
    cases all <;> decide
  rw [scriptParts_guarded (.inl closed), scriptParts_delimiter, foldr_addToFirst, letters,
    List.append_nil]

/-- A backslash at the end of the text swallows the delimiter, and no letters are left. -/
private theorem scriptParts_new_open {new : List Char} (ends : ¬ Pattern.Sealed new) (all : Bool) :
    ∃ part, scriptParts '/' (guarded ['\\', '&', '/'] new ++ '/' :: if all then ['g'] else []) =
      [part] := by
  obtain ⟨front, rfl⟩ : ∃ front, new = front ++ ['\\'] := by
    rw [Pattern.Sealed, not_not] at ends
    exact List.getLast?_eq_some_iff.mp ends
  have last : guarded ['\\', '&', '/'] (front ++ ['\\']) ++ '/' :: (if all then ['g'] else []) =
      guarded ['\\', '&', '/'] front ++ '\\' :: '\\' :: '/' :: if all then ['g'] else [] := by
    simp [guarded]
  obtain ⟨part, cut⟩ : ∃ part,
      scriptParts '/' ('\\' :: '\\' :: '/' :: if all then ['g'] else []) = [part] := by
    cases all
    · exact ⟨['\\', '/'], by decide⟩
    · exact ⟨['\\', '/', 'g'], by decide⟩
  rw [last, scriptParts_guarded (.inr (by simp)), cut, foldr_addToFirst]
  exact ⟨_, rfl⟩

section Reading

variable {word new : String} (plain : ∀ c ∈ word.toList, c.isAlphanum = true)

include plain

private theorem read?_substitution (closed : Pattern.Sealed new.toList) (all : Bool) :
    Substitution.read? (substitution word new all) =
      some ⟨word, String.ofList (guarded ['\\'] new.toList), all, false⟩ := by
  have read : replaceAll "\\&" "&"
      (String.ofList (markMatches false (guarded ['\\', '&'] new.toList))) =
      String.ofList (guarded ['\\'] new.toList) := by
    have guard : "\\&".toList = ['\\', '&'] := rfl
    have bare : "&".toList = ['&'] := rfl
    rw [markMatches_guarded, replaceAll, guard, bare, String.toList_ofList,
      replaceFrom_guarded (by decide)]
  unfold Substitution.read?
  simp only [toList_substitution, scriptParts_word plain, scriptParts_new closed, read,
    String.ofList_toList]
  cases all <;> simp

private theorem read?_substitution_open (ends : ¬ Pattern.Sealed new.toList) (all : Bool) :
    Substitution.read? (substitution word new all) = none := by
  obtain ⟨part, cut⟩ := scriptParts_new_open ends all
  unfold Substitution.read?
  simp only [toList_substitution, scriptParts_word plain, cut]

end Reading

/-! ## Editing lines -/

/-- A substitution is the only argument, and no option. -/
private theorem scriptAndFiles?_substitution (word new : String) (all : Bool) :
    scriptAndFiles? (parseOptions ['e'] [substitution word new all]) =
      some (substitution word new all, []) := by
  have letter : isOption (substitution word new all) = false := by
    simp [isOption, toList_substitution]
  have first : substitution word new all ≠ "--" := by
    intro same
    have chars := congrArg String.toList same
    rw [toList_substitution] at chars
    simp at chars
  have parsed : parseOptions ['e'] [substitution word new all] =
      ⟨[], [], [substitution word new all]⟩ := by
    simp [parseOptions, parseOptions.go, letter, first]
  rw [parsed]
  rfl

/-- Letters and digits stand for themselves in a pattern. -/
private theorem isSpecial_of_isAlphanum (plain : c.isAlphanum = true) :
    Pattern.Glob.isSpecial c = false := by
  have odd : "()[]\x7b\x7d?*+-|^$\\.&~# \t\n\r\x0b\x0c".toList.all (!·.isAlphanum) = true := by
    decide
  rw [← Bool.not_eq_true]
  intro special
  have inside := List.all_eq_true.mp odd c (by simpa [Pattern.Glob.isSpecial] using special)
  rw [plain] at inside
  cases inside

section Editing

variable {word new : String} (plain : ∀ c ∈ word.toList, c.isAlphanum = true)

/-- The line with the text in the place of the word, once or wherever it stands. -/
def editLine (word new : String) (all : Bool) (line : String) : String :=
  if all then replaceAll word new line else replaceFirst word new line

private theorem substitute_word (filled : word ≠ "") (closed : Pattern.Sealed new.toList)
    (all : Bool) (ls : List String) :
    substitute (Pattern.wordPattern word.toList) (String.ofList (guarded ['\\'] new.toList)) all
      ls = .ok (ls.map (editLine word new all)) := by
  obtain ⟨replacement, read, constant⟩ :=
    Pattern.read_guarded (Pattern.wordPattern word.toList) closed
  cases ls with
  | nil => rfl
  | cons line rest =>
    have each : (Pattern.wordPattern word.toList).replace all replacement.expand =
        editLine word new all := funext (Pattern.replace_word filled constant all)
    unfold substitute
    rw [read, ← each]
    rfl

include plain

private theorem sed_prints (filled : word ≠ "") (closed : Pattern.Sealed new.toList) (all : Bool)
    (text : String) : Prints caller workspace .sed [substitution word new all] text
      (unlines ((lines text).map (editLine word new all))) := by
  have compiled : Pattern.compile (caseFlags false) word = .ok (Pattern.wordPattern word.toList) :=
    Pattern.compile_word word fun c member => isSpecial_of_isAlphanum (plain c member)
  change (sed [substitution word new all] (some text) caller workspace).1 = _
  unfold sed
  rw [scriptAndFiles?_substitution]
  dsimp only
  rw [read?_substitution plain closed]
  dsimp only
  rw [result_lift_bind, readPattern_eq_ok.mpr compiled]
  change (withInput "sed" [] (some text) _ caller workspace).1 = _
  unfold withInput
  simp only [List.isEmpty_nil, if_true, Option.getD_some, substitute_word filled closed]
  rfl

private theorem sed_refuses (ends : ¬ Pattern.Sealed new.toList) (all : Bool)
    (stdin : Option String) :
    run (.builtin .sed) [substitution word new all] stdin caller workspace =
      (.ok (.fail "sed" s!"-e expression #1: unknown command: `{substitution word new all}'"),
        workspace) := by
  change sed [substitution word new all] stdin caller workspace = _
  unfold sed
  rw [scriptAndFiles?_substitution]
  dsimp only
  rw [read?_substitution_open plain ends]
  rfl

end Editing

/-- A guarded text is put for a word in every line, once or wherever the word stands, exactly if it
does not end in a backslash; if it does, the script is refused. -/
theorem substituted_literally_iff (caller : Caller Command) (workspace : Workspace)
    {word new : String} (filled : word ≠ "") (plain : ∀ c ∈ word.toList, c.isAlphanum = true)
    (all : Bool) (text : String) :
    (Prints caller workspace .sed [substitution word new all] text
      (unlines ((lines text).map (editLine word new all))) ↔ new.toList.getLast? ≠ some '\\') ∧
    (new.toList.getLast? = some '\\' →
      run (.builtin .sed) [substitution word new all] (some text) caller workspace =
        (.ok (.fail "sed" s!"-e expression #1: unknown command: `{substitution word new all}'"),
          workspace)) := by
  have refused : new.toList.getLast? = some '\\' →
      run (.builtin .sed) [substitution word new all] (some text) caller workspace =
        (.ok (.fail "sed" s!"-e expression #1: unknown command: `{substitution word new all}'"),
          workspace) :=
    fun ends => sed_refuses plain (fun closed => closed ends) all (some text)
  refine ⟨⟨fun printed ends => ?_, fun closed => sed_prints plain filled closed all text⟩, refused⟩
  rw [Prints, refused ends] at printed
  have codes := congrArg Outcome.code (Except.ok.inj printed)
  cases codes

/-- Backslashes, references and delimiters are put as they are. -/
theorem substituted_mixture : "ab" ≠ "" ∧ (∀ c ∈ "ab".toList, c.isAlphanum = true) ∧
    substitution "ab" "\\&/" true = "s/ab/\\\\\\&\\//g" ∧
    ∀ caller workspace, Prints caller workspace .sed ["s/ab/\\\\\\&\\//g"] "abcab\nb"
      "\\&/c\\&/\nb" := by
  have plain : ∀ c ∈ "ab".toList, c.isAlphanum = true := List.all_eq_true.mp (by decide)
  have script : substitution "ab" "\\&/" true = "s/ab/\\\\\\&\\//g" := by decide
  refine ⟨by decide, plain, script, fun caller workspace => ?_⟩
  have printed := (substituted_literally_iff caller workspace (by decide) plain true
    "abcab\nb").1.mpr (by decide : "\\&/".toList.getLast? ≠ some '\\')
  rw [script] at printed
  exact printed

/-- A backslash alone is refused, though it is guarded. -/
theorem lone_backslash_refused : "a" ≠ "" ∧ (∀ c ∈ "a".toList, c.isAlphanum = true) ∧
    substitution "a" "\\" true = "s/a/\\\\/g" ∧
    editLine "a" "\\" true "a" = "\\" ∧
    ∀ caller workspace, run (.builtin .sed) ["s/a/\\\\/g"] (some "a") caller workspace =
      (.ok (.fail "sed" "-e expression #1: unknown command: `s/a/\\\\/g'"), workspace) :=
  ⟨by decide, List.all_eq_true.mp (by decide), by decide, by decide, fun _ _ => rfl⟩

end PocketShell.Command
