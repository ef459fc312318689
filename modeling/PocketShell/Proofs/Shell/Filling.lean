import PocketShell.Proofs.Alongside
import PocketShell.Proofs.Fs.Runs
import PocketShell.Proofs.Shell.Expansion
import PocketShell.Proofs.Shell.Rejoining
import PocketShell.Proofs.Shell.Rendering
import PocketShell.Shell.Execution

/-! What a stage hands to its command. The substitutions of a word are replaced by what their commands
put out, the word is joined again, and only then are its variables filled in. It comes to the same as
filling in each part of the word alone, unless two parts grow together into a reference or an escape,
or a dollar sign gets a backslash that is not its own. -/
namespace PocketShell.Shell

/-- What a part of a word has become: literal text, or the output of a command on one line. -/
inductive Patch
  | literal (text : List Char)
  | output (text : List Char)

/-- The patch as it is put into the word. -/
def Patch.written : Patch → List Char
  | .literal text => text
  | .output text => text.flatMap literally

/-- The patch on its own, after variables. -/
def Patch.value (env : Env) : Patch → List Char
  | .literal text => (expandWord env (String.ofList text)).toList
  | .output text => text

/-- Every patch is read apart from what follows it. -/
def Seamless : List Patch → Prop
  | [] => True
  | patch :: patches => Apart patch.written (patches.flatMap Patch.written) ∧ Seamless patches

instance decideSeamless : (patches : List Patch) → Decidable (Seamless patches)
  | [] => .isTrue trivial
  | _ :: patches =>
    have := decideSeamless patches
    inferInstanceAs (Decidable (_ ∧ _))

/-- The patch that a part becomes, and what running it warned of. -/
def patchOf (inner : Inner) : Part → Run Command (Patch × List String)
  | .literal text => return (.literal text, [])
  | .command text => match inner with
    | none => return (.output [], [nestedTooDeep])
    | some run => do
      let transcript ← run (String.ofList text)
      return (.output (Text.collapse transcript.output).toList, transcript.error.toList)

/-- The words that a word becomes. Nothing is left of substitutions on their own without output. -/
def handed (env : Env) (word : String) (patches : List Patch) : List String :=
  if parts word.toList ≠ [] ∧ (parts word.toList).all Part.isCommand = true ∧
      patches.flatMap Patch.written = [] then []
  else [String.ofList (patches.flatMap (Patch.value env))]

variable {env : Env} {patches : List Patch}

/-! ## Patches -/

/-- What a patch means on its own. -/
private def Patch.meaning (env : Env) : Patch → List Char
  | .literal text => meant env text
  | .output text => text

private theorem meant_written (seamless : Seamless patches) :
    meant env (patches.flatMap Patch.written) = patches.flatMap (Patch.meaning env) := by
  induction patches with
  | nil => simp
  | cons patch patches ih =>
    have first : meant env patch.written = patch.meaning env := by
      cases patch with
      | literal => rfl
      | output text => exact meant_literally text
    rw [List.flatMap_cons, List.flatMap_cons, meant_append env seamless.1, first, ih seamless.2]

private theorem value_eq_meaning {patch : Patch}
    (clear : ∀ text, patch = .literal text → Unconfused env text) :
    patch.value env = patch.meaning env := by
  cases patch with
  | literal text =>
    have right := (expandWord_eq_meant_iff env (String.ofList text)).mpr
      (by simpa using clear text rfl)
    rw [Patch.value, right]
    simp [Patch.meaning]
  | output text => rfl

/-- The word becomes its patches one by one exactly if no dollar sign is confused in it. -/
private theorem expandWord_patches_iff (seamless : Seamless patches)
    (clear : ∀ text, .literal text ∈ patches → Unconfused env text) :
    expandWord env (String.ofList (patches.flatMap Patch.written)) =
        String.ofList (patches.flatMap (Patch.value env)) ↔
      Unconfused env (patches.flatMap Patch.written) := by
  have values : patches.flatMap (Patch.value env) = patches.flatMap (Patch.meaning env) := by
    refine congrArg List.flatten (List.map_congr_left fun patch member => ?_)
    exact value_eq_meaning fun text same => clear text (same ▸ member)
  have whole := expandWord_eq_meant_iff env (String.ofList (patches.flatMap Patch.written))
  rw [String.toList_ofList, meant_written seamless, ← values] at whole
  exact whole

/-! ## Filling a word -/

section

variable {inner : Inner}

private theorem fillPart_eq (part : Part) : fillPart inner part =
    (fun filled => (String.ofList filled.1.written, filled.2)) <$> patchOf inner part := by
  have escaped (text : String) :
      escapeDollars text = String.ofList (text.toList.flatMap literally) := by
    rw [← toList_escapeDollars, String.ofList_toList]
  cases part with
  | literal text => simp [fillPart, patchOf, Patch.written]
  | command text => cases inner <;> simp [fillPart, patchOf, Patch.written, escaped]

private theorem mapM_fillPart (parts : List Part) : parts.mapM (fillPart inner) =
    List.map (fun filled => (String.ofList filled.1.written, filled.2)) <$>
      parts.mapM (patchOf inner) := by
  induction parts with
  | nil => simp
  | cons part parts ih => simp [List.mapM_cons, ih, fillPart_eq]

private theorem mapM_literals {parts : List Part} (plain : parts.any Part.isCommand = false) :
    parts.mapM (patchOf inner) = pure (parts.map fun part => (.literal part.source, [])) := by
  induction parts with
  | nil => rfl
  | cons part parts ih =>
    rw [List.any_cons, Bool.or_eq_false_iff] at plain
    cases part with
    | literal text => simp [List.mapM_cons, ih plain.2, patchOf, Part.source]
    | command text => cases plain.1

/-- Filling a word is putting its patches together. -/
private theorem fillWord_eq (word : String) : fillWord inner word =
    (fun filled : List (Patch × List String) =>
      ⟨String.ofList (filled.flatMap (·.1.written)),
        !(parts word.toList).isEmpty && (parts word.toList).all Part.isCommand,
        (filled.map (·.2)).flatten⟩) <$> (parts word.toList).mapM (patchOf inner) := by
  unfold fillWord
  dsimp only
  cases found : (parts word.toList).any Part.isCommand with
  | false =>
    have idle : (!(parts word.toList).isEmpty && (parts word.toList).all Part.isCommand) = false := by
      revert found
      cases parts word.toList <;> simp_all
    have whole : ((parts word.toList).map fun part => (Patch.literal part.source,
        ([] : List String))).flatMap (·.1.written) = word.toList := by
      rw [List.flatMap_map]
      exact (divides_parts _).source_eq
    rw [Bool.not_false, if_pos rfl, mapM_literals found, map_pure, whole, idle]
    simp [Function.comp_def]
  | true =>
    have inhabited : (parts word.toList).isEmpty = false := by
      revert found
      cases parts word.toList <;> simp
    have joined (filled : List (Patch × List String)) :
        String.join (filled.map fun filled => String.ofList filled.1.written) =
          String.ofList (filled.flatMap (·.1.written)) := by
      rw [← String.toList_inj, String.toList_join]
      simp [List.flatMap_def, Function.comp_def]
    rw [if_neg (by decide), mapM_fillPart, inhabited]
    simp [joined, Function.comp_def]

/-- One word of a stage, once its patches are there. -/
private theorem fillWords_run {word : String} {words : List String} {caller : Caller Command}
    {before between : Workspace} {filled : List (Patch × List String)}
    (ran : (parts word.toList).mapM (patchOf inner) caller before = (.ok filled, between))
    (right : expandWord between.env (String.ofList (filled.flatMap (·.1.written))) =
      String.ofList ((filled.map (·.1)).flatMap (Patch.value between.env))) :
    fillWords inner (word :: words) caller before = (do
      let (others, warnings) ← fillWords inner words
      return (handed between.env word (filled.map (·.1)) ++ others,
        (filled.map (·.2)).flatten ++ warnings) : Run Command (List String × List String))
      caller between := by
  rw [fillWords, fillWord_eq]
  simp only [bind_map_left]
  rw [Task.bind_run, ran]
  dsimp only
  rw [Task.bind_run]
  change (fillWords inner words >>= _) caller between = _
  rw [right]
  have dropped : (!(parts word.toList).isEmpty && (parts word.toList).all Part.isCommand &&
      (String.ofList (filled.flatMap (·.1.written))).isEmpty) = true ↔
        parts word.toList ≠ [] ∧ (parts word.toList).all Part.isCommand = true ∧
          (filled.map (·.1)).flatMap Patch.written = [] := by
    simp [and_assoc, List.flatMap_map]
  refine congrArg (fun next => (fillWords inner words >>= next) caller between) (funext fun others => ?_)
  simp only [dropped, handed]
  split <;> rfl

private theorem parts_literally (text : List Char) :
    (parts (text.flatMap literally)).any Part.isCommand = false := by
  have kept (front : List Char) (parts : List Part) :
      (Part.before front parts).any Part.isCommand = parts.any Part.isCommand := by
    rcases parts with _ | ⟨_ | _, _⟩ <;> simp [Part.before, Part.isCommand]
  induction text with
  | nil => simp
  | cons c text ih =>
    rw [List.flatMap_cons]
    by_cases dollar : c = '$'
    · subst dollar
      change (parts ('\\' :: '$' :: text.flatMap literally)).any Part.isCommand = false
      rw [parts_protected, kept, ih]
    · rw [literally, if_neg dollar, List.singleton_append,
        parts_char (fun _ => head_literally text) (substitution_none dollar), kept, ih]

private theorem fillWords_literally (text : String) (caller : Caller Command)
    (workspace : Workspace) : fillWords inner [escapeDollars text] caller workspace =
      (.ok ([expandWord workspace.env (escapeDollars text)], []), workspace) := by
  have plain := parts_literally text.toList
  rw [← toList_escapeDollars] at plain
  rw [fillWords, fillWord]
  simp only [plain]
  rfl

end

private theorem lex_writeWord_alone (marks : Bool) (text : String) :
    lex marks none none (writeWord text) = [.word (escapeDollars text)] := by
  rw [writeWord, List.cons_append, lex_quote (by decide)]
  have quoted : lex marks _ _ _ = _ := lex_spelled text.toList [] []
  change lex marks (some Text.singleQuote) (some []) _ = _
  rw [quoted, lex_nil, List.nil_append, ← toList_escapeDollars, flush, String.ofList_toList]

/-- A text in single quotes is one word, which hands the text over exactly if none of its backslashes
stands before what would be a reference. A word means what is meant, the values of its variables
included, exactly if no dollar sign is confused. And where no two parts of a word grow together, the
word hands over its parts one by one: each literal text with its variables and each output on one
line. -/
theorem words_mean_their_parts (inner : Inner) (caller : Caller Command) (before : Workspace) :
    (∀ (env : Env) (text : String), expandWord env (escapeDollars text) = text ↔
      ∀ front back, text.toList = front ++ '\\' :: back → reference? back = none) ∧
    (∀ (marks : Bool) (text : String),
      lex marks none none (writeWord text) = [.word (escapeDollars text)] ∧
      fillWords inner [escapeDollars text] caller before =
        (.ok ([expandWord before.env (escapeDollars text)], []), before)) ∧
    (∀ (env : Env) (word : String),
      expandWord env word = String.ofList (meant env word.toList) ↔ Unconfused env word.toList) ∧
    ∀ (word : String) (words : List String) (between : Workspace)
        (filled : List (Patch × List String)),
      (parts word.toList).mapM (patchOf inner) caller before = (.ok filled, between) →
      Seamless (filled.map (·.1)) →
      (∀ text, .literal text ∈ filled.map (·.1) → Unconfused between.env text) →
      (expandWord between.env (String.ofList ((filled.map (·.1)).flatMap Patch.written)) =
          String.ofList ((filled.map (·.1)).flatMap (Patch.value between.env)) ↔
        Unconfused between.env ((filled.map (·.1)).flatMap Patch.written)) ∧
      (Unconfused between.env ((filled.map (·.1)).flatMap Patch.written) →
        fillWords inner (word :: words) caller before = (do
          let (others, warnings) ← fillWords inner words
          return (handed between.env word (filled.map (·.1)) ++ others,
            (filled.map (·.2)).flatten ++ warnings) : Run Command (List String × List String))
          caller between) := by
  refine ⟨fun env text => ?_, fun marks text => ?_, expandWord_eq_meant_iff,
    fun word words between filled ran seamless clear => ?_⟩
  · have whole := expandWord_eq_meant_iff env (escapeDollars text)
    rw [toList_escapeDollars, meant_literally, String.ofList_toList] at whole
    rw [whole, ← not_iff_not, confused_literally_iff]
    push Not
    rfl
  · exact ⟨lex_writeWord_alone marks text, fillWords_literally text caller before⟩
  · have iff := expandWord_patches_iff seamless clear
    refine ⟨iff, fun unconfused => fillWords_run ran ?_⟩
    simpa [List.flatMap_map] using iff.mpr unconfused

/-- A workspace with one variable. -/
private def priced : Workspace := ⟨bareMachine, "/", [("V", "\\1")], [], [], none, []⟩

private def buyer : Caller Command := ⟨"guest", none, ""⟩

private def pricedPatches : List Patch :=
  [.literal "a\\$".toList, .output "p $V q".toList, .literal "-$V".toList]

/-- A dollar sign that stays, an output with a dollar sign and a value with a backslash. -/
theorem priced_word : Seamless pricedPatches ∧
    Unconfused priced.env (pricedPatches.flatMap Patch.written) ∧
    (fillWords (some fun _ => return ⟨"p\n$V q", none, 0, none⟩) ["a\\$$(b)-$V"] buyer priced).1.toOption =
      some (["a$p $V q-\\1"], []) := by
  have seamless : Seamless pricedPatches := by decide +kernel
  have unconfused : Unconfused priced.env (pricedPatches.flatMap Patch.written) := by decide +kernel
  have split : parts "a\\$$(b)-$V".toList =
      [.literal "a\\$".toList, .command ['b'], .literal "-$V".toList] := by decide +kernel
  have clear : ∀ text, Patch.literal text ∈ pricedPatches → Unconfused priced.env text := by
    intro text listed
    simp only [pricedPatches, List.mem_cons, List.not_mem_nil, Patch.literal.injEq, or_false,
      reduceCtorEq, false_or] at listed
    rcases listed with rfl | rfl <;> decide +kernel
  have ran : (parts "a\\$$(b)-$V".toList).mapM
      (patchOf (some fun _ => return ⟨"p\n$V q", none, 0, none⟩)) buyer priced =
        (.ok (pricedPatches.map fun patch => (patch, [])), priced) := by
    rw [split]
    rfl
  obtain ⟨-, -, -, apart⟩ :=
    words_mean_their_parts (some fun _ => return ⟨"p\n$V q", none, 0, none⟩) buyer priced
  have filled := (apart _ [] _ _ ran seamless clear).2 unconfused
  refine ⟨seamless, unconfused, ?_⟩
  rw [filled]
  decide +kernel

/-- A backslash that stands before a reference is lost, be it in final text or in a value, and a dollar
sign grows together with an output behind it. -/
theorem words_confused :
    expandWord [] (escapeDollars "\\$HOME") = "$HOME" ∧
    expandWord [("V", "\\$5")] "$V" = "$5" ∧
    (fillWords (some fun _ => return ⟨"V", none, 0, none⟩) ["$$(b)"] buyer priced).1.toOption =
      some (["\\1"], []) := by
  decide +kernel

end PocketShell.Shell
