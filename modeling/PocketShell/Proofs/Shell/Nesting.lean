import PocketShell.Proofs.Shell.Moving
import PocketShell.Proofs.Shell.Reaching
import PocketShell.Proofs.Text.Lines

/-! Substitutions that nest too deep. One below the last level leaves a message, and a stage that has
been warned of the message is refused. The message comes up through the errors of the lines in between,
among whatever else is reported there, so that a command which says the same words of its own has its
pipeline refused just as well. Everything else that goes wrong in a substitution changes nothing for
the command around it. -/
namespace PocketShell.Shell

variable {inner : Inner} {caller : Caller Command} {action : Action} {part : Part}
  {pipeline : Pipeline} {workspace between after : Workspace} {levels : Nat} {line : String}

/-! ## Preparing a stage -/

/-- The parts of the words and the paths of a stage, in the order in which they are filled. -/
def Action.parts (action : Action) : List Part :=
  let partsOf (words : List String) := words.flatMap fun word => Shell.parts word.toList
  partsOf ([action.name].filter (!·.isEmpty) ++ action.args) ++
    partsOf (action.output.map (·.2)).toList ++ partsOf action.input.toList

/-- What filled parts have warned of. -/
def warned (filled : List (String × List String)) : List String := (filled.map (·.2)).flatten

/-- Running parts, for what they warn of. -/
private def warnings (inner : Inner) (parts : List Part) : Run Command (List String) :=
  warned <$> parts.mapM (fillPart inner)

private theorem warnings_append (parts others : List Part) :
    warnings inner (parts ++ others) = (do
      let first ← warnings inner parts
      let second ← warnings inner others
      return first ++ second) := by
  simp [warnings, warned, List.mapM_append]

private theorem warnings_literals {parts : List Part} (plain : parts.any Part.isCommand = false) :
    warnings inner parts = pure [] := by
  induction parts with
  | nil => rfl
  | cons part parts ih =>
    rw [List.any_cons, Bool.or_eq_false_iff] at plain
    rw [← List.singleton_append, warnings_append, ih plain.2]
    cases part with
    | literal text => rfl
    | command text => cases plain.1

private theorem fillWord_warnings (word : String) :
    Filled.warnings <$> fillWord inner word = warnings inner (parts word.toList) := by
  unfold fillWord
  dsimp only
  split
  · rename_i plain
    rw [warnings_literals (by simpa using plain)]
    rfl
  · simp only [map_bind, map_pure]
    exact bind_pure_comp warned _

/-- A look at the workspace that has no part in what follows. -/
private theorem looking {α : Type} {next : Workspace → Run Command α} {operation : Run Command α}
    (same : ∀ workspace, next workspace = operation) : (get >>= next) = operation := by
  have constant : next = fun _ => operation := funext same
  rw [constant]
  rfl

private theorem fillWords_warnings (words : List String) :
    Prod.snd <$> fillWords inner words =
      warnings inner (words.flatMap fun word => parts word.toList) := by
  induction words with
  | nil => rfl
  | cons word rest ih =>
    rw [List.flatMap_cons, warnings_append, ← ih, ← fillWord_warnings, fillWords, map_bind,
      bind_map_left]
    refine bind_congr fun filled => ?_
    rw [map_bind]
    refine looking fun workspace => ?_
    rw [map_bind, bind_map_left]
    refine bind_congr fun further => ?_
    dsimp only
    split <;> rfl

private theorem fillPath_warnings (path : String) :
    Prod.snd <$> fillPath inner path = warnings inner (parts path.toList) := by
  rw [← fillWord_warnings, fillPath, map_bind, map_eq_pure_bind]
  refine bind_congr fun filled => ?_
  rw [map_bind]
  refine looking fun workspace => ?_
  dsimp only
  split <;> rfl

private theorem fillPath?_warnings (path : Option String) : Prod.snd <$> fillPath? inner path =
    warnings inner (path.toList.flatMap fun path => parts path.toList) := by
  cases path with
  | none => rfl
  | some path =>
    rw [Option.toList_some, List.flatMap_singleton, ← fillPath_warnings, fillPath?, map_bind,
      map_eq_pure_bind]
    rfl

/-- What preparing a stage warns of is what its parts warn of. -/
private theorem prepare_warnings (inner : Inner) (action : Action) :
    Prepared.warnings <$> prepare inner action = warnings inner action.parts := by
  unfold Action.parts prepare
  dsimp only
  rw [warnings_append, warnings_append, ← fillWords_warnings, ← fillPath?_warnings,
    ← fillPath?_warnings]
  simp [map_bind]

/-! ## What is nested and what is told -/

/-- Behind a part, if its command ends. -/
def fillNext (inner : Inner) (caller : Caller Command) (workspace : Workspace) (part : Part) :
    Option Workspace :=
  match fillPart inner part caller workspace with
  | (.ok _, after) => some after
  | _ => none

/-- Preparing a stage gets to a part. -/
def StageReaches (levels : Nat) (caller : Caller Command) (action : Action) (workspace : Workspace)
    (between : Workspace) (part : Part) : Prop :=
  Reaches (fillNext (innerAt levels) caller) workspace action.parts between part

/-- Running a part leads to a substitution that is nested in more than as many levels. -/
inductive Nests (caller : Caller Command) : Nat → Part → Workspace → Prop
  | deep {text : List Char} {workspace : Workspace} : Nests caller 0 (.command text) workspace
  | within {levels : Nat} {text : List Char} {workspace between : Workspace} {point : AtStage}
      {action : Action} {part : Part}
      (stage : LineReaches levels caller (String.ofList text) workspace point action)
      (gets : StageReaches levels caller action point.workspace between part)
      (further : Nests caller levels part between) :
      Nests caller (levels + 1) (.command text) workspace

/-- The pipeline comes to a stage that is refused once it is prepared. -/
def Refused (levels : Nat) (caller : Caller Command) (pipeline : Pipeline) (workspace : Workspace) :
    Prop :=
  ∃ point action prepared after,
    Reaches (AtStage.next (innerAt levels) caller) (.first workspace) pipeline point action ∧
      prepare (innerAt levels) action caller point.workspace = (.ok prepared, after) ∧
      prepared.tooDeep = true

/-- Running a part leads to a pipeline that is not refused and whose errors yet say that it nests too
deep. -/
inductive Tells (caller : Caller Command) : Nat → Part → Workspace → Prop
  | own {levels : Nat} {text : List Char} {workspace after : Workspace} {here : AtSegment}
      {segment : Segment} {outcome : Outcome}
      (gets : Reaches (AtSegment.next levels caller) (.first levels workspace)
        (parseLine (String.ofList text)) here segment)
      (ran : runPipeline levels segment.pipeline caller here.workspace = (.ok outcome, after))
      (runs : ¬ Refused levels caller segment.pipeline here.workspace)
      (speaks : Text.occursIn nestedTooDeep outcome.errorText = true) :
      Tells caller (levels + 1) (.command text) workspace
  | within {levels : Nat} {text : List Char} {workspace between : Workspace} {point : AtStage}
      {action : Action} {part : Part}
      (stage : LineReaches levels caller (String.ofList text) workspace point action)
      (gets : StageReaches levels caller action point.workspace between part)
      (further : Tells caller levels part between) :
      Tells caller (levels + 1) (.command text) workspace

/-- What parts have warned of comes from the parts that are reached: by induction on the parts. -/
private theorem mem_warned {parts : List Part} {filled : List (String × List String)}
    (ran : parts.mapM (fillPart inner) caller workspace = (.ok filled, after)) {warning : String} :
    warning ∈ warned filled ↔ ∃ between part text left,
      Reaches (fillNext inner caller) workspace parts between part ∧
        fillPart inner part caller between = (.ok text, left) ∧ warning ∈ text.2 := by
  induction parts generalizing workspace filled with
  | nil =>
    cases ran
    simp [warned, not_reaches_nil]
  | cons part parts ih =>
    rw [List.mapM_cons] at ran
    obtain ⟨text, between, first, ran⟩ := Task.bind_eq_ok.mp ran
    obtain ⟨others, _, rest, ⟨⟩⟩ := Task.bind_eq_ok.mp ran
    have goes : fillNext inner caller workspace part = some between := by
      unfold fillNext
      rw [first]
    have joined : warned (text :: others) = text.2 ++ warned others := rfl
    rw [joined, List.mem_append, ih rest]
    simp only [reaches_cons, goes, Option.some.injEq, exists_eq_left']
    constructor
    · rintro (here | ⟨later, part, text, left, reaches, fills, listed⟩)
      · exact ⟨workspace, part, text, between, .inl ⟨rfl, rfl⟩, first, here⟩
      · exact ⟨later, part, text, left, .inr reaches, fills, listed⟩
    · rintro ⟨later, part, text, left, ⟨rfl, rfl⟩ | reaches, fills, listed⟩
      · rw [first] at fills
        cases fills
        exact .inl listed
      · exact .inr ⟨later, part, text, left, reaches, fills, listed⟩

/-- If all parts are filled, so is one that is reached. -/
private theorem filled_of_reaches {parts : List Part} {filled : List (String × List String)}
    (ran : parts.mapM (fillPart inner) caller workspace = (.ok filled, after))
    (reaches : Reaches (fillNext inner caller) workspace parts between part) :
    ∃ text left, fillPart inner part caller between = (.ok text, left) := by
  induction parts generalizing workspace filled with
  | nil => exact absurd reaches not_reaches_nil
  | cons first parts ih =>
    rw [List.mapM_cons] at ran
    obtain ⟨text, left, fills, ran⟩ := Task.bind_eq_ok.mp ran
    obtain ⟨others, _, rest, ⟨⟩⟩ := Task.bind_eq_ok.mp ran
    rcases reaches_cons.mp reaches with ⟨rfl, rfl⟩ | ⟨later, goes, further⟩
    · exact ⟨text, left, fills⟩
    · unfold fillNext at goes
      rw [fills] at goes
      cases goes
      exact ih rest further

/-- Behind a pipeline its error text is among the errors, if it has one. -/
private theorem AtSegment.behind_any {said : String → Bool} (silent : said "" = false)
    (point : AtSegment) (pipeline : Pipeline) (outcome : Outcome) (after : Workspace) :
    (point.behind pipeline outcome after).progress.errors.any said = true ↔
      point.progress.errors.any said = true ∨ said outcome.errorText = true := by
  unfold behind Progress.add
  by_cases empty : outcome.errorText = ""
  · simp [empty, silent]
  · simp [empty, List.any_append]

/-- A line that ends from somewhere has had its next pipeline end. -/
private theorem AtSegment.run_cons_ok {point : AtSegment} {segment : Segment}
    {segments : List Segment} {last : Progress}
    (ran : point.run levels caller (segment :: segments) = (.ok last, after)) :
    ∃ outcome between,
      runPipeline levels segment.pipeline caller point.workspace = (.ok outcome, between) ∧
      (point.behind segment.pipeline outcome between).run levels caller
        (segment.onward outcome.code segments) = (.ok last, after) := by
  rw [run_cons] at ran
  cases first : runPipeline levels segment.pipeline caller point.workspace with
  | mk result between =>
    rw [first] at ran
    cases result with
    | error fault => cases ran
    | ok outcome => exact ⟨outcome, between, rfl, ran⟩

/-- What is said in the errors of a line was said by a pipeline that was reached: by induction on the
segments. -/
private theorem any_errors {said : String → Bool} (silent : said "" = false)
    {segments : List Segment} {point : AtSegment} {last : Progress}
    (ran : point.run levels caller segments = (.ok last, after)) :
    last.errors.any said = true ↔ point.progress.errors.any said = true ∨
      ∃ here segment outcome left, Reaches (AtSegment.next levels caller) point segments here segment ∧
        runPipeline levels segment.pipeline caller here.workspace = (.ok outcome, left) ∧
        said outcome.errorText = true := by
  induction segments generalizing point with
  | nil =>
    cases ran
    simp [not_reaches_nil]
  | cons segment segments ih =>
    obtain ⟨outcome, between, first, ran⟩ := AtSegment.run_cons_ok ran
    have onward : last.errors.any said = true ↔
        (point.behind segment.pipeline outcome between).progress.errors.any said = true ∨
        ∃ here other ending left, (∃ later, AtSegment.next levels caller point segment =
          some later ∧ Reaches (AtSegment.next levels caller) later segments here other) ∧
          runPipeline levels other.pipeline caller here.workspace = (.ok ending, left) ∧
          said ending.errorText = true := by
      unfold AtSegment.next Segment.onward at *
      rw [first]
      dsimp only
      split at ran
      · rename_i ends
        cases ran
        simp [ends]
      · rename_i goes
        simp [goes, ih ran]
    rw [onward, AtSegment.behind_any silent, or_assoc]
    refine or_congr_right ?_
    simp only [reaches_cons]
    constructor
    · rintro (here | ⟨here, other, ending, left, later, ends, speaks⟩)
      · exact ⟨point, segment, outcome, between, .inl ⟨rfl, rfl⟩, first, here⟩
      · exact ⟨here, other, ending, left, .inr later, ends, speaks⟩
    · rintro ⟨here, other, ending, left, ⟨rfl, rfl⟩ | later, ends, speaks⟩
      · rw [first] at ends
        cases ends
        exact .inl speaks
      · exact .inr ⟨here, other, ending, left, later, ends, speaks⟩

/-! ## Refusing -/

/-- A refused pipeline leaves nothing but the message, in the workspace in which a stage has been
prepared. -/
theorem Refused.run (refused : Refused levels caller pipeline workspace) :
    ∃ point action prepared after,
      Reaches (AtStage.next (innerAt levels) caller) (.first workspace) pipeline point action ∧
      prepare (innerAt levels) action caller point.workspace = (.ok prepared, after) ∧
      runPipeline levels pipeline caller workspace = (.ok refusal, after) := by
  obtain ⟨point, action, prepared, after, reaches, prepares, deep⟩ := refused
  refine ⟨point, action, prepared, after, reaches, prepares, ?_⟩
  obtain ⟨front, back, rfl, passes⟩ := reaches
  have stops : point.stage (innerAt levels) caller action = (.ok (.stop refusal), after) := by
    unfold AtStage.stage
    rw [runStage_eq, Task.bind_run, prepares]
    simp only [deep, ↓reduceIte]
    rfl
  rw [runPipeline_eq_run, AtStage.run_of_passes passes, AtStage.run_cons, stops]

/-- Running a part leads to substitutions that nest too deep, or to an error that tells so. -/
def Signals (levels : Nat) (caller : Caller Command) (part : Part) (workspace : Workspace) : Prop :=
  Nests caller levels part workspace ∨ Tells caller levels part workspace

/-- What filling a part warns of holds the message exactly if the part signals it. -/
private def Exact (levels : Nat) (caller : Caller Command) : Prop :=
  ∀ part workspace text after,
    fillPart (innerAt levels) part caller workspace = (.ok text, after) →
      (text.2.any (Text.occursIn nestedTooDeep) = true ↔ Signals levels caller part workspace)

/-- A stage whose preparation ends has filled its parts. -/
private theorem parts_of_prepare {prepared : Prepared}
    (prepares : prepare inner action caller workspace = (.ok prepared, after)) : ∃ filled,
      action.parts.mapM (fillPart inner) caller workspace = (.ok filled, after) ∧
        warned filled = prepared.warnings := by
  have same := congrFun (congrFun (prepare_warnings inner action) caller) workspace
  rw [warnings, map_eq_pure_bind, map_eq_pure_bind, Task.bind_run, prepares] at same
  obtain ⟨filled, between, ran, ends⟩ := Task.bind_eq_ok.mp same.symm
  obtain ⟨equal, rfl⟩ := Prod.mk.inj ends
  exact ⟨filled, ran, Except.ok.inj equal⟩

private theorem tooDeep_iff {prepared : Prepared} (exact : Exact levels caller)
    (prepares : prepare (innerAt levels) action caller workspace = (.ok prepared, after)) :
    prepared.tooDeep = true ↔ ∃ between part,
      StageReaches levels caller action workspace between part ∧
        Signals levels caller part between := by
  obtain ⟨filled, ran, same⟩ := parts_of_prepare prepares
  unfold Prepared.tooDeep
  rw [← same, List.any_eq_true]
  constructor
  · rintro ⟨warning, listed, speaks⟩
    obtain ⟨between, part, text, left, reaches, fills, tells⟩ := (mem_warned ran).mp listed
    exact ⟨between, part, reaches,
      (exact _ _ _ _ fills).mp (List.any_eq_true.mpr ⟨warning, tells, speaks⟩)⟩
  · rintro ⟨between, part, reaches, signals⟩
    obtain ⟨text, left, fills⟩ := filled_of_reaches ran reaches
    obtain ⟨warning, tells, speaks⟩ := List.any_eq_true.mp ((exact _ _ _ _ fills).mpr signals)
    exact ⟨warning, (mem_warned ran).mpr ⟨between, part, text, left, reaches, fills, tells⟩, speaks⟩

/-- If a pipeline ends, the preparation of a stage that it reaches has ended. -/
private theorem prepared_of_reaches {outcome : Outcome} {point : AtStage}
    (ran : runPipeline levels pipeline caller workspace = (.ok outcome, after))
    (reaches : Reaches (AtStage.next (innerAt levels) caller) (.first workspace) pipeline point
      action) :
    ∃ prepared left, prepare (innerAt levels) action caller point.workspace =
      (.ok prepared, left) := by
  obtain ⟨front, back, rfl, passes⟩ := reaches
  rw [runPipeline_eq_run, AtStage.run_of_passes passes, AtStage.run_cons] at ran
  cases ends : point.stage (innerAt levels) caller action with
  | mk result left =>
    rw [ends] at ran
    cases result with
    | error fault => cases ran
    | ok ending =>
      unfold AtStage.stage at ends
      rw [runStage_eq] at ends
      obtain ⟨prepared, between, prepares, -⟩ := Task.bind_eq_ok.mp ends
      exact ⟨prepared, between, prepares⟩

private theorem refused_iff {outcome : Outcome} (exact : Exact levels caller)
    (ran : runPipeline levels pipeline caller workspace = (.ok outcome, after)) :
    Refused levels caller pipeline workspace ↔ ∃ point action between part,
      Reaches (AtStage.next (innerAt levels) caller) (.first workspace) pipeline point action ∧
        StageReaches levels caller action point.workspace between part ∧
        Signals levels caller part between := by
  constructor
  · rintro ⟨point, action, prepared, left, reaches, prepares, deep⟩
    obtain ⟨between, part, gets, signals⟩ := (tooDeep_iff exact prepares).mp deep
    exact ⟨point, action, between, part, reaches, gets, signals⟩
  · rintro ⟨point, action, between, part, reaches, gets, signals⟩
    obtain ⟨prepared, left, prepares⟩ := prepared_of_reaches ran reaches
    exact ⟨point, action, prepared, left, reaches, prepares,
      (tooDeep_iff exact prepares).mpr ⟨between, part, gets, signals⟩⟩

/-- A command signals what a stage of its line does that is reached, or tells it of its own. -/
private theorem signals_succ {text : List Char} :
    Signals (levels + 1) caller (.command text) workspace ↔
      (∃ here segment outcome left, Reaches (AtSegment.next levels caller) (.first levels workspace)
          (parseLine (String.ofList text)) here segment ∧
        runPipeline levels segment.pipeline caller here.workspace = (.ok outcome, left) ∧
        ¬ Refused levels caller segment.pipeline here.workspace ∧
        Text.occursIn nestedTooDeep outcome.errorText = true) ∨
      ∃ point action between part,
        LineReaches levels caller (String.ofList text) workspace point action ∧
          StageReaches levels caller action point.workspace between part ∧
          Signals levels caller part between := by
  constructor
  · rintro (nests | tells)
    · cases nests with
      | within stage gets further => exact .inr ⟨_, _, _, _, stage, gets, .inl further⟩
    · cases tells with
      | own gets ran runs speaks => exact .inl ⟨_, _, _, _, gets, ran, runs, speaks⟩
      | within stage gets further => exact .inr ⟨_, _, _, _, stage, gets, .inr further⟩
  · rintro (⟨here, segment, outcome, left, gets, ran, runs, speaks⟩ |
      ⟨point, action, between, part, stage, gets, nests | tells⟩)
    · exact .inr (.own gets ran runs speaks)
    · exact .inl (.within stage gets nests)
    · exact .inr (.within stage gets tells)

/-- A line that ends has gone through its segments. -/
private theorem run_of_runLine {transcript : Transcript}
    (ran : runLine levels line caller workspace = (.ok transcript, after)) : ∃ progress,
      (AtSegment.first levels workspace).run levels caller (parseLine line) = (.ok progress, after) ∧
        progress.transcript = transcript := by
  rw [runLine_eq_run] at ran
  cases ends : (AtSegment.first levels workspace).run levels caller (parseLine line) with
  | mk result left =>
    rw [ends] at ran
    cases result with
    | error fault => cases ran
    | ok progress =>
      obtain ⟨same, rfl⟩ := Prod.mk.inj ran
      exact ⟨progress, rfl, Except.ok.inj same⟩

/-- What a line says in its errors comes from the pipelines that it has reached. -/
private theorem says_iff {transcript : Transcript}
    (ran : runLine levels line caller workspace = (.ok transcript, after)) :
    transcript.error.toList.any (Text.occursIn nestedTooDeep) = true ↔
      ∃ here segment outcome left, Reaches (AtSegment.next levels caller) (.first levels workspace)
          (parseLine line) here segment ∧
        runPipeline levels segment.pipeline caller here.workspace = (.ok outcome, left) ∧
        Text.occursIn nestedTooDeep outcome.errorText = true := by
  obtain ⟨progress, ends, rfl⟩ := run_of_runLine ran
  have errors : progress.transcript.error.toList.any (Text.occursIn nestedTooDeep) =
      progress.errors.any (Text.occursIn nestedTooDeep) := by
    rw [← Text.occursIn_unlines (by decide) (by decide) progress.errors]
    unfold Progress.transcript
    by_cases none : progress.errors = []
    · simp only [none, List.isEmpty_nil, ↓reduceIte]
      decide
    · simp [none]
  rw [errors, any_errors (by decide) ends]
  simp [AtSegment.first]

/-- If a line ends, a pipeline that it reaches has ended. -/
private theorem ended_of_reaches {transcript : Transcript} {here : AtSegment} {segment : Segment}
    (ran : runLine levels line caller workspace = (.ok transcript, after))
    (reaches : Reaches (AtSegment.next levels caller) (.first levels workspace) (parseLine line) here
      segment) : ∃ outcome left,
      runPipeline levels segment.pipeline caller here.workspace = (.ok outcome, left) := by
  obtain ⟨progress, ends, -⟩ := run_of_runLine ran
  obtain ⟨front, back, split, passes⟩ := reaches
  rw [split, AtSegment.run_of_passes passes] at ends
  obtain ⟨outcome, left, ended, -⟩ := AtSegment.run_cons_ok ends
  exact ⟨outcome, left, ended⟩

/-- By induction on the levels: what a line says in its errors is signalled by its pipelines, and those
that are refused have stages which signal it one level deeper. -/
private theorem exact_at (levels : Nat) (caller : Caller Command) : Exact levels caller := by
  have literal {levels : Nat} {text : List Char} {workspace : Workspace} :
      ¬ Signals levels caller (.literal text) workspace := by
    rintro (nests | tells)
    · cases nests
    · cases tells
  induction levels with
  | zero =>
    intro part workspace text after ran
    cases part with
    | literal written =>
      cases ran
      exact iff_of_false (by simp) literal
    | command written =>
      cases ran
      exact iff_of_true (by decide) (.inl .deep)
  | succ levels ih =>
    intro part workspace text after ran
    cases part with
    | literal written =>
      cases ran
      exact iff_of_false (by simp) literal
    | command written =>
      obtain ⟨transcript, between, runs, ends⟩ := Task.bind_eq_ok.mp ran
      obtain rfl := Except.ok.inj (congrArg Prod.fst ends)
      rw [says_iff runs, signals_succ]
      constructor
      · rintro ⟨here, segment, outcome, left, gets, ended, speaks⟩
        by_cases refused : Refused levels caller segment.pipeline here.workspace
        · obtain ⟨point, action, later, part, reaches, fills, signals⟩ :=
            (refused_iff ih ended).mp refused
          exact .inr ⟨point, action, later, part, ⟨here, segment, gets, reaches⟩, fills, signals⟩
        · exact .inl ⟨here, segment, outcome, left, gets, ended, refused, speaks⟩
      · rintro (⟨here, segment, outcome, left, gets, ended, -, speaks⟩ |
          ⟨point, action, later, part, ⟨here, segment, gets, reaches⟩, fills, signals⟩)
        · exact ⟨here, segment, outcome, left, gets, ended, speaks⟩
        · obtain ⟨outcome, left, ended⟩ := ended_of_reaches runs gets
          have refused := (refused_iff ih ended).mpr
            ⟨point, action, later, part, reaches, fills, signals⟩
          obtain ⟨-, -, -, after, -, -, same⟩ := refused.run
          obtain rfl : outcome = refusal := Except.ok.inj (congrArg Prod.fst (ended.symm.trans same))
          exact ⟨here, segment, refusal, left, gets, ended, by decide⟩

/-! ## Failing softly -/

/-- The same runs, taken to end well: of what they leave there is only the output. -/
def hushed (inner : Inner) : Inner :=
  inner.map fun run text => (fun transcript => ⟨transcript.output, none, 0, none⟩) <$> run text

private theorem fillPart_hushed (part : Part) :
    Prod.fst <$> fillPart (hushed inner) part = Prod.fst <$> fillPart inner part := by
  cases part with
  | literal text => rfl
  | command text =>
    cases inner with
    | none => rfl
    | some run => simp [fillPart, hushed]

private theorem mapM_fillPart_hushed (parts : List Part) :
    List.map Prod.fst <$> parts.mapM (fillPart (hushed inner)) =
      List.map Prod.fst <$> parts.mapM (fillPart inner) := by
  have each (inner : Inner) : List.map Prod.fst <$> parts.mapM (fillPart inner) =
      parts.mapM fun part => Prod.fst <$> fillPart inner part := by
    induction parts with
    | nil => simp
    | cons part parts ih => simp [List.mapM_cons, ← ih]
  rw [each, each]
  exact congrArg (parts.mapM ·) (funext fillPart_hushed)

/-- Two computations that show the same come to the same, if only what they show is used. -/
private theorem map_bind_congr {α β γ δ : Type} {view : α → γ} {shown : β → δ}
    {first second : Run Command α} {next onward : α → Run Command β}
    (same : view <$> first = view <$> second)
    (alike : ∀ value other, view value = view other → shown <$> next value = shown <$> onward other) :
    shown <$> (first >>= next) = shown <$> (second >>= onward) := by
  funext caller workspace
  have here := congrFun (congrFun same caller) workspace
  rw [map_eq_pure_bind, map_eq_pure_bind, Task.bind_run, Task.bind_run] at here
  rw [map_bind, map_bind, Task.bind_run, Task.bind_run]
  cases ran : first caller workspace with
  | mk result after =>
    cases ends : second caller workspace with
    | mk ending left =>
      rw [ran, ends] at here
      cases result with
      | error fault =>
        cases ending with
        | error failure =>
          cases here
          rfl
        | ok other => cases here
      | ok value =>
        cases ending with
        | error failure => cases here
        | ok other =>
          have equal : (Except.ok (view value), after) = (Except.ok (view other), left) := here
          obtain ⟨seen, rfl⟩ := Prod.mk.inj equal
          exact congrFun (congrFun (alike value other (Except.ok.inj seen)) caller) after

private theorem fillWord_hushed (word : String) :
    (fun filled => (filled.word, filled.bare)) <$> fillWord (hushed inner) word =
      (fun filled => (filled.word, filled.bare)) <$> fillWord inner word := by
  unfold fillWord
  dsimp only
  split
  · rfl
  · refine map_bind_congr (mapM_fillPart_hushed _) fun texts others same => ?_
    simp only [map_pure, same]

private theorem fillWords_hushed (words : List String) :
    Prod.fst <$> fillWords (hushed inner) words = Prod.fst <$> fillWords inner words := by
  induction words with
  | nil => rfl
  | cons word words ih =>
    refine map_bind_congr (fillWord_hushed word) fun filled other same => ?_
    obtain ⟨written, bare⟩ := Prod.mk.inj same
    rw [written, bare, map_bind, map_bind]
    refine bind_congr fun workspace => map_bind_congr ih fun further others equal => ?_
    dsimp only
    split <;> simp only [map_pure, equal]

private theorem fillPath_hushed (path : String) :
    Prod.fst <$> fillPath (hushed inner) path = Prod.fst <$> fillPath inner path := by
  refine map_bind_congr (fillWord_hushed path) fun filled other same => ?_
  obtain ⟨written, -⟩ := Prod.mk.inj same
  rw [written, map_bind, map_bind]
  refine bind_congr fun workspace => ?_
  dsimp only
  split <;> rfl

private theorem fillPath?_hushed (path : Option String) :
    Prod.fst <$> fillPath? (hushed inner) path = Prod.fst <$> fillPath? inner path := by
  cases path with
  | none => rfl
  | some path =>
    refine map_bind_congr (fillPath_hushed path) fun filled other same => ?_
    simp only [map_pure, same]

/-- The preparation, whatever it has warned of. -/
def Prepared.unwarned (prepared : Prepared) : Prepared := { prepared with warnings := [] }

/-- Words and paths are filled with what the substitutions put out, however these end. -/
private theorem prepare_hushed (inner : Inner) (action : Action) :
    Prepared.unwarned <$> prepare (hushed inner) action =
      Prepared.unwarned <$> prepare inner action := by
  have shows (inner : Inner) : Prepared.unwarned <$> prepare inner action = (do
      let words ← Prod.fst <$> fillWords inner ([action.name].filter (!·.isEmpty) ++ action.args)
      let output ← Prod.fst <$> fillPath? inner (action.output.map (·.2))
      let input ← Prod.fst <$> fillPath? inner action.input
      return ⟨words, output, input, []⟩) := by
    simp [prepare, Prepared.unwarned, map_bind]
  rw [shows, shows, fillWords_hushed, fillPath?_hushed, fillPath?_hushed]

/-- What comes of a preparation comes of it with the substitutions hushed. -/
private theorem hushed_of_prepare {prepared : Prepared}
    (prepares : prepare inner action caller workspace = (.ok prepared, after)) : ∃ silent,
      prepare (hushed inner) action caller workspace = (.ok silent, after) ∧
        silent.unwarned = prepared.unwarned := by
  have same := congrFun (congrFun (prepare_hushed inner action) caller) workspace
  rw [map_eq_pure_bind, map_eq_pure_bind, Task.bind_run, Task.bind_run, prepares] at same
  cases ends : prepare (hushed inner) action caller workspace with
  | mk result left =>
    rw [ends] at same
    cases result with
    | error fault => cases same
    | ok silent =>
      obtain ⟨equal, rfl⟩ := Prod.mk.inj same
      exact ⟨silent, rfl, Except.ok.inj equal⟩

/-! ## The limit -/

/-- A pipeline that ends is refused exactly if preparing a stage that it reaches leads to substitutions
that nest deeper than the levels allow, or to an error that tells so all the same. Then it leaves the
message, and nothing has been done for the stage but to prepare it. Every other stage runs, with the
words that it would have if its substitutions had ended well with the same output. -/
theorem refused_exactly {outcome : Outcome}
    (ran : runPipeline levels pipeline caller workspace = (.ok outcome, after)) :
    (Refused levels caller pipeline workspace ↔ ∃ point action between part,
      Reaches (AtStage.next (innerAt levels) caller) (.first workspace) pipeline point action ∧
        StageReaches levels caller action point.workspace between part ∧
        (Nests caller levels part between ∨ Tells caller levels part between)) ∧
    (Refused levels caller pipeline workspace → outcome = ⟨"", some nestedTooDeep, 1⟩ ∧
      ∃ point action prepared,
        Reaches (AtStage.next (innerAt levels) caller) (.first workspace) pipeline point action ∧
        prepare (innerAt levels) action caller point.workspace = (.ok prepared, after)) ∧
    ∀ point action,
      Reaches (AtStage.next (innerAt levels) caller) (.first workspace) pipeline point action →
      (∀ between part, StageReaches levels caller action point.workspace between part →
        ¬ Nests caller levels part between ∧ ¬ Tells caller levels part between) →
      ∃ prepared silent left,
        prepare (innerAt levels) action caller point.workspace = (.ok prepared, left) ∧
        point.stage (innerAt levels) caller action =
          (prepared.execute point.stdin >>=
            prepared.finish point.index (action.output.map (·.1))) caller left ∧
        prepare (hushed (innerAt levels)) action caller point.workspace = (.ok silent, left) ∧
        silent.unwarned = prepared.unwarned := by
  refine ⟨refused_iff (exact_at levels caller) ran, fun refused => ?_, fun point action reaches
    soft => ?_⟩
  · obtain ⟨point, action, prepared, left, reaches, prepares, ends⟩ := refused.run
    rw [ran] at ends
    cases ends
    exact ⟨rfl, point, action, prepared, reaches, prepares⟩
  · obtain ⟨prepared, left, prepares⟩ := prepared_of_reaches ran reaches
    obtain ⟨silent, ends, same⟩ := hushed_of_prepare prepares
    refine ⟨prepared, silent, left, prepares, ?_, ends, same⟩
    have goes : prepared.tooDeep = false := by
      by_contra deep
      obtain ⟨between, part, gets, signals⟩ :=
        (tooDeep_iff (exact_at levels caller) prepares).mp (Bool.eq_true_of_not_eq_false deep)
      exact signals.elim (soft between part gets).1 (soft between part gets).2
    unfold AtStage.stage
    rw [runStage_eq, Task.bind_run, prepares]
    simp only [goes, Bool.false_eq_true, ↓reduceIte]

private def deepEcho : Action := ⟨"echo", ["$(echo $(pwd))"], none, none⟩

private def softEcho : Action := ⟨"echo", ["a$(cat gone)b"], none, none⟩

/-- A single stage is reached, and refused if its warnings tell so. -/
private theorem refused_alone (prepared : Prepared)
    (prepares : (prepare (innerAt levels) action caller workspace).1 = .ok prepared)
    (deep : prepared.tooDeep = true) : Refused levels caller [action] workspace :=
  ⟨.first workspace, action, prepared, _, reaches_cons.mpr (.inl ⟨rfl, rfl⟩),
    Prod.ext prepares rfl, deep⟩

/-- Two nested substitutions are refused where there is one level, and a substitution that just fails
is not. -/
theorem deep_and_soft :
    (Refused 1 visitor [deepEcho] (plainWorkspace sharedMachine) ∧
      ∃ point action between part,
        Reaches (AtStage.next (innerAt 1) visitor) (.first (plainWorkspace sharedMachine))
          [deepEcho] point action ∧
        StageReaches 1 visitor action point.workspace between part ∧
        (Nests visitor 1 part between ∨ Tells visitor 1 part between)) ∧
    (runPipeline nestingLimit [softEcho] visitor (plainWorkspace sharedMachine)).1 =
        .ok ⟨"ab", some "cat: gone: No such file or directory", 0⟩ ∧
      ¬ Refused nestingLimit visitor [softEcho] (plainWorkspace sharedMachine) := by
  have deep : Refused 1 visitor [deepEcho] (plainWorkspace sharedMachine) :=
    refused_alone ⟨["echo"], none, none, [nestedTooDeep]⟩
      (toOption_eq_some.mp (by decide +kernel)) (by decide)
  obtain ⟨-, -, -, after, -, -, ends⟩ := deep.run
  have soft : (runPipeline nestingLimit [softEcho] visitor (plainWorkspace sharedMachine)).1 =
      .ok ⟨"ab", some "cat: gone: No such file or directory", 0⟩ :=
    toOption_eq_some.mp (by decide +kernel)
  refine ⟨⟨deep, (refused_exactly ends).1.mp deep⟩, soft, fun refused => ?_⟩
  obtain ⟨same, -⟩ := (refused_exactly (Prod.ext soft rfl)).2.1 refused
  exact absurd same (by decide)

private def tellingEcho : Action :=
  ⟨"echo", ["a$(cat 'maximum command substitution depth exceeded')b"], none, none⟩

/-- No substitution is written in the part, unless it is one itself. -/
private def Part.flat : Part → Bool
  | .literal _ => true
  | .command text => (parseLine (String.ofList text)).all fun segment =>
      segment.pipeline.all fun action => !action.parts.any isCommand

private theorem Nests.not_flat (nests : Nests caller (levels + 1) part workspace) :
    part.flat = false := by
  cases nests with
  | within stage gets further =>
    obtain ⟨here, segment, reaches, stage⟩ := stage
    refine List.all_eq_false.mpr ⟨segment, reaches.mem, ?_⟩
    rw [Bool.not_eq_true, List.all_eq_false]
    refine ⟨_, stage.mem, ?_⟩
    rw [Bool.not_eq_true, Bool.not_eq_false', List.any_eq_true]
    refine ⟨_, gets.mem, ?_⟩
    cases further <;> rfl

/-- A pipeline is refused for the name of a file that is not there, though nothing nests in its
substitution. -/
theorem refused_for_file_name :
    Refused nestingLimit visitor [tellingEcho] (plainWorkspace sharedMachine) ∧
    (runPipeline nestingLimit [tellingEcho] visitor (plainWorkspace sharedMachine)).1 =
      .ok ⟨"", some nestedTooDeep, 1⟩ ∧
    ∀ point action between part,
      Reaches (AtStage.next (innerAt nestingLimit) visitor) (.first (plainWorkspace sharedMachine))
        [tellingEcho] point action →
      StageReaches nestingLimit visitor action point.workspace between part →
      ¬ Nests visitor nestingLimit part between := by
  have refused : Refused nestingLimit visitor [tellingEcho] (plainWorkspace sharedMachine) :=
    refused_alone ⟨["echo", "ab"], none, none,
        ["cat: maximum command substitution depth exceeded: No such file or directory"]⟩
      (toOption_eq_some.mp (by decide +kernel)) (by decide +kernel)
  obtain ⟨-, -, -, after, -, -, ends⟩ := refused.run
  refine ⟨refused, congrArg Prod.fst ends, ?_⟩
  intro point action between part reaches gets nests
  have flat : ∀ action ∈ [tellingEcho], ∀ part ∈ action.parts, part.flat = true := by
    decide +kernel
  exact absurd (flat action reaches.mem part gets.mem) (Bool.eq_false_iff.mp nests.not_flat)

end PocketShell.Shell
