import PocketShell.Proofs.Shell.LineEffects

/-! How far a run gets. A pipeline goes from stage to stage, a line from segment to segment, and the
filling of words from part to part; what comes next is reached if all before it lets the run go on.
So what is reached does not depend on what stands behind the place where a run stops. -/
namespace PocketShell.Shell

/-! ## Going through a list -/

section

variable {δ ι : Type} {next : δ → ι → Option δ} {start between data : δ} {item other : ι}
  {items front back others : List ι}

/-- A run over the items, which goes on from an item as far as `next` has an answer, gets to an item
with some data. -/
def Reaches (next : δ → ι → Option δ) (start : δ) (items : List ι) (data : δ) (item : ι) : Prop :=
  ∃ front back, items = front ++ item :: back ∧ front.foldlM next start = some data

theorem not_reaches_nil : ¬ Reaches next start [] data item := by
  rintro ⟨front, back, split, -⟩
  simp at split

/-- The first item is reached, and from it what is reached from the next one on. -/
theorem reaches_cons : Reaches next start (other :: items) data item ↔
    (data = start ∧ item = other) ∨
      ∃ between, next start other = some between ∧ Reaches next between items data item := by
  constructor
  · rintro ⟨front, back, split, passes⟩
    cases front with
    | nil =>
      cases split
      cases passes
      exact .inl ⟨rfl, rfl⟩
    | cons first front =>
      cases split
      obtain ⟨between, goes, further⟩ := Option.bind_eq_some_iff.mp passes
      exact .inr ⟨between, goes, front, back, rfl, further⟩
  · rintro (⟨rfl, rfl⟩ | ⟨between, goes, front, back, rfl, further⟩)
    · exact ⟨[], items, rfl, rfl⟩
    · refine ⟨other :: front, back, rfl, ?_⟩
      rw [List.foldlM_cons, goes]
      exact further

/-- Where a run stops at an item it has reached those before it and the item itself, whatever stands
behind. -/
theorem reaches_of_stop (passes : front.foldlM next start = some between)
    (stops : next between other = none ∨ back = []) :
    Reaches next start (front ++ other :: back) data item ↔
      Reaches next start front data item ∨ (data = between ∧ item = other) := by
  induction front generalizing start with
  | nil =>
    cases passes
    rcases stops with stops | rfl
    · simp [reaches_cons, stops, not_reaches_nil]
    · simp [reaches_cons, not_reaches_nil]
  | cons first front ih =>
    obtain ⟨later, goes, further⟩ := Option.bind_eq_some_iff.mp passes
    rw [List.cons_append, reaches_cons, reaches_cons]
    simp only [goes, Option.some.injEq, exists_eq_left', ih further, or_assoc]

theorem Reaches.mem (reaches : Reaches next start items data item) : item ∈ items := by
  obtain ⟨front, back, rfl, -⟩ := reaches
  simp

end

variable {inner : Inner} {caller : Caller Command} {action : Action} {pipeline front : Pipeline}
  {back : List Action} {outcome : Outcome} {workspace after : Workspace} {levels : Nat}
  {line : String}

/-! ## A stage -/

/-- What a stage is given before its command runs: words, the paths of its redirections, and what
the substitutions in these warned of. -/
structure Prepared where
  words : List String
  output : Option String
  input : Option String
  warnings : List String
  deriving DecidableEq

namespace Prepared

/-- The warnings tell that substitutions nest too deep. -/
def tooDeep (prepared : Prepared) : Bool := prepared.warnings.any (Text.occursIn nestedTooDeep)

/-- Runs the command, if there is one. -/
def execute (prepared : Prepared) (stdin : Option String) : Command.Job := do
  let stdin ← stageInput prepared.input stdin
  match prepared.words with
  | name :: args => runNamed name args stdin
  | [] => pure .silent

/-- The log entry for a pipeline that stops. -/
def abortion (prepared : Prepared) (index : Nat) (outcome : Outcome) : Log.Entry :=
  .of .debug executorSubsystem "Pipeline aborted"
    [("stage", .int index), ("command", .string (prepared.words.headD "")),
      ("exit", .int outcome.code)]

/-- Ends the stage once its command has run. -/
def finish (prepared : Prepared) (index : Nat) (redirect : Option Redirect) (outcome : Outcome) :
    Run Command StageEnd := do
  let outcome := withWarnings prepared.warnings outcome
  if outcome.code != 0 && !takesErrors redirect then
    Run.report (prepared.abortion index outcome)
    return .stop outcome
  redirectStage redirect prepared.output outcome

end Prepared

/-- Fills the words and the paths of a stage. -/
def prepare (inner : Inner) (action : Action) : Run Command Prepared := do
  let (words, warnings) ← fillWords inner ([action.name].filter (!·.isEmpty) ++ action.args)
  let (output, outputWarnings) ← fillPath? inner (action.output.map (·.2))
  let (input, inputWarnings) ← fillPath? inner action.input
  return ⟨words, output, input, warnings ++ outputWarnings ++ inputWarnings⟩

/-- What a refused pipeline leaves. -/
def refusal : Outcome := ⟨"", some nestedTooDeep, 1⟩

/-- A stage is prepared, and then refused or run. -/
theorem runStage_eq (inner : Inner) (index : Nat) (stdin : Option String) (action : Action) :
    runStage inner index stdin action = (do
      let prepared ← prepare inner action
      if prepared.tooDeep then return .stop refusal
      let outcome ← prepared.execute stdin
      prepared.finish index (action.output.map (·.1)) outcome) := by
  unfold runStage prepare
  simp only [bind_assoc, pure_bind]
  refine bind_congr fun (words, warnings) => bind_congr fun output => bind_congr fun input => ?_
  unfold Prepared.tooDeep
  split
  · rfl
  · unfold Prepared.execute
    rw [bind_assoc]
    refine bind_congr fun stdin => ?_
    cases words <;> rfl

/-! ## Pipelines and lines -/

/-- Where a pipeline is between two stages: the place of the next one, its standard input, the outcome
of the one before and the workspace. -/
structure AtStage where
  index : Nat
  stdin : Option String
  before : Outcome
  workspace : Workspace

namespace AtStage

/-- Before the first stage. -/
def first (workspace : Workspace) : AtStage := ⟨0, none, .silent, workspace⟩

/-- Runs the stages that are left. -/
def run (point : AtStage) (inner : Inner) (caller : Caller Command) (rest : List Action) :
    Except Fault Outcome × Workspace :=
  runStages inner point.index point.stdin point.before rest caller point.workspace

/-- Runs one stage. -/
def stage (point : AtStage) (inner : Inner) (caller : Caller Command) (action : Action) :
    Except Fault StageEnd × Workspace :=
  runStage inner point.index point.stdin action caller point.workspace

/-- Behind a stage, if the pipeline goes on from it. -/
def next (inner : Inner) (caller : Caller Command) (point : AtStage) (action : Action) :
    Option AtStage :=
  match point.stage inner caller action with
  | (.ok (.proceed outcome), after) =>
    some ⟨point.index + 1, some outcome.output, outcome, after⟩
  | _ => none

/-- The rest of a pipeline runs as it does from behind the stage. -/
theorem run_cons (point : AtStage) : point.run inner caller (action :: back) =
    match point.stage inner caller action with
    | (.ok (.stop outcome), after) => (.ok outcome, after)
    | (.ok (.proceed outcome), after) =>
      AtStage.run ⟨point.index + 1, some outcome.output, outcome, after⟩ inner caller back
    | (.error fault, after) => (.error fault, after) := by
  unfold run stage
  rw [runStages, Task.bind_run]
  generalize runStage inner point.index point.stdin action caller point.workspace = ending
  obtain ⟨result, after⟩ := ending
  cases result with
  | error fault => rfl
  | ok ending => cases ending <;> rfl

/-- So does the rest from behind several: by induction on these. -/
theorem run_of_passes {start point : AtStage}
    (passes : front.foldlM (next inner caller) start = some point) (back : List Action) :
    start.run inner caller (front ++ back) = point.run inner caller back := by
  induction front generalizing start with
  | nil =>
    cases passes
    rfl
  | cons action front ih =>
    obtain ⟨later, goes, further⟩ := Option.bind_eq_some_iff.mp passes
    rw [List.cons_append, run_cons]
    unfold next at goes
    split at goes
    · rename_i outcome after ran
      cases goes
      rw [ran]
      exact ih further
    · cases goes

end AtStage

theorem runPipeline_eq_run (levels : Nat) (pipeline : Pipeline) :
    runPipeline levels pipeline caller workspace =
      (AtStage.first workspace).run (innerAt levels) caller pipeline := by
  rw [runPipeline_eq]
  rfl

/-- Where a line is between two segments: whether the next one may move it, what the segments before
have left, and the workspace. -/
structure AtSegment where
  mayMove : Bool
  progress : Progress
  workspace : Workspace

namespace AtSegment

variable {segment : Segment} {segments : List Segment}

/-- Before the first segment of a line. -/
def first (levels : Nat) (workspace : Workspace) : AtSegment :=
  ⟨levels = nestingLimit, ⟨[], [], 0, none⟩, workspace⟩

/-- Runs the segments that are left. -/
def run (point : AtSegment) (levels : Nat) (caller : Caller Command) (rest : List Segment) :
    Except Fault Progress × Workspace :=
  runSegments (runPipeline levels) point.mayMove point.progress rest caller point.workspace

/-- Behind a pipeline with its outcome. -/
def behind (point : AtSegment) (pipeline : Pipeline) (outcome : Outcome) (after : Workspace) :
    AtSegment :=
  let moved := moveOf point.mayMove pipeline outcome
  ⟨false, point.progress.add pipeline outcome moved, moved.elim after (after.moveTo ·)⟩

/-- Behind a segment, if the line goes on from it. -/
def next (levels : Nat) (caller : Caller Command) (point : AtSegment) (segment : Segment) :
    Option AtSegment :=
  match runPipeline levels segment.pipeline caller point.workspace with
  | (.ok outcome, after) =>
    if endsLine segment.operator outcome.code then none
    else some (point.behind segment.pipeline outcome after)
  | _ => none

/-- The rest of a line runs as it does from behind the segment. -/
theorem run_cons (point : AtSegment) : point.run levels caller (segment :: segments) =
    match runPipeline levels segment.pipeline caller point.workspace with
    | (.ok outcome, after) =>
      (point.behind segment.pipeline outcome after).run levels caller
        (segment.onward outcome.code segments)
    | (.error fault, after) => (.error fault, after) := by
  unfold run
  cases ran : runPipeline levels segment.pipeline caller point.workspace with
  | mk result after =>
    cases result with
    | error fault => exact runSegments_of_error ran
    | ok outcome => exact runSegments_of_ok ran

/-- So does the rest from behind several: by induction on these. -/
theorem run_of_passes {start point : AtSegment} {front : List Segment}
    (passes : front.foldlM (next levels caller) start = some point) (back : List Segment) :
    start.run levels caller (front ++ back) = point.run levels caller back := by
  induction front generalizing start with
  | nil =>
    cases passes
    rfl
  | cons segment front ih =>
    obtain ⟨later, goes, further⟩ := Option.bind_eq_some_iff.mp passes
    rw [List.cons_append, run_cons]
    unfold next at goes
    split at goes
    · rename_i outcome after ran
      split at goes
      · cases goes
      · rename_i onward
        cases goes
        rw [ran]
        dsimp only
        rw [Segment.onward, if_neg onward]
        exact ih further
    · cases goes

end AtSegment

theorem runLine_eq_run (levels : Nat) (line : String) (caller : Caller Command)
    (workspace : Workspace) : runLine levels line caller workspace =
      match (AtSegment.first levels workspace).run levels caller (parseLine line) with
      | (.ok progress, after) => (.ok progress.transcript, after)
      | (.error fault, after) => (.error fault, after) := by
  rw [runLine_eq, runLineWith, Task.bind_run, ← runPipeline_eq]
  unfold AtSegment.run AtSegment.first
  dsimp only
  generalize runSegments _ _ _ _ caller workspace = ending
  obtain ⟨result, after⟩ := ending
  cases result <;> rfl

/-- A line in which as many levels of substitutions may nest gets to a stage: to its segment, and
there to the stage. -/
def LineReaches (levels : Nat) (caller : Caller Command) (line : String) (workspace : Workspace)
    (point : AtStage) (action : Action) : Prop :=
  ∃ here segment, Reaches (AtSegment.next levels caller) (.first levels workspace) (parseLine line)
    here segment ∧ Reaches (AtStage.next (innerAt levels) caller) (.first here.workspace)
      segment.pipeline point action

end PocketShell.Shell
