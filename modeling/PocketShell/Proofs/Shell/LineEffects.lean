import PocketShell.Proofs.Shell.CommandEffects
import PocketShell.Shell.Execution

/-! Pipelines make changes and nothing else, and so do lines that cannot move. A line that can moves
at one moment: when its first segment, a single `cd`, has told where to go. -/
namespace PocketShell.Shell

variable {caller : Caller Command} {inner : Inner} {workspace : Workspace}

/-- What runs within substitutions makes changes and nothing else. -/
def ActsWithin (inner : Inner) : Prop :=
  ∀ run, inner = some run → ∀ text, Acts (run text)

/-! ## Words -/

section

variable (within : ActsWithin inner)

include within

private theorem fillPart_acts (part : Part) : Acts (fillPart inner part) := by
  cases part with
  | literal text => exact .pure _
  | command text =>
    cases inner with
    | none => exact .pure _
    | some run => exact (within run rfl _).bind fun _ => .pure _

private theorem fillWord_acts (word : String) : Acts (fillWord inner word) := by
  unfold fillWord
  dsimp only
  split
  · exact .pure _
  · exact (Acts.composes.mapM (fillPart_acts within)).bind fun _ => .pure _

theorem fillWords_acts (words : List String) : Acts (fillWords inner words) := by
  induction words with
  | nil => exact .pure _
  | cons word rest ih =>
    refine (fillWord_acts within word).bind fun filled => .get (fun _ _ => rfl) fun workspace => ?_
    refine ih.bind fun gathered => ?_
    dsimp only
    split <;> exact .pure _

private theorem fillPath_acts (path : String) : Acts (fillPath inner path) := by
  refine (fillWord_acts within path).bind fun filled => .get (fun _ _ => rfl) fun workspace => ?_
  dsimp only
  generalize (expandWord workspace.env filled.word).toList = text
  split
  · exact Acts.home.bind fun _ => .pure _
  · exact Acts.home.bind fun _ => .pure _
  · exact .pure _

theorem fillOptional_acts (path : Option String) : Acts (fillPath? inner path) := by
  cases path with
  | none => exact .pure _
  | some path => exact (fillPath_acts within path).bind fun _ => .pure _

end

/-! ## Stages -/

private theorem runNamed_acts (name : String) (args : List String) (stdin : Option String) :
    Acts (runNamed name args stdin) := by
  refine (Command.named_completes name).acts.bind fun found => ?_
  cases found with
  | none => exact (Acts.report _).bind fun _ => .pure _
  | some command =>
    refine (Command.run_acts command args stdin).tryCatch fun fault => ?_
    split
    · exact (Acts.throw _).bind fun _ => (Acts.report _).bind fun _ => .pure _
    · exact (Acts.report _).bind fun _ => .pure _

private theorem route_acts (redirect : Redirect) (path : String) (outcome : Outcome) :
    Acts (route redirect path outcome) := by
  unfold route
  cases redirect with
  | overwrite => exact (Command.writeText_asks _ _).acts.bind fun _ => .pure _
  | append => exact (Command.appendText_asks _ _).acts.bind fun _ => .pure _
  | errors =>
    dsimp only
    split
    · exact .pure _
    · exact (Command.writeText_asks _ _).acts.bind fun _ => .pure _
  | both =>
    dsimp only
    split
    · exact .pure _
    · exact (Command.writeText_asks _ _).acts.bind fun _ => .pure _

private theorem redirectStage_acts (redirect : Option Redirect) (path : Option String)
    (outcome : Outcome) : Acts (redirectStage redirect path outcome) := by
  unfold redirectStage
  split
  · refine (route_acts _ _ _).bind fun routed => ?_
    cases routed <;> exact .pure _
  · exact .pure _

theorem stageInput_acts (path before : Option String) : Acts (stageInput path before) := by
  cases path with
  | none => exact .pure _
  | some path =>
    refine (Command.readText_asks path).acts.bind fun result => ?_
    cases result <;> exact .pure _

section

variable (within : ActsWithin inner)

include within

private theorem runStage_acts (index : Nat) (stdin : Option String) (action : Action) :
    Acts (runStage inner index stdin action) := by
  refine (fillWords_acts within _).bind fun words => (fillOptional_acts within _).bind fun path =>
    (fillOptional_acts within _).bind fun input => ?_
  dsimp only
  split
  · exact .pure _
  have ends : ∀ outcome : Outcome, Acts (do
      if outcome.code != 0 && !takesErrors (action.output.map (·.1)) then
        Run.report (.of .debug executorSubsystem "Pipeline aborted"
          [("stage", .int index), ("command", .string (words.1.headD "")),
            ("exit", .int outcome.code)])
        return .stop outcome
      redirectStage (action.output.map (·.1)) path.1 outcome) := by
    intro outcome
    split
    · exact (Acts.report _).bind fun _ => .pure _
    · exact redirectStage_acts _ _ _
  refine (stageInput_acts _ _).bind fun stdin => ?_
  split
  · exact (runNamed_acts _ _ _).bind fun _ => ends _
  · exact (Acts.pure _).bind fun _ => ends _

private theorem runStages_acts (index : Nat) (stdin : Option String) (before : Outcome)
    (pipeline : Pipeline) : Acts (runStages inner index stdin before pipeline) := by
  induction pipeline generalizing index stdin before with
  | nil => exact .pure _
  | cons action rest ih =>
    refine (runStage_acts within index stdin action).bind fun ending => ?_
    cases ending with
    | stop outcome => exact .pure _
    | proceed outcome => exact ih _ _ _

private theorem runPipelineWith_acts (pipeline : Pipeline) :
    Acts (runPipelineWith inner pipeline) := runStages_acts within _ _ _ _

end

/-! ## Lines -/

/-- A move sets two variables, and none else: the one is where it leads, the other where it has come
from. -/
theorem Env.get?_moved (env : Env) (left reached name : String) :
    ((env.insert "OLDPWD" left).insert "PWD" reached).get? name =
      if name = "PWD" then some reached
      else if name = "OLDPWD" then some left else env.get? name := by
  rw [get?_insert, get?_insert]

/-- The workspace after the line has moved. -/
def Workspace.moveTo (path : String) (workspace : Workspace) : Workspace :=
  { workspace with
    env := (workspace.env.insert "OLDPWD" workspace.cwd).insert "PWD" path
    cwd := path }

/-- The segments that run behind one that leaves the code. -/
def Segment.onward (segment : Segment) (code : Int) (rest : List Segment) : List Segment :=
  if endsLine segment.operator code then [] else rest

section

variable {run : Pipeline → Command.Job} {mayMove : Bool} {progress : Progress} {segment : Segment}
  {rest : List Segment} {outcome : Outcome} {fault : Fault} {after : Workspace}

/-- A fault in the first segment ends the line. -/
theorem runSegments_of_error
    (ran : run segment.pipeline caller workspace = (.error fault, after)) :
    runSegments run mayMove progress (segment :: rest) caller workspace =
      (.error fault, after) := by
  rw [runSegments, Task.bind_run, ran]

/-- The first segment runs, the line moves if it has told it to, and the others follow. -/
theorem runSegments_of_ok
    (ran : run segment.pipeline caller workspace = (.ok outcome, after)) :
    runSegments run mayMove progress (segment :: rest) caller workspace =
      runSegments run false
        (progress.add segment.pipeline outcome (moveOf mayMove segment.pipeline outcome))
        (segment.onward outcome.code rest) caller
        ((moveOf mayMove segment.pipeline outcome).elim after (after.moveTo ·)) := by
  rw [runSegments, Task.bind_run, ran]
  dsimp only
  have moves : ∀ moved : Option String, moved.forM move caller after =
      (.ok ⟨⟩, moved.elim after (after.moveTo ·)) := by
    intro moved
    cases moved <;> rfl
  rw [Task.bind_run, moves]
  unfold Segment.onward
  dsimp only
  split
  · rfl
  · rfl

/-- What has moved stays where it is while segments run that cannot move. -/
theorem moved_of_runSegments {before : Workspace} {last : Progress}
    (ran : runSegments run false progress rest caller before = (.ok last, after)) :
    last.moved = progress.moved := by
  induction rest generalizing progress before with
  | nil =>
    cases ran
    rfl
  | cons segment rest ih =>
    generalize first : run segment.pipeline caller before = outcome at ran
    obtain ⟨result, between⟩ := outcome
    cases result with
    | error fault =>
      rw [runSegments_of_error first] at ran
      cases ran
    | ok outcome =>
      rw [runSegments_of_ok first] at ran
      unfold Segment.onward at ran
      split at ran
      · cases ran
        rfl
      · have kept := ih ran
        exact kept

private theorem moveTo_mirrors {twin : Workspace} (mirrors : workspace.Mirrors twin)
    (path : String) :
    (workspace.moveTo path).Mirrors (twin.moveTo path) := by
  obtain ⟨log⟩ := mirrors
  exact .mk log

private theorem move_alongside (moved : Option String) :
    Alongside caller Workspace.Mirrors Eq (moved.forM move) (moved.forM move) := by
  cases moved with
  | none => exact .pure rfl
  | some path => exact .change fun _ _ mirrors => moveTo_mirrors mirrors path

/-- Segments do the same, wherever they move, whatever has been logged. -/
theorem runSegments_alongside (runs : ∀ pipeline, Acts (run pipeline)) (mayMove : Bool)
    (progress : Progress) (segments : List Segment) :
    Alongside caller Workspace.Mirrors Eq (runSegments run mayMove progress segments)
      (runSegments run mayMove progress segments) := by
  induction segments generalizing mayMove progress with
  | nil => exact .pure rfl
  | cons segment rest ih =>
    refine ((runs _).alongside caller).thenSame fun outcome =>
      (move_alongside _).thenSame fun _ => ?_
    dsimp only
    split
    · exact .pure rfl
    · exact ih false _

/-- Segments that cannot move make changes and nothing else. -/
theorem runSegments_acts (runs : ∀ pipeline, Acts (run pipeline)) (progress : Progress)
    (segments : List Segment) : Acts (runSegments run false progress segments) := by
  induction segments generalizing progress with
  | nil => exact .pure _
  | cons segment rest ih =>
    refine (runs _).bind fun outcome => (Acts.pure _).bind fun _ => ?_
    dsimp only
    split
    · exact .pure _
    · exact ih _

end

/-- What runs within the substitutions of a line. -/
def innerAt : (levels : Nat) → Inner
  | 0 => none
  | levels + 1 => some (runLine levels)

theorem runLine_eq (levels : Nat) :
    runLine levels = runLineWith (innerAt levels) (levels = nestingLimit) := by
  cases levels <;> rfl

theorem runPipeline_eq (levels : Nat) : runPipeline levels = runPipelineWith (innerAt levels) := by
  cases levels <;> rfl

/-- By induction on the levels: what runs within substitutions is not at the top. -/
theorem actsWithin_innerAt {levels : Nat} (nests : levels ≤ nestingLimit) :
    ActsWithin (innerAt levels) := by
  induction levels with
  | zero =>
    intro run absent
    cases absent
  | succ levels ih =>
    rintro run ⟨⟩ text
    have below : decide (levels = nestingLimit) = false := decide_eq_false (by omega)
    rw [runLine_eq, below]
    have runs := runPipelineWith_acts (ih (by omega))
    exact (runSegments_acts runs _ _).bind fun _ => .pure _

theorem runPipeline_acts {levels : Nat} (nests : levels ≤ nestingLimit) (pipeline : Pipeline) :
    Acts (runPipeline levels pipeline) := by
  rw [runPipeline_eq]
  exact runPipelineWith_acts (actsWithin_innerAt nests) pipeline

/-- A line does the same whatever has been logged. -/
theorem runLine_alongside {levels : Nat} (nests : levels ≤ nestingLimit) (line : String) :
    Alongside caller Workspace.Mirrors Eq (runLine levels line) (runLine levels line) := by
  rw [runLine_eq]
  have runs : ∀ pipeline, Acts (runPipelineWith (innerAt levels) pipeline) :=
    runPipelineWith_acts (actsWithin_innerAt nests)
  exact (runSegments_alongside runs _ _ _).thenSame fun _ => .pure rfl

end PocketShell.Shell
