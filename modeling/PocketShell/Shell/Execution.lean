import PocketShell.Command.Standard
import PocketShell.Shell.Parse
import PocketShell.Shell.Substitution

/-!
Running a line. Its segments run from left to right, the stages of a segment one after another, each
on the output of the one before. Substitutions in words run lines of their own, one level deeper;
how many levels may nest is bounded, and a line that may still nest all of them is at the top. Only
there, and only as the first segment's single command, does changing the directory move the line.
-/
namespace PocketShell.Shell

/-- How many levels of substitutions may nest. -/
def nestingLimit : Nat := 20

/-- What is told when substitutions nest too deep. -/
def nestedTooDeep : String := "maximum command substitution depth exceeded"

/-- The name of running lines in the log. -/
def executorSubsystem : String := "executor"

/-- What a line leaves: its output and errors, the code of the last segment that ran, and the
directory it has moved to, if it has. -/
structure Transcript where
  output : String
  error : Option String
  code : Int
  moved : Option String
  deriving Repr, DecidableEq

/-- Runs a line within a substitution; without it no level is left. -/
abbrev Inner := Option (String → Run Command Transcript)

/-- A word after its substitutions: whether it was nothing but these, and what they warned of. -/
structure Filled where
  word : String
  bare : Bool
  warnings : List String

/-- The text of a part of a word, and what running it warned of. -/
def fillPart (inner : Inner) : Part → Run Command (String × List String)
  | .literal text => return (String.ofList text, [])
  | .command text => match inner with
    | none => return ("", [nestedTooDeep])
    | some run => do
      let transcript ← run (String.ofList text)
      return (escapeDollars (Text.collapse transcript.output), transcript.error.toList)

/-- The part is a command. -/
def Part.isCommand : Part → Bool
  | .literal _ => false
  | .command _ => true

/-- Replaces every substitution in a word by the output of its command, on one line. -/
def fillWord (inner : Inner) (word : String) : Run Command Filled := do
  let parts := parts word.toList
  if !parts.any Part.isCommand then return ⟨word, false, []⟩
  let filled ← parts.mapM (fillPart inner)
  return ⟨String.join (filled.map (·.1)), parts.all Part.isCommand, (filled.map (·.2)).flatten⟩

/-- The words of a stage after substitutions and variables, and what the substitutions warned of. A
word of nothing but substitutions that are empty is none. -/
def fillWords (inner : Inner) : List String → Run Command (List String × List String)
  | [] => return ([], [])
  | word :: rest => do
    let filled ← fillWord inner word
    let expanded := expandWord (← get).env filled.word
    let (words, warnings) ← fillWords inner rest
    if filled.bare && filled.word.isEmpty then return (words, filled.warnings ++ warnings)
    return (expanded :: words, filled.warnings ++ warnings)

/-- The path of a redirection after substitutions, variables and the mark of the home directory. -/
def fillPath (inner : Inner) (path : String) : Run Command (String × List String) := do
  let filled ← fillWord inner path
  let expanded := expandWord (← get).env filled.word
  let path ← match expanded.toList with
    | ['~'] => Run.home
    | '~' :: '/' :: rest => do pure ((← Run.home) ++ String.ofList ('/' :: rest))
    | _ => pure expanded
  return (path, filled.warnings)

/-- The path of a redirection that may be absent. -/
def fillPath? (inner : Inner) : Option String → Run Command (Option String × List String)
  | none => return (none, [])
  | some path => do
    let (path, warnings) ← fillPath inner path
    return (some path, warnings)

/-- Runs the command of a name. A fault in it is reported and makes it fail; only an interruption
ends the line. -/
def runNamed (name : String) (args : List String) (stdin : Option String) : Command.Job := do
  match ← Command.named? name with
  | none =>
    Run.report (.of .debug executorSubsystem "Command not found" [("command", .string name)])
    return .failWith 127 name "command not found"
  | some command =>
    tryCatch (command.run args stdin) fun fault => do
      if fault = .interrupted then throw fault
      let entry := Log.Entry.of .error executorSubsystem s!"Command {name} raised" []
      Run.report { entry with fault := some fault }
      return .fail name fault.message

/-- Routes the streams of a stage into a file; what is left of them flows on. -/
def route (redirect : Redirect) (path : String) (outcome : Outcome) :
    Run Command (Except FsError Outcome) := do
  let keep (kept : Outcome) (result : Except FsError Inode) : Except FsError Outcome :=
    result.map fun _ => kept
  match redirect with
  | .overwrite =>
    return keep { outcome with output := "" } (← Run.fs (Fs.writeText path outcome.output))
  | .append =>
    return keep { outcome with output := "" } (← Run.fs (Fs.appendText path outcome.output))
  | .errors =>
    let kept := { outcome with error := none }
    if outcome.errorText.isEmpty then return .ok kept
    return keep kept (← Run.fs (Fs.writeText path outcome.errorText))
  | .both =>
    let kept := { outcome with output := "", error := none }
    let streams := [outcome.output, outcome.errorText].filter (!·.isEmpty)
    if streams.isEmpty then return .ok kept
    return keep kept (← Run.fs (Fs.writeText path (Text.unlines streams)))

/-- How a stage ends: the pipeline stops with an outcome, or goes on with it. -/
inductive StageEnd
  | stop (outcome : Outcome)
  | proceed (outcome : Outcome)
  deriving Repr, DecidableEq

/-- The redirection takes errors, so that a failure does not stop the pipeline. -/
def takesErrors (redirect : Option Redirect) : Bool :=
  redirect = some .errors || redirect = some .both

/-- The standard input of a stage: the file it names, empty if that cannot be read, or what the
stage before left. -/
def stageInput (path : Option String) (before : Option String) : Run Command (Option String) := do
  match path with
  | none => return before
  | some path => match ← Run.fs (Fs.readText path) with
    | .ok content => return some content
    | .error _ => return some ""

/-- Warnings take the place of an error text that is missing. -/
def withWarnings (warnings : List String) (outcome : Outcome) : Outcome :=
  if !warnings.isEmpty && outcome.errorText.isEmpty then
    { outcome with error := some (Text.unlines warnings) }
  else outcome

/-- The redirection of a stage after its outcome. -/
def redirectStage (redirect : Option Redirect) (path : Option String) (outcome : Outcome) :
    Run Command StageEnd := do
  match redirect, path with
  | some redirect, some path => match ← route redirect path outcome with
    | .ok routed => return .proceed routed
    | .error reason => return .stop (.fail path reason.message)
  | _, _ => return .proceed outcome

/-- Runs one stage; `index` is its place in the pipeline. -/
def runStage (inner : Inner) (index : Nat) (stdin : Option String) (action : Action) :
    Run Command StageEnd := do
  let (words, warnings) ← fillWords inner ([action.name].filter (!·.isEmpty) ++ action.args)
  let (path, pathWarnings) ← fillPath? inner (action.output.map (·.2))
  let (input, inputWarnings) ← fillPath? inner action.input
  let warnings := warnings ++ pathWarnings ++ inputWarnings
  if warnings.any (Text.occursIn nestedTooDeep) then
    return .stop ⟨"", some nestedTooDeep, 1⟩
  let stdin ← stageInput input stdin
  let outcome ← match words with
    | name :: args => runNamed name args stdin
    | [] => pure .silent
  let outcome := withWarnings warnings outcome
  let redirect := action.output.map (·.1)
  if outcome.code != 0 && !takesErrors redirect then
    Run.report (.of .debug executorSubsystem "Pipeline aborted"
      [("stage", .int index), ("command", .string (words.headD "")), ("exit", .int outcome.code)])
    return .stop outcome
  redirectStage redirect path outcome

/-- Runs the stages from one place on; `before` is the outcome of the stage before. -/
def runStages (inner : Inner) (index : Nat) (stdin : Option String) (before : Outcome) :
    List Action → Command.Job
  | [] => return before
  | action :: rest => do
    match ← runStage inner index stdin action with
    | .stop outcome => return outcome
    | .proceed outcome => runStages inner (index + 1) (some outcome.output) outcome rest

/-- Runs a pipeline. -/
def runPipelineWith (inner : Inner) (pipeline : Pipeline) : Command.Job :=
  runStages inner 0 none .silent pipeline

/-- The pipeline is a single command that changes the directory. -/
def isMove (pipeline : Pipeline) : Bool :=
  match pipeline with
  | [action] => action.name = "cd"
  | _ => false

/-- The line moves to a directory and keeps the one it leaves in a variable. -/
def move (path : String) : Run Command Unit :=
  modify fun workspace => { workspace with
    env := (workspace.env.insert "OLDPWD" workspace.cwd).insert "PWD" path
    cwd := path }

/-- What the segments of a line have left so far. -/
structure Progress where
  outputs : List String
  errors : List String
  code : Int
  moved : Option String

/-- No further segment runs behind the operator. -/
def endsLine (operator : Operator) (code : Int) : Bool :=
  match operator with
  | .and => code != 0
  | .or => code = 0
  | .sequence => false
  | .done => false

/-- The directory that the outcome of a segment moves a line to. -/
def moveOf (mayMove : Bool) (pipeline : Pipeline) (outcome : Outcome) : Option String :=
  if mayMove && isMove pipeline && outcome.code = 0 && !outcome.output.isEmpty then
    some outcome.output
  else none

/-- What a segment adds to a line. Changing the directory has no output of its own there. -/
def Progress.add (progress : Progress) (pipeline : Pipeline) (outcome : Outcome)
    (moved : Option String) : Progress where
  outputs := progress.outputs
    ++ (if isMove pipeline then [] else [outcome.output].filter (!·.isEmpty))
  errors := progress.errors ++ [outcome.errorText].filter (!·.isEmpty)
  code := outcome.code
  moved := moved <|> progress.moved

/-- Runs segments; only the first one may move, and only if `mayMove`. -/
def runSegments (run : Pipeline → Command.Job) (mayMove : Bool) (progress : Progress) :
    List Segment → Run Command Progress
  | [] => return progress
  | segment :: rest => do
    let outcome ← run segment.pipeline
    let moved := moveOf mayMove segment.pipeline outcome
    moved.forM move
    let progress := progress.add segment.pipeline outcome moved
    if endsLine segment.operator outcome.code then return progress
    runSegments run false progress rest

/-- What a line leaves in all. -/
def Progress.transcript (progress : Progress) : Transcript where
  output := Text.unlines progress.outputs
  error := if progress.errors.isEmpty then none else some (Text.unlines progress.errors)
  code := progress.code
  moved := progress.moved

/-- Runs a line whose substitutions run by `inner`. -/
def runLineWith (inner : Inner) (top : Bool) (line : String) : Run Command Transcript := do
  let progress ← runSegments (runPipelineWith inner) top ⟨[], [], 0, none⟩ (parseLine line)
  return progress.transcript

/-- Runs a line in which as many levels of substitutions may nest. -/
def runLine : (levels : Nat) → String → Run Command Transcript
  | 0 => runLineWith none (nestingLimit = 0)
  | levels + 1 => runLineWith (some (runLine levels)) (levels + 1 = nestingLimit)

/-- Runs a pipeline in which as many levels of substitutions may nest. -/
def runPipeline : (levels : Nat) → Pipeline → Command.Job
  | 0 => runPipelineWith none
  | levels + 1 => runPipelineWith (some (runLine levels))

end PocketShell.Shell
