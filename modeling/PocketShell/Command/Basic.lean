import PocketShell.Fs.Query
import PocketShell.Shell.Options
import PocketShell.Shell.Workspace

/-!
What a command is, and what commands share: going through arguments while errors gather, and reading
input from files or from the stage before.
-/
namespace PocketShell

/-- The standard commands. -/
inductive Builtin
  | pwd | cd | ls
  | mkdir | touch | cat | rm | cp | mv | ln
  | chmod | chown | umask | stat | file
  | clear | echo | history | help | asRoot
  | exportNames | unset | env
  | whoami | identity | groups | hostname
  | which | describe | succeed | giveUp | basename | dirname | readInto
  | grep | wc | head | tail | sort | uniq | cut | tee | sed | awk | xargs | seq | find
  | uname | date | uptime | ps | kill | df | free
  deriving Repr, DecidableEq

/-- What a name runs. -/
inductive Command
  | builtin (builtin : Builtin)
  | scripted (script : Shell.Script)
  deriving Repr

namespace Command

open Shell

/-- The digits of a number. One that has too many of them is not written. -/
def showNumber (n : Int) : Except Fault String :=
  if Text.maxDigits < (toString n.natAbs).length then
    .error (.badValue s!"Exceeds the limit ({Text.maxDigits} digits) for integer string conversion; use sys.set_int_max_str_digits() to increase the limit")
  else .ok (toString n)

/-- A command at work, up to its answer. -/
abbrev Job := Run Command Outcome

/-- A command by its arguments and its standard input. -/
abbrev Handler := List String → Option String → Job

/-- What has been gathered, and the errors met on the way. -/
structure Gathered (β : Type) where
  values : List β
  errors : List String

/-- Takes a step for each argument in turn and gathers what the steps bring. -/
def gather {β : Type} (step : String → Run Command (Except String β)) :
    List String → Run Command (Gathered β)
  | [] => return ⟨[], []⟩
  | arg :: rest => do
    let result ← step arg
    let ⟨values, errors⟩ ← gather step rest
    match result with
    | .ok value => return ⟨value :: values, errors⟩
    | .error error => return ⟨values, error :: errors⟩

/-- Takes a step for each argument in turn; the answer holds only the errors. -/
def each (step : String → Run Command (Except String Unit)) (args : List String) : Job := do
  return .withErrors "" (← gather step args).errors 1

/-- The result of an operation, a refusal worded by the command. -/
def explain {β : Type} (wording : FsError → String) : Except FsError β → Except String β
  | .ok value => .ok value
  | .error reason => .error (wording reason)

/-- The content that an argument names: a file, or the standard input for a hyphen. -/
def readArg (stdin : Option String) (arg : String) : Run Command (Except FsError String) := do
  if arg = "-" then return .ok (stdin.getD "")
  Run.fs (Fs.readText (← Run.path arg))

/-- The content of all arguments, line after line; the first one that cannot be read makes the
command fail. -/
def readArgs (command : String) (stdin : Option String) :
    List String → Run Command (Except Outcome (List String))
  | [] => return .ok []
  | arg :: rest => do
    match ← readArg stdin arg with
    | .error reason => return .error (.fail command s!"{arg}: {reason.message}")
    | .ok content => return (← readArgs command stdin rest).map (content :: ·)

/-- Works on the input of a filter: the files that are named, or the standard input without any. -/
def withInput (command : String) (files : List String) (stdin : Option String)
    (work : String → Job) : Job := do
  if files.isEmpty then work (stdin.getD "")
  else match ← readArgs command stdin files with
    | .error failure => return failure
    | .ok contents => work (Text.unlines contents)

/-- Works on the lines of the input of a filter. -/
def filterLines (command : String) (files : List String) (stdin : Option String)
    (work : List String → Except Outcome (List String)) : Job :=
  withInput command files stdin fun text =>
    match work (Text.lines text) with
    | .ok lines => return .text (Text.unlines lines)
    | .error failure => return failure

end Command

end PocketShell
