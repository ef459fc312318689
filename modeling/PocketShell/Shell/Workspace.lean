import PocketShell.Fs.Machine
import PocketShell.Shell.Registry
import PocketShell.Shell.Variable

/-!
What commands see and change while a line runs, and what they answer. A command acts for a user and
may break off with a fault; what it did before stays done.
-/
namespace PocketShell.Shell

/-- What a command answers. A command that succeeds may still warn in its error text. -/
structure Outcome where
  output : String
  error : Option String
  code : Int
  deriving Repr, DecidableEq

namespace Outcome

/-- Success with an output. -/
def text (output : String) : Outcome := ⟨output, none, 0⟩

/-- Success without output. -/
def silent : Outcome := text ""

/-- Failure with a code and a message of the command. -/
def failWith (code : Int) (command message : String) : Outcome :=
  ⟨"", some (command ++ ": " ++ message), code⟩

/-- Failure with a message of the command. -/
def fail (command message : String) : Outcome := failWith 1 command message

/-- An output with the errors met on the way, if any, and the code for them. -/
def withErrors (output : String) (errors : List String) (code : Int) : Outcome :=
  if errors.isEmpty then text output else ⟨output, some (Text.unlines errors), code⟩

/-- The text of the error, empty without one. -/
def errorText (outcome : Outcome) : String := outcome.error.getD ""

end Outcome

/-- An entry of the process table. -/
structure Proc where
  pid : Int
  user : String
  command : String
  started : Binary64
  deriving Repr

/-- What a prompt brings. -/
inductive Answer
  | line (text : String)
  | interrupt
  deriving Repr, DecidableEq

/-- A prompt: the answers still to come, how it fails when none is left, and the questions asked so
far, the last one first. -/
structure Prompt where
  answers : List Answer
  whenEmpty : Fault
  asked : List String
  deriving Repr

/-- What the surroundings of a line are told. -/
inductive Event
  | setVariable (name : String) (value : Option String)
  | setProcesses (processes : List Proc)
  | clearHistory
  | called (name : String) (args : List String) (stdin : Option String) (user : String)
  deriving Repr

/-- A command that only answers: its call is told, and it may give up. -/
structure Script where
  name : String
  outcome : Outcome
  gives? : Option String
  deriving Repr

/-- The state in which a line runs; the events are the last one first. -/
structure Workspace where
  machine : Machine
  cwd : String
  env : Env
  history : List String
  processes : List Proc
  prompt : Option Prompt
  events : List Event
  deriving Repr

/-- Who runs a command, under which registered names, and the name of the host if no file tells
it. -/
structure Caller (α : Type) where
  user : String
  registry : Option (Registry α)
  hostname : String

/-- A command at work. -/
abbrev Run (α β : Type) := ReaderT (Caller α) (ExceptT Fault (StateM Workspace)) β

namespace Run

variable {α : Type}

/-- The user who acts. -/
def user : Run α String := do return (← read).user

/-- Tells the surroundings. -/
def tell (event : Event) : Run α Unit :=
  modify fun workspace => { workspace with events := event :: workspace.events }

/-- Runs an operation on the filesystem for an actor. -/
def perform {β : Type} (actor : Actor) (operation : Fs β) : Run α (Except FsError β) := do
  let workspace ← get
  let (result, machine) := workspace.machine.ask actor operation
  set { workspace with machine }
  result

/-- Runs an operation on the filesystem for the user, from the working directory. -/
def fs {β : Type} (operation : Fs β) : Run α (Except FsError β) := do
  perform ⟨← user, (← get).cwd⟩ operation

/-- The present time. -/
def now : Run α Binary64 := do return (← get).machine.now

/-- The home directory. -/
def home : Run α String := do return ((← get).env.get? "HOME").getD "/"

/-- The path that an argument names. -/
def path (arg : String) : Run α String := do return Path.expandHome arg (← home)

/-- Sets a variable. -/
def setVariable (name value : String) : Run α Unit := do
  modify fun workspace => { workspace with env := workspace.env.insert name value }
  tell (.setVariable name (some value))

/-- Unsets a variable. -/
def unsetVariable (name : String) : Run α Unit := do
  modify fun workspace => { workspace with env := workspace.env.erase name }
  tell (.setVariable name none)

/-- Asks for a line. -/
def ask (prompt : Prompt) (question : String) : Run α String := do
  let rest := prompt.answers.drop 1
  modify fun workspace =>
    { workspace with prompt := some ⟨rest, prompt.whenEmpty, question :: prompt.asked⟩ }
  match prompt.answers with
  | [] => throw prompt.whenEmpty
  | .interrupt :: _ => throw .interrupted
  | .line text :: _ => return text

/-- Reports to the log. -/
def report (entry : Log.Entry) : Run α Unit :=
  modify fun workspace => { workspace with machine := workspace.machine.report entry }

end Run

end PocketShell.Shell
