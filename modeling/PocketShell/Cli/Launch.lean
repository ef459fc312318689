import PocketShell.Cli.Arguments
import PocketShell.Cli.Dialogue
import PocketShell.Config.File

/-!
The start of the program: from its arguments and the configuration they lead to, to the first reply
of a dialogue. A configuration or a layout that cannot be used ends the program with a report.
-/
namespace PocketShell.Cli

/-- The path of the configuration file that the arguments name; an empty one is none. -/
def Arguments.configPath? (arguments : Arguments) : Option String :=
  arguments.config.filter (!·.isEmpty)

/-- The configuration that the arguments lead to; `find` tells what a path leads to. -/
def Arguments.readConfig (find : String → Config.Found) (arguments : Arguments) :
    Except Config.Failure Config :=
  match arguments.configPath? with
  | some path => Config.ofFound path (find path)
  | none => .ok Config.usual

/-- The path of the file that the log is written to, if there is one. -/
def logPath? (config : Config) : Except Fault (Option String) :=
  match config.logging.logFile with
  | .string path => .ok (if path.isEmpty then none else some path)
  | other => if other.truthy then .error .badType else .ok none

/-- The log is shown beside the errors. -/
def showsLog (config : Config) : Bool := config.logging.consoleOutput.truthy

/-- The program ends with a report. -/
def refuse (report : Report) : Reply :=
  ⟨[.errors s!"{programName}: {report.wording}\n"], .exit 1⟩

/-- The greeting of a dialogue. -/
def greeting (session : Session) : String :=
  s!"VShell on {session.hostname.plain}. Type 'help' for a list of commands.\n\n"

/-- The session that a configuration asks for, or the report of a layout that cannot be used. -/
def openSession (now : Binary64) (config : Config) (arguments : Arguments) :
    Except Fault (Except Report Session) :=
  match Session.freshMachine config now 1 (.atLevel config.level) with
  | .error (.fault fault) => .error fault
  | .error (.corrupt cause inode) =>
    .ok (.error (.ofSnapshot cause.message (.ofOption inode) []))
  | .ok machine => do
    let asked := arguments.user.getD ""
    return .ok (← Session.start machine config (Session.hostOf config) asked none)

/-- Starts a session: it runs the one line of the arguments, or greets and asks for lines. -/
def launch (now : Binary64) (config : Config) (arguments : Arguments) : Except Fault Reply := do
  match ← openSession now config arguments with
  | .error report => return refuse report
  | .ok session =>
    let opened := newEntries config.level 0 session.machine.log
    let dialogue : Dialogue :=
      { session, single := arguments.command.isSome, code := 0, waiting := none }
    match arguments.command with
    | some line => return (← dialogue.runWith false ⟨line, []⟩).after opened
    | none => return (← dialogue.ask).after (opened ++ [.output (greeting session)])

/-- What the pieces bring to the output. -/
def outputText (pieces : List Piece) : String :=
  String.join (pieces.map fun
    | .output text => text
    | _ => "")

/-- What the pieces bring to the errors; `write` gives the line of a log entry, if entries are shown
there. -/
def errorsText (shown : Bool) (write : Log.Entry → String) (pieces : List Piece) : String :=
  String.join (pieces.map fun
    | .errors text => text
    | .entry entry => if shown then write entry ++ "\n" else ""
    | .output _ => "")

/-- What the pieces bring to the file of the log. -/
def recordText (write : Log.Entry → String) (pieces : List Piece) : String :=
  String.join (pieces.map fun
    | .entry entry => write entry ++ "\n"
    | _ => "")

end PocketShell.Cli
