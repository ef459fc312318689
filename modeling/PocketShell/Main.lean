import PocketShell.Cli.Launch
import Std.Time.DateTime.Timestamp

/-!
The program on a terminal: it reads lines, prints what a dialogue writes, and keeps the file of the
log. What a line does is decided elsewhere.
-/
namespace PocketShell.Terminal

open Cli

/-- The present time. -/
def now : IO Binary64 := do
  return .ofInt (← Std.Time.Timestamp.now).toSecondsSinceUnixEpoch.val

/-- What a path leads to. -/
def find (path : String) : IO Config.Found := do
  try
    return .file (← IO.FS.readFile path)
  catch
    | .noFileOrDirectory .. => return .nothing
    | error => return .unreadable (toString error)

/-- Where the program writes to. -/
structure Streams where
  shown : Bool
  coloured : Bool
  record : Option IO.FS.Handle

/-- Writes pieces and makes them visible at once. -/
def write (streams : Streams) (pieces : List Piece) : IO Unit := do
  let moment ← now
  let line (coloured : Bool) (entry : Log.Entry) : String :=
    ((Log.timedLine coloured moment entry).toOption).getD entry.message
  let output ← IO.getStdout
  let errors ← IO.getStderr
  output.putStr (outputText pieces)
  output.flush
  errors.putStr (errorsText streams.shown (line streams.coloured) pieces)
  match streams.record with
  | none => return
  | some record =>
    record.putStr (recordText (line false) pieces)
    record.flush

/-- Tells a fault and gives the code for it. -/
def fail (fault : Fault) : IO UInt32 := do
  IO.eprintln fault.summary
  return 1

/-- Goes on until the dialogue ends. -/
partial def converse (streams : Streams) (reply : Reply) : IO Int := do
  write streams reply.pieces
  match reply.turn with
  | .exit code => return code
  | .wait dialogue =>
    let line ← (← IO.getStdin).getLine
    let next ← if line.isEmpty then
        pure (dialogue.close.map fun (pieces, code) => ⟨pieces, .exit code⟩)
      else
        let text := if line.endsWith "\n" then (line.dropEnd 1).toString else line
        pure (dialogue.feed (← now) (.line text))
    match next with
    | .ok reply => converse streams reply
    | .error fault => return (← fail fault).toNat

/-- Opens the file of the log at its end. -/
def openRecord (path : String) : IO IO.FS.Handle := do
  IO.FS.createDirAll (Path.dirname path)
  IO.FS.Handle.mk path .append

/-- Runs the program with its arguments. -/
def run (arguments : Arguments) : IO UInt32 := do
  let found ← match arguments.configPath? with
    | some path => find path
    | none => pure .nothing
  match arguments.readConfig fun _ => found with
  | .error (.fault fault) => fail fault
  | .error (.reported report) =>
    IO.eprint (errorsText false (·.message) (refuse report).pieces)
    return 1
  | .ok config => match logPath? config, launch (← now) config arguments with
    | .error fault, _ => fail fault
    | _, .error fault => fail fault
    | .ok path, .ok reply =>
      let streams : Streams :=
        ⟨showsLog config, ← (← IO.getStderr).isTty, ← path.mapM openRecord⟩
      return ((← converse streams reply) % 256).toNat.toUInt32

end PocketShell.Terminal

open PocketShell in
/-- The command line. -/
def main (arguments : List String) : IO UInt32 := do
  match Cli.readRequest arguments with
  | .error error =>
    IO.eprintln (Cli.refusalText error)
    return 2
  | .ok .help =>
    IO.println Cli.helpText
    return 0
  | .ok (.run arguments) => Terminal.run arguments
