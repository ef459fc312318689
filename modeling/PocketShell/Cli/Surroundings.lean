import PocketShell.Cli.Launch

/-!
A run of the program as a function: the files around it, the time and its inputs are values, and so
is all that it leaves. The files lie in one directory, and nothing outside of it can be reached.
-/
namespace PocketShell.Cli

/-- The files around the program by name; a name without a text is an empty directory. -/
abbrev Files := List (String × Option String)

namespace Files

/-- Where a path has led to: outside of the directory, to the directory itself, to one in it, or to
a file in it. -/
inductive Place
  | outside
  | here
  | inner
  | file (text : String)
  deriving Repr, DecidableEq

/-- The place that one component of a path leads to from another place. -/
def step (files : Files) (place : Place) (component : String) : Option Place :=
  match place, component with
  | .file _, _ => none
  | place, "." => some place
  | .inner, ".." => some .here
  | _, ".." => some .outside
  | .here, name => (files.lookup name).map fun
    | some text => .file text
    | none => .inner
  | _, _ => none

/-- What a path leads to. A null character is in no path. -/
def find (files : Files) (path : String) : Config.Found :=
  let start : Place := if Path.isAbsolute path then .outside else .here
  if path.toList.contains '\x00' then .nothing
  else match (Path.parse path).components.foldlM files.step start with
    | none => .nothing
    | some (.file text) => .file text
    | some _ => .directory

end Files

/-- Why the file of the log cannot be opened: its path leads to a directory, or there is a file where
the path wants a directory, as the last one or before. -/
inductive RecordError
  | isDirectory
  | directoryTaken
  | belowFile
  deriving Repr, DecidableEq

/-- What the file of the log holds before the program writes to it; a file that is missing comes into
being with the directories it lies in. -/
def Files.openRecord (files : Files) (path : String) : Except RecordError String :=
  let isFile (name : String) : Bool := ((files.lookup name).getD none).isSome
  match files.find path, (Path.parse (Config.systemPath path)).components with
  | .file text, _ => .ok text
  | .directory, _ => .error .isDirectory
  | _, [name, _] => if isFile name then .error .directoryTaken else .ok ""
  | _, name :: _ :: _ => if isFile name then .error .belowFile else .ok ""
  | _, _ => .ok ""

/-- How a run ends before it is over. -/
inductive Stop
  | fault (fault : Fault)
  | record (error : RecordError)
  deriving Repr, DecidableEq

/-- What a run leaves: its output and errors, its code, and the log's file with its path. -/
structure Ran where
  output : String
  errors : String
  code : Int
  record : Option (String × String)
  deriving Repr, DecidableEq

/-- The line of a log entry without its time. -/
def untimedLine (entry : Log.Entry) : String := (Log.lineText false entry).toOption.getD entry.message

/-- What the pieces of a whole run leave. -/
def Ran.ofPieces (shown : Bool) (record : Option (String × String)) (pieces : List Piece)
    (code : Int) : Ran where
  output := outputText pieces
  errors := errorsText shown untimedLine pieces
  code := code
  record := record.map fun (path, before) => (path, before ++ recordText untimedLine pieces)

/-- Runs the program from its start until it exits or its inputs end. -/
def run (files : Files) (now : Binary64) (inputs : List Shell.Answer) (arguments : Arguments) :
    Except Stop Ran := do
  match arguments.readConfig files.find with
  | .error (.fault fault) => throw (.fault fault)
  | .error (.reported report) => return .ofPieces true none (refuse report).pieces 1
  | .ok config =>
    let path ← (logPath? config).mapError .fault
    let record ← path.mapM fun path => do
      return (path, ← (files.openRecord path).mapError .record)
    let reply ← (launch now config arguments).mapError .fault
    let (pieces, code) ← (reply.converse now inputs).mapError .fault
    return .ofPieces (showsLog config) record pieces code

end PocketShell.Cli
