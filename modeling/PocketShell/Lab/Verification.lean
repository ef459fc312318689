import PocketShell.Fs.Query
import PocketShell.Lab.Basic
import PocketShell.Pattern.Matcher

/-!
Judging the progress of a lab: commands against steps, and the filesystem against conditions. The
filesystem is looked at as the learner, so that a file the learner cannot read contains nothing.
-/
namespace PocketShell

/-- The name of labs in the log. -/
def labSubsystem : String := "labs"

/-- A command with single spaces between its words. -/
def normalizeCommand (command : String) : String := Text.collapse command

/-- A value that has to be a text for its use. -/
def Json.toText (fault : Fault) : Json → Except Fault String
  | .string text => .ok text
  | _ => .error fault

/-- A verdict, with what the log is told on the way. -/
structure Verdict where
  holds : Bool
  entry : Option Log.Entry
  deriving Repr

/-- The command matches a pattern as a whole; a text that is no pattern is reported. -/
def matchStep (lab : Lab) (index : Int) (text command : String) : Except Fault Verdict :=
  match Pattern.compile .none text with
  | .ok pattern => .ok ⟨pattern.fullMatch command, none⟩
  | .error (.fault fault) => .error fault
  | .error (.refused error) =>
    .ok ⟨false, some (.of .warning labSubsystem "Invalid step pattern"
      [("lab", lab.id), ("step", .int index), ("error", .string (error.message text))])⟩

/-- Judges a command as the answer to a step. -/
def Lab.checkStep (lab : Lab) (index : Int) (command : String) : Except Fault Verdict := do
  if index < 0 then return ⟨false, none⟩
  match lab.steps[index.toNat]? with
  | none => return ⟨false, none⟩
  | some step =>
    let command := normalizeCommand command
    if step.isPattern then matchStep lab index (← step.expected.toText .badType) command
    else return ⟨command = normalizeCommand (← step.expected.toText .noMember), none⟩

/-- Looking at a machine as a learner. -/
abbrev Inspection (α : Type) := ReaderT String (ExceptT Fault (StateM Machine)) α

namespace Inspection

/-- Looks at the filesystem. -/
def look {α : Type} (operation : Fs α) : Inspection (Except FsError α) := do
  let (result, machine) := (← get).ask ⟨← read, "/"⟩ operation
  set machine
  result

end Inspection

/-- The path leads to an inode that passes a test. -/
def leadsTo (lookup : Fs Inode) (test : Inode → Bool) : Inspection Bool := do
  match ← Inspection.look lookup with
  | .ok inode => return test inode
  | .error _ => return false

/-- A file can be read, and its content passes the test of a given text. -/
def contentPasses (path : String) (given : Json) (test : String → String → Except Fault Bool) :
    Inspection Bool := do
  match ← Inspection.look (Fs.readText path), given with
  | .error _, _ => return false
  | .ok _, .null => return false
  | .ok content, given => test (← given.toText .badType) content

/-- A pattern is found in a content; a text that is no pattern is found nowhere. -/
def patternFound (text content : String) : Except Fault Bool :=
  match Pattern.compile { Pattern.Flags.none with multiline := true } text with
  | .ok pattern => .ok (pattern.search content)
  | .error (.refused _) => .ok false
  | .error (.fault fault) => .error fault

/-- The mode that a condition expects: its zeros in front do not count, but three digits stay. -/
def expectedMode (given : Json) : Except Fault (Option Mode) := do
  let text ← if given.truthy then given.toText .noMember else pure ""
  let digits := text.toList.dropWhile (· == '0')
  return Mode.parse? true (String.ofList (List.replicate (3 - digits.length) '0' ++ digits))

/-- Judges a condition. -/
def Condition.check (condition : Condition) : Inspection Bool := do
  let path ← condition.path.toText .noMember
  match condition.kind with
  | .directoryExists => leadsTo (Fs.stat path) (·.isDirectory)
  | .fileExists => leadsTo (Fs.stat path) (·.isFile)
  | .fileNotExists => match ← Inspection.look (Fs.lstat path) with
    | .ok _ => return false
    | .error reason => return reason = .notFound
  | .fileContains =>
    contentPasses path condition.content fun text content => .ok (Text.occursIn text content)
  | .fileMatchesRegex => contentPasses path condition.content patternFound
  | .ownerEquals => leadsTo (Fs.stat path) fun inode => condition.owner.isText inode.owner
  | .permissionEquals =>
    let mode ← expectedMode condition.mode
    leadsTo (Fs.stat path) fun inode => mode = some inode.mode
  | .symlinkTargetEquals => leadsTo (Fs.lstat path) fun inode =>
    inode.isSymlink && condition.target.isText inode.target

/-- Judges all conditions of a lab; the result holds what is shown for those that fail. -/
def Lab.check (lab : Lab) : Inspection (List Json) := do
  let failed ← lab.conditions.filterM fun condition => do return !(← condition.check)
  modify (Machine.report (.of .debug labSubsystem "Verified lab"
    [("lab", lab.id), ("failed", .int failed.length)]))
  return failed.map Condition.describe

end PocketShell
