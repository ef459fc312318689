import PocketShell.Fs.Mode
import PocketShell.Json.Reader
import PocketShell.Log.Basic
import PocketShell.Report
import PocketShell.Text.Case

/-!
The configuration of a session: what it says of the filesystem, the shell, the users and the log. It
is read from structured data; what is not given keeps its usual value. The mask, the size of the
history and the level of the log are checked, other values are taken as they are.
-/
namespace PocketShell

namespace Config

/-- What is said of the filesystem. -/
structure Filesystem where
  umask : String
  initialSnapshot : Json
  deriving Repr

/-- What is said of the shell. -/
structure Shell where
  hostname : Json
  prompt : Json
  historySize : Json
  deriving Repr

/-- What is said of users. -/
structure Users where
  defaultUser : Json
  homePrefix : Json
  deriving Repr

/-- What is said of the log. -/
structure Logging where
  level : String
  logFile : Json
  consoleOutput : Json
  deriving Repr

end Config

/-- A configuration. -/
structure Config where
  filesystem : Config.Filesystem
  shell : Config.Shell
  users : Config.Users
  logging : Config.Logging
  deriving Repr

namespace Config

/-- The usual prompt. -/
def usualPrompt : String := "\x7buser\x7d@\x7bhost\x7d:\x7bcwd\x7d\x7bmark\x7d "

/-- The usual configuration. -/
def usual : Config where
  filesystem := ⟨"022", .string "default"⟩
  shell := ⟨.string "the-terminal", .string usualPrompt, .int 1000⟩
  users := ⟨.string "guest", .string "/home"⟩
  logging := ⟨"WARNING", .null, .bool true⟩

/-- How reading a configuration fails. -/
inductive Failure
  | reported (report : Report)
  | fault (fault : Fault)
  deriving Repr

/-- Refuses a value under its key. -/
def refuse {α : Type} (message key : String) : Except Failure α :=
  .error (.reported (.ofConfigValue message (.string key) []))

/-- The value of a name in a section, or the usual one. A section that has no members at all fails
the reading. -/
def valueIn (section_ : Json) (name : String) (usual : Json) : Except Failure Json :=
  match section_ with
  | .object _ => .ok (section_.memberD name usual)
  | _ => .error (.fault .noMember)

/-- The text of a value. -/
def textOf (value : Json) : Except Failure String := value.shown.mapError .fault

/-- Reads a section if it is given. -/
def readSection {α : Type} (data : Json) (name : String) (usual : α)
    (read : Json → Except Failure α) : Except Failure α :=
  match data.member? name with
  | none => .ok usual
  | some section_ => read section_

/-- Reads what is said of the filesystem. -/
def Filesystem.ofJson (data : Json) : Except Failure Filesystem := do
  let umask ← valueIn data "umask" (.string usual.filesystem.umask)
  return ⟨← textOf umask, ← valueIn data "initial_snapshot" usual.filesystem.initialSnapshot⟩

/-- Reads what is said of the shell. -/
def Shell.ofJson (data : Json) : Except Failure Shell := do
  return ⟨← valueIn data "hostname" usual.shell.hostname, ← valueIn data "prompt" usual.shell.prompt,
    ← valueIn data "history_size" usual.shell.historySize⟩

/-- Reads what is said of users. -/
def Users.ofJson (data : Json) : Except Failure Users := do
  return ⟨← valueIn data "default_user" usual.users.defaultUser,
    ← valueIn data "home_prefix" usual.users.homePrefix⟩

/-- Reads what is said of the log. -/
def Logging.ofJson (data : Json) : Except Failure Logging := do
  let level ← valueIn data "level" (.string usual.logging.level)
  return ⟨Text.upper (← textOf level), ← valueIn data "log_file" usual.logging.logFile,
    ← valueIn data "console_output" usual.logging.consoleOutput⟩

/-- A number of lines to keep, if a value is one. -/
def limit? : Json → Option Nat
  | .int i => if 0 ≤ i then some i.toNat else none
  | .bool b => some (if b then 1 else 0)
  | _ => none

/-- Checks what can be wrong about a configuration. -/
def check (config : Config) : Except Failure Config := do
  if (Mode.parse? true config.filesystem.umask).isNone then
    refuse s!"Invalid umask: {config.filesystem.umask}" "filesystem.umask"
  if (limit? config.shell.historySize).isNone then
    let shown ← textOf config.shell.historySize
    refuse s!"Invalid history size: {shown}" "shell.history_size"
  if (Log.Level.ofName? config.logging.level).isNone then
    refuse s!"Invalid log level: {config.logging.level}" "logging.level"
  return config

/-- Reads a configuration. -/
def ofJson (data : Json) : Except Failure Config := do
  match data with
  | .object _ =>
    let filesystem ← readSection data "filesystem" usual.filesystem Filesystem.ofJson
    let shell ← readSection data "shell" usual.shell Shell.ofJson
    let users ← readSection data "users" usual.users Users.ofJson
    let logging ← readSection data "logging" usual.logging Logging.ofJson
    check { filesystem, shell, users, logging }
  | _ => .error (.reported (.ofConfigValue "Configuration root must be an object" .null []))

/-- How many lines the history keeps. -/
def historyLimit (config : Config) : Nat := (limit? config.shell.historySize).getD 0

/-- The level of the log. -/
def level (config : Config) : Log.Level :=
  (Log.Level.ofName? config.logging.level).getD .warning

end Config

end PocketShell
