import PocketShell.Config.Basic
import PocketShell.Fs.Layout
import PocketShell.Shell.Execution
import PocketShell.Template.Render

/-!
Sessions: a machine and what one user has around it. A session runs one line at a time; what a line
does to variables and processes, and where it moves to, is there for the next one.
-/
namespace PocketShell

open Shell

/-- A session; `host` is the name that commands give the host if no file tells it. -/
structure Session where
  machine : Machine
  config : Config
  host : String
  user : String
  cwd : String
  env : Env
  history : List String
  processes : List Proc
  prompt : Option Prompt
  deriving Repr

namespace Session

/-- The name of sessions in the log. -/
def subsystem : String := "session"

/-- Where commands are looked for, as variables tell it. -/
def searchPath : String := "/usr/local/bin:/usr/bin:/bin"

/-- The user of a session: the one that is asked for, or the configured one. -/
def userOf (config : Config) (asked : String) : Except Fault String :=
  if !asked.isEmpty then .ok asked
  else match config.users.defaultUser with
    | .string user => .ok user
    | _ => .error .noMember

/-- The home directory of a user. -/
def homeOf (config : Config) (user : String) : Except Fault String :=
  if user = rootUser then .ok "/root"
  else match config.users.homePrefix with
    | .string base => .ok (Path.join [base, user])
    | _ => if Path.isAbsolute user then .ok user else .error .noMember

/-- The name that commands give the host if no file tells it. -/
def hostOf (config : Config) : String :=
  match config.shell.hostname with
  | .null => ""
  | name => name.plain

/-- The variables that a session starts with. -/
def initialEnv (user home cwd : String) : Env := [
  ("USER", user), ("HOME", home), ("PWD", cwd), ("PATH", searchPath), ("SHELL", "/bin/bash"),
  ("TERM", "xterm-256color")]

/-- The processes that a session starts with. -/
def initialProcesses (user : String) (now : Binary64) : List Proc :=
  [⟨1, rootUser, "init", now⟩, ⟨100, user, "bash", now⟩]

/-- The session in its initial state, at home if the user can get there. -/
def begin (session : Session) : Except Fault Session := do
  let home ← homeOf session.config session.user
  let (found, machine) := session.machine.perform ⟨session.user, "/"⟩ (Fs.stat home)
  let cwd := match found with
    | .ok inode => if inode.isDirectory then home else "/"
    | .error _ => "/"
  return { session with
    machine, cwd
    env := initialEnv session.user home cwd
    processes := initialProcesses session.user machine.now }

/-- A session on a machine. -/
def start (machine : Machine) (config : Config) (host asked : String) (prompt : Option Prompt) :
    Except Fault Session := do
  let user ← userOf config asked
  begin { machine, config, host, user, cwd := "/", env := [], history := [], processes := [], prompt }

/-- The machine with the configured initial layout. -/
def loadInitial (config : Config) (machine : Machine) : Except SnapshotFailure Machine :=
  match config.filesystem.initialSnapshot with
  | .string name => machine.loadNamed name
  | _ => .error (.fault .noMember)

/-- A machine of its own for a session: an empty one that loads the configured layout. -/
def freshMachine (config : Config) (now : Binary64) (nextId : Nat) (log : Log) :
    Except SnapshotFailure Machine := do
  let machine ←
    Machine.start (.layout []) (.string config.filesystem.umask) now nextId log
  loadInitial config machine

/-- The name of the host: what its file says, or the configured one. -/
def hostname (session : Session) : Json :=
  let (content, _) := session.machine.perform ⟨rootUser, "/"⟩ (Fs.readText "/etc/hostname")
  let name := match content with
    | .ok text => Text.trim text
    | .error _ => ""
  if name.isEmpty then session.config.shell.hostname else .string name

/-- The working directory as the prompt shows it: the home directory is a tilde. -/
def shownCwd (home cwd : String) : String :=
  if cwd = home then "~"
  else if cwd.startsWith (home ++ "/") then "~" ++ String.ofList (cwd.toList.drop home.length)
  else cwd

/-- The text that asks for a line. -/
def promptText (session : Session) : Except Fault String := do
  let home ← homeOf session.config session.user
  match session.config.shell.prompt with
  | .string template => Template.render template [
      ("user", .string session.user), ("host", session.hostname),
      ("cwd", .string (shownCwd home session.cwd)),
      ("mark", .string (if session.user = rootUser then "#" else "$"))]
  | _ => throw .noMember

/-- The history with one more line, if it holds more than blanks; the oldest lines go. -/
def record (limit : Nat) (line : String) (history : List String) : List String :=
  if (Text.trim line).isEmpty then history
  else
    let history := history ++ [line]
    history.drop (history.length - limit)

/-- What a line tells, put into effect. -/
def absorb (session : Session) : Event → Session
  | .setVariable name (some value) => { session with env := session.env.insert name value }
  | .setVariable name none => { session with env := session.env.erase name }
  | .setProcesses processes => { session with processes }
  | .clearHistory => { session with history := [] }
  | .called _ _ _ _ => session

/-- The session moves to a directory. -/
def moveTo (session : Session) (path : String) : Session :=
  { session with
    env := (session.env.insert "OLDPWD" session.cwd).insert "PWD" path
    cwd := path }

/-- The state in which a line of the session runs. -/
def workspace (session : Session) : Workspace where
  machine := session.machine
  cwd := session.cwd
  env := session.env
  history := session.history
  processes := session.processes
  prompt := session.prompt
  events := []

/-- For whom the lines of the session run. -/
def caller (session : Session) : Caller Command :=
  ⟨session.user, some Command.standardRegistry, session.host⟩

/-- Runs a line. It sees the history without itself. -/
def run (line : String) (session : Session) : Except Fault Transcript × Session :=
  let (result, after) :=
    ((runLine nestingLimit line).run session.caller).run session.workspace
  let session := { session with
    machine := after.machine
    prompt := after.prompt
    history := record session.config.historyLimit line session.history }
  let session := after.events.reverse.foldl absorb session
  match result with
  | .error fault => (.error fault, session)
  | .ok transcript => (.ok transcript, (transcript.moved.map session.moveTo).getD session)

/-- Forgets the history. -/
def clear (session : Session) : Session := { session with history := [] }

/-- What a session is reset to. -/
inductive Target
  | initial
  | named (name : String)
  | snapshot (snapshot : Snapshot)

/-- The machine with what a session is reset to, and how the log calls that. -/
def loadTarget (session : Session) : Target → Except SnapshotFailure (Machine × String)
  | .initial => do
    let machine ← loadInitial session.config session.machine
    return (machine, session.config.filesystem.initialSnapshot.plain)
  | .named name => do return (← session.machine.loadNamed name, name)
  | .snapshot snapshot => do return (← session.machine.load snapshot, "custom")

/-- Replaces the filesystem and puts the session into its initial state. -/
def reset (target : Target) (session : Session) : Except SnapshotFailure Session := do
  let (machine, name) ← session.loadTarget target
  match begin { session with machine, history := [] } with
  | .error fault => throw (.fault fault)
  | .ok session =>
    let entry := Log.Entry.of .info subsystem "Session reset"
      [("user", .string session.user), ("snapshot", .string name)]
    return { session with machine := session.machine.report entry }

end Session

end PocketShell
