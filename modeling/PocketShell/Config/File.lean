import PocketShell.Config.Basic
import PocketShell.Fs.Path

/-!
Configurations in files. What a path leads to is found beforehand; here it is read and worded.
-/
namespace PocketShell.Config

/-- What a path outside leads to. -/
inductive Found
  | nothing
  | directory
  | unreadable (reason : String)
  | file (text : String)
  deriving Repr, DecidableEq

/-- The path without empty components and without dots, as the system is asked for it. -/
def systemPath (path : String) : String :=
  let parsed := Path.parse path
  Path.toText ⟨parsed.absolute, parsed.components.filter (· != ".")⟩

/-- Refuses the file of a path. -/
def refuseFile {α : Type} (message path : String) : Except Failure α :=
  .error (.reported (.ofConfigFile message (.string path) []))

/-- Reads the configuration that a path leads to. -/
def ofFound (path : String) : Found → Except Failure Config
  | .nothing => refuseFile s!"Configuration file not found: {path}" path
  | .directory =>
    let shown := Text.quoted (systemPath path)
    refuseFile s!"Cannot read configuration file: [Errno 21] Is a directory: {shown}" path
  | .unreadable reason => refuseFile s!"Cannot read configuration file: {reason}" path
  | .file text => match Json.read text with
    | .ok data => ofJson data
    | .error error => match error.fault? with
      | some fault => .error (.fault fault)
      | none => .error (.reported (.ofConfigFile "Invalid JSON in configuration file" .null []))

end PocketShell.Config
