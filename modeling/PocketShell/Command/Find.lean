import PocketShell.Command.Basic
import PocketShell.Pattern.Glob

/-!
Search in a directory tree by name and type. Directories come before what they hold; one that the
user may not look into is told, and the search goes on beside it.
-/
namespace PocketShell.Command

open Shell

namespace Find

/-- What a search is asked for: the glob and the type as they are written, the last of each. -/
structure Query where
  name : Option String
  type : Option String
  deriving Repr, DecidableEq

/-- Reads the tests; the first argument that is none of them is the error. -/
def Query.read (query : Query) : List String → Except String Query
  | [] => .ok query
  | "-name" :: glob :: rest => Query.read { query with name := some glob } rest
  | "-type" :: letter :: rest => Query.read { query with type := some letter } rest
  | option :: _ => .error option

/-- The type of a letter. -/
def typeOf? : String → Option FileType
  | "f" => some .file
  | "d" => some .directory
  | "l" => some .symlink
  | _ => none

/-- The tests that an entry has to pass. -/
structure Filter where
  glob : Option Pattern
  type : Option FileType

/-- The entry passes the tests. -/
def Filter.passes (filter : Filter) (name : String) (inode : Inode) : Bool :=
  filter.glob.all (Pattern.Glob.accepts · name) && filter.type.all (· = inode.type)

/-- A path that is found, or one that cannot be looked into. -/
inductive Report
  | found (path : String)
  | closed (path : String)
  deriving Repr, DecidableEq

/-- Visits an inode and, down to a number of levels, all below it. -/
def visit (volume : Volume) (user : String) (filter : Filter) :
    (levels : Nat) → (path name : String) → Inode → List Report
  | levels, path, name, inode =>
    let own := if filter.passes name inode then [Report.found path] else []
    if !inode.isDirectory then own
    else if !inode.permits user .read || !inode.permits user .execute then own ++ [.closed path]
    else match levels with
      | 0 => own
      | levels + 1 =>
        own ++ (inode.children.filterMap volume.inode?).flatMap fun child =>
          visit volume user filter levels (Path.dropSlashes path ++ "/" ++ child.name) child.name
            child

/-- The name under which the start of a search is tested. -/
def startName (start : String) : String :=
  let name := Path.basename start
  if name.isEmpty then "/" else name

/-- The tests of a query; the glob must make a pattern. -/
def Query.filter (query : Query) : Except Fault Filter :=
  let type := query.type.bind typeOf?
  match query.name with
  | none => .ok ⟨none, type⟩
  | some glob => match Pattern.Glob.compile glob with
    | .ok pattern => .ok ⟨some pattern, type⟩
    | .error (.refused error) =>
      .error (.badPattern (error.message (Pattern.Glob.patternText glob)))
    | .error (.fault fault) => .error fault

/-- The place where a search starts, and the arguments behind it. -/
def startOf : List String → String × List String
  | [] => (".", [])
  | start :: rest => if start.startsWith "-" then (".", start :: rest) else (start, rest)

end Find

/-- Searches a directory tree. -/
def find (args : List String) : Job := do
  let (start, tests) := Find.startOf args
  match Find.Query.read ⟨none, none⟩ tests with
  | .error option => return .fail "find" s!"unknown predicate `{option}'"
  | .ok query =>
    match query.type.filter fun letter => (Find.typeOf? letter).isNone with
    | some letter => return .fail "find" s!"Unknown argument to -type: {letter}"
    | none => match ← Run.fs (Fs.stat (← Run.path start)) with
      | .error reason => return .fail "find" s!"'{start}': {reason.message}"
      | .ok inode =>
        let filter ← query.filter
        let volume := (← get).machine.volume
        let reports := Find.visit volume (← Run.user) filter volume.inodes.length start
          (Find.startName start) inode
        let found := reports.filterMap fun
          | .found path => some path
          | .closed _ => none
        let errors := reports.filterMap fun
          | .found _ => none
          | .closed path => some s!"find: '{path}': Permission denied"
        return .withErrors (Text.unlines found) errors 1

end PocketShell.Command
