import PocketShell.Clock
import PocketShell.Command.Basic

/-!
Commands for moving around and looking into directories. Changing the directory only answers with
the place to go to: whether the shell goes there is decided by who asked.
-/
namespace PocketShell.Command

open Shell

/-- Prints the working directory. -/
def pwd : Job := do return .text (← get).cwd

/-- The path that the argument of `cd` means: home without one, and the last directory for a
hyphen. -/
def destination : List String → Run Command String
  | [] => Run.home
  | "-" :: _ => do
    let workspace ← get
    return (workspace.env.get? "OLDPWD").getD workspace.cwd
  | arg :: _ => Run.path arg

/-- Answers with the absolute path of a directory that the user may enter. -/
def cd (args : List String) : Job := do
  if 1 < args.length then return .fail "cd" "too many arguments"
  let target ← destination args
  let refuse (reason : FsError) : Outcome := .fail "cd" s!"{target}: {reason.message}"
  match ← Run.fs (Fs.stat target) with
  | .error reason => return refuse reason
  | .ok inode =>
    if !inode.isDirectory then return refuse .notADirectory
    if !inode.permits (← Run.user) .execute then return refuse .permissionDenied
    return .text ((← get).machine.volume.pathOf inode.id)

/-- The letter in front of the mode that shows the type. -/
def typeLetter (inode : Inode) : String :=
  match inode.type with
  | .file => "-"
  | .directory => "d"
  | .symlink => "l"

/-- The type and the mode in letters. -/
def modeText (inode : Inode) : String := typeLetter inode ++ inode.mode.symbolic

/-- The number of names that lead to an inode: a directory is also named by itself and by the
directories in it. -/
def linkCount (inode : Inode) : Nat := if inode.isDirectory then 2 + inode.children.length else 1

/-- One line of a long listing. -/
def longEntry (name : String) (inode : Inode) : Except Fault String := do
  let stamp ← Moment.textOfNumber "%b %d %H:%M" inode.modified
  let size := Text.padLeft 5 (← showNumber inode.size)
  let line := s!"{modeText inode} {linkCount inode} {inode.owner} {inode.group} {size} {stamp} {name}"
  return if inode.isSymlink then s!"{line} -> {inode.target}" else line

/-- A heading and what stands below it, if anything does. -/
def headed (heading body : String) : String :=
  if body.isEmpty then heading else heading ++ "\n" ++ body

/-- How a listing looks. -/
structure ListStyle where
  long : Bool
  hidden : Bool
  heading : Bool

/-- The entries as a listing; a directory tells their number, and its path if asked for. -/
def listing (style : ListStyle) (path : String) (directory : Bool) (entries : List (String × Inode)) :
    Except Fault String := do
  let body ←
    if style.long then
      let body := Text.unlines (← entries.mapM fun (name, inode) => longEntry name inode)
      pure (if directory then headed s!"total {entries.length}" body else body)
    else pure ("  ".intercalate (entries.map (·.1)))
  return if style.heading && directory then headed s!"{path}:" body else body

/-- The entries of a directory that a listing shows. -/
def shownEntries (style : ListStyle) (volume : Volume) (directory : Inode) (children : List Inode) :
    List (String × Inode) :=
  let entries := children.map fun child => (child.name, child)
  if style.hidden then
    (".", directory) :: ("..", (volume.above? directory).getD directory) :: entries
  else entries.filter fun (name, _) => !name.startsWith "."

/-- Lists what a path leads to. -/
def listPath (style : ListStyle) (path : String) : Run Command (Except String String) := do
  let target ← Run.path path
  match ← Run.fs (Fs.stat target) with
  | .error reason => return .error s!"ls: cannot access '{path}': {reason.message}"
  | .ok inode =>
    if !inode.isDirectory then return .ok (← listing style path false [(path, inode)])
    match ← Run.fs (Fs.listChildren target) with
    | .error reason => return .error s!"ls: cannot open directory '{path}': {reason.message}"
    | .ok children =>
      let entries := shownEntries style (← get).machine.volume inode children
      return .ok (← listing style path true entries)

/-- Lists paths, or the working directory without any. -/
def ls (args : List String) : Job := do
  let flagged := splitFlags args
  let paths := if flagged.operands.isEmpty then ["."] else flagged.operands
  let several := 1 < paths.length
  let gathered ← gather (listPath ⟨flagged.has 'l', flagged.has 'a', several⟩) paths
  let output :=
    if several then "\n\n".intercalate (gathered.values.filter (!·.isEmpty))
    else gathered.values.headD ""
  return .withErrors output gathered.errors 2

end PocketShell.Command
