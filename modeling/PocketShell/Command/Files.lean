import PocketShell.Command.Navigation
import PocketShell.Fs.Attributes
import PocketShell.Fs.Remove
import PocketShell.Fs.Transfer
import PocketShell.Fs.Write

/-!
Commands that make, show, change and remove entries. One that takes several paths goes on after a
refusal and tells all of them in the end.
-/
namespace PocketShell.Command

open Shell

/-- Makes the directories of a path that are missing, one component after another onto `made`; the
first refusal ends it. -/
def makeParents (wording : FsError → String) (made : String) :
    List String → Run Command (Except String Unit)
  | [] => return .ok ()
  | component :: rest => do
    let next := if made.isEmpty then component else Path.join [made, component]
    let present := match ← Run.fs (Fs.stat next) with
      | .ok inode => inode.isDirectory
      | .error _ => false
    if present then makeParents wording next rest
    else match ← Run.fs (Fs.mkdir next none) with
      | .ok _ => makeParents wording next rest
      | .error reason => return .error (wording reason)

/-- Makes directories. -/
def mkdir (args : List String) : Job := do
  let flagged := splitFlags args
  if flagged.operands.isEmpty then return .fail "mkdir" "missing operand"
  each (fun path => do
    let target ← Run.path path
    let wording (reason : FsError) : String :=
      s!"mkdir: cannot create directory '{path}': {reason.message}"
    if flagged.has 'p' then
      let parsed := Path.parse target
      makeParents wording (if parsed.absolute then "/" else "") parsed.components
    else return (explain wording (← Run.fs (Fs.mkdir target none))).map fun _ => ()) flagged.operands

/-- Makes empty files, or sets the time of the last change. -/
def touch (args : List String) : Job := do
  if args.isEmpty then return .fail "touch" "missing file operand"
  each (fun path => do
    let result ← Run.fs (Fs.touch (← Run.path path))
    return (explain (fun reason => s!"touch: cannot touch '{path}': {reason.message}") result).map
      fun _ => ()) args

/-- Prints files, or the standard input. -/
def cat (args : List String) (stdin : Option String) : Job := do
  if args.isEmpty then return .text (stdin.getD "")
  let gathered ← gather (fun path => do
    return explain (fun reason => s!"cat: {path}: {reason.message}") (← readArg stdin path)) args
  return .withErrors (Text.unlines gathered.values) gathered.errors 1

/-- A letter for going down into directories is given. -/
def isRecursive (flagged : Flagged) : Bool := flagged.has 'r' || flagged.has 'R'

/-- Removes entries. -/
def rm (args : List String) : Job := do
  let flagged := splitFlags args
  let recursive := isRecursive flagged
  let force := flagged.has 'f'
  if flagged.operands.isEmpty then
    return if force then .silent else .fail "rm" "missing operand"
  each (fun path => do
    match ← Run.fs (Fs.rm (← Run.path path) recursive) with
    | .ok _ => return .ok ()
    | .error reason =>
      if force && reason = .notFound then return .ok ()
      let told := if reason = .directoryNotEmpty && !recursive then .isADirectory else reason
      return .error s!"rm: cannot remove '{path}': {told.message}") flagged.operands

/-- The operands of a command that moves or copies: the sources and where they go. -/
def sourcesAndGoal (command : String) (operands : List String) :
    Except Outcome (List String × String) :=
  match operands.reverse with
  | [] => .error (.fail command "missing file operand")
  | [_] => .error (.fail command "missing destination file operand")
  | goal :: sources => .ok (sources.reverse, goal)

/-- Copies entries. -/
def cp (args : List String) : Job := do
  let flagged := splitFlags args
  match sourcesAndGoal "cp" flagged.operands with
  | .error failure => return failure
  | .ok (sources, goal) =>
    let goal ← Run.path goal
    each (fun source => do
      let wording (reason : FsError) : String :=
        if reason = .omittingDirectory then s!"cp: -r not specified; omitting directory '{source}'"
        else s!"cp: cannot copy '{source}': {reason.message}"
      let result ← Run.fs (Fs.cp (← Run.path source) goal (isRecursive flagged))
      return (explain wording result).map fun _ => ()) sources

/-- Moves or renames entries. -/
def mv (args : List String) : Job := do
  match sourcesAndGoal "mv" (splitFlags args).operands with
  | .error failure => return failure
  | .ok (sources, goal) =>
    let target ← Run.path goal
    each (fun source => do
      let wording (reason : FsError) : String :=
        s!"mv: cannot move '{source}' to '{goal}': {reason.message}"
      let result ← Run.fs (Fs.mv (← Run.path source) target)
      return (explain wording result).map fun _ => ()) sources

/-- Makes a symbolic link. -/
def ln (args : List String) : Job := do
  let flagged := splitFlags args
  if !flagged.has 's' then return .fail "ln" "hard links are not supported; use -s"
  match flagged.operands with
  | [target, link] =>
    match ← Run.fs (Fs.ln target (← Run.path link)) with
    | .ok _ => return .silent
    | .error reason =>
      return .fail "ln" s!"failed to create symbolic link '{link}': {reason.message}"
  | _ => return .fail "ln" "usage: ln -s TARGET LINK_NAME"

/-- Sets the mode of each path; a mode that is none ends it at once. -/
def chmodEach (mode : String) (errors : List String) : List String → Job
  | [] => return .withErrors "" errors.reverse 1
  | path :: rest => do
    match ← Run.fs (Fs.chmod (← Run.path path) mode) with
    | .ok _ => chmodEach mode errors rest
    | .error reason =>
      if reason = .invalidMode then return .fail "chmod" s!"{reason.message}: '{mode}'"
      chmodEach mode
        (s!"chmod: changing permissions of '{path}': {reason.message}" :: errors) rest

/-- Sets modes. -/
def chmod : List String → Job
  | mode :: path :: rest => chmodEach mode [] (path :: rest)
  | _ => return .fail "chmod" "missing operand"

/-- The owner and the group in front of and behind the first colon. -/
def ownerAndGroup (text : String) : String × Option String :=
  match Text.cutAt ':' text.toList with
  | none => (text, none)
  | some (owner, group) =>
    (String.ofList owner, if group.isEmpty then none else some (String.ofList group))

/-- Sets owners. -/
def chown : List String → Job
  | names :: path :: rest => do
    let (owner, group) := ownerAndGroup names
    each (fun path => do
      let result ← Run.fs (Fs.chown (← Run.path path) owner group)
      return (explain
        (fun reason => s!"chown: changing ownership of '{path}': {reason.message}") result).map
          fun _ => ()) (path :: rest)
  | _ => return .fail "chown" "missing operand"

/-- Shows or sets the mask for new modes. -/
def umask : List String → Job
  | [] => do return .text (← get).machine.volume.umask.octal4
  | mask :: _ => do
    let workspace ← get
    let (accepted, machine) := workspace.machine.setUmask mask
    set { workspace with machine }
    return if accepted then .silent else .fail "umask" s!"{mask}: octal number out of range"

/-- The type of an inode in words. -/
def typeText (inode : Inode) : String :=
  match inode.type with
  | .file => "regular file"
  | .directory => "directory"
  | .symlink => "symbolic link"

/-- What is known about an inode, on six lines. -/
def statusText (path : String) (inode : Inode) : Except Fault String := do
  let name := if inode.isSymlink then s!"{path} -> {inode.target}" else path
  let size ← showNumber inode.size
  let modified ← Moment.textOfNumber "%Y-%m-%d %H:%M:%S" inode.modified
  let created ← Moment.textOfNumber "%Y-%m-%d %H:%M:%S" inode.created
  return Text.unlines [
    s!"  File: {name}",
    s!"  Size: {size}\tType: {typeText inode}",
    s!" Inode: {inode.id}",
    s!"Access: ({inode.mode.octal4}/{modeText inode})  Uid: {inode.owner}  Gid: {inode.group}",
    s!"Modify: {modified}",
    s!" Birth: {created}"]

/-- Shows the status of entries. -/
def stat (args : List String) : Job := do
  if args.isEmpty then return .fail "stat" "missing operand"
  let gathered ← gather (fun path => do
    match ← Run.fs (Fs.lstat (← Run.path path)) with
    | .error reason => return .error s!"stat: cannot stat '{path}': {reason.message}"
    | .ok inode => return .ok (← statusText path inode)) args
  return .withErrors (Text.unlines gathered.values) gathered.errors 1

/-- What an inode seems to hold. -/
def kindOf (inode : Inode) : String :=
  match inode.payload with
  | .directory _ => "directory"
  | .symlink target => s!"symbolic link to {target}"
  | .file content =>
    if content.isEmpty then "empty"
    else if content.startsWith "#!" then "script, ASCII text executable"
    else "ASCII text"

/-- Tells what entries seem to hold. -/
def file (args : List String) : Job := do
  if args.isEmpty then return .fail "file" "missing operand"
  return .text (Text.unlines (← args.mapM fun path => do
    match ← Run.fs (Fs.lstat (← Run.path path)) with
    | .error reason => return s!"{path}: cannot open ({reason.message})"
    | .ok inode => return s!"{path}: {kindOf inode}"))

end PocketShell.Command
