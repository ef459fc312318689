import PocketShell.Fs.Machine

/-!
Operations that make entries and write to files. The name of a new entry must be free and the
directory writable; the entry belongs to who made it. To write to a path that leads nowhere makes
the file, unless it ends in a slash: such a path only ever names a directory.
-/
namespace PocketShell.Fs

/-! ## New entries -/

/-- The directory for a new entry and the entry's name, which must be free there. -/
def claimName (path : String) : Fs (Inode × String) := do
  let (parent, name) ← lookupParent path
  if ((← volume).childNamed? parent name).isSome then refuse .fileExists
  demand parent .write path "write"
  return (parent, name)

/-- The mode of a new directory: as written, or the usual one less the mask. -/
def directoryMode (written : Option String) : Fs Mode := do
  match written with
  | none => return Mode.newDirectory.less (← volume).umask
  | some text => match Mode.parse? true text with
    | some mode => return mode
    | none => refuse .invalidMode

/-- Makes a directory. -/
def mkdir (path : String) (mode : Option String) : Fs Inode := do
  let (parent, name) ← claimName path
  let inode ← attach parent name (← directoryMode mode) 0 (.directory [])
  note "Created directory" [("path", .string path), ("id", .string inode.id)]
  return inode

/-- Makes an empty file, or sets the time of the last change of the entry that is there. -/
def touch (path : String) : Fs Inode := do
  let (parent, name) ← lookupParent path
  match (← volume).childNamed? parent name with
  | some existing =>
    let touched := existing.touch (← get).now
    put touched
    return touched
  | none =>
    demand parent .write path "write"
    let inode ← attach parent name (Mode.newFile.less (← volume).umask) 0 (.file "")
    note "Created file" [("path", .string path), ("id", .string inode.id)]
    return inode

/-- Makes a symbolic link. Its target is kept as written and need not exist. -/
def ln (target path : String) : Fs Inode := do
  let (parent, name) ← claimName path
  let inode ← attach parent name Mode.link (byteSize target) (.symlink target)
  note "Created symlink" [("path", .string path), ("target", .string target)]
  return inode

/-! ## Contents -/

/-- The inode behind a path, made as an empty file if there is none. -/
def findOrCreate (path : String) : Fs Inode := do
  match (← volume).lookup (← read) true path with
  | .ok inode => return inode
  | .error (.refused .notFound) =>
    if Path.endsInSlash path then refuse .isADirectory
    touch path
  | .error failure => fail failure

/-- Refuses unless an inode is a file that the actor may write to. -/
def demandFile (path : String) (inode : Inode) : Fs Unit := do
  if inode.isDirectory then refuse .isADirectory
  if Path.endsInSlash path then refuse .notADirectory
  if inode.isSymlink then refuse .isASymlink
  demand inode .write path "write"

/-- The file to write to. -/
def openForWrite (path : String) : Fs Inode := do
  let inode ← findOrCreate path
  demandFile path inode
  return inode

/-- Gives a file the content that a rule makes of the file. -/
def rewrite (path : String) (rule : Inode → String) : Fs Inode := do
  let inode ← openForWrite path
  let written := inode.setContent (← get).now (rule inode)
  put written
  return written

/-- Replaces the content of a file. -/
def writeText (path content : String) : Fs Inode := rewrite path fun _ => content

/-- Puts more text at the end of a file, with nothing in between. -/
def appendText (path content : String) : Fs Inode :=
  rewrite path fun inode => inode.content ++ content

end PocketShell.Fs
