import PocketShell.Fs.Machine

/-!
Operations that only look.
-/
namespace PocketShell.Fs

/-- The inode a path leads to. -/
def stat (path : String) : Fs Inode := lookup true path

/-- The inode a path leads to; a link at its end is not followed. -/
def lstat (path : String) : Fs Inode := lookup false path

/-- Resolves a path from the inode with an id, or from the root, at a depth of links. -/
def resolve (follow : Bool) (depth : Int) (start : Option String) (path : String) : Fs Inode := do
  answer ((← volume).resolve (← read).user follow depth start path)

/-- The entries of a directory in their order. -/
def listChildren (path : String) : Fs (List Inode) := do
  let directory ← lookup true path
  if !directory.isDirectory then refuse .notADirectory
  demand directory .read path "read"
  return directory.children.filterMap (← volume).inode?

/-- The content of a file. -/
def readText (path : String) : Fs String := do
  let inode ← lookup true path
  match inode.payload with
  | .directory _ => refuse .isADirectory
  | .symlink _ => refuse .isASymlink
  | .file content =>
    demand inode .read path "read"
    return content

/-- What an inode and all below it are, with their paths. -/
def walk (inode : Inode) : Fs (List (String × Inode)) := do
  (← volume).walk inode

end PocketShell.Fs
