import PocketShell.Fs.Path
import PocketShell.Fs.Record

/-!
Volumes: the table of inodes in the order of their creation, the id of the root and the mask for
new modes. Lookups here read the table; nothing here checks permissions. In a table that is a tree
every chain of parents and every nesting of directories is shorter than the table, so its length
bounds both.
-/
namespace PocketShell

/-- A filesystem at one moment. -/
structure Volume where
  inodes : List Inode
  rootId : String
  umask : Mode
  deriving Repr

namespace Volume

/-- The inode with an id. -/
def inode? (volume : Volume) (id : String) : Option Inode := volume.inodes.find? (·.id == id)

/-- The inode with an id that the table should hold. -/
def inode (volume : Volume) (id : String) : Except FsFailure Inode :=
  match volume.inode? id with
  | some inode => .ok inode
  | none => .error (.missing id)

/-- The root directory. -/
def root (volume : Volume) : Except FsFailure Inode := volume.inode volume.rootId

/-- The entry of a directory by name. -/
def childNamed? (volume : Volume) (directory : Inode) (name : String) : Option Inode :=
  directory.children.findSome? fun id => (volume.inode? id).filter (·.name == name)

/-- The directory that holds an inode; the root holds itself. -/
def parentOf (volume : Volume) (inode : Inode) : Except FsFailure Inode :=
  match inode.parent with
  | none => volume.root
  | some id => volume.inode id

/-- The next inode on the way up. The root has none. -/
def above? (volume : Volume) (inode : Inode) : Option Inode :=
  match inode.parent with
  | none => none
  | some id => if id.isEmpty then none else volume.inode? id

/-- At most `limit` steps of the way up from an inode, itself first. -/
def climb (volume : Volume) : (limit : Nat) → Inode → List Inode
  | 0, inode => [inode]
  | limit + 1, inode =>
    match volume.above? inode with
    | none => [inode]
    | some next => inode :: volume.climb limit next

/-- The inode and the directories around it, the nearest first. -/
def lineage (volume : Volume) (inode : Inode) : List Inode :=
  volume.climb volume.inodes.length inode

/-- The inode is another one or lies below it. -/
def isWithin (volume : Volume) (inode ancestor : Inode) : Bool :=
  (volume.lineage inode).any (·.id == ancestor.id)

/-- The absolute path of an inode; empty when its lineage does not lead to the root. -/
def pathOf (volume : Volume) (id : String) : String :=
  match volume.inode? id with
  | none => ""
  | some inode =>
    let lineage := volume.lineage inode
    if lineage.any (·.id == volume.rootId) then
      Path.toText ⟨true, ((lineage.takeWhile (·.id != volume.rootId)).map (·.name)).reverse⟩
    else ""

/-- An inode and all below it with their paths, down to a number of levels: a directory comes before
its entries, and these come in their order. -/
def walkWithin (volume : Volume) : (levels : Nat) → String → Inode →
    Except FsFailure (List (String × Inode))
  | 0, path, node => .ok [(path, node)]
  | levels + 1, path, node => do
    let below ← node.children.mapM fun id => do
      let child ← volume.inode id
      volume.walkWithin levels (Path.child path child.name) child
    return (path, node) :: below.flatten

/-- An inode and all below it with their paths. -/
def walk (volume : Volume) (inode : Inode) : Except FsFailure (List (String × Inode)) :=
  volume.walkWithin volume.inodes.length (volume.pathOf inode.id) inode

/-- The table with an inode in the place of the one with its id, or at the end without one. -/
def put (inode : Inode) (volume : Volume) : Volume :=
  let inodes := if (volume.inode? inode.id).isSome then
      volume.inodes.map fun old => if old.id = inode.id then inode else old
    else volume.inodes ++ [inode]
  { volume with inodes }

/-- The table without the inodes of some ids. -/
def eraseAll (ids : List String) (volume : Volume) : Volume :=
  { volume with inodes := volume.inodes.filter fun inode => !ids.contains inode.id }

/-- What a volume holds, in numbers. -/
structure Stats where
  inodes : Nat
  files : Nat
  directories : Nat
  symlinks : Nat
  totalSize : Int
  deriving Repr, DecidableEq

/-- Counts what the volume holds. -/
def stats (volume : Volume) : Stats where
  inodes := volume.inodes.length
  files := volume.inodes.countP (·.isFile)
  directories := volume.inodes.countP (·.isDirectory)
  symlinks := volume.inodes.countP (·.isSymlink)
  totalSize := (volume.inodes.filter (·.isFile)).foldl (fun total inode => total + inode.size) 0

end Volume

end PocketShell
