import PocketShell.Fs.Remove

/-!
Copying and moving. A destination that is a directory receives the source under its own name; any
other destination is the new entry's path.
-/
namespace PocketShell.Fs

/-- The directory and the name for the source at a destination. -/
def destination (path : String) (source : Inode) : Fs (Inode × String) := do
  match (← volume).lookup (← read) true path with
  | .ok existing =>
    if existing.isDirectory then return (existing, source.name) else lookupParent path
  | .error (.refused .notFound) => lookupParent path
  | .error failure => fail failure

/-- A new entry with what an inode holds, down to a number of levels. Directories are copied before
their entries. A tree has fewer levels than inodes, so one that goes deeper lies in itself. -/
def copyTree : (levels : Nat) → (source parent : Inode) → (name : String) → Fs Inode
  | 0, _, _, _ => throw .endless
  | levels + 1, source, parent, name => do
    let payload := match source.payload with
      | .directory _ => .directory []
      | other => other
    let copy ← attach parent name source.mode source.size payload
    source.children.forM fun id => do
      let child ← (← volume).inode id
      let target ← (← volume).inode copy.id
      discard <| copyTree levels child target child.name
    return copy

/-- Checks that the actor may read an inode and all below it. -/
def demandReadable (path : String) (source : Inode) : Fs Unit := do
  (← (← volume).walk source).forM fun (_, node) => do
    demand node .read path "read"
    if node.isDirectory then demand node .execute path "read"

/-- Copies a file, or with `recursive` also a directory and all in it. The copy has new ids and
belongs to who made it. A file copied onto a file only replaces its content. -/
def cp (source dest : String) (recursive : Bool) : Fs Inode := do
  let inode ← lookup true source
  if inode.isDirectory && !recursive then refuse .omittingDirectory
  demandReadable source inode
  let (parent, name) ← destination dest inode
  match (← volume).childNamed? parent name with
  | some existing =>
    if existing.id = inode.id then refuse .fileExists
    if inode.isFile && existing.isFile then
      demand existing .write dest "write"
      let written := existing.setContent (← get).now inode.content
      put written
      return written
    if existing.isDirectory then refuse .isADirectory
    refuse .fileExists
  | none =>
    demand parent .write dest "write"
    let volume ← volume
    if inode.isDirectory && volume.isWithin parent inode then refuse .selfCopy
    let copy ← copyTree volume.inodes.length inode parent name
    note "Copied" [("src", .string source), ("dest", .string dest), ("id", .string copy.id)]
    (← Fs.volume).inode copy.id

/-- Moves or renames an entry. It keeps its id, and the name must be free at the destination. -/
def mv (source dest : String) : Fs Inode := do
  let inode ← lookup false source
  if inode.id = (← volume).rootId then refuse .selfMove
  let (parent, name) ← destination dest inode
  let before ← volume
  if (before.childNamed? parent name).isSome then refuse .fileExists
  if inode.isDirectory && before.isWithin parent inode then refuse .selfMove
  let oldParent ← before.parentOf inode
  demandUnlink oldParent inode
  demand parent .write dest "write"
  let now := (← get).now
  match oldParent.removeChild now inode.id with
  | none => throw .childless
  | some oldParent =>
    put oldParent
    match (← (← volume).inode parent.id).addChild now inode.id with
    | none => throw .childless
    | some parent =>
      put parent
      let moved := { inode with name, parent := some parent.id, modified := now }
      put moved
      note "Moved" [("src", .string source), ("dest", .string dest), ("id", .string inode.id)]
      return moved

end PocketShell.Fs
