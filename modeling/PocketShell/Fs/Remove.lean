import PocketShell.Fs.Machine

/-!
Removal. Nothing is removed unless all of it may be.
-/
namespace PocketShell.Fs

/-- Checks that the actor may take an entry out of a directory. In a sticky directory only the
owners of the entry and of the directory may. -/
def demandUnlink (parent entry : Inode) : Fs Unit := do
  let user := (← read).user
  if user = rootUser then return
  if parent.mode.sticky && user != entry.owner && user != parent.owner then refuse .notPermitted
  if !parent.permits user .write || !parent.permits user .execute then
    deny ((← volume).pathOf entry.id) "write"

/-- Checks that the actor may take every entry out of a directory. -/
def demandUnlinkAll (directory : Inode) : Fs Unit :=
  directory.children.forM fun id => do
    let child ← (← volume).inode id
    demandUnlink directory child

/-- Removes an entry; a directory that is not empty only with `recursive`. A link is removed itself,
not what it leads to. -/
def rm (path : String) (recursive : Bool) : Fs Unit := do
  let inode ← lookup false path
  let before ← volume
  if inode.id = before.rootId then refuse .rootRemoval
  if !inode.children.isEmpty && !recursive then refuse .directoryNotEmpty
  let parent ← before.parentOf inode
  demandUnlink parent inode
  let subtree ← before.walk inode
  subtree.forM fun (_, node) => demandUnlinkAll node
  match parent.removeChild (← get).now inode.id with
  | none => throw .childless
  | some parent =>
    modify fun machine =>
      { machine with
        volume := (machine.volume.eraseAll (subtree.map fun (_, node) => node.id)).put parent }
    note "Removed"
      [("path", .string path), ("id", .string inode.id), ("count", .int subtree.length)]

end PocketShell.Fs
