import PocketShell.Fs.Attributes
import PocketShell.Fs.Snapshot

/-!
Stock layouts: the filesystems that can be made fresh by name.
-/
namespace PocketShell

/-- An entry of a layout. Its directory comes before it; without content it is a directory. -/
structure LayoutEntry where
  path : String
  mode : Mode
  owner : String
  content : Option String
  deriving Repr

/-- A layout: entries below a root directory. -/
abbrev Layout := List LayoutEntry

namespace Layout

/-- A directory of root's that all may read. -/
def shared (path : String) : LayoutEntry := ⟨path, Mode.newDirectory, rootUser, none⟩

/-- A directory of a user's. -/
def owned (owner path : String) : LayoutEntry := ⟨path, Mode.newDirectory, owner, none⟩

/-- A file of root's that all may read. -/
def document (path : String) (lines : List String) : LayoutEntry :=
  ⟨path, Mode.newFile, rootUser, some ("\n".intercalate lines)⟩

/-- The usual layout. -/
def standard : Layout := [
  shared "/bin",
  shared "/etc",
  document "/etc/hostname" ["the-terminal"],
  document "/etc/passwd"
    ["root:x:0:0:root:/root:/bin/bash", "guest:x:1000:1000:Guest:/home/guest:/bin/bash"],
  document "/etc/group" ["root:x:0:", "users:x:100:", "guest:x:1000:"],
  shared "/home",
  owned "guest" "/home/guest",
  ⟨"/root", 0o700#12, rootUser, none⟩,
  ⟨"/tmp", 0o1777#12, rootUser, none⟩,
  shared "/var",
  shared "/var/log",
  document "/var/log/syslog"
    ["Feb 28 10:00:01 the-terminal systemd[1]: Started The Terminal.",
      "Feb 28 10:00:02 the-terminal kernel: Linux version 6.1.0"],
  ⟨"/proc", 0o555#12, rootUser, none⟩,
  shared "/usr",
  shared "/usr/bin",
  shared "/usr/local"]

/-- The layout for work on shared machines. -/
def cluster : Layout := [
  shared "/home",
  owned "guest" "/home/guest",
  owned "guest" "/home/guest/work",
  owned "guest" "/home/guest/data",
  shared "/shared",
  shared "/etc"]

/-- The layouts by name. -/
def named? : String → Option Layout
  | "default" => some standard
  | "hpc-base" => some cluster
  | _ => none

/-- The inode of an entry. -/
def inodeOf (entry : LayoutEntry) (now : Binary64) (id parent : String) : Inode :=
  let name := (Path.splitParent entry.path).2
  let payload := match entry.content with
    | some content => Payload.file content
    | none => Payload.directory []
  { id, name, mode := entry.mode, owner := entry.owner, group := entry.owner,
    size := byteSize (entry.content.getD ""), created := now, modified := now, payload,
    parent := some parent }

/-- The volume with an entry below the directory that holds it. -/
def plant (now : Binary64) (volume : Volume) (entry : LayoutEntry) (id : String) : Volume :=
  let directory := (Path.splitParent entry.path).1
  match volume.inodes.find? fun inode => volume.pathOf inode.id == directory with
  | none => volume
  | some parent => match parent.addChild now id with
    | none => volume
    | some filled => (volume.put filled).put (inodeOf entry now id parent.id)

/-- The root of a fresh filesystem. -/
def freshRoot (now : Binary64) (id : String) : Inode :=
  { id, name := "/", mode := Mode.newDirectory, owner := rootUser, group := rootUser, size := 0,
    created := now, modified := now, payload := .directory [], parent := none }

/-- A fresh filesystem: its inodes are numbered from `first` in the order of the entries. -/
def build (layout : Layout) (now : Binary64) (first : Nat) : Snapshot :=
  let rootId := inodeId first
  let empty : Volume := ⟨[freshRoot now rootId], rootId, 0⟩
  let volume := (layout.zipIdx (first + 1)).foldl
    (fun volume (entry, n) => plant now volume entry (inodeId n)) empty
  .ofVolume volume

end Layout

/-- Builds a layout with the machine's clock and the next ids. -/
def Machine.build (layout : Layout) (machine : Machine) : Snapshot × Machine :=
  (layout.build machine.now machine.nextId,
    { machine with nextId := machine.nextId + 1 + layout.length })

/-- Loads a stock layout by its name. The ids of a layout are used up even if it is refused. -/
def Machine.loadNamed (name : String) (machine : Machine) : Except SnapshotFailure Machine :=
  match Layout.named? name with
  | none => .error (.corrupt (.unknownName name) none)
  | some layout =>
    let (snapshot, machine) := machine.build layout
    machine.load snapshot

/-- What a machine starts from. -/
inductive Origin
  | layout (layout : Layout)
  | named (name : String)
  | snapshot (snapshot : Snapshot)

/-- The mask for new modes before any is set. -/
def Machine.initialUmask : Mode := 0o022#12

/-- A new machine. A mask that is no mode is reported and the initial one kept. -/
def Machine.start (origin : Origin) (umask : Json) (now : Binary64) (nextId : Nat) (log : Log) :
    Except SnapshotFailure Machine :=
  let machine : Machine := ⟨⟨[], "", Machine.initialUmask⟩, now, nextId, log⟩
  let (accepted, machine) := machine.setUmask (umask.string?.getD "")
  let machine := if accepted then machine
    else machine.report (.of .warning fsSubsystem "Ignoring invalid umask" [("umask", umask)])
  match origin with
  | .layout layout =>
    let (snapshot, machine) := machine.build layout
    .ok (machine.adopt snapshot)
  | .named name => machine.loadNamed name
  | .snapshot snapshot => machine.load snapshot

end PocketShell
