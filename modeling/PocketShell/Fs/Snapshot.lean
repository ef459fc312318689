import PocketShell.Fs.Machine
import PocketShell.Json.Reader

/-!
Snapshots: a table of inodes with the id of its root, apart from any live filesystem. A table is
accepted when it is a tree: the root is a directory that no directory lists, every entry exists,
every other inode is listed once and can be reached from the root, and names within a directory
differ. Accepting it sets the back-references to parents, whatever they were.
-/
namespace PocketShell

/-- Why a snapshot is refused. -/
inductive Corruption
  | unknownName (name : String)
  | invalidText
  | notAnObject
  | incomplete
  | recordNotAnObject
  | malformedRecord (fault : Fault)
  | foreignKey
  | rootMissing
  | rootNotADirectory
  | danglingChild (reference : String)
  | rootListed
  | listedTwice
  | duplicateName (name : String)
  | unreachable
  deriving Repr, DecidableEq

/-- The wording of a refusal. -/
def Corruption.message : Corruption → String
  | .unknownName name => s!"unknown snapshot {Text.quoted name}"
  | .invalidText => "invalid JSON"
  | .notAnObject => "snapshot must be an object"
  | .incomplete => "rootId and inodes are required"
  | .recordNotAnObject => "inode record must be an object"
  | .malformedRecord fault =>
    if fault.message.isEmpty then "malformed inode" else s!"malformed inode ({fault.message})"
  | .foreignKey => "inode id does not match its key"
  | .rootMissing => "root inode missing"
  | .rootNotADirectory => "root inode is not a directory"
  | .danglingChild reference => s!"dangling child {reference}"
  | .rootListed => "root inode has a parent"
  | .listedTwice => "inode has more than one parent"
  | .duplicateName name => s!"duplicate name {Text.quoted name}"
  | .unreachable => "inode is not reachable from the root"

/-- How taking up a snapshot fails: the snapshot is refused, with the inode at fault if one is
known, or its data cannot be handled at all. -/
inductive SnapshotFailure
  | corrupt (cause : Corruption) (inode : Option String)
  | fault (fault : Fault)
  deriving Repr, DecidableEq

/-- A table of inodes and the id of its root. -/
structure Snapshot where
  rootId : String
  inodes : List Inode
  deriving Repr

namespace Snapshot

/-- The snapshot of a volume. -/
def ofVolume (volume : Volume) : Snapshot := ⟨volume.rootId, volume.inodes⟩

/-- The snapshot with copies of its inodes. -/
def copy (snapshot : Snapshot) : Snapshot :=
  { snapshot with inodes := snapshot.inodes.map Record.copy }

/-- The id that a reference of a decoded directory names. No other value can be an id; a list or an
object cannot even be looked up. -/
def referencedId : Json → Except SnapshotFailure (Except String String)
  | .string id => .ok (.ok id)
  | .array _ => .error (.fault .badType)
  | .object _ => .error (.fault .badType)
  | other => .ok (.error other.plain)

/-- What is known while directories are checked: who lists which inode, and the names that the
directory at hand has so far. -/
structure Listing where
  parents : List (String × String)
  names : List String

/-- Checks one entry of a directory. -/
def checkEntry {ρ : Type} (rootId : String) (table : List (Record ρ))
    (idOf : ρ → Except SnapshotFailure (Except String String)) (directory : String)
    (listing : Listing) (reference : ρ) : Except SnapshotFailure Listing := do
  match ← idOf reference with
  | .error shown => throw (.corrupt (.danglingChild shown) directory)
  | .ok id => match table.find? (·.id == id) with
    | none => throw (.corrupt (.danglingChild id) directory)
    | some child =>
      if id = rootId then throw (.corrupt .rootListed directory)
      if (listing.parents.lookup id).isSome then throw (.corrupt .listedTwice id)
      if listing.names.contains child.name then
        throw (.corrupt (.duplicateName child.name) directory)
      return ⟨listing.parents ++ [(id, directory)], child.name :: listing.names⟩

/-- Checks the entries of every directory; the result tells who lists which inode. -/
def checkEntries {ρ : Type} (rootId : String) (table : List (Record ρ))
    (idOf : ρ → Except SnapshotFailure (Except String String)) :
    Except SnapshotFailure (List (String × String)) :=
  table.foldlM (fun parents inode => do
    let listing ← inode.children.foldlM (checkEntry rootId table idOf inode.id) ⟨parents, []⟩
    return listing.parents) []

/-- The entries that a directory lists. -/
def entriesOf (parents : List (String × String)) (directory : String) : List String :=
  (parents.filter fun (_, parent) => parent == directory).map fun (child, _) => child

/-- The ids reached from those still to be visited; each step visits one. -/
def reach (parents : List (String × String)) : (steps : Nat) → (open_ seen : List String) →
    List String
  | 0, _, seen => seen
  | _, [], seen => seen
  | steps + 1, id :: rest, seen =>
    let fresh := (entriesOf parents id).filter fun child => !seen.contains child
    reach parents steps (fresh ++ rest) (seen ++ fresh)

/-- An inode of an accepted table: entries by id, and the parent set. -/
def adopt {ρ : Type} (parents : List (String × String)) (record : Record ρ) : Inode :=
  { record with
    payload := match record.payload with
      | .file content => .file content
      | .directory _ => .directory (entriesOf parents record.id)
      | .symlink target => .symlink target
    parent := parents.lookup record.id }

/-- Accepts a table that is a tree. -/
def validate {ρ : Type} (idOf : ρ → Except SnapshotFailure (Except String String))
    (rootId : String) (table : List (Record ρ)) : Except SnapshotFailure Snapshot := do
  match table.find? (·.id == rootId) with
  | none => throw (.corrupt .rootMissing rootId)
  | some root =>
    if !root.isDirectory then throw (.corrupt .rootNotADirectory rootId)
    let parents ← checkEntries rootId table idOf
    let reached := reach parents (table.length + 1) [rootId] [rootId]
    match table.find? fun inode => !reached.contains inode.id with
    | some orphan => throw (.corrupt .unreachable orphan.id)
    | none => return ⟨rootId, table.map (adopt parents)⟩

/-- Accepts a snapshot whose directories name their entries by id. -/
def check (snapshot : Snapshot) : Except SnapshotFailure Snapshot :=
  validate (fun id => .ok (.ok id)) snapshot.rootId snapshot.inodes

/-- Decodes one record under its key. Data of the wrong form is refused; a number without a
representation is not. -/
def recordOfJson (now : Binary64) (key : String) (data : Json) :
    Except SnapshotFailure (Record Json) :=
  match data with
  | .object _ => match Record.ofJson now data with
    | .ok record =>
      if record.id = key then .ok record else .error (.corrupt .foreignKey key)
    | .error (.overflow reason) => .error (.fault (.overflow reason))
    | .error fault => .error (.corrupt (.malformedRecord fault) key)
  | _ => .error (.corrupt .recordNotAnObject key)

/-- Decodes a snapshot. -/
def ofJson (now : Binary64) (data : Json) : Except SnapshotFailure Snapshot := do
  match data with
  | .object members => match members.lookup "rootId", members.lookup "inodes" with
    | some (.string rootId), some (.object records) =>
      let table ← records.mapM fun (key, record) => recordOfJson now key record
      validate referencedId rootId table
    | _, _ => throw (.corrupt .incomplete none)
  | _ => throw (.corrupt .notAnObject none)

/-- Reads a snapshot from its text. -/
def ofText (now : Binary64) (text : String) : Except SnapshotFailure Snapshot :=
  match Json.read text with
  | .ok data => ofJson now data
  | .error error => match error.fault? with
    | some fault => .error (.fault fault)
    | none => .error (.corrupt .invalidText none)

/-- The snapshot as structured data. -/
def toJson (snapshot : Snapshot) : Json :=
  .object [("rootId", .string snapshot.rootId),
    ("inodes", .object (snapshot.inodes.map fun inode => (inode.id, inode.toJson .string)))]

/-- The text of the snapshot. -/
def toText (snapshot : Snapshot) : String := snapshot.toJson.write

end Snapshot

/-- The machine with the inodes of a snapshot; the mask for new modes stays. -/
def Machine.adopt (snapshot : Snapshot) (machine : Machine) : Machine :=
  { machine with volume := ⟨snapshot.inodes, snapshot.rootId, machine.volume.umask⟩ }

/-- Loads a copy of a snapshot into the machine, if it is a tree. -/
def Machine.load (snapshot : Snapshot) (machine : Machine) : Except SnapshotFailure Machine := do
  let accepted ← snapshot.copy.check
  return (machine.adopt accepted).report (.of .info fsSubsystem "Loaded snapshot"
    [("root", .string accepted.rootId), ("inodes", .int accepted.inodes.length)])

/-- The text of the machine's inodes. -/
def Machine.serialize (machine : Machine) : String := (Snapshot.ofVolume machine.volume).toText

/-- Replaces the inodes of the machine by those read from a text. -/
def Machine.deserialize (text : String) (machine : Machine) : Except SnapshotFailure Machine := do
  return machine.adopt (← Snapshot.ofText machine.now text)

end PocketShell
