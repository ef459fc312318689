import PocketShell.Fs.Error
import PocketShell.Fs.Mode

/-!
Inodes. A record holds what is known about one file, directory or symbolic link. It is generic in
the references by which a directory names its entries: a record just decoded may name them by
anything, an `Inode` of a filesystem names them by id.
-/
namespace PocketShell

/-- The user who is refused nothing. -/
def rootUser : String := "root"

/-- What an inode holds, by its type. -/
inductive Payload (ρ : Type)
  | file (content : String)
  | directory (children : List ρ)
  | symlink (target : String)
  deriving Repr, BEq, DecidableEq

/-- The types of inodes. -/
inductive FileType
  | file
  | directory
  | symlink
  deriving Repr, DecidableEq

/-- The name of a type in snapshots. -/
def FileType.name : FileType → String
  | .file => "file"
  | .directory => "directory"
  | .symlink => "symlink"

/-- The type of a given name. -/
def FileType.ofName? : String → Option FileType
  | "file" => some .file
  | "directory" => some .directory
  | "symlink" => some .symlink
  | _ => none

/-- The type of a payload. -/
def Payload.type {ρ : Type} : Payload ρ → FileType
  | .file _ => .file
  | .directory _ => .directory
  | .symlink _ => .symlink

/-- One inode. The parent is a back-reference; it is never written to a snapshot. -/
structure Record (ρ : Type) where
  id : String
  name : String
  mode : Mode
  owner : String
  group : String
  size : Int
  created : Binary64
  modified : Binary64
  payload : Payload ρ
  parent : Option String
  deriving Repr, BEq, DecidableEq

/-- An inode of a filesystem. -/
abbrev Inode := Record String

/-- The bytes a text takes. -/
def byteSize (s : String) : Int := s.utf8ByteSize

namespace Record

variable {ρ : Type}

/-- The type of the inode. -/
def type (inode : Record ρ) : FileType := inode.payload.type

/-- The inode is a directory. -/
def isDirectory (inode : Record ρ) : Bool := inode.type = .directory

/-- The inode is a regular file. -/
def isFile (inode : Record ρ) : Bool := inode.type = .file

/-- The inode is a symbolic link. -/
def isSymlink (inode : Record ρ) : Bool := inode.type = .symlink

/-- The entries of a directory; other inodes have none. -/
def children (inode : Record ρ) : List ρ :=
  match inode.payload with
  | .directory children => children
  | _ => []

/-- The content of a file; other inodes have none. -/
def content (inode : Record ρ) : String :=
  match inode.payload with
  | .file content => content
  | _ => ""

/-- The target of a symbolic link; other inodes have none. -/
def target (inode : Record ρ) : String :=
  match inode.payload with
  | .symlink target => target
  | _ => ""

/-- The class of users that decides for a user: ownership comes first, then the group, which is a
user's own. -/
def classOf (inode : Record ρ) (user : String) : UserClass :=
  if user = inode.owner then .owner else if user = inode.group then .group else .others

/-- The user has the access. -/
def permits (inode : Record ρ) (user : String) (access : Access) : Bool :=
  user = rootUser || inode.mode.grants (inode.classOf user) access

/-- A copy of the inode. The size of a file is taken from its content. -/
def copy (inode : Record ρ) : Record ρ :=
  match inode.payload with
  | .file content => { inode with size := byteSize content }
  | _ => inode

/-- The inode with the time of its last change set. -/
def touch (now : Binary64) (inode : Record ρ) : Record ρ := { inode with modified := now }

/-- The inode with another mode. -/
def chmod (now : Binary64) (mode : Mode) (inode : Record ρ) : Record ρ :=
  { inode with mode, modified := now }

/-- The inode with another owner and, if one is given, another group. -/
def chown (now : Binary64) (owner : String) (group : Option String) (inode : Record ρ) :
    Record ρ :=
  { inode with owner, group := group.getD inode.group, modified := now }

/-- The inode with another content. What is no file keeps what it holds and only takes the size. -/
def setContent (now : Binary64) (content : String) (inode : Record ρ) : Record ρ :=
  let payload := match inode.payload with
    | .file _ => .file content
    | other => other
  { inode with payload, size := byteSize content, modified := now }

/-- The directory with one more entry; only a directory can take it. -/
def addChild (now : Binary64) (child : ρ) (inode : Record ρ) : Option (Record ρ) :=
  match inode.payload with
  | .directory children =>
    some { inode with payload := .directory (children ++ [child]), modified := now }
  | _ => none

/-- The directory without an entry; without that entry it stays as it is. -/
def removeChild [BEq ρ] (now : Binary64) (child : ρ) (inode : Record ρ) : Option (Record ρ) :=
  match inode.payload with
  | .directory children =>
    if children.contains child then
      some { inode with payload := .directory (children.erase child), modified := now }
    else some inode
  | _ => none

/-- What the payload adds to the written form. -/
def payloadJson (reference : ρ → Json) : Payload ρ → String × Json
  | .file content => ("content", .string content)
  | .directory children => ("children", .array (children.map reference))
  | .symlink target => ("target", .string target)

/-- The inode as structured data. -/
def toJson (reference : ρ → Json) (inode : Record ρ) : Json :=
  .object [("id", .string inode.id), ("type", .string inode.type.name),
    ("name", .string inode.name), ("permissions", inode.mode.toJson),
    ("ownerId", .string inode.owner), ("groupId", .string inode.group), ("size", .int inode.size),
    ("createdAt", .float inode.created), ("modifiedAt", .float inode.modified),
    payloadJson reference inode.payload]

/-- The type of an inode read from structured data. -/
def typeOfJson (data : Json) : Except Fault FileType :=
  match data.string?.bind FileType.ofName? with
  | some type => .ok type
  | none => .error (.badValue s!"{data.display} is not a valid FileType")

/-- An inode read from structured data. Ids, names and users may be written as other values, times
default to the present, and the size of a file is that of its content. -/
def ofJson (now : Binary64) (data : Json) : Except Fault (Record Json) := do
  let type ← typeOfJson (← data.require "type")
  let id := (← data.require "id").plain
  let name := (← data.require "name").plain
  let mode ← Mode.ofJson (← data.require "permissions")
  let ownerData ← data.require "ownerId"
  let group := (data.memberD "groupId" ownerData).plain
  let size ← (data.memberD "size" (.int 0)).toInteger
  let created ← (data.memberD "createdAt" (.float now)).toNumber
  let modified ← (data.memberD "modifiedAt" (.float now)).toNumber
  let inode (size : Int) (payload : Payload Json) : Record Json :=
    { id, name, mode, owner := ownerData.plain, group, size, created, modified, payload,
      parent := none }
  match type with
  | .directory =>
    let children ← (data.memberD "children" .null).toItems
    return inode size (.directory children)
  | .file =>
    match data.memberD "content" .null with
    | .null => return inode 0 (.file "")
    | .string content => return inode (byteSize content) (.file content)
    | _ => throw .noMember
  | .symlink =>
    match data.memberD "target" .null with
    | .string target => return inode size (.symlink target)
    | _ => throw (.badValue s!"symlink {id} has no target")

end Record

end PocketShell
