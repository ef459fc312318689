import PocketShell.Json.Coerce
import PocketShell.Text.Split

/-!
Permission modes: twelve bits, three for each class of users, read before write before execute,
below the three special ones.
-/
namespace PocketShell

/-- A permission mode. -/
abbrev Mode := BitVec 12

/-- What a user asks to do with an entry. -/
inductive Access
  | read
  | write
  | execute
  deriving Repr, DecidableEq

/-- The users a permission is meant for. -/
inductive UserClass
  | owner
  | group
  | others
  deriving Repr, DecidableEq

/-- The place of an access within the three bits of a class. -/
def Access.place : Access → Nat
  | .read => 2
  | .write => 1
  | .execute => 0

/-- The place of the lowest bit of a class. -/
def UserClass.shift : UserClass → Nat
  | .owner => 6
  | .group => 3
  | .others => 0

namespace Mode

/-- The mode of a new file before the mask. -/
def newFile : Mode := 0o644#12

/-- The mode of a new directory before the mask. -/
def newDirectory : Mode := 0o755#12

/-- The mode of a symbolic link. -/
def link : Mode := 0o777#12

/-- The mode grants the class the access. -/
def grants (mode : Mode) (cls : UserClass) (access : Access) : Bool :=
  mode.getLsbD (cls.shift + access.place)

/-- Only owners may remove entries from a directory with this bit. -/
def sticky (mode : Mode) : Bool := mode.getLsbD 9

/-- The bit for running with the group of the file. -/
def setgid (mode : Mode) : Bool := mode.getLsbD 10

/-- The bit for running with the owner of the file. -/
def setuid (mode : Mode) : Bool := mode.getLsbD 11

/-- Without the bits of the mask. -/
def less (mode mask : Mode) : Mode := mode &&& ~~~mask

/-- An octal digit. -/
def isOctal (c : Char) : Bool := '0' ≤ c && c ≤ '7'

/-- Reads exactly three octal digits, or with `special` also four. -/
def parse? (special : Bool) (s : String) : Option Mode :=
  let cs := s.toList
  if (cs.length = 3 || (special && cs.length = 4)) && cs.all isOctal then
    some (BitVec.ofNat 12 (cs.foldl (fun n c => 8 * n + (c.toNat - 48)) 0))
  else none

/-- Three octal digits, with a fourth in front when a special bit is set. -/
def octal (mode : Mode) : String :=
  Text.padDigits 8 (if mode.toNat < 0o1000 then 3 else 4) mode.toNat

/-- Four octal digits. -/
def octal4 (mode : Mode) : String := Text.padDigits 8 4 mode.toNat

/-- The letters of one class: the third shows the special bit of the class, in capitals when the
class may not execute. -/
def classText (mode : Mode) (cls : UserClass) (special : Bool) (mark capital : Char) :
    List Char :=
  let execute := mode.grants cls .execute
  [if mode.grants cls .read then 'r' else '-', if mode.grants cls .write then 'w' else '-',
    if special then if execute then mark else capital else if execute then 'x' else '-']

/-- The nine letters in which a listing shows the mode. -/
def symbolic (mode : Mode) : String :=
  String.ofList (classText mode .owner mode.setuid 's' 'S'
    ++ classText mode .group mode.setgid 's' 'S' ++ classText mode .others mode.sticky 't' 'T')

/-- The permissions of one class as structured data. -/
def classJson (mode : Mode) (cls : UserClass) : Json :=
  .object [("read", .bool (mode.grants cls .read)), ("write", .bool (mode.grants cls .write)),
    ("execute", .bool (mode.grants cls .execute))]

/-- The mode as structured data. -/
def toJson (mode : Mode) : Json :=
  .object [("owner", mode.classJson .owner), ("group", mode.classJson .group),
    ("others", mode.classJson .others), ("sticky", .bool mode.sticky),
    ("setuid", .bool mode.setuid), ("setgid", .bool mode.setgid)]

/-- One bit of a mode. -/
def bitIf (set : Bool) (place : Nat) : Mode := if set then BitVec.ofNat 12 (Nat.pow 2 place) else 0

/-- The bits of one class read from structured data. -/
def classOfJson (data : Json) (cls : UserClass) (name : String) : Except Fault Mode := do
  let bits ← data.require name
  let read ← bits.require "read"
  let write ← bits.require "write"
  let execute ← bits.require "execute"
  return bitIf read.truthy (cls.shift + 2) ||| bitIf write.truthy (cls.shift + 1)
    ||| bitIf execute.truthy cls.shift

/-- The mode read from structured data; a special bit that is not given is not set. -/
def ofJson (data : Json) : Except Fault Mode := do
  let owner ← classOfJson data .owner "owner"
  let group ← classOfJson data .group "group"
  let others ← classOfJson data .others "others"
  let special (name : String) : Bool := ((data.member? name).map Json.truthy).getD false
  return owner ||| group ||| others ||| bitIf (special "sticky") 9 ||| bitIf (special "setuid") 11
    ||| bitIf (special "setgid") 10

end Mode

end PocketShell
