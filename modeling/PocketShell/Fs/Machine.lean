import PocketShell.Fs.Resolve
import PocketShell.Log.Basic

/-!
The machine: a volume with its clock, the supply of ids and the log. An operation on it acts for
an actor and may fail; a want of permission is put on record where the operation meets it.
-/
namespace PocketShell

/-- A volume with what surrounds it. -/
structure Machine where
  volume : Volume
  now : Binary64
  nextId : Nat
  log : Log
  deriving Repr

/-- An operation on the machine. What it did before it failed stays done. -/
abbrev Fs (α : Type) := ReaderT Actor (ExceptT FsFailure (StateM Machine)) α

/-- The text of an id by its number. -/
def inodeId (n : Nat) : String := "00000000-0000-4000-8000-" ++ Text.padDigits 10 12 n

/-- The machine with one more entry in its log. -/
def Machine.report (entry : Log.Entry) (machine : Machine) : Machine :=
  { machine with log := machine.log.emit entry }

/-- The name of the filesystem in the log. -/
def fsSubsystem : String := "vfs"

/-- The entry that records a refusal for want of permission. -/
def auditEntry (user path action : String) : Log.Entry :=
  .of .notice fsSubsystem "PERMISSION_DENIED"
    [("path", .string path), ("user", .string user), ("action", .string action)]

/-- The machine with a want of permission on record; no other failure is recorded. -/
def Machine.record (user : String) (failure : FsFailure) (machine : Machine) : Machine :=
  match failure with
  | .denied path action => machine.report (auditEntry user path action)
  | _ => machine

/-- Runs an operation for an actor. -/
def Machine.perform {α : Type} (actor : Actor) (operation : Fs α) (machine : Machine) :
    Except FsFailure α × Machine :=
  operation actor machine

/-- The reason of a refusal, or the fault that a table without order causes. -/
def FsFailure.settle : FsFailure → Except Fault FsError
  | .refused reason => .ok reason
  | .denied _ _ => .ok .permissionDenied
  | .missing id => .error (.missingKey id)
  | .childless => .error (.badValue "Not a directory")
  | .endless => .error .endless

/-- Runs an operation for an actor and tells refusals from faults. -/
def Machine.ask {α : Type} (actor : Actor) (operation : Fs α) (machine : Machine) :
    Except Fault (Except FsError α) × Machine :=
  match machine.perform actor operation with
  | (.ok value, after) => (.ok (.ok value), after)
  | (.error failure, after) => (failure.settle.map .error, after)

namespace Fs

/-- The volume as it is. -/
def volume : Fs Volume := do return (← get).volume

/-- Refuses the operation. -/
def refuse {α : Type} (reason : FsError) : Fs α := throw (.refused reason)

/-- Fails, and puts a want of permission on record. -/
def fail {α : Type} (failure : FsFailure) : Fs α := do
  modify (Machine.record (← read).user failure)
  throw failure

/-- Refuses the operation for want of permission. -/
def deny {α : Type} (path action : String) : Fs α := fail (.denied path action)

/-- Takes what a search comes to. -/
def answer {α : Type} : Except FsFailure α → Fs α
  | .ok value => pure value
  | .error failure => fail failure

/-- Refuses unless the permissions of an inode allow the actor the access. -/
def demand (inode : Inode) (access : Access) (path action : String) : Fs Unit := do
  unless inode.permits (← read).user access do deny path action

/-- Resolves a path for the actor. -/
def lookup (follow : Bool) (path : String) : Fs Inode := do
  answer ((← volume).lookup (← read) follow path)

/-- The directory and the name of an entry for the actor. -/
def lookupParent (path : String) : Fs (Inode × String) := do
  answer ((← volume).lookupParent (← read) path)

/-- Writes an inode to the table. -/
def put (inode : Inode) : Fs Unit :=
  modify fun machine => { machine with volume := machine.volume.put inode }

/-- A note in the log about what was done. -/
def note (message : String) (context : List (String × Json)) : Fs Unit :=
  modify (Machine.report (.of .debug fsSubsystem message context))

/-- Puts a new entry into a directory. It belongs to the actor. -/
def attach (parent : Inode) (name : String) (mode : Mode) (size : Int) (payload : Payload String) :
    Fs Inode := do
  let machine ← get
  let user := (← read).user
  let inode : Inode :=
    { id := inodeId machine.nextId, name, mode, owner := user, group := user, size,
      created := machine.now, modified := machine.now, payload, parent := some parent.id }
  match parent.addChild machine.now inode.id with
  | none => throw .childless
  | some parent =>
    set { machine with volume := (machine.volume.put parent).put inode, nextId := machine.nextId + 1 }
    return inode

end Fs

end PocketShell
