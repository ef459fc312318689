/-!
The ways in which an operation on the filesystem is refused, each with its number and wording. A
table that is no tree can also fail an operation without refusing it: an inode is missing, an entry
is put where none fits, or a copy never ends.
-/
namespace PocketShell

/-- Why an operation is refused. -/
inductive FsError
  | notFound
  | notADirectory
  | isADirectory
  | isASymlink
  | fileExists
  | directoryNotEmpty
  | symlinkLoop
  | permissionDenied
  | notPermitted
  | invalidMode
  | invalidArgument
  | omittingDirectory
  | rootRemoval
  | selfCopy
  | selfMove
  deriving Repr, DecidableEq, Inhabited

namespace FsError

/-- Every reason, in the order in which they are listed. -/
def all : List FsError := [
  .notFound, .notADirectory, .isADirectory, .isASymlink, .fileExists, .directoryNotEmpty,
  .symlinkLoop, .permissionDenied, .notPermitted, .invalidMode, .invalidArgument,
  .omittingDirectory, .rootRemoval, .selfCopy, .selfMove]

/-- The conventional number of the reason. -/
def code : FsError → Nat
  | .notFound => 2
  | .notADirectory => 20
  | .isADirectory => 21
  | .isASymlink => 40
  | .fileExists => 17
  | .directoryNotEmpty => 39
  | .symlinkLoop => 40
  | .permissionDenied => 13
  | .notPermitted => 1
  | .invalidMode => 22
  | .invalidArgument => 22
  | .omittingDirectory => 21
  | .rootRemoval => 16
  | .selfCopy => 22
  | .selfMove => 22

/-- The conventional wording of the reason. -/
def message : FsError → String
  | .notFound => "No such file or directory"
  | .notADirectory => "Not a directory"
  | .isADirectory => "Is a directory"
  | .isASymlink => "Is a symbolic link"
  | .fileExists => "File exists"
  | .directoryNotEmpty => "Directory not empty"
  | .symlinkLoop => "Too many levels of symbolic links"
  | .permissionDenied => "Permission denied"
  | .notPermitted => "Operation not permitted"
  | .invalidMode => "Invalid mode"
  | .invalidArgument => "Invalid argument"
  | .omittingDirectory => "omitting directory"
  | .rootRemoval => "Cannot remove root directory"
  | .selfCopy => "cannot copy a directory into itself"
  | .selfMove => "cannot move a directory into itself"

end FsError

/-- How an operation on the filesystem ends without a value. -/
inductive FsFailure
  /-- The operation is refused. -/
  | refused (reason : FsError)
  /-- The permissions do not allow the action on what the path leads to. -/
  | denied (path action : String)
  /-- The table lacks an inode that it refers to. -/
  | missing (id : String)
  /-- An entry was put into an inode that holds none. -/
  | childless
  /-- A directory is copied into itself without end. -/
  | endless
  deriving Repr, DecidableEq

/-- The reason under which a refusal is reported. -/
def FsFailure.reason? : FsFailure → Option FsError
  | .refused reason => some reason
  | .denied _ _ => some .permissionDenied
  | .missing _ => none
  | .childless => none
  | .endless => none

end PocketShell
