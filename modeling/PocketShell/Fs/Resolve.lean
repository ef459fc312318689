import PocketShell.Fs.Volume

/-!
Resolution: from a path to an inode. The walk enters one directory per component, and a user needs
the execute permission on each. Links in the middle of a path are always followed, one at its end
only if asked. Every link that is followed uses up one level of nesting, and so does going on behind
it; the levels are limited, which is what ends the walk through a cycle of links.
-/
namespace PocketShell

/-- Who acts, and from which directory relative paths start. -/
structure Actor where
  user : String
  cwd : String
  deriving Repr, DecidableEq

namespace Volume

/-- The deepest nesting of links. -/
def linkDepth : Nat := 20

/-- Walks down from an inode along components. `follow` is for the last component; `go` resolves
another path from an inode, one level deeper. -/
def descend (volume : Volume) (user : String) (path : String) (follow : Bool)
    (go : (follow : Bool) → (start : Inode) → (path : String) → Except FsFailure Inode) :
    List String → Inode → Except FsFailure Inode
  | [], current => .ok current
  | component :: rest, current =>
    if !current.isDirectory then .error (.refused .notADirectory)
    else if !current.permits user .execute then .error (.denied path "execute")
    else if component = "." then volume.descend user path follow go rest current
    else if component = ".." then do
      let parent ← volume.parentOf current
      volume.descend user path follow go rest parent
    else match volume.childNamed? current component with
      | none => .error (.refused .notFound)
      | some child =>
        if child.isSymlink && (follow || !rest.isEmpty) then do
          let target ← go true current child.target
          if rest.isEmpty then return target
          go follow target ("/".intercalate rest)
        else volume.descend user path follow go rest child

/-- Resolves a path from an inode within a number of levels. -/
def resolveWithin (volume : Volume) (user : String) :
    (levels : Nat) → (follow : Bool) → (start : Inode) → (path : String) → Except FsFailure Inode
  | 0, _, _, _ => .error (.refused .symlinkLoop)
  | levels + 1, follow, start, path => do
    let root ← volume.root
    volume.descend user path follow (volume.resolveWithin user levels) (Path.componentsOf path)
      (if Path.isAbsolute path then root else start)

/-- The levels that are left at a depth. -/
def levelsAt (depth : Int) : Nat := (linkDepth + 1 - depth).toNat

/-- Resolves a path from the inode with an id, or from the root. -/
def resolve (volume : Volume) (user : String) (follow : Bool) (depth : Int)
    (start : Option String) (path : String) : Except FsFailure Inode := do
  if levelsAt depth = 0 then throw (.refused .symlinkLoop)
  let root ← volume.root
  match start with
  | none => volume.resolveWithin user (levelsAt depth) follow root path
  | some id =>
    match if Path.isAbsolute path then some root else volume.inode? id with
    | none => throw (.refused .notFound)
    | some start => volume.resolveWithin user (levelsAt depth) follow start path

/-- Resolves a path for an actor: a relative one starts from the working directory. -/
def lookup (volume : Volume) (actor : Actor) (follow : Bool) (path : String) :
    Except FsFailure Inode := do
  if Path.isAbsolute path || actor.cwd = "" || actor.cwd = "/" then
    volume.resolve actor.user follow 0 none path
  else
    let base ← volume.resolve actor.user true 0 none actor.cwd
    if !base.isDirectory then throw (.refused .notADirectory)
    volume.resolve actor.user follow 0 (some base.id) path

/-- The directory that holds the last component of a path, whether or not the entry is there, and
the name of the entry. -/
def lookupParent (volume : Volume) (actor : Actor) (path : String) :
    Except FsFailure (Inode × String) := do
  let (parentPath, name) := Path.splitParent path
  if name = "" || name = "." || name = ".." then throw (.refused .fileExists)
  let parent ← volume.lookup actor true parentPath
  if !parent.isDirectory then throw (.refused .notADirectory)
  return (parent, name)

end Volume

end PocketShell
