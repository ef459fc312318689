import PocketShell.Text.Split

/-!
Paths as text. Nothing here looks at a filesystem: `.` and `..` are components like others, except
in `normalize`, which folds them away for display.
-/
namespace PocketShell

/-- A path taken apart: whether it starts at the root, and its components, none of them empty. -/
structure Path where
  absolute : Bool
  components : List String
  deriving Repr, DecidableEq

namespace Path

/-- The components of a path; repeated and closing slashes leave none behind. -/
def componentsOf (s : String) : List String :=
  ((Text.splitWhere (· == '/') s.toList).filter (!·.isEmpty)).map String.ofList

/-- The path begins at the root. -/
def isAbsolute (s : String) : Bool := s.toList.head? == some '/'

/-- The path ends in a slash. -/
def endsInSlash (s : String) : Bool := s.toList.getLast? == some '/'

/-- Takes a path apart. -/
def parse (s : String) : Path := ⟨isAbsolute s, componentsOf s⟩

/-- The text of a path; the relative path without components is the dot. -/
def toText (p : Path) : String :=
  let body := "/".intercalate p.components
  if p.absolute then "/" ++ body else if p.components.isEmpty then "." else body

/-- One component folded onto those before it, the nearest first. A `..` removes its neighbour; one
with nothing to remove stays in a relative path and vanishes in an absolute one. -/
def foldComponent (absolute : Bool) (stack : List String) (component : String) : List String :=
  if component = "." then stack
  else if component = ".." then
    match stack with
    | top :: below => if top = ".." then component :: stack else below
    | [] => if absolute then [] else [component]
  else component :: stack

/-- The path with `.` and `..` folded away by the text alone. -/
def normalize (s : String) : String :=
  let p := parse s
  toText ⟨p.absolute, (p.components.foldl (foldComponent p.absolute) []).reverse⟩

/-- One more path after another: an absolute one replaces what stands before it. -/
def append (base next : String) : String :=
  if next.isEmpty then base
  else if isAbsolute next then next
  else if endsInSlash base then base ++ next
  else base ++ "/" ++ next

/-- Paths put one after another, without folding anything. -/
def join : List String → String
  | [] => "."
  | first :: rest => rest.foldl append first

/-- The text without the slashes at its end. -/
def dropSlashes (s : String) : String := Text.trimRightWhere (· == '/') s

/-- The texts around the last slash, if there is one. -/
def cutAtLastSlash (s : String) : Option (String × String) :=
  (Text.cutAt '/' s.toList.reverse).map fun (after, before) =>
    (String.ofList before.reverse, String.ofList after.reverse)

/-- The path of the directory that holds the entry, and the entry's name; the name is empty for the
root and for the empty path. -/
def splitParent (s : String) : String × String :=
  let stripped := dropSlashes s
  if stripped.isEmpty then (if isAbsolute s then "/" else ".", "")
  else match cutAtLastSlash stripped with
    | none => (".", stripped)
    | some (parent, name) => (if parent.isEmpty then "/" else parent, name)

/-- The directory part of a path. -/
def dirname (s : String) : String :=
  let stripped := dropSlashes s
  if stripped.isEmpty then if isAbsolute s then "/" else "."
  else match cutAtLastSlash stripped with
    | none => "."
    | some (parent, _) =>
      let parent := dropSlashes parent
      if parent.isEmpty then "/" else parent

/-- The last component of a path. -/
def basename (s : String) : String :=
  let stripped := dropSlashes s
  if stripped.isEmpty then if isAbsolute s then "/" else ""
  else match cutAtLastSlash stripped with
    | none => stripped
    | some (_, name) => name

/-- A leading `~` becomes the home directory. -/
def expandHome (path home : String) : String :=
  match path.toList with
  | ['~'] => home
  | '~' :: '/' :: rest => join [home, String.ofList rest]
  | _ => path

/-- The path of an entry below a directory that is shown under the given path. -/
def child (parent name : String) : String :=
  if parent = "/" then "/" ++ name else parent ++ "/" ++ name

end Path

end PocketShell
