import PocketShell.Number.Binary64

/-!
Structured data: the values that snapshots, configurations, lab definitions and log contexts are
made of. Members of an object keep their order, and a name occurs once.
-/
namespace PocketShell

/-- A value of structured data. -/
inductive Json
  | null
  | bool (b : Bool)
  | int (i : Int)
  | float (x : Binary64)
  | string (s : String)
  | array (items : List Json)
  | object (members : List (String × Json))
  deriving Repr, BEq, Inhabited

namespace Json

/-- A member written twice keeps the place of the first and the value of the second. -/
def insertMember (name : String) (value : Json) : List (String × Json) → List (String × Json)
  | [] => [(name, value)]
  | (n, v) :: rest =>
    if n = name then (n, value) :: rest else (n, v) :: insertMember name value rest

/-- The value of a member of an object. -/
def member? (name : String) : Json → Option Json
  | .object members => members.lookup name
  | _ => none

/-- The text of a string. -/
def string? : Json → Option String
  | .string s => some s
  | _ => none

/-- The value is a given text. -/
def isText (text : String) : Json → Bool
  | .string s => s == text
  | _ => false

/-- Values that count as true: all but null, false, zero and what is empty. -/
def truthy : Json → Bool
  | .null => false
  | .bool b => b
  | .int i => i != 0
  | .float (.finite _ significand _) => significand != 0
  | .float _ => true
  | .string s => !s.isEmpty
  | .array items => !items.isEmpty
  | .object members => !members.isEmpty

/-- An optional text. -/
def ofOption : Option String → Json
  | none => .null
  | some s => .string s

end Json

end PocketShell
