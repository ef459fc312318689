import PocketShell.Fault
import PocketShell.Json.Reader
import PocketShell.Json.Writer
import PocketShell.Number.Decimal

/-!
Taking a value of structured data for what a record needs: a member that must be there, a whole
number, a number, a text, a list. Numbers may also be written as text.
-/
namespace PocketShell.Json

/-- The fault that a text causes which is too much to read; what does not follow the grammar causes
none. -/
def ReadError.fault? : ReadError → Option Fault
  | .malformed => none
  | .longNumeral digits => some (.badValue (Text.NumeralError.tooLong digits).message)
  | .deepNesting => some .endless

/-- The member of an object that must be there. -/
def require (data : Json) (name : String) : Except Fault Json :=
  match data with
  | .object members => match members.lookup name with
    | some value => .ok value
    | none => .error (.missingKey name)
  | _ => .error .badType

/-- The member of an object, or another value in its place. -/
def memberD (data : Json) (name : String) (default : Json) : Json :=
  (data.member? name).getD default

/-- A whole number; a fraction is cut off. -/
def toInteger : Json → Except Fault Int
  | .int i => .ok i
  | .bool b => .ok (if b then 1 else 0)
  | .float .nan => .error (.badValue "cannot convert float NaN to integer")
  | .float (.infinity _) => .error (.overflow "cannot convert float infinity to integer")
  | .float x => .ok (x.trunc?.getD 0)
  | .string s => (Text.readInt s).mapError fun e => .badValue e.message
  | _ => .error .badType

/-- A number. -/
def toNumber : Json → Except Fault Binary64
  | .int i => match Binary64.ofInt i with
    | .infinity _ => .error (.overflow "int too large to convert to float")
    | x => .ok x
  | .bool b => .ok (Binary64.ofInt (if b then 1 else 0))
  | .float x => .ok x
  | .string s => match Decimal.read? s with
    | some x => .ok x
    | none => .error (.badValue s!"could not convert string to float: {Text.quoted s}")
  | _ => .error .badType

mutual
/-- A whole number somewhere in the value has more digits than are written. -/
def overlong : Json → Bool
  | .int i => Text.maxDigits < (toString i.natAbs).length
  | .array items => overlongItems items
  | .object members => overlongMembers members
  | _ => false

/-- The same of items. -/
def overlongItems : List Json → Bool
  | [] => false
  | item :: rest => overlong item || overlongItems rest

/-- The same of the values of members. -/
def overlongMembers : List (String × Json) → Bool
  | [] => false
  | (_, value) :: rest => overlong value || overlongMembers rest
end

/-- The text of a value, unless a number in it is too long to be written. -/
def shown (value : Json) : Except Fault String :=
  if value.overlong then
    .error (.badValue s!"Exceeds the limit ({Text.maxDigits} digits) for integer string conversion; use sys.set_int_max_str_digits() to increase the limit")
  else .ok value.plain

/-- The parts of a value: the items of an array, the characters of a text, the names of an object's
members. What counts as false has none. -/
def toItems (value : Json) : Except Fault (List Json) :=
  if !value.truthy then .ok []
  else match value with
    | .array items => .ok items
    | .string s => .ok (s.toList.map fun c => .string (String.singleton c))
    | .object members => .ok (members.map fun (name, _) => .string name)
    | _ => .error .badType

end PocketShell.Json
