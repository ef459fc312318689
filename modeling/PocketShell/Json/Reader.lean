import PocketShell.Json.Basic
import PocketShell.Number.Decimal

/-!
Reading structured data from text. Besides the usual grammar the words `NaN`, `Infinity` and
`-Infinity` are numbers. A step of the reader returns what remains of the text.
-/
namespace PocketShell.Json

/-- Why a text is no structured data. -/
inductive ReadError
  /-- The text does not follow the grammar. -/
  | malformed
  /-- A whole number has more digits than are read. -/
  | longNumeral (digits : Nat)
  /-- Arrays and objects nest deeper than is read. -/
  | deepNesting
  deriving Repr, DecidableEq

/-- The blanks between tokens. -/
def isSpacing (c : Char) : Bool := c == ' ' || c == '\t' || c == '\n' || c == '\r'

/-- Without the blanks in front. -/
def skipSpacing (cs : List Char) : List Char := cs.dropWhile isSpacing

/-- The value of a hexadecimal digit. -/
def hexValue? (c : Char) : Option Nat :=
  if '0' ≤ c ∧ c ≤ '9' then some (c.toNat - 48)
  else if 'a' ≤ c ∧ c ≤ 'f' then some (c.toNat - 87)
  else if 'A' ≤ c ∧ c ≤ 'F' then some (c.toNat - 55)
  else none

/-- The number four hexadecimal digits stand for. -/
def hex4? (a b c d : Char) : Option Nat := do
  return (((← hexValue? a) * 16 + (← hexValue? b)) * 16 + (← hexValue? c)) * 16 + (← hexValue? d)

/-- The character that a short escape stands for. -/
def shortEscape? : Char → Option Char
  | '"' => some '"'
  | '\\' => some '\\'
  | '/' => some '/'
  | 'b' => some '\x08'
  | 'f' => some '\x0c'
  | 'n' => some '\n'
  | 'r' => some '\r'
  | 't' => some '\t'
  | _ => none

/-- The code units of a string after its opening quote, up to the closing one. -/
def stringUnits : List Char → Option (List Nat × List Char)
  | [] => none
  | '"' :: rest => some ([], rest)
  | '\\' :: 'u' :: a :: b :: c :: d :: rest =>
    match hex4? a b c d, stringUnits rest with
    | some unit, some (units, after) => some (unit :: units, after)
    | _, _ => none
  | '\\' :: c :: rest =>
    match shortEscape? c, stringUnits rest with
    | some e, some (units, after) => some (e.toNat :: units, after)
    | _, _ => none
  | c :: rest =>
    if c.toNat < 32 || c == '\\' then none
    else (stringUnits rest).map fun (units, after) => (c.toNat :: units, after)

/-- Code units as characters: a high and a low half beside each other are one character. -/
def joinUnits : List Nat → List Char
  | [] => []
  | [u] => [Char.ofNat u]
  | high :: low :: rest =>
    if 0xD800 ≤ high ∧ high < 0xDC00 ∧ 0xDC00 ≤ low ∧ low < 0xE000 then
      Char.ofNat (0x10000 + (high - 0xD800) * 0x400 + (low - 0xDC00)) :: joinUnits rest
    else Char.ofNat high :: joinUnits (low :: rest)

/-- A string after its opening quote. -/
def readString (cs : List Char) : Option (String × List Char) :=
  (stringUnits cs).map fun (units, rest) => (String.ofList (joinUnits units), rest)

/-- A number without its sign. A leading zero stands alone before point or exponent. -/
def readNumber (negative : Bool) (cs : List Char) : Except ReadError (Json × List Char) :=
  let (digits, rest) := match cs with
    | '0' :: r => (['0'], r)
    | cs => Decimal.spanDigits cs
  if digits.isEmpty then .error .malformed
  else
    let (fraction, rest) := match rest with
      | '.' :: r =>
        let (ds, after) := Decimal.spanDigits r
        if ds.isEmpty then ([], rest) else (ds, after)
      | _ => ([], rest)
    let (exponent, after) := Decimal.readExponent rest
    if fraction.isEmpty && after.length == rest.length then
      if digits.length > Text.maxDigits then .error (.longNumeral digits.length)
      else
        let n : Int := Decimal.digitsToNat digits
        .ok (.int (if negative then -n else n), after)
    else
      let n := Decimal.digitsToNat (digits ++ fraction)
      .ok (.float (.ofDecimal negative n (exponent - fraction.length)), after)

/-- How deep arrays and objects may nest. -/
def nestingLimit : Nat := 990

/-- Reads what stands in brackets, if they do not nest too deep. -/
def nested {α : Type} (levels : Nat) (read : Nat → Except ReadError α) : Except ReadError α :=
  match levels with
  | 0 => .error .deepNesting
  | levels + 1 => read levels

mutual
/-- A value that begins at the front; `levels` bounds the nesting, and `fuel` the number of parts. -/
def readValue : (fuel : Nat) → (levels : Nat) → List Char → Except ReadError (Json × List Char)
  | 0, _, _ => .error .malformed
  | fuel + 1, levels, cs =>
    match cs with
    | '"' :: rest => match readString rest with
      | some (s, rest) => .ok (.string s, rest)
      | none => .error .malformed
    | '[' :: rest => nested levels fun levels => match skipSpacing rest with
      | ']' :: rest => .ok (.array [], rest)
      | rest => (readItems fuel levels rest).map fun (items, rest) => (.array items, rest)
    | '\x7b' :: rest => nested levels fun levels => match skipSpacing rest with
      | '\x7d' :: rest => .ok (.object [], rest)
      | rest =>
        (readMembers fuel levels [] rest).map fun (members, rest) => (.object members, rest)
    | 'n' :: 'u' :: 'l' :: 'l' :: rest => .ok (.null, rest)
    | 't' :: 'r' :: 'u' :: 'e' :: rest => .ok (.bool true, rest)
    | 'f' :: 'a' :: 'l' :: 's' :: 'e' :: rest => .ok (.bool false, rest)
    | 'N' :: 'a' :: 'N' :: rest => .ok (.float .nan, rest)
    | 'I' :: 'n' :: 'f' :: 'i' :: 'n' :: 'i' :: 't' :: 'y' :: rest =>
      .ok (.float (.infinity false), rest)
    | '-' :: 'I' :: 'n' :: 'f' :: 'i' :: 'n' :: 'i' :: 't' :: 'y' :: rest =>
      .ok (.float (.infinity true), rest)
    | '-' :: rest => readNumber true rest
    | cs => readNumber false cs

/-- The items of an array up to its closing bracket; at least one. -/
def readItems : (fuel : Nat) → (levels : Nat) → List Char →
    Except ReadError (List Json × List Char)
  | 0, _, _ => .error .malformed
  | fuel + 1, levels, cs => do
    let (item, rest) ← readValue fuel levels cs
    match skipSpacing rest with
    | ']' :: rest => return ([item], rest)
    | ',' :: rest =>
      let (items, rest) ← readItems fuel levels (skipSpacing rest)
      return (item :: items, rest)
    | _ => throw .malformed

/-- The members of an object up to its closing brace, at least one, after those already read. -/
def readMembers : (fuel : Nat) → (levels : Nat) → List (String × Json) → List Char →
    Except ReadError (List (String × Json) × List Char)
  | 0, _, _, _ => .error .malformed
  | fuel + 1, levels, before, cs =>
    match cs with
    | '"' :: rest => match readString rest with
      | none => .error .malformed
      | some (name, rest) => match skipSpacing rest with
        | ':' :: rest => do
          let (value, rest) ← readValue fuel levels (skipSpacing rest)
          let members := insertMember name value before
          match skipSpacing rest with
          | '\x7d' :: rest => return (members, rest)
          | ',' :: rest => readMembers fuel levels members (skipSpacing rest)
          | _ => throw .malformed
        | _ => .error .malformed
    | _ => .error .malformed
end

/-- Reads a text that holds one value and blanks around it. -/
def read (s : String) : Except ReadError Json := do
  let cs := s.toList
  let (value, rest) ← readValue (2 * cs.length + 1) nestingLimit (skipSpacing cs)
  if (skipSpacing rest).isEmpty then return value else throw .malformed

end PocketShell.Json
