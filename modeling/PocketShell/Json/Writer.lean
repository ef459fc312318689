import PocketShell.Json.Basic
import PocketShell.Number.Shortest
import PocketShell.Text.Quoted

/-!
Two ways of writing structured data: as text that reads back (`write`), and as messages show it
(`plain` for a value by itself, `display` for a value inside another).
-/
namespace PocketShell.Json

/-- The escape of one code unit. -/
def unitEscape (unit : Nat) : List Char := '\\' :: 'u' :: (Text.padDigits 16 4 unit).toList

/-- One character of a written string: all but visible plain characters are escaped. -/
def writeChar (c : Char) : List Char :=
  match c with
  | '"' => ['\\', '"']
  | '\\' => ['\\', '\\']
  | '\n' => ['\\', 'n']
  | '\r' => ['\\', 'r']
  | '\t' => ['\\', 't']
  | '\x08' => ['\\', 'b']
  | '\x0c' => ['\\', 'f']
  | c =>
    if 32 ≤ c.toNat ∧ c.toNat < 127 then [c]
    else if c.toNat < 0x10000 then unitEscape c.toNat
    else
      let n := c.toNat - 0x10000
      unitEscape (0xD800 + n / 0x400) ++ unitEscape (0xDC00 + n % 0x400)

/-- A string in double quotes. -/
def writeString (s : String) : String :=
  String.ofList ('"' :: s.toList.flatMap writeChar ++ ['"'])

/-- A number as written, with the words for what is not finite. -/
def writeFloat : Binary64 → String
  | .nan => "NaN"
  | .infinity false => "Infinity"
  | .infinity true => "-Infinity"
  | x => x.toText

mutual
/-- The text of a value, with a blank after every comma and colon. -/
def write : Json → String
  | .null => "null"
  | .bool b => if b then "true" else "false"
  | .int i => toString i
  | .float x => writeFloat x
  | .string s => writeString s
  | .array items => "[" ++ writeItems items ++ "]"
  | .object members => "\x7b" ++ writeMembers members ++ "\x7d"

/-- Items between brackets. -/
def writeItems : List Json → String
  | [] => ""
  | [item] => write item
  | item :: rest => write item ++ ", " ++ writeItems rest

/-- Members between braces. -/
def writeMembers : List (String × Json) → String
  | [] => ""
  | [(name, value)] => writeString name ++ ": " ++ write value
  | (name, value) :: rest => writeString name ++ ": " ++ write value ++ ", " ++ writeMembers rest
end

mutual
/-- A value inside another as messages show it: texts in quotes, capitalised words. -/
def display : Json → String
  | .null => "None"
  | .bool b => if b then "True" else "False"
  | .int i => toString i
  | .float x => x.toText
  | .string s => Text.quoted s
  | .array items => "[" ++ displayItems items ++ "]"
  | .object members => "\x7b" ++ displayMembers members ++ "\x7d"

/-- Items inside another value. -/
def displayItems : List Json → String
  | [] => ""
  | [item] => display item
  | item :: rest => display item ++ ", " ++ displayItems rest

/-- Members inside another value. -/
def displayMembers : List (String × Json) → String
  | [] => ""
  | [(name, value)] => Text.quoted name ++ ": " ++ display value
  | (name, value) :: rest =>
    Text.quoted name ++ ": " ++ display value ++ ", " ++ displayMembers rest
end

/-- A value by itself as messages show it: a text stands without quotes. -/
def plain : Json → String
  | .string s => s
  | value => display value

end PocketShell.Json
