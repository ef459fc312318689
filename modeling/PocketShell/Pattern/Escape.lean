import PocketShell.Pattern.Source

/-!
Escapes in patterns. Inside and outside sets they mean mostly the same; outside, some stand for
places and some refer to groups.
-/
namespace PocketShell.Pattern

/-- What an escape stands for. -/
inductive Meaning
  | code (n : Nat)
  | category (kind : Category) (negated : Bool)
  | textStart
  | textEnd
  | wordEdge (negated : Bool)
  | backref (index : Nat)
  deriving Repr, DecidableEq

/-- An octal digit. -/
def isOctalDigit (c : Char) : Bool := '0' ≤ c && c ≤ '7'

/-- A hexadecimal digit. -/
def isHexDigit (c : Char) : Bool :=
  c.isDigit || ('a' ≤ c && c ≤ 'f') || ('A' ≤ c && c ≤ 'F')

/-- The value of a digit in a base up to sixteen. -/
def digitValue (c : Char) : Nat :=
  if c.isDigit then c.toNat - 48 else c.toLower.toNat - 87

/-- The number that digits stand for. -/
def numberOf (base : Nat) (digits : List Char) : Nat :=
  digits.foldl (fun n c => base * n + digitValue c) 0

/-- The control character of a letter. -/
def controlCode? : Char → Option Nat
  | 'a' => some 7
  | 'b' => some 8
  | 'f' => some 12
  | 'n' => some 10
  | 'r' => some 13
  | 't' => some 9
  | 'v' => some 11
  | '\\' => some 92
  | _ => none

/-- The class of a letter. -/
def category? : Char → Option Meaning
  | 'd' => some (.category .digit false)
  | 'D' => some (.category .digit true)
  | 's' => some (.category .space false)
  | 'S' => some (.category .space true)
  | 'w' => some (.category .word false)
  | 'W' => some (.category .word true)
  | _ => none

/-- The place of a letter. -/
def place? : Char → Option Meaning
  | 'A' => some .textStart
  | 'Z' => some .textEnd
  | 'b' => some (.wordEdge false)
  | 'B' => some (.wordEdge true)
  | _ => none

/-- The greatest code of a character. -/
def greatestCode : Nat := 0x10FFFF

/-- The greatest code that an octal escape may have. -/
def greatestOctal : Nat := 0o377

namespace Reader

/-- Exactly `count` hexadecimal digits after an escape that began at `start`. -/
def readHex (start : Nat) (letter : Char) (count : Nat) : Reader Meaning := do
  let digits ← takeUpTo isHexDigit count
  let escape := String.ofList ('\\' :: letter :: digits)
  if digits.length != count then failAt start (.incompleteEscape escape)
  let code := numberOf 16 digits
  if code > greatestCode then failAt start (.badEscape escape)
  return .code code

/-- The name of a character in braces; none is known. -/
def readCharacterName : Reader Meaning := do
  if !(← accept '{') then failHere (.missing "\x7b")
  let start ← position
  let name ← nameUntil '}' "character name"
  failAt (start - 3) (.noSuchCharacter name)

/-- The escapes of codes, which mean the same everywhere; none if it is another escape. -/
def readCode (start : Nat) (letter : Char) : Reader (Option Meaning) := do
  match letter with
  | 'x' => return some (← readHex start letter 2)
  | 'u' => return some (← readHex start letter 4)
  | 'U' => return some (← readHex start letter 8)
  | 'N' => return some (← readCharacterName)
  | _ => return none

/-- An escape of a character that has no other meaning. A letter must have one. -/
def readItself (start : Nat) (c : Char) : Reader Meaning := do
  if c.isAlpha || c.isDigit then failAt start (.badEscape (String.ofList ['\\', c]))
  return .code c.toNat

/-- The value of an octal escape, unless it is too large. -/
def octalMeaning (start : Nat) (digits : List Char) : Reader Meaning := do
  let code := numberOf 8 digits
  if code > greatestOctal then failAt start (.largeOctal (String.ofList ('\\' :: digits)))
  return .code code

/-- The escape of a character inside a set; it began at `start`. -/
def readSetEscape (start : Nat) (c : Char) : Reader Meaning := do
  match (controlCode? c).map Meaning.code <|> category? c with
  | some meaning => return meaning
  | none =>
    match ← readCode start c with
    | some meaning => return meaning
    | none =>
      if isOctalDigit c then octalMeaning start (c :: (← takeUpTo isOctalDigit 2))
      else readItself start c

/-- A reference to a group by its number. -/
def readReference (start : Nat) (digits : List Char) : Reader Meaning := do
  let index := numberOf 10 digits
  if index < (← groupCount) then
    if !(← isClosed index) then failAt start .openGroup
    checkBehind index
    return .backref index
  else failAt (start + 1) (.noSuchGroup index)

/-- An escape of digits outside sets: three octal digits, or the number of a group. -/
def readDigits (start : Nat) (first : Char) : Reader Meaning := do
  match ← takeUpTo Char.isDigit 1 with
  | [second] =>
    if isOctalDigit first && isOctalDigit second && (← nextIs isOctalDigit) then
      octalMeaning start (first :: second :: (← takeUpTo isOctalDigit 1))
    else readReference start [first, second]
  | _ => readReference start [first]

/-- The escape of a character outside sets; it began at `start`. -/
def readEscape (start : Nat) (c : Char) : Reader Meaning := do
  match category? c <|> place? c <|> (controlCode? c).map Meaning.code with
  | some meaning => return meaning
  | none =>
    match ← readCode start c with
    | some meaning => return meaning
    | none =>
      if c = '0' then return .code (numberOf 8 (c :: (← takeUpTo isOctalDigit 2)))
      else if c.isDigit then readDigits start c
      else readItself start c

end Reader

end PocketShell.Pattern
