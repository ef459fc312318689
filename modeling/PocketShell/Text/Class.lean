import PocketShell.Text.LetterTable
import PocketShell.Text.PrintableTable
import PocketShell.Text.NameTable

/-!
Character classes. Each class decides the first 128 characters by a rule of its own and the others
by a table, so that facts about plain text need no table.
-/
namespace PocketShell.Text

/-- Whitespace: what separates words and is trimmed from the ends of a text. -/
def isBlank (c : Char) : Bool :=
  let n := c.toNat
  (9 ≤ n && n ≤ 13) || (28 ≤ n && n ≤ 32) || n == 0x85 || n == 0xa0 || n == 0x1680 ||
    (0x2000 ≤ n && n ≤ 0x200a) || n == 0x2028 || n == 0x2029 || n == 0x202f || n == 0x205f ||
    n == 0x3000

/-- Characters that end a line of text. -/
def isLineBreak (c : Char) : Bool :=
  let n := c.toNat
  (10 ≤ n && n ≤ 13) || (28 ≤ n && n ≤ 30) || n == 0x85 || n == 0x2028 || n == 0x2029

/-- The blanks among the first 128 characters that surround a number. -/
def isPlainBlank (c : Char) : Bool :=
  (9 ≤ c.toNat && c.toNat ≤ 13) || c == ' '

/-- The zeros of every run of ten decimal digits. -/
def digitZeros : Array Nat := #[
  48, 1632, 1776, 1984, 2406, 2534, 2662, 2790, 2918, 3046, 3174, 3302, 3430, 3558, 3664, 3792,
  3872, 4160, 4240, 6112, 6160, 6470, 6608, 6784, 6800, 6992, 7088, 7232, 7248, 42528, 43216,
  43264, 43472, 43504, 43600, 44016, 65296, 66720, 68912, 69734, 69872, 69942, 70096, 70384, 70736,
  70864, 71248, 71360, 71472, 71904, 72016, 72784, 73040, 73120, 92768, 92864, 93008, 120782,
  120792, 120802, 120812, 120822, 123200, 123632, 125264, 130032]

/-- The value of a decimal digit of any script. -/
def decimalValue? (c : Char) : Option Nat :=
  let n := c.toNat
  if n < 128 then
    if 48 ≤ n && n ≤ 57 then some (n - 48) else none
  else
    (digitZeros.find? fun first => first ≤ n && n < first + 10).map (n - ·)

/-- A decimal digit of any script. -/
def isDecimal (c : Char) : Bool := (decimalValue? c).isSome

/-- Runs of digits that have no decimal value: superscripts, circled digits and the like. -/
def unvaluedDigits : List (Nat × Nat) := [
  (178, 179), (185, 185), (4969, 4977), (6618, 6618), (8304, 8304), (8308, 8313), (8320, 8329),
  (9312, 9320), (9332, 9340), (9352, 9360), (9450, 9450), (9461, 9469), (9471, 9471),
  (10102, 10110), (10112, 10120), (10122, 10130), (68160, 68163), (69216, 69224), (69714, 69722),
  (127232, 127242)]

/-- A digit of any kind, also one without a decimal value such as a superscript. -/
def isDigit (c : Char) : Bool :=
  isDecimal c ||
    (128 ≤ c.toNat && unvaluedDigits.any fun (first, last) => first ≤ c.toNat && c.toNat ≤ last)

/-- How many of the sorted boundaries lie at or below `code`, counted from `low`, when all before
`low` do and none from `high` on does. The halving ends after `steps` rounds. -/
def boundariesBelow (bounds : Array Nat) (code : Nat) : (steps low high : Nat) → Nat
  | 0, low, _ => low
  | steps + 1, low, high =>
    if low < high then
      let middle := (low + high) / 2
      if bounds.getD middle 0 ≤ code then boundariesBelow bounds code steps (middle + 1) high
      else boundariesBelow bounds code steps low middle
    else low

/-- The code lies inside one of the runs whose sorted boundaries are given. -/
def inRuns (bounds : Array Nat) (code : Nat) : Bool :=
  boundariesBelow bounds code 32 0 bounds.size % 2 == 1

/-- A letter or number of any script, or an underscore. -/
def isWordChar (c : Char) : Bool :=
  if c.toNat < 128 then c.isAlphanum || c == '_' else inRuns letterBounds c.toNat

/-- A character that has a visible form of its own. -/
def isVisible (c : Char) : Bool :=
  if c.toNat < 128 then 32 ≤ c.toNat && c.toNat < 127 else !inRuns invisibleBounds c.toNat

/-- A character that may start a name. -/
def startsName (c : Char) : Bool :=
  if c.toNat < 128 then c.isAlpha || c == '_' else inRuns nameStartBounds c.toNat

/-- A character that may follow the start of a name. -/
def continuesName (c : Char) : Bool :=
  if c.toNat < 128 then c.isAlphanum || c == '_' else inRuns namePartBounds c.toNat

/-- A name: one start character and any number of further ones. -/
def isName (s : String) : Bool :=
  match s.toList with
  | [] => false
  | c :: rest => startsName c && rest.all continuesName

/-- A non-empty text of digits of any kind. -/
def isDigits (s : String) : Bool := !s.isEmpty && s.toList.all isDigit

/-- A letter of any script, for telling unknown option letters from stray marks. -/
def isLetter (c : Char) : Bool :=
  if c.toNat < 128 then c.isAlpha else startsName c

end PocketShell.Text
