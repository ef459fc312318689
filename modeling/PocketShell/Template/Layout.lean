import PocketShell.Fault
import PocketShell.Text.Split

/-!
Layouts: how a text stands in a field of a template. A layout gives a filling, a side, a width and a
length to cut at. It may be written with what only numbers have; a text refuses that.
-/
namespace PocketShell.Template

/-- Where a text stands in a field that is wider. -/
inductive Side
  | left
  | right
  | centre
  | behindSign
  deriving Repr, DecidableEq

/-- The side of a mark. -/
def Side.ofMark? : Char → Option Side
  | '<' => some .left
  | '>' => some .right
  | '^' => some .centre
  | '=' => some .behindSign
  | _ => none

/-- A layout as it is written; `separators` groups the digits of numbers. -/
structure Layout where
  fill : Char
  side : Side
  sign : Option Char
  positiveZero : Bool
  alternate : Bool
  width : Option Nat
  separators : List Char
  limit : Option Nat
  type : Char
  deriving Repr, DecidableEq

/-- The number whose digits stand at the front; one beyond 63 bits is refused. -/
def readCount (cs : List Char) : Except Fault (Option Nat × List Char) := do
  let digits := cs.takeWhile Text.isDecimal
  let count := digits.foldl (fun n c => 10 * n + (Text.decimalValue? c).getD 0) 0
  if 0x8000000000000000 ≤ count then throw (.badValue "Too many decimal digits in format string")
  return (if digits.isEmpty then none else some count, cs.dropWhile Text.isDecimal)

/-- Filling and side at the front, if they are given. -/
def readSide (cs : List Char) : Option Char × Option Side × List Char :=
  let alone : Option Char × Option Side × List Char := match cs with
    | mark :: rest => match Side.ofMark? mark with
      | some side => (none, some side, rest)
      | none => (none, none, cs)
    | [] => (none, none, cs)
  match cs with
  | fill :: mark :: rest => match Side.ofMark? mark with
    | some side => (some fill, some side, rest)
    | none => alone
  | _ => alone

/-- One of some characters at the front, if it is there. -/
def takeMark (marks : List Char) : List Char → Option Char × List Char
  | c :: rest => if marks.contains c then (some c, rest) else (none, c :: rest)
  | [] => (none, [])

/-- The grouping of digits at the front; only one way of it may be given. -/
def readSeparators (cs : List Char) : Except Fault (List Char × List Char) := do
  let (comma, rest) := takeMark [','] cs
  let (underscore, rest) := takeMark ['_'] rest
  let found := comma.toList ++ underscore.toList
  if 1 < found.length || (underscore.isSome && rest.head? == some ',') then
    throw (.badValue "Cannot specify both ',' and '_'.")
  return (found, rest)

/-- The length to cut at, behind a point. -/
def readLimit (cs : List Char) : Except Fault (Option Nat × List Char) := do
  match cs with
  | '.' :: rest =>
    let (limit, after) ← readCount rest
    if limit.isNone then throw (.badValue "Format specifier missing precision")
    return (limit, after)
  | _ => return (none, cs)

/-- A character as messages show it, beyond plain visible ones by its code. -/
def shownMark (shown : Char → Bool) (c : Char) : String :=
  if shown c then String.singleton c
  else "\\x" ++ Text.padDigits 16 1 c.toNat

/-- The plain characters behind the space. -/
def isPlainMark (c : Char) : Bool := 32 < c.toNat && c.toNat < 128

/-- The types of numbers whose digits can be grouped. -/
def groups (separator type : Char) : Bool :=
  "deEfFgG%".toList.contains type || (separator = '_' && "boxX".toList.contains type)

/-- Reads a layout. -/
def Layout.read (cs : List Char) : Except Fault Layout := do
  let (fill, side, rest) := readSide cs
  let (sign, rest) := takeMark [' ', '+', '-'] rest
  let (positiveZero, rest) := takeMark ['z'] rest
  let (alternate, rest) := takeMark ['#'] rest
  let (zero, rest) := if fill.isNone then takeMark ['0'] rest else (none, rest)
  let (width, rest) ← readCount rest
  let (separators, rest) ← readSeparators rest
  let (limit, rest) ← readLimit rest
  let type ← match rest with
    | [] => pure 's'
    | [type] => pure type
    | _ => throw (.badValue
        s!"Invalid format specifier '{String.ofList cs}' for object of type 'str'")
  match separators with
  | separator :: _ =>
    if !groups separator type then
      throw (.badValue s!"Cannot specify '{separator}' with '{shownMark isPlainMark type}'.")
  | [] => pure ()
  return {
    fill := fill.getD (zero.getD ' ')
    side := side.getD .left
    sign
    positiveZero := positiveZero.isSome
    alternate := alternate.isSome
    width, separators, limit, type }

/-- Refuses what only numbers have. -/
def Layout.checkText (layout : Layout) : Except Fault Unit := do
  if layout.type != 's' then
    throw (.badValue
      s!"Unknown format code '{shownMark isPlainMark layout.type}' for object of type 'str'")
  match layout.sign with
  | none => pure ()
  | some ' ' => throw (.badValue "Space not allowed in string format specifier")
  | some _ => throw (.badValue "Sign not allowed in string format specifier")
  if layout.positiveZero then
    throw (.badValue "Negative zero coercion (z) not allowed in string format specifier")
  if layout.alternate then
    throw (.badValue "Alternate form (#) not allowed in string format specifier")
  if layout.side = .behindSign then
    throw (.badValue "'=' alignment not allowed in string format specifier")

/-- The text cut and filled up. -/
def Layout.place (layout : Layout) (text : List Char) : List Char :=
  let text := match layout.limit with
    | none => text
    | some limit => text.take limit
  let space := layout.width.getD 0 - text.length
  let before := match layout.side with
    | .left => 0
    | .right => space
    | .centre => space / 2
    | .behindSign => 0
  List.replicate before layout.fill ++ text ++ List.replicate (space - before) layout.fill

/-- A text by a layout as it is written; the empty one changes nothing. -/
def layOut (layout text : List Char) : Except Fault (List Char) := do
  if layout.isEmpty then return text
  let layout ← Layout.read layout
  layout.checkText
  return layout.place text

end PocketShell.Template
