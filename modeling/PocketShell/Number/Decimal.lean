import PocketShell.Number.Binary64
import PocketShell.Text.Numeral

/-!
Reading decimal fractions: an optional sign, digits with an optional point among them, an optional
exponent, or one of the words for infinity and for what is no number.
-/
namespace PocketShell.Decimal

/-- The digits at the front, and what follows. -/
def spanDigits (cs : List Char) : List Char × List Char := cs.span Char.isDigit

/-- The number a text of plain digits stands for. -/
def digitsToNat (cs : List Char) : Nat := cs.foldl (fun n c => 10 * n + (c.toNat - 48)) 0

/-- An exponent at the front: a mark, a sign and digits; without digits there is none. -/
def readExponent (cs : List Char) : Int × List Char :=
  match cs with
  | mark :: rest =>
    if mark = 'e' || mark = 'E' then
      let (negative, body) := match rest with
        | '-' :: r => (true, r)
        | '+' :: r => (false, r)
        | r => (false, r)
      let (digits, after) := spanDigits body
      if digits.isEmpty then (0, cs)
      else
        let n : Int := digitsToNat digits
        (if negative then -n else n, after)
    else (0, cs)
  | [] => (0, cs)

/-- An unsigned decimal fraction at the front, with at least one digit before or after its point. -/
def readFraction (negative : Bool) (cs : List Char) : Option (Binary64 × List Char) :=
  let (whole, rest) := spanDigits cs
  let (fraction, rest) := match rest with
    | '.' :: r => spanDigits r
    | _ => ([], rest)
  if whole.isEmpty && fraction.isEmpty then none
  else
    let (exponent, rest) := readExponent rest
    some (.ofDecimal negative (digitsToNat (whole ++ fraction)) (exponent - fraction.length), rest)

/-- Underscores between two digits left out; one in another place refuses the text. -/
def dropUnderscores : (afterDigit : Bool) → List Char → Option (List Char)
  | _, [] => some []
  | afterDigit, '_' :: c :: rest =>
    if afterDigit && c.isDigit then (dropUnderscores true rest).map (c :: ·) else none
  | _, '_' :: [] => none
  | _, c :: rest => (dropUnderscores c.isDigit rest).map (c :: ·)

/-- Digits of other scripts as plain ones and other blanks as spaces. -/
def plainChar (c : Char) : Char :=
  if c.toNat < 128 then c
  else if Text.isBlank c then ' '
  else match Text.decimalValue? c with
    | some d => Char.ofNat (48 + d)
    | none => '?'

/-- Reads a decimal fraction that may stand between blanks. -/
def read? (s : String) : Option Binary64 := do
  let cs := s.toList.map plainChar
  let cs := cs.dropWhile Text.isPlainBlank
  let cs := (cs.reverse.dropWhile Text.isPlainBlank).reverse
  let cs ← dropUnderscores false cs
  let (negative, body) := match cs with
    | '-' :: r => (true, r)
    | '+' :: r => (false, r)
    | r => (false, r)
  let word := String.ofList (body.map Char.toLower)
  if word = "inf" || word = "infinity" then return .infinity negative
  if word = "nan" then return .nan
  match readFraction negative body with
  | some (x, []) => return x
  | _ => none

end PocketShell.Decimal
