import PocketShell.Text.Class
import PocketShell.Text.Quoted

/-!
Reading whole numbers. A numeral may stand between blanks, carry a sign, use the digits of any
script and hold single underscores between digits.
-/
namespace PocketShell.Text

/-- Why a text is no whole number. -/
inductive NumeralError
  /-- The text has another form. -/
  | malformed (text : String)
  /-- The number has more digits than are read. -/
  | tooLong (digits : Nat)
  deriving Repr, DecidableEq

/-- The most digits a numeral may have. -/
def maxDigits : Nat := 4300

/-- The wording of a numeral's refusal; the text it shows is cut after 200 characters. -/
def NumeralError.message : NumeralError → String
  | .malformed text =>
    s!"invalid literal for int() with base 10: {String.ofList ((quoted text).toList.take 200)}"
  | .tooLong digits =>
    s!"Exceeds the limit ({maxDigits} digits) for integer string conversion: value has {digits} digits; use sys.set_int_max_str_digits() to increase the limit"

/-- The blanks that may surround a numeral: beyond the first 128 characters all of them. -/
def surroundsNumber (c : Char) : Bool := isPlainBlank c || (128 ≤ c.toNat && isBlank c)

/-- The digits of a numeral with the underscores between them left out; `none` when another
character stands among them, or an underscore at an end or beside another. -/
def numeralDigits : List Char → Option (List Nat)
  | [] => none
  | [c] => (decimalValue? c).map ([·])
  | c :: '_' :: rest => do
    let digit ← decimalValue? c
    let digits ← numeralDigits rest
    return digit :: digits
  | c :: rest => do
    let digit ← decimalValue? c
    let digits ← numeralDigits rest
    return digit :: digits

/-- The number whose decimal digits are given, most significant first. -/
def ofDigits (digits : List Nat) : Nat := digits.foldl (fun n d => 10 * n + d) 0

/-- Reads a whole number. -/
def readInt (s : String) : Except NumeralError Int := do
  let body := s.toList.dropWhile surroundsNumber
  let body := (body.reverse.dropWhile surroundsNumber).reverse
  let (negative, body) := match body with
    | '-' :: rest => (true, rest)
    | '+' :: rest => (false, rest)
    | rest => (false, rest)
  match numeralDigits body with
  | none => throw (.malformed s)
  | some digits =>
    if digits.length > maxDigits then throw (.tooLong digits.length)
    let n : Int := ofDigits digits
    return if negative then -n else n

end PocketShell.Text
