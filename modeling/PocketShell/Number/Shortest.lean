import PocketShell.Number.Binary64
import PocketShell.Text.Split

/-!
The decimal text of a double-precision number: the fewest digits that read back as the same
number, and of those the nearest to it.
-/
namespace PocketShell.Binary64

/-- The larger part of a quotient's decimal exponent: `10 ^ (k - 1) ≤ num / den < 10 ^ k`. The
first argument bounds the search, which starts below. -/
def decimalPoint (num den : Nat) : (steps : Nat) → Int → Int
  | 0, k => k
  | steps + 1, k =>
    let below := if 0 ≤ k then num < den * Nat.pow 10 k.toNat
      else num * Nat.pow 10 (-k).toNat < den
    if below then k else decimalPoint num den steps (k + 1)

/-- The two neighbours of `num / den` on the grid of multiples of `10 ^ step` that read back as the
number, the nearer one first. -/
def gridHits (x : Binary64) (negative : Bool) (num den : Nat) (step : Int) : List Nat :=
  let (top, bottom) := if 0 ≤ step then (num, den * Nat.pow 10 step.toNat)
    else (num * Nat.pow 10 (-step).toNat, den)
  let low := top / bottom
  let rest := top % bottom
  let nearestFirst :=
    if 2 * rest < bottom || (2 * rest == bottom && low % 2 == 0) then [low, low + 1]
    else [low + 1, low]
  nearestFirst.filter fun digits => ofDecimal negative digits step == x

/-- A finite number written exactly as a whole number times a power of ten. -/
def exactDecimal (significand : Nat) (exponent : Int) : Nat × Int :=
  if 0 ≤ exponent then (significand * Nat.pow 2 exponent.toNat, 0)
  else (significand * Nat.pow 5 (-exponent).toNat, exponent)

/-- The first grid from `count` digits on that holds a decimal reading back as the number. -/
def shortestFrom (x : Binary64) (negative : Bool) (num den : Nat) (point : Int) :
    (steps count : Nat) → Option (Nat × Int)
  | 0, _ => none
  | steps + 1, count =>
    let step := point - count
    match gridHits x negative num den step with
    | digits :: _ => some (digits, step)
    | [] => shortestFrom x negative num den point steps (count + 1)

/-- Digits and decimal exponent of a finite number: the shortest that read back, and should none
of at most seventeen digits do so, the exact ones. -/
def shortest (negative : Bool) (significand : Nat) (exponent : Int) : Nat × Int :=
  let (num, den) := magnitude significand exponent
  let start : Int := ((num.log2 : Int) - den.log2 - 1) * 30103 / 100000 - 1
  let point := decimalPoint num den 5 start
  match shortestFrom (.finite negative significand exponent) negative num den point 17 1 with
  | some found => found
  | none => exactDecimal significand exponent

/-- Digits without the zeros at their end, which the exponent takes over. -/
def dropZeros (digits : List Char) (exponent : Int) : List Char × Int :=
  let kept := (digits.reverse.dropWhile (· == '0')).reverse
  (kept, exponent + (digits.length - kept.length : Nat))

/-- A magnitude in positional form when its point lies within sixteen places right or four places
left of the first digit, else with an exponent of at least two digits. -/
def layOut (digits : Nat) (exponent : Int) : String :=
  if digits = 0 then "0.0"
  else
    let (ds, exponent) := dropZeros (Nat.toDigits 10 digits) exponent
    let point := (ds.length : Int) + exponent
    if -4 < point ∧ point ≤ 16 then
      if point ≤ 0 then
        String.ofList ('0' :: '.' :: (List.replicate (-point).toNat '0' ++ ds))
      else
        let before := ds.take point.toNat
        let after := ds.drop point.toNat
        let zeros := List.replicate (point.toNat - before.length) '0'
        String.ofList (before ++ zeros ++ '.' :: (if after.isEmpty then ['0'] else after))
    else
      let power := point - 1
      let sign := if power < 0 then '-' else '+'
      let lead := ds.take 1
      let tail := ds.drop 1
      String.ofList (lead ++ (if tail.isEmpty then [] else '.' :: tail) ++ ['e', sign])
        ++ Text.padDigits 10 2 power.natAbs

/-- The decimal text of a number. -/
def toText : Binary64 → String
  | .nan => "nan"
  | .infinity negative => if negative then "-inf" else "inf"
  | .finite negative significand exponent =>
    let (digits, power) := shortest negative significand exponent
    (if negative then "-" else "") ++ layOut digits power

end PocketShell.Binary64
