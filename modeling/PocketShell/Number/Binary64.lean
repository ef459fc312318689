/-!
Double-precision numbers as exact values: a finite one is `± significand · 2 ^ exponent`. Every
operation computes the exact result first and rounds once, to the nearest number and at a tie to
the even significand.
-/
namespace PocketShell

/-- A double-precision number. -/
inductive Binary64
  | finite (negative : Bool) (significand : Nat) (exponent : Int)
  | infinity (negative : Bool)
  | nan
  deriving Repr, DecidableEq, Inhabited

namespace Binary64

/-- The exponent of the smallest positive number and of zero. -/
def minExponent : Int := -1074

/-- The exponent of the largest finite number. -/
def maxExponent : Int := 971

/-- Zero. -/
def zero : Binary64 := .finite false 0 minExponent

/-- The quotient rounded to the nearest whole number, at a tie to the even one. -/
def roundHalfEven (num den : Nat) : Nat :=
  let quotient := num / den
  let rest := num % den
  if 2 * rest < den then quotient
  else if den < 2 * rest then quotient + 1
  else quotient + quotient % 2

/-- The quotient `num / (den · 2 ^ exponent)` as a pair of natural numbers. -/
def scale (num den : Nat) (exponent : Int) : Nat × Nat :=
  if 0 ≤ exponent then (num, den * Nat.pow 2 exponent.toNat)
  else (num * Nat.pow 2 (-exponent).toNat, den)

/-- The least significand of full length, which is 53 binary digits. -/
def leastSignificand : Nat := 0x10000000000000

/-- The number nearest to `± num / den`; the magnitude overflows to infinity. -/
def ofRatio (negative : Bool) (num den : Nat) : Binary64 :=
  if num = 0 then .finite negative 0 minExponent
  else
    let guess : Int := (num.log2 : Int) - den.log2 - 52
    let (top, bottom) := scale num den guess
    let exponent := max minExponent (if top < leastSignificand * bottom then guess - 1 else guess)
    let (top, bottom) := scale num den exponent
    let significand := roundHalfEven top bottom
    let (significand, exponent) :=
      if significand = 2 * leastSignificand then (leastSignificand, exponent + 1)
      else (significand, exponent)
    if maxExponent < exponent then .infinity negative
    else .finite negative significand exponent

/-- The number nearest to a whole number. -/
def ofInt (i : Int) : Binary64 := ofRatio (i < 0) i.natAbs 1

/-- How many decimal digits a natural number has. -/
def digitCount (n : Nat) : Nat := (Nat.toDigits 10 n).length

/-- The number nearest to `± digits · 10 ^ exponent`. Magnitudes far outside the range are settled
without computing the power. -/
def ofDecimal (negative : Bool) (digits : Nat) (exponent : Int) : Binary64 :=
  let magnitude := (digitCount digits : Int) + exponent
  if digits = 0 || magnitude < -400 then .finite negative 0 minExponent
  else if 400 < magnitude then .infinity negative
  else if 0 ≤ exponent then ofRatio negative (digits * Nat.pow 10 exponent.toNat) 1
  else ofRatio negative digits (Nat.pow 10 (-exponent).toNat)

/-- The magnitude of a finite number as a quotient of natural numbers. -/
def magnitude (significand : Nat) (exponent : Int) : Nat × Nat :=
  if 0 ≤ exponent then (significand * Nat.pow 2 exponent.toNat, 1)
  else (significand, Nat.pow 2 (-exponent).toNat)

/-- The exact value of a finite number as a numerator and a positive denominator. -/
def ratio? : Binary64 → Option (Int × Nat)
  | .finite negative significand exponent =>
    let (num, den) := magnitude significand exponent
    some (if negative then -num else num, den)
  | _ => none

/-- The difference, rounded. -/
def sub (a b : Binary64) : Binary64 :=
  match a, b with
  | .nan, _ | _, .nan => .nan
  | .infinity n, .infinity m => if n = m then .nan else .infinity n
  | .infinity n, _ => .infinity n
  | _, .infinity m => .infinity (!m)
  | a, b =>
    match a.ratio?, b.ratio? with
    | some (x, p), some (y, q) =>
      let difference := x * q - y * p
      ofRatio (difference < 0) difference.natAbs (p * q)
    | _, _ => .nan

/-- Strictly smaller; never so beside a number that is none. -/
def blt (a b : Binary64) : Bool :=
  match a, b with
  | .nan, _ | _, .nan => false
  | .infinity n, .infinity m => n && !m
  | .infinity n, _ => n
  | _, .infinity m => !m
  | a, b =>
    match a.ratio?, b.ratio? with
    | some (x, p), some (y, q) => x * q < y * p
    | _, _ => false

/-- The greatest whole number that is not above a finite number. -/
def floor? (x : Binary64) : Option Int :=
  x.ratio?.map fun (num, den) => Int.fdiv num den

/-- A finite number without its fraction. -/
def trunc? (x : Binary64) : Option Int :=
  x.ratio?.map fun (num, den) => Int.tdiv num den

/-- The number is a whole one. -/
def whole? (x : Binary64) : Option Int :=
  x.ratio?.bind fun (num, den) => if num % den = 0 then some (num / den) else none

/-- Seconds and microseconds of a moment: the fraction of a second is scaled in double precision
and then rounded to the nearest microsecond, at a tie to the even one. -/
def microseconds? (x : Binary64) : Option (Int × Nat) :=
  x.ratio?.bind fun (num, den) =>
    let seconds := Int.tdiv num den
    let fraction := Int.tmod num den
    match (ofRatio (fraction < 0) (fraction.natAbs * 1000000) den).ratio? with
    | none => none
    | some (top, bottom) =>
      let micros : Int := roundHalfEven top.natAbs bottom
      let micros := if top < 0 then -micros else micros
      if 1000000 ≤ micros then some (seconds + 1, (micros - 1000000).toNat)
      else if micros < 0 then some (seconds - 1, (micros + 1000000).toNat)
      else some (seconds, micros.toNat)

end Binary64

end PocketShell
