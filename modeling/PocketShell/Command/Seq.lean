import PocketShell.Command.Basic

/-!
Sequences of whole numbers.
-/
namespace PocketShell.Command

open Shell

/-- A sequence: where it starts, how far apart its numbers are, and the number that it does not go
beyond. -/
structure Progression where
  first : Int
  step : Int
  last : Int
  deriving Repr, DecidableEq

namespace Progression

/-- How many numbers a sequence has. -/
def count (p : Progression) : Nat :=
  if 0 < p.step then if p.first ≤ p.last then ((p.last - p.first) / p.step + 1).toNat else 0
  else if p.step < 0 then
    if p.last ≤ p.first then ((p.first - p.last) / -p.step + 1).toNat else 0
  else 0

/-- The numbers of a sequence. -/
def toList (p : Progression) : List Int :=
  (List.range p.count).map fun (i : Nat) => p.first + i * p.step

/-- A sequence by its last number, by its first and last one, or with the step in between. -/
def ofNumbers? : List Int → Option Progression
  | [last] => some ⟨1, 1, last⟩
  | [first, last] => some ⟨first, 1, last⟩
  | [first, step, last] => some ⟨first, step, last⟩
  | _ => none

end Progression

/-- The argument looks like digits behind hyphens. -/
def looksNumeric (arg : String) : Bool := Text.isDigits (String.ofList (arg.toList.dropWhile (· == '-')))

/-- The numbers that arguments stand for. An argument that is none is told when it does not look
like one; when all do, the command breaks off. -/
def numbersOf (args : List String) : Except Fault (Except Outcome (List Int)) :=
  match args.find? fun arg => (Text.readInt arg).toOption.isNone with
  | none => .ok (.ok (args.filterMap fun arg => (Text.readInt arg).toOption))
  | some bad => match args.find? (!looksNumeric ·) with
    | some offender => .ok (.error (.fail "seq" s!"invalid argument: '{offender}'"))
    | none => .error (.noOffender bad)

/-- Prints a sequence. -/
def seq (args : List String) : Job := do
  if args.isEmpty || 3 < args.length then
    return .fail "seq" "usage: seq [FIRST [INCREMENT]] LAST"
  match ← numbersOf args with
  | .error failure => return failure
  | .ok numbers => match Progression.ofNumbers? numbers with
    | none => return .silent
    | some progression =>
      if progression.step = 0 then return .fail "seq" "invalid Zero increment value: '0'"
      return .text (Text.unlines (progression.toList.map toString))

end PocketShell.Command
