import PocketShell.Calendar
import PocketShell.Fault
import PocketShell.Number.Binary64

/-!
Moments and durations out of numbers of seconds. A number of seconds need not be a moment that the
calendar can show, nor a difference of two of them a whole number.
-/
namespace PocketShell

/-- The years that a moment may lie in: those whose distance from 1900 fits 32 bits with a sign. -/
def Moment.inRange (moment : Moment) : Bool :=
  -0x80000000 ≤ moment.year - 1900 && moment.year - 1900 < 0x80000000

/-- The moment after a number of seconds, without their fraction. -/
def Moment.ofNumber (seconds : Binary64) : Except Fault Moment :=
  match seconds with
  | .nan => .error (.badValue "Invalid value NaN (not a number)")
  | seconds => match seconds.floor? with
    | none => .error (.overflow "timestamp out of range for platform time_t")
    | some whole =>
      if whole < -0x8000000000000000 || 0x8000000000000000 ≤ whole then
        .error (.overflow "timestamp out of range for platform time_t")
      else
        let moment := ofSeconds whole
        if moment.inRange then .ok moment else .error .outOfRange

/-- The text of a moment by a pattern. The pattern holds no null character, and a year that takes
more than 32 bits has no text. -/
def Moment.text (pattern : String) (moment : Moment) : Except Fault String :=
  if 0x80000000 ≤ moment.year then .error (.overflow "signed integer is greater than maximum")
  else if pattern.toList.contains '\x00' then .error (.badValue "embedded null character")
  else .ok (moment.format pattern)

/-- The text of the moment after a number of seconds. -/
def Moment.textOfNumber (pattern : String) (seconds : Binary64) : Except Fault String := do
  (← Moment.ofNumber seconds).text pattern

/-- A number without its fraction. -/
def Binary64.toWhole (x : Binary64) : Except Fault Int :=
  match x with
  | .nan => .error (.badValue "cannot convert float NaN to integer")
  | x => match x.trunc? with
    | some i => .ok i
    | none => .error (.overflow "cannot convert float infinity to integer")

/-- The whole seconds from one moment to a later one. -/
def elapsed (start now : Binary64) : Except Fault Int := (now.sub start).toWhole

end PocketShell
