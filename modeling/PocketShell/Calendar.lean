import PocketShell.Text.Split

/-!
Dates and times of day in universal time, counted in seconds from the start of 1970, and their
text by a pattern of directives.
-/
namespace PocketShell

/-- A moment on the calendar. Weekdays count from Sunday, days of the year from zero. -/
structure Moment where
  seconds : Int
  year : Int
  month : Nat
  day : Nat
  hour : Nat
  minute : Nat
  second : Nat
  weekday : Nat
  yearDay : Nat
  deriving Repr, DecidableEq

namespace Moment

/-- A year with 366 days. -/
def isLeap (year : Int) : Bool := year % 4 == 0 && (year % 100 != 0 || year % 400 == 0)

/-- Days of the year before the first of a month, in a year of 365 days. -/
def daysBefore : Nat → Nat
  | 1 => 0
  | 2 => 31
  | 3 => 59
  | 4 => 90
  | 5 => 120
  | 6 => 151
  | 7 => 181
  | 8 => 212
  | 9 => 243
  | 10 => 273
  | 11 => 304
  | _ => 334

/-- Year, month and day of the day that is `days` after the first of 1970. Years run from March so
that a leap day comes last. -/
def civil (days : Int) : Int × Nat × Nat :=
  let shifted := days + 719468
  let era := shifted / 146097
  let dayOfEra := (shifted % 146097).toNat
  let yearOfEra := (dayOfEra - dayOfEra / 1460 + dayOfEra / 36524 - dayOfEra / 146096) / 365
  let dayOfYear := dayOfEra - (365 * yearOfEra + yearOfEra / 4 - yearOfEra / 100)
  let part := (5 * dayOfYear + 2) / 153
  let day := dayOfYear - (153 * part + 2) / 5 + 1
  let month := if part < 10 then part + 3 else part - 9
  let year := (yearOfEra : Int) + era * 400 + (if month ≤ 2 then 1 else 0)
  (year, month, day)

/-- The moment a number of seconds after the start of 1970. -/
def ofSeconds (seconds : Int) : Moment :=
  let days := seconds / 86400
  let rest := (seconds % 86400).toNat
  let (year, month, day) := civil days
  { seconds, year, month, day, hour := rest / 3600, minute := rest / 60 % 60, second := rest % 60,
    weekday := ((days + 4) % 7).toNat,
    yearDay := daysBefore month + (if 2 < month && isLeap year then 1 else 0) + (day - 1) }

/-- The names of the weekdays. -/
def weekdays : List String :=
  ["Sunday", "Monday", "Tuesday", "Wednesday", "Thursday", "Friday", "Saturday"]

/-- The names of the months. -/
def months : List String :=
  ["January", "February", "March", "April", "May", "June", "July", "August", "September",
    "October", "November", "December"]

/-- The name of the weekday. -/
def weekdayName (m : Moment) : String := weekdays.getD m.weekday ""

/-- The name of the month. -/
def monthName (m : Moment) : String := months.getD (m.month - 1) ""

/-- The first three letters of a name. -/
def shortName (name : String) : String := String.ofList (name.toList.take 3)

/-- The hour on a dial of twelve. -/
def dialHour (m : Moment) : Nat := if m.hour % 12 = 0 then 12 else m.hour % 12

/-- The number of the week when weeks begin on the weekday `first` and the days before the first
such day make week zero. -/
def weekFrom (first : Nat) (m : Moment) : Nat := (m.yearDay + 7 - (m.weekday + 7 - first) % 7) / 7

/-- The weekday counted from Monday as one to Sunday as seven. -/
def isoWeekday (m : Moment) : Nat := if m.weekday = 0 then 7 else m.weekday

/-- The number of weeks in a year when a week belongs to the year of its Thursday. -/
def isoWeeks (year : Int) : Nat :=
  let lastDay (y : Int) : Int := (y + y / 4 - y / 100 + y / 400) % 7
  if lastDay year = 4 || lastDay (year - 1) = 3 then 53 else 52

/-- Year and week when a week belongs to the year of its Thursday. -/
def isoWeek (m : Moment) : Int × Nat :=
  let week := (m.yearDay + 11 - m.isoWeekday) / 7
  if week < 1 then (m.year - 1, isoWeeks (m.year - 1))
  else if isoWeeks m.year < week then (m.year + 1, 1)
  else (m.year, week)

/-- A natural number in two places with zeros in front. -/
def two (n : Nat) : String := Text.padDigits 10 2 n

/-- A natural number in two places with a space in front. -/
def spaced (n : Nat) : String := Text.padLeft 2 (toString n)

/-- Hour, minute and second. -/
def clock (m : Moment) : String := s!"{two m.hour}:{two m.minute}:{two m.second}"

/-- The two last digits of a year. -/
def yearOfCentury (year : Int) : Nat := (year % 100).toNat

/-- Month, day and year of the century. -/
def slashDate (m : Moment) : String :=
  s!"{two m.month}/{two m.day}/{two (yearOfCentury m.year)}"

/-- The half of the day. -/
def half (m : Moment) : String := if m.hour < 12 then "AM" else "PM"

/-- The text of one directive; an unknown one stands for itself. -/
def directive (m : Moment) : Char → String
  | 'Y' => toString m.year
  | 'C' => two (m.year / 100).toNat
  | 'y' => two (yearOfCentury m.year)
  | 'm' => two m.month
  | 'd' => two m.day
  | 'e' => spaced m.day
  | 'H' => two m.hour
  | 'I' => two m.dialHour
  | 'k' => spaced m.hour
  | 'l' => spaced m.dialHour
  | 'M' => two m.minute
  | 'S' => two m.second
  | 'p' => m.half
  | 'P' => if m.hour < 12 then "am" else "pm"
  | 'a' => shortName m.weekdayName
  | 'A' => m.weekdayName
  | 'b' => shortName m.monthName
  | 'h' => shortName m.monthName
  | 'B' => m.monthName
  | 'j' => Text.padDigits 10 3 (m.yearDay + 1)
  | 'u' => toString m.isoWeekday
  | 'w' => toString m.weekday
  | 'U' => two (m.weekFrom 0)
  | 'W' => two (m.weekFrom 1)
  | 'V' => two m.isoWeek.2
  | 'G' => toString m.isoWeek.1
  | 'g' => two (yearOfCentury m.isoWeek.1)
  | 'F' => s!"{m.year}-{two m.month}-{two m.day}"
  | 'T' => m.clock
  | 'X' => m.clock
  | 'D' => m.slashDate
  | 'x' => m.slashDate
  | 'R' => s!"{two m.hour}:{two m.minute}"
  | 'r' => s!"{two m.dialHour}:{two m.minute}:{two m.second} {m.half}"
  | 'c' =>
    s!"{shortName m.weekdayName} {shortName m.monthName} {spaced m.day} {m.clock} {m.year}"
  | 's' => toString m.seconds
  | 'Z' => "UTC"
  | 'z' => "+0000"
  | 'n' => "\n"
  | 't' => "\t"
  | '%' => "%"
  | c => String.ofList ['%', c]

/-- The characters of a pattern with its directives replaced. -/
def formatChars (m : Moment) : List Char → List Char
  | [] => []
  | '%' :: c :: rest => (m.directive c).toList ++ formatChars m rest
  | c :: rest => c :: formatChars m rest

/-- The moment by a pattern. -/
def format (pattern : String) (m : Moment) : String :=
  String.ofList (m.formatChars pattern.toList)

end Moment

end PocketShell
