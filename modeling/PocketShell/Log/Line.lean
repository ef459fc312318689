import PocketShell.Calendar
import PocketShell.Json.Writer
import PocketShell.Log.Basic

/-!
The lines under which log entries are written: level, subsystem, message and context, with the
time in front, and below them the fault that is reported with the entry.
-/
namespace PocketShell.Log

/-- The colour of a level on a terminal. -/
def colour? : String → Option String
  | "DEBUG" => some "\x1b[36m"
  | "INFO" => some "\x1b[32m"
  | "NOTICE" => some "\x1b[34m"
  | "WARNING" => some "\x1b[33m"
  | "ERROR" => some "\x1b[31m"
  | "CRITICAL" => some "\x1b[35m"
  | _ => none

/-- The level in eight places, coloured if asked. -/
def levelText (coloured : Bool) (level : String) : String :=
  match if coloured then colour? level else none with
  | some colour => colour ++ Text.padRight 8 level ++ "\x1b[0m"
  | none => Text.padRight 8 level

/-- The members of a context, in braces; a context that counts as false is not shown. -/
def contextText : Option Json → Except Fault (List String)
  | none => .ok []
  | some context =>
    if !context.truthy then .ok []
    else match context with
      | .object members =>
        let body := " ".intercalate (members.map fun (name, value) => name ++ "=" ++ value.plain)
        .ok ["\x7b" ++ body ++ "\x7d"]
      | _ => .error .noMember

/-- The text of an entry after its time. -/
def lineText (coloured : Bool) (entry : Entry) : Except Fault String := do
  let subsystem := match entry.subsystem with
    | some name => ["[" ++ name.plain ++ "]"]
    | none => []
  let context ← contextText entry.context
  let line := " ".intercalate
    (levelText coloured entry.level :: subsystem ++ entry.message :: context)
  return match entry.fault with
    | some fault => line ++ "\n" ++ fault.trace
    | none => line

/-- The time of an entry to the millisecond. -/
def timeText (created : Binary64) : Except Fault String :=
  match created.microseconds? with
  | some (seconds, micros) =>
    .ok ((Moment.ofSeconds seconds).format "%Y-%m-%d %H:%M:%S" ++ "."
      ++ Text.padDigits 10 3 (micros / 1000))
  | none => match created with
    | .nan => .error (.badValue "cannot convert float NaN to integer")
    | _ => .error (.overflow "cannot convert float infinity to integer")

/-- The text of an entry with its time in front. -/
def timedLine (coloured : Bool) (created : Binary64) (entry : Entry) : Except Fault String := do
  return "[" ++ (← timeText created) ++ "] " ++ (← lineText coloured entry)

end PocketShell.Log
