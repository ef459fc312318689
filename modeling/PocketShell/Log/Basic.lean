import PocketShell.Fault
import PocketShell.Json.Basic

/-!
Log entries and the log of a session. The log keeps all entries that reach its threshold, the
newest first.
-/
namespace PocketShell.Log

/-- The named levels. -/
inductive Level
  | debug
  | info
  | notice
  | warning
  | error
  | critical
  deriving Repr, DecidableEq

/-- The weight of a level. -/
def Level.weight : Level → Int
  | .debug => 10
  | .info => 20
  | .notice => 25
  | .warning => 30
  | .error => 40
  | .critical => 50

/-- The name of a level. -/
def Level.name : Level → String
  | .debug => "DEBUG"
  | .info => "INFO"
  | .notice => "NOTICE"
  | .warning => "WARNING"
  | .error => "ERROR"
  | .critical => "CRITICAL"

/-- The named levels by weight. -/
def Level.all : List Level := [.debug, .info, .notice, .warning, .error, .critical]

/-- The level of a given name. -/
def Level.ofName? (name : String) : Option Level := Level.all.find? (·.name == name)

/-- The name of a weight, also of one without a level. -/
def weightName (weight : Int) : String :=
  match Level.all.find? (·.weight == weight) with
  | some level => level.name
  | none => if weight = 0 then "NOTSET" else s!"Level {weight}"

/-- One entry. Subsystem and context may be absent, and a fault may be reported with it. -/
structure Entry where
  weight : Int
  message : String
  subsystem : Option Json
  context : Option Json
  fault : Option Fault
  deriving Repr

/-- The entry's level by name. -/
def Entry.level (entry : Entry) : String := weightName entry.weight

/-- An entry of a named subsystem. -/
def Entry.of (level : Level) (subsystem message : String) (context : List (String × Json)) :
    Entry :=
  { weight := level.weight, message, subsystem := some (.string subsystem),
    context := some (.object context), fault := none }

end Log

/-- The log of a session. -/
structure Log where
  threshold : Int
  entries : List Log.Entry
  deriving Repr, Inhabited

namespace Log

/-- An empty log at a level. Notices are kept at every level: refusals are audited by them. -/
def atLevel (level : Level) : Log := ⟨min level.weight Level.notice.weight, []⟩

/-- The log with one more entry, unless it lies below the threshold. -/
def emit (entry : Entry) (log : Log) : Log :=
  if log.threshold ≤ entry.weight then { log with entries := entry :: log.entries } else log

end Log

end PocketShell
