import PocketShell.Json.Writer

/-!
Reports: errors with a number and a context, sorted into families. A family stands below a wider
one, and each has a number of its own that its reports carry unless they bring another.
-/
namespace PocketShell

namespace Report

/-- The families of reports. -/
inductive Family
  | general
  | filesystem
  | snapshot
  | configuration
  | configFile
  | configValue
  deriving Repr, DecidableEq

namespace Family

/-- The number of a family. -/
def number : Family → Int
  | .general => 0
  | .filesystem => 4000
  | .snapshot => 4010
  | .configuration => 1000
  | .configFile => 1001
  | .configValue => 1002

/-- The family and those that it stands below, the widest one last. -/
def lineage : Family → List Family
  | .general => [.general]
  | .filesystem => [.filesystem, .general]
  | .snapshot => [.snapshot, .filesystem, .general]
  | .configuration => [.configuration, .general]
  | .configFile => [.configFile, .configuration, .general]
  | .configValue => [.configValue, .configuration, .general]

end Family

end Report

/-- An error with a number and a context. -/
structure Report where
  family : Report.Family
  message : String
  number : Int
  context : List (String × Json)
  deriving Repr

namespace Report

/-- A report of a family; zero stands for the family's number. -/
def ofNumber (family : Family) (message : String) (number : Int) (context : List (String × Json)) :
    Report :=
  ⟨family, message, if number = 0 then family.number else number, context⟩

/-- The context with a member, unless its value counts as false. -/
def addMember (name : String) (value : Json) (context : List (String × Json)) :
    List (String × Json) :=
  if value.truthy then Json.insertMember name value context else context

/-- A snapshot that cannot be used; the inode at fault may be told. -/
def ofSnapshot (reason : String) (inode : Json) (context : List (String × Json)) : Report :=
  let context := match inode with
    | .null => context
    | inode => Json.insertMember "inode_id" inode context
  ⟨.snapshot, s!"Corrupt snapshot: {reason}", Family.snapshot.number, context⟩

/-- A configuration file that cannot be used. -/
def ofConfigFile (message : String) (path : Json) (context : List (String × Json)) : Report :=
  ⟨.configFile, message, Family.configFile.number, addMember "path" path context⟩

/-- A key or value of a configuration that cannot be used. -/
def ofConfigValue (message : String) (key : Json) (context : List (String × Json)) : Report :=
  ⟨.configValue, message, Family.configValue.number, addMember "key" key context⟩

/-- The members of a context as the wording of a report shows them. -/
def contextText (context : List (String × Json)) : String :=
  ", ".intercalate (context.map fun (name, value) => name ++ "=" ++ value.plain)

/-- The wording of a report. -/
def wording (report : Report) : String :=
  let base := s!"[Error {report.number}] {report.message}"
  if report.context.isEmpty then base else s!"{base} ({contextText report.context})"

/-- The report as a record under the name of its family. -/
def display (name : String) (report : Report) : String :=
  s!"{name}(message={Text.quoted report.message}, error_code={report.number})"

end Report

end PocketShell
