import PocketShell.Json.Coerce

/-!
Labs. A guided lab asks for a command at each step; in any other the learner brings the filesystem
into a state that conditions describe. Labs are read from structured data; only types are checked,
other values are taken as they are.
-/
namespace PocketShell

/-- What a condition asks of a path. -/
inductive ConditionKind
  | directoryExists
  | fileExists
  | fileNotExists
  | fileContains
  | fileMatchesRegex
  | ownerEquals
  | permissionEquals
  | symlinkTargetEquals
  deriving Repr, DecidableEq

namespace ConditionKind

/-- Every kind. -/
def all : List ConditionKind := [
  .directoryExists, .fileExists, .fileNotExists, .fileContains, .fileMatchesRegex, .ownerEquals,
  .permissionEquals, .symlinkTargetEquals]

/-- The name of a kind. -/
def name : ConditionKind → String
  | .directoryExists => "directory_exists"
  | .fileExists => "file_exists"
  | .fileNotExists => "file_not_exists"
  | .fileContains => "file_contains"
  | .fileMatchesRegex => "file_matches_regex"
  | .ownerEquals => "owner_equals"
  | .permissionEquals => "permission_equals"
  | .symlinkTargetEquals => "symlink_target_equals"

/-- The kind of a name. -/
def ofName? (name : String) : Option ConditionKind := all.find? (·.name == name)

end ConditionKind

/-- A condition on the filesystem. Its kind decides which of the values count. -/
structure Condition where
  kind : ConditionKind
  path : Json
  content : Json
  mode : Json
  owner : Json
  target : Json
  message : Json
  deriving Repr

/-- A step of a guided lab. -/
structure LabStep where
  instruction : Json
  expected : Json
  hint : Json
  isPattern : Bool
  deriving Repr

/-- The types of labs. -/
inductive LabType
  | guided
  | diy
  deriving Repr, DecidableEq

/-- The name of a type. -/
def LabType.name : LabType → String
  | .guided => "guided"
  | .diy => "diy"

/-- The type of a name. -/
def LabType.ofName? : String → Option LabType
  | "guided" => some .guided
  | "diy" => some .diy
  | _ => none

/-- A lab. -/
structure Lab where
  id : Json
  title : Json
  type : LabType
  description : Json
  steps : List LabStep
  conditions : List Condition
  completion : Json
  snapshot : Json
  deriving Repr

/-- What is shown when a condition does not hold: its message, or its kind and path. -/
def Condition.describe (condition : Condition) : Json :=
  if condition.message.truthy then condition.message
  else
    let words := Text.replaceAll "_" " " condition.kind.name
    .string s!"{words}: {condition.path.plain}"

/-- A value that must be one of some names. -/
def readName {α : Type} (what : String) (ofName? : String → Option α) (data : Json) :
    Except Fault α :=
  match data.string?.bind ofName? with
  | some value => .ok value
  | none => .error (.badValue s!"{data.display} is not a valid {what}")

/-- The elements of a list that may be absent. What is no list but can be gone through gives texts. -/
def readList (data : Json) (name : String) : Except Fault (List Json) :=
  match data.member? name with
  | none => .ok []
  | some .null => .error .badType
  | some (.bool _) => .error .badType
  | some (.int _) => .error .badType
  | some (.float _) => .error .badType
  | some value => value.toItems

/-- Reads a condition. -/
def Condition.ofJson (data : Json) : Except Fault Condition := do
  let kind ← readName "ConditionType" ConditionKind.ofName? (← data.require "type")
  let path ← data.require "path"
  let value (name : String) : Json := data.memberD name .null
  return ⟨kind, path, value "content", value "mode", value "owner", value "target",
    value "message"⟩

/-- The value under the first of two names that is given. -/
def eitherMember (data : Json) (name other : String) (usual : Json) : Json :=
  data.memberD name (data.memberD other usual)

/-- Reads a step. -/
def LabStep.ofJson (data : Json) : Except Fault LabStep := do
  let instruction ← data.require "instruction"
  let expected ← match data.member? "expectedCommand" with
    | some expected => pure expected
    | none => data.require "expected_command"
  return ⟨instruction, expected, data.memberD "hint" .null,
    (eitherMember data "regexMatch" "regex_match" (.bool false)).truthy⟩

/-- Reads a lab. -/
def Lab.ofJson (data : Json) : Except Fault Lab := do
  let id ← data.require "id"
  let title ← data.require "title"
  let type ← readName "LabType" LabType.ofName? (data.memberD "type" (.string "guided"))
  let steps ← (← readList data "steps").mapM LabStep.ofJson
  let conditions ← (← readList data "conditions").mapM Condition.ofJson
  return {
    id, title, type, steps, conditions
    description := data.memberD "description" (.string "")
    completion := eitherMember data "completionMessage" "completion_message" (.string "")
    snapshot := eitherMember data "initialSnapshot" "initial_snapshot" .null }

end PocketShell
