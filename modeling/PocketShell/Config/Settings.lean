import PocketShell.Config.Basic

/-!
Settings: a configuration by names, the sections first. At run time any of them can be set to any
value, unchecked; a section that is set to a value is a section no longer.
-/
namespace PocketShell

/-- What stands under the name of a section. -/
inductive Setting
  | fields (fields : List (String × Json))
  | value (value : Json)
  deriving Repr

/-- The settings by the names of sections. -/
abbrev Settings := List (String × Setting)

namespace Settings

/-- The settings of a configuration. -/
def ofConfig (config : Config) : Settings := [
  ("filesystem", .fields [("umask", .string config.filesystem.umask),
    ("initial_snapshot", config.filesystem.initialSnapshot)]),
  ("shell", .fields [("hostname", config.shell.hostname), ("prompt", config.shell.prompt),
    ("history_size", config.shell.historySize)]),
  ("users", .fields [("default_user", config.users.defaultUser),
    ("home_prefix", config.users.homePrefix)]),
  ("logging", .fields [("level", .string config.logging.level),
    ("log_file", config.logging.logFile), ("console_output", config.logging.consoleOutput)])]

/-- What stands under a section's name as structured data. -/
def settingJson : Setting → Json
  | .fields fields => .object fields
  | .value value => value

/-- The settings as structured data. -/
def toJson (settings : Settings) : Json :=
  .object (settings.map fun (name, setting) => (name, settingJson setting))

/-- The value under a key of names between points, if there is one. -/
def get? (settings : Settings) (key : String) : Option Json :=
  match Text.splitOn "." key with
  | [name] => (settings.lookup name).map settingJson
  | [name, field] => match settings.lookup name with
    | some (.fields fields) => fields.lookup field
    | _ => none
  | _ => none

/-- The members with another value under one of their names. -/
def replace {α : Type} (name : String) (value : α) (members : List (String × α)) :
    List (String × α) :=
  members.map fun (n, old) => (n, if n = name then value else old)

/-- Sets the value under a key that exists. -/
def set (settings : Settings) (key : String) (value : Json) : Except Report Settings :=
  let refused : Except Report Settings :=
    .error (.ofConfigValue s!"Invalid configuration key: {key}" (.string key) [])
  match Text.splitOn "." key with
  | [name] =>
    if (settings.lookup name).isSome then .ok (replace name (.value value) settings) else refused
  | [name, field] => match settings.lookup name with
    | some (.fields fields) =>
      if (fields.lookup field).isSome then
        .ok (replace name (.fields (replace field value fields)) settings)
      else refused
    | _ => refused
  | _ => refused

end Settings

end PocketShell
