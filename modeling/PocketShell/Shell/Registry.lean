/-!
Registries: handlers and help texts by name.
-/
namespace PocketShell.Shell

/-- What is registered under one name. -/
structure Registration (α : Type) where
  name : String
  handler : α
  help : String
  deriving Repr

/-- The registered names in the order in which they were first registered. -/
abbrev Registry (α : Type) := List (Registration α)

namespace Registry

variable {α : Type}

/-- What is registered under a name. -/
def find? (registry : Registry α) (name : String) : Option (Registration α) :=
  List.find? (·.name == name) registry

/-- The handler of a name. -/
def get? (registry : Registry α) (name : String) : Option α :=
  (registry.find? name).map (·.handler)

/-- The name is registered. -/
def contains (registry : Registry α) (name : String) : Bool := (registry.find? name).isSome

/-- The help text of a name, empty if it is not registered. -/
def helpText (registry : Registry α) (name : String) : String :=
  ((registry.find? name).map (·.help)).getD ""

/-- Registers a handler; one under the same name is replaced. -/
def register (name : String) (handler : α) (help : String) : Registry α → Registry α
  | [] => [⟨name, handler, help⟩]
  | entry :: rest =>
    if entry.name = name then ⟨name, handler, help⟩ :: rest
    else entry :: register name handler help rest

/-- Removes a name, if it is registered. -/
def unregister (name : String) (registry : Registry α) : Registry α :=
  registry.filter (·.name != name)

/-- The names in their order by characters. -/
def names (registry : Registry α) : List String :=
  (registry.map (·.name)).mergeSort fun a b => decide (a ≤ b)

end Registry

end PocketShell.Shell
