import PocketShell.Command.Basic

/-!
Commands about users, the host and names. Users and groups are looked up in the files that list
them, which are read whoever asks.
-/
namespace PocketShell.Command

open Shell

/-- The content of a file of the system, empty when it cannot be read. -/
def systemFile (path : String) : Run Command String := do
  match ← Run.perform ⟨rootUser, "/"⟩ (Fs.readText path) with
  | .ok content => return content
  | .error _ => return ""

/-- The records of a table: lines of at least four fields between colons. -/
def recordsOf (table : String) : List (List String) :=
  ((Text.lines table).map (Text.splitOn ":")).filter (4 ≤ ·.length)

/-- The number of a user and the number of its group. -/
structure UserNumbers where
  user : String
  group : String
  deriving Repr, DecidableEq

/-- The numbers that a table of users gives a user, or the usual ones. -/
def numbersIn (table user : String) : UserNumbers :=
  match (recordsOf table).find? (·.head? == some user) with
  | some fields => ⟨fields.getD 2 "", fields.getD 3 ""⟩
  | none => if user = rootUser then ⟨"0", "0"⟩ else ⟨"1000", "1000"⟩

/-- The numbers of a user. -/
def userNumbers (user : String) : Run Command UserNumbers :=
  return numbersIn (← systemFile "/etc/passwd") user

/-- The groups in a table, other than the user's own, that have the user as a member: number and
name. -/
def membershipsIn (table user : String) : List (String × String) :=
  ((recordsOf table).filter fun fields =>
    (Text.splitOn "," (fields.getD 3 "")).contains user && fields.head? != some user).map
      fun fields => (fields.getD 2 "", fields.getD 0 "")

/-- The groups of a user, its own one first. -/
def groupsOf (user : String) : Run Command (List (String × String)) := do
  let numbers ← userNumbers user
  return (numbers.group, user) :: membershipsIn (← systemFile "/etc/group") user

/-- Who acts. -/
def whoami : Job := return .text (← Run.user)

/-- The user that a command is about. -/
def subject (args : List String) : Run Command String := do
  match args with
  | user :: _ => return user
  | [] => Run.user

/-- Shows the numbers of a user and of its groups. -/
def identity (args : List String) : Job := do
  let user ← subject args
  let numbers ← userNumbers user
  let groups := (← groupsOf user).map fun (number, name) => s!"{number}({name})"
  let listed := ",".intercalate groups
  return .text s!"uid={numbers.user}({user}) gid={numbers.group}({user}) groups={listed}"

/-- Shows the groups of a user. -/
def groups (args : List String) : Job := do
  return .text (" ".intercalate ((← groupsOf (← subject args)).map (·.2)))

/-- The name of the host: what its file says, or the configured one. -/
def hostName : Run Command String := do
  let name := Text.trim (← systemFile "/etc/hostname")
  let configured := (← read).hostname
  return if name.isEmpty then configured else name

/-- Shows the name of the host. -/
def hostname : Job := return .text (← hostName)

/-- The name is that of a command. -/
def isKnown (name : String) : Run Command Bool := do
  return ((← read).registry.map (·.contains name)).getD false

/-- Tells where commands are. -/
def which (args : List String) : Job := do
  let found ← args.filterM isKnown
  return ⟨Text.unlines (found.map ("/usr/bin/" ++ ·)), none,
    if found.length = args.length then 0 else 1⟩

/-- Tells what names mean. -/
def describe (args : List String) : Job := do
  let gathered ← gather (fun name => do
    return if ← isKnown name then .ok s!"{name} is a shell builtin"
    else .error s!"type: {name}: not found") args
  return .withErrors (Text.unlines gathered.values) gathered.errors 1

/-- Succeeds. -/
def succeed : Job := return .silent

/-- Fails. -/
def giveUp : Job := return ⟨"", none, 1⟩

/-- A name without an ending; one that is nothing but the ending keeps it. -/
def dropEnding (ending name : String) : String :=
  if ending.isEmpty then ""
  else if name.endsWith ending && name != ending then (name.dropEnd ending.length).toString
  else name

/-- The last component of a path, without an ending if one is given. -/
def basename : List String → Job
  | [] => return .fail "basename" "missing operand"
  | [path] => return .text (Path.basename path)
  | path :: ending :: _ => return .text (dropEnding ending (Path.basename path))

/-- The directory parts of paths. -/
def dirname (args : List String) : Job :=
  return if args.isEmpty then .fail "dirname" "missing operand"
    else .text (Text.unlines (args.map Path.dirname))

end PocketShell.Command
