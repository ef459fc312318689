import PocketShell.Command.Basic

/-!
Commands about the line itself and what surrounds it: its words, the variables, the history and the
commands that there are.
-/
namespace PocketShell.Command

open Shell

/-- Clears the screen. -/
def clear : Job := return .text "\x1b[2J\x1b[H"

/-- The options that `echo` accepts and that change nothing. -/
def echoOptions : List String := ["-n", "-e", "-ne", "-en"]

/-- The text with escaped newlines and tabs. Two backslashes are one; a null character is one too,
for it holds their place meanwhile. -/
def unescape (text : String) : String :=
  Text.replaceAll "\x00" "\\" (Text.replaceAll "\\t" "\t" (Text.replaceAll "\\n" "\n"
    (Text.replaceAll "\\\\" "\x00" text)))

/-- Prints the arguments. -/
def echo (args : List String) : Job :=
  return .text (unescape (" ".intercalate (args.dropWhile echoOptions.contains)))

/-- The number that digits of any kind stand for; some of these have no value. -/
def wholeNumber (digits : String) : Except Fault Int :=
  (Text.readInt digits).mapError fun error => .badValue error.message

/-- The lines of a history with their numbers. -/
def numbered (lines : List String) : List String :=
  lines.zipIdx.map fun (line, i) => s!"{Text.padLeft 5 (toString (i + 1))}  {line}"

/-- Shows the history or the end of it, or clears it. -/
def history (args : List String) : Job := do
  let lines := numbered (← get).history
  match args with
  | "-c" :: _ =>
    Run.tell .clearHistory
    return .silent
  | arg :: _ =>
    if Text.isDigits arg then
      let count ← wholeNumber arg
      return .text (Text.unlines (lines.drop (lines.length - count.toNat)))
    return .text (Text.unlines lines)
  | [] => return .text (Text.unlines lines)

/-- The names and help texts of all commands, the names in one column. -/
def overview (registry : Registry Command) : Except Fault String :=
  match registry.names with
  | [] => .error (.badValue "max() arg is an empty sequence")
  | names =>
    let width := (names.map String.length).foldl max 0
    .ok (Text.unlines ("Available commands:" :: names.map fun name =>
      s!"  {Text.padRight width name}  {registry.helpText name}"))

/-- Tells what commands there are, or what one does. -/
def help (args : List String) : Job := do
  match (← read).registry, args with
  | none, _ => return .fail "help" "no command registry available"
  | some registry, [] => return .text (← overview registry)
  | some registry, name :: _ =>
    if registry.contains name then return .text s!"{name}: {registry.helpText name}"
    return .fail "help" s!"no help topics match '{name}'"

/-- The variables in the order of their names, as declarations. -/
def declarations (env : Env) : List String :=
  (env.mergeSort fun a b => decide (a.1 ≤ b.1)).map fun (name, value) =>
    s!"declare -x {name}=\"{value}\""

/-- Sets the variable that an argument names; without a value one that is not set becomes empty. -/
def exportName (arg : String) : Run Command (Except Outcome Unit) := do
  let (name, value) := match Text.cutAt '=' arg.toList with
    | none => (arg, none)
    | some (name, value) => (String.ofList name, some (String.ofList value))
  if !Text.isName name then
    return .error (.fail "export" s!"`{arg}': not a valid identifier")
  match value, (← get).env.get? name with
  | some value, _ => Run.setVariable name value
  | none, none => Run.setVariable name ""
  | none, some _ => pure ()
  return .ok ()

/-- Sets variables one after another, up to the first argument that names none. -/
def exportEach : List String → Job
  | [] => return .silent
  | arg :: rest => do
    match ← exportName arg with
    | .error failure => return failure
    | .ok () => exportEach rest

/-- Sets variables, or shows them. -/
def exportNames (args : List String) : Job := do
  if args.isEmpty then return .text (Text.unlines (declarations (← get).env))
  exportEach args

/-- Unsets variables. -/
def unset (args : List String) : Job := do
  args.forM Run.unsetVariable
  return .silent

/-- Shows the variables. -/
def env : Job := do
  return .text (Text.unlines ((← get).env.map fun (name, value) => s!"{name}={value}"))

/-- What `read` is asked for: the question and the names. -/
structure Reading where
  question : String
  names : List String
  deriving Repr, DecidableEq

/-- Tells the question from the names; of several questions the last one counts. -/
def readingFrom (reading : Reading) : List String → Reading
  | "-p" :: question :: rest => readingFrom { reading with question } rest
  | name :: rest => readingFrom { reading with names := reading.names ++ [name] } rest
  | [] => reading

/-- The values for as many names: words, the last of which is the rest of the line. Names without a
word become empty. -/
def wordsFor (names : Nat) (line : String) : List String :=
  let words := (Text.wordsUpTo (names - 1) line.toList).map String.ofList
  words ++ List.replicate (names - words.length) ""

/-- The line to read: the first one of the standard input, or the answer to the question. -/
def lineToRead (question : String) (stdin : Option String) : Run Command (Option String) := do
  match stdin, (← get).prompt with
  | some input, _ => return some (String.ofList (input.toList.takeWhile (· != '\n')))
  | none, some prompt => return some (← Run.ask prompt question)
  | none, none => return none

/-- Reads a line into variables. -/
def readInto (args : List String) (stdin : Option String) : Job := do
  let reading := readingFrom ⟨"", []⟩ args
  match ← lineToRead reading.question stdin with
  | none => return .fail "read" "no input available"
  | some line =>
    let names := if reading.names.isEmpty then ["REPLY"] else reading.names
    (names.zip (wordsFor names.length line)).forM fun (name, value) => Run.setVariable name value
    return .silent

end PocketShell.Command
