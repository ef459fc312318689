import PocketShell.Text.Quoted
import PocketShell.Text.Split

/-!
The arguments of the program. An argument is first taken by its spelling alone: it is plain, names an
option, or looks like one and names none. Then the options take their values, from the left to the
right, and what no option takes is refused at the end. A request for help ends the reading at once.
-/
namespace PocketShell.Cli

/-- The name of the program. -/
def programName : String := "vshell"

/-- The options. -/
inductive Switch
  | help
  | config
  | user
  | command
  deriving Repr, DecidableEq

/-- The spellings of the options in the order in which they are tried. -/
def spellings : List (String × Switch) := [
  ("-h", .help), ("--help", .help), ("--config", .config), ("--user", .user), ("-c", .command),
  ("--command", .command)]

/-- All spellings of an option, as messages name it. -/
def Switch.label (switch : Switch) : String :=
  "/".intercalate ((spellings.filter (·.2 = switch)).map (·.1))

/-- A text written in one argument with its option: behind an equals sign, or without any sign
behind a letter. -/
inductive Attached
  | afterSign (text : List Char)
  | afterLetter (text : List Char)
  deriving Repr, DecidableEq

/-- What an argument is by its spelling. -/
inductive Reading
  | plain
  | divider
  | unknown
  | switch (switch : Switch) (short : Bool) (attached : Option Attached)
  deriving Repr, DecidableEq

/-- Why arguments are refused. -/
inductive UsageError
  | ambiguous (argument : String) (candidates : List String)
  | valueMissing (switch : Switch)
  | valueRefused (switch : Switch) (value : String)
  | unrecognized (arguments : List String)
  deriving Repr, DecidableEq

/-- The wording of a refusal. -/
def UsageError.message : UsageError → String
  | .ambiguous argument candidates =>
    s!"ambiguous option: {argument} could match " ++ ", ".intercalate candidates
  | .valueMissing switch => s!"argument {switch.label}: expected one argument"
  | .valueRefused switch value =>
    s!"argument {switch.label}: ignored explicit argument {Text.quoted value}"
  | .unrecognized arguments => "unrecognized arguments: " ++ " ".intercalate arguments

/-- What stands behind a hyphen is a number: digits, and a point among or before the last ones. One
newline may end it. -/
def isNumberText (text : List Char) : Bool :=
  let body := if text.getLast? = some '\n' then text.dropLast else text
  let fraction (rest : List Char) : Bool := !rest.isEmpty && rest.all Text.isDecimal
  match body.dropWhile Text.isDecimal with
  | [] => fraction body
  | '.' :: rest => fraction rest
  | _ => false

/-- An argument with an equals sign: what stands before it and what stands behind it. -/
def cutAtSign (argument : String) : String × Option Attached :=
  match Text.cutAt '=' argument.toList with
  | some (before, after) => (String.ofList before, some (.afterSign after))
  | none => (argument, none)

/-- The argument that names no option: a number or a text with a space is plain nevertheless. -/
def readNameless (argument : String) : Reading :=
  if isNumberText (argument.toList.drop 1) || argument.toList.contains ' ' then .plain else .unknown

/-- An argument with two hyphens: the beginning of a spelling stands for it, unless several begin
that way. -/
def readLong (argument : String) : Except UsageError Reading :=
  let (name, attached) := cutAtSign argument
  match spellings.filter fun (spelling, _) => name.toList.isPrefixOf spelling.toList with
  | [] => .ok (readNameless argument)
  | [(_, switch)] => .ok (.switch switch false attached)
  | several => .error (.ambiguous argument (several.map (·.1)))

/-- An argument with one hyphen: the letter behind it may name an option, with the rest attached. -/
def readShort (argument : String) : Reading :=
  match spellings.lookup (String.ofList (argument.toList.take 2)) with
  | some switch => .switch switch true (some (.afterLetter (argument.toList.drop 2)))
  | none => readNameless argument

/-- What an argument is by its spelling. -/
def readArgument (argument : String) : Except UsageError Reading :=
  let (name, attached) := cutAtSign argument
  let isShort : Bool := name.length = 2
  match argument.toList with
  | [] => .ok .plain
  | '-' :: rest => match spellings.lookup argument, spellings.lookup name with
    | some switch, _ => .ok (.switch switch isShort none)
    | none, some switch => .ok (.switch switch isShort attached)
    | none, none => match rest with
      | [] => .ok .plain
      | '-' :: _ => readLong argument
      | _ => .ok (readShort argument)
  | _ => .ok .plain

/-- What the arguments are by their spelling. Behind `--` all are plain. -/
def readAll : List String → Except UsageError (List (String × Reading))
  | [] => .ok []
  | argument :: rest =>
    if argument = "--" then .ok ((argument, .divider) :: rest.map (·, .plain))
    else do
      let reading ← readArgument argument
      return (argument, reading) :: (← readAll rest)

/-- What the options say. -/
structure Arguments where
  config : Option String
  user : Option String
  command : Option String
  deriving Repr, DecidableEq

/-- What is asked of the program. -/
inductive Request
  | help
  | run (arguments : Arguments)
  deriving Repr, DecidableEq

namespace Arguments

/-- Nothing is said. -/
def empty : Arguments := ⟨none, none, none⟩

/-- The arguments with the value of an option; of several values the last one counts. -/
def set (arguments : Arguments) (value : String) : Switch → Arguments
  | .help => arguments
  | .config => { arguments with config := value }
  | .user => { arguments with user := value }
  | .command => { arguments with command := value }

/-- Help is asked for by its letter, and further letters stand behind it. They ask for help again, or
for the option whose letter ends the argument or takes its rest; an unknown letter does not keep from
helping. `signed` says that an equals sign stands before the text, which help does not take. -/
def helpLetters (next : Option String) (signed : Bool) (text : List Char) :
    Except UsageError Request :=
  if signed || text.isEmpty || text.head? = some '-' then
    .error (.valueRefused .help (String.ofList text))
  else match text with
    | ['h'] => .ok .help
    | 'h' :: '=' :: rest => helpLetters next true rest
    | 'h' :: rest => helpLetters next false rest
    | ['c'] => if next.isSome then .ok .help else .error (.valueMissing .command)
    | _ => .ok .help
termination_by text.length

/-- A request for help; only a letter may have letters behind it. -/
def readHelp (next : Option String) (short : Bool) : Option Attached → Except UsageError Request
  | none => .ok .help
  | some (.afterLetter text) => helpLetters next false text
  | some (.afterSign text) =>
    if short then helpLetters next true text
    else .error (.valueRefused .help (String.ofList text))

/-- The plain argument that comes next, if one does. -/
def nextPlain : List (String × Reading) → Option String
  | (argument, .plain) :: _ => some argument
  | _ => none

/-- Goes on with what has been said and the arguments that no option took. -/
def take (said : Arguments) (extras : List String) :
    List (String × Reading) → Except UsageError Request
  | [] => if extras.isEmpty then .ok (.run said) else .error (.unrecognized extras)
  | (_, .switch .help short attached) :: rest => readHelp (nextPlain rest) short attached
  | (_, .switch switch _ (some (.afterSign text))) :: rest =>
    take (said.set (String.ofList text) switch) extras rest
  | (_, .switch switch _ (some (.afterLetter text))) :: rest =>
    take (said.set (String.ofList text) switch) extras rest
  | (_, .switch switch _ none) :: (value, .plain) :: rest => take (said.set value switch) extras rest
  | (_, .switch switch _ none) :: _ => .error (.valueMissing switch)
  | (argument, _) :: rest => take said (extras ++ [argument]) rest

end Arguments

/-- Reads the arguments of the program. -/
def readRequest (arguments : List String) : Except UsageError Request := do
  Arguments.take .empty [] (← readAll arguments)

/-- How the program is called. -/
def usageText : String :=
  s!"usage: {programName} [-h] [--config CONFIG] [--user USER] [-c COMMAND]"

/-- What help tells. -/
def helpText : String := Text.unlines [
  usageText, "", "VShell - an in-memory Unix shell simulation", "", "options:",
  "  -h, --help            show this help message and exit",
  "  --config CONFIG       Load configuration from a JSON file",
  "  --user USER           Run the session as this user",
  "  -c COMMAND, --command COMMAND",
  "                        Execute a single command line and exit"]

/-- What is told when arguments are refused. -/
def refusalText (error : UsageError) : String :=
  Text.unlines [usageText, s!"{programName}: error: {error.message}"]

end PocketShell.Cli
