import PocketShell.Text.Split

/-!
Options among the arguments of a command: letters behind a hyphen, some of which take a value.
-/
namespace PocketShell.Shell

/-- Letters that are given as options, without repetition, and the other arguments. -/
structure Flagged where
  letters : List Char
  operands : List String
  deriving Repr, DecidableEq

/-- The argument begins with a hyphen and is more than that. -/
def isOption (arg : String) : Bool := arg.toList.head? == some '-' && arg != "-"

/-- The letters with one more. -/
def addLetter (letters : List Char) (letter : Char) : List Char :=
  if letters.contains letter then letters else letters ++ [letter]

/-- Tells letters from operands. Behind `--` all arguments are operands. -/
def splitFlags (args : List String) : Flagged := go ⟨[], []⟩ args
where
  /-- Goes on with what has been told apart. -/
  go (found : Flagged) : List String → Flagged
    | [] => found
    | arg :: rest =>
      if !isOption arg then go { found with operands := found.operands ++ [arg] } rest
      else if arg = "--" then { found with operands := found.operands ++ rest }
      else go { found with letters := (arg.toList.drop 1).foldl addLetter found.letters } rest

/-- The letter is given. -/
def Flagged.has (flagged : Flagged) (letter : Char) : Bool := flagged.letters.contains letter

/-- Letters, values and operands. Of several values for one letter the last one counts. -/
structure Options where
  letters : List Char
  values : List (Char × String)
  operands : List String
  deriving Repr, DecidableEq

namespace Options

/-- The letter is given. -/
def has (options : Options) (letter : Char) : Bool := options.letters.contains letter

/-- The value that is given for a letter. -/
def value? (options : Options) (letter : Char) : Option String := options.values.lookup letter

/-- The options with a value for a letter. -/
def setValue (options : Options) (letter : Char) (value : String) : Options :=
  { options with values := (letter, value) :: options.values.filter (·.1 != letter) }

end Options

/-- The letters of one argument. The first one that takes a value takes the rest of the argument, or
the next argument if there is no rest; the result tells whether it took that. -/
def readLetters (valued : List Char) (next : Option String) : List Char → Options → Options × Bool
  | [], options => (options, false)
  | letter :: rest, options =>
    if valued.contains letter then
      if !rest.isEmpty then (options.setValue letter (String.ofList rest), false)
      else match next with
        | some value => (options.setValue letter value, true)
        | none => (options, false)
    else readLetters valued next rest
      { options with letters := addLetter options.letters letter }

/-- Reads options; `valued` are the letters that take a value. Where `n` is one of them, a hyphen and
a number give its value. Behind `--` all arguments are operands. -/
def parseOptions (valued : List Char) (args : List String) : Options := go false ⟨[], [], []⟩ args
where
  /-- Goes on with what has been read; `taken` says that the next argument is a value already. -/
  go (taken : Bool) (options : Options) : List String → Options
    | [] => options
    | arg :: rest =>
      if taken then go false options rest
      else if arg = "--" then { options with operands := options.operands ++ rest }
      else if !isOption arg then go false { options with operands := options.operands ++ [arg] } rest
      else
        let letters := String.ofList (arg.toList.drop 1)
        if Text.isDigits letters && valued.contains 'n' then
          go false (options.setValue 'n' letters) rest
        else
          let (options, taken) := readLetters valued rest.head? letters.toList options
          go taken options rest

end PocketShell.Shell
