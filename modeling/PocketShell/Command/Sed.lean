import PocketShell.Command.Filters
import PocketShell.Pattern.Replacement

/-!
The stream editor: one substitution, applied to each line.
-/
namespace PocketShell.Command

open Shell

/-- A substitution as it is written: the pattern, the replacement and the letters behind them. -/
structure Substitution where
  pattern : String
  replacement : String
  all : Bool
  ignoreCase : Bool
  deriving Repr, DecidableEq

/-- A character in front of the first part. -/
def addToFirst (c : Char) : List (List Char) → List (List Char)
  | part :: more => (c :: part) :: more
  | [] => [[c]]

/-- The parts of a script between delimiters. Behind a backslash a delimiter is a character like
others, and the backslash goes. -/
def scriptParts (delimiter : Char) : List Char → List (List Char)
  | [] => [[]]
  | '\\' :: d :: rest =>
    if d = delimiter then addToFirst d (scriptParts delimiter rest)
    else if delimiter = '\\' then [] :: scriptParts delimiter (d :: rest)
    else addToFirst '\\' (scriptParts delimiter (d :: rest))
  | c :: rest =>
    if c = delimiter then [] :: scriptParts delimiter rest
    else addToFirst c (scriptParts delimiter rest)

/-- The replacement with every `&` as a reference to the whole match; behind a backslash it stands
for itself. -/
def markMatches : (escaped : Bool) → List Char → List Char
  | _, [] => []
  | escaped, c :: rest =>
    (if c = '&' && !escaped then "\\g<0>".toList else [c]) ++ markMatches (c = '\\') rest

/-- Reads a script. -/
def Substitution.read? (script : String) : Option Substitution :=
  match script.toList with
  | 's' :: delimiter :: body => match scriptParts delimiter body with
    | [pattern, replacement, letters] =>
      if letters.all fun letter => letter = 'g' || letter = 'i' then
        some {
          pattern := String.ofList pattern
          replacement := Text.replaceAll "\\&" "&" (String.ofList (markMatches false replacement))
          all := letters.contains 'g'
          ignoreCase := letters.contains 'i' }
      else none
    | _ => none
  | _ => none

/-- Puts the replacement into the lines. Without any line it need not be one. -/
def substitute (pattern : Pattern) (replacement : String) (all : Bool) :
    List String → Except Pattern.Failure (List String)
  | [] => .ok []
  | lines => do
    let replacement ← Pattern.Replacement.read pattern replacement
    return lines.map (pattern.replace all replacement.expand)

/-- The script and the files among the options. -/
def scriptAndFiles? (options : Options) : Option (String × List String) :=
  match options.value? 'e', options.operands with
  | some script, files => some (script, files)
  | none, script :: files => some (script, files)
  | none, [] => none

/-- Edits the lines of the input by a script. -/
def sed (args : List String) (stdin : Option String) : Job := do
  match scriptAndFiles? (parseOptions ['e'] args) with
  | none => return .fail "sed" "no script specified"
  | some (script, files) =>
    let unknown : Outcome := .fail "sed" s!"-e expression #1: unknown command: `{script}'"
    match Substitution.read? script with
    | none => return unknown
    | some edit => match ← readPattern edit.ignoreCase (fun _ => unknown) edit.pattern with
      | .error failure => return failure
      | .ok pattern => withInput "sed" files stdin fun text =>
        match substitute pattern edit.replacement edit.all (Text.lines text) with
        | .ok lines => return .text (Text.unlines lines)
        | .error (.refused error) => return .fail "sed" (error.message edit.replacement)
        | .error (.fault fault) => throw fault

end PocketShell.Command
