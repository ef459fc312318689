import PocketShell.Pattern.Error
import PocketShell.Pattern.Node
import PocketShell.Text.Numeral

/-!
The text of a pattern while it is read, with what is known so far about its groups. The text is read
in tokens: single characters, and backslashes with the character after them. A backslash with none
after it is an error as soon as it is next.
-/
namespace PocketShell.Pattern

/-- The options of a pattern. -/
structure Flags where
  ignoreCase : Bool
  multiline : Bool
  dotAll : Bool
  verbose : Bool
  template : Bool
  plain : Bool
  unicode : Bool
  deriving Repr, DecidableEq

namespace Flags

/-- No options. -/
def none : Flags := ⟨false, false, false, false, false, false, false⟩

/-- The options of either. -/
def union (a b : Flags) : Flags :=
  ⟨a.ignoreCase || b.ignoreCase, a.multiline || b.multiline, a.dotAll || b.dotAll,
    a.verbose || b.verbose, a.template || b.template, a.plain || b.plain, a.unicode || b.unicode⟩

/-- The options that both have. -/
def inter (a b : Flags) : Flags :=
  ⟨a.ignoreCase && b.ignoreCase, a.multiline && b.multiline, a.dotAll && b.dotAll,
    a.verbose && b.verbose, a.template && b.template, a.plain && b.plain, a.unicode && b.unicode⟩

/-- The options without those of another. -/
def less (a b : Flags) : Flags :=
  ⟨a.ignoreCase && !b.ignoreCase, a.multiline && !b.multiline, a.dotAll && !b.dotAll,
    a.verbose && !b.verbose, a.template && !b.template, a.plain && !b.plain,
    a.unicode && !b.unicode⟩

/-- One of the options that say which characters classes hold is among them. -/
def typed (flags : Flags) : Bool := flags.plain || flags.unicode

/-- The options inside a group that adds some and takes others away. -/
def within (flags add remove : Flags) : Flags :=
  let base := if add.typed then { flags with plain := false, unicode := false } else flags
  (base.union add).less remove

/-- How the options compare characters. -/
def fold (flags : Flags) : Fold :=
  if !flags.ignoreCase then .exact else if flags.plain then .plain else .full

/-- The option of a letter; the letter `L` is known but never allowed. -/
def ofLetter? : Char → Option Flags
  | 'i' => some { none with ignoreCase := true }
  | 'm' => some { none with multiline := true }
  | 's' => some { none with dotAll := true }
  | 'x' => some { none with verbose := true }
  | 'a' => some { none with plain := true }
  | 't' => some { none with template := true }
  | 'u' => some { none with unicode := true }
  | 'L' => some none
  | _ => .none

end Flags

/-- A token of a pattern. -/
inductive Token
  | plain (c : Char)
  | escaped (c : Char)
  deriving Repr, DecidableEq

namespace Token

/-- The characters of a token. -/
def chars : Token → List Char
  | .plain c => [c]
  | .escaped c => ['\\', c]

/-- The text of a token. -/
def text (token : Token) : String := String.ofList token.chars

/-- The number of characters of a token. -/
def width (token : Token) : Nat := token.chars.length

/-- The token is a plain character that satisfies a test. -/
def isPlain (p : Char → Bool) : Token → Bool
  | .plain c => p c
  | .escaped _ => false

end Token

/-- What is left of a pattern, where it begins, and what is known of the groups so far: the widths
of those that are closed, the names, the number of groups before the look-behind at hand, and the
conditions on groups with their places. -/
structure Source where
  rest : List Char
  position : Nat
  flags : Flags
  widths : List (Option Width)
  names : List (String × Nat)
  behind : Option Nat
  conditions : List (Nat × Nat)
  deriving Repr

/-- Reading a pattern. -/
abbrev Reader (α : Type) := StateT Source (Except Failure) α

namespace Reader

/-- Fails at a place. -/
def failAt {α : Type} (position : Nat) (cause : Cause) : Reader α :=
  throw (.refused ⟨cause, some position⟩)

/-- Where the next token begins. -/
def position : Reader Nat := do return (← get).position

/-- Fails where the next token begins. -/
def failHere {α : Type} (cause : Cause) : Reader α := do failAt (← position) cause

/-- Fails if only a backslash is left. -/
def checkBackslash : Reader Unit := do
  let source ← get
  if source.rest = ['\\'] then failAt source.position .danglingBackslash

/-- The next token, which stays. -/
def peek : Reader (Option Token) := do
  match (← get).rest with
  | [] => return none
  | '\\' :: c :: _ => return some (.escaped c)
  | c :: _ => return some (.plain c)

/-- Takes the next token. -/
def next : Reader (Option Token) := do
  let token ← peek
  match token with
  | none => return none
  | some t =>
    modify fun source =>
      { source with rest := source.rest.drop t.width, position := source.position + t.width }
    checkBackslash
    return token

/-- Takes the next token if it is the character. -/
def accept (c : Char) : Reader Bool := do
  if (← peek) = some (.plain c) then
    discard next
    return true
  else return false

/-- The next token is a plain character that satisfies a test. -/
def nextIs (p : Char → Bool) : Reader Bool := do
  return (← peek).any (·.isPlain p)

/-- Takes at most `limit` characters that satisfy a test. -/
def takeUpTo (p : Char → Bool) : (limit : Nat) → Reader (List Char)
  | 0 => return []
  | limit + 1 => do
    match ← peek with
    | some (.plain c) =>
      if p c then
        discard next
        return c :: (← takeUpTo p limit)
      else return []
    | _ => return []

/-- The number of characters that are left. -/
def remaining : Reader Nat := do return (← get).rest.length

/-- Takes all characters that satisfy a test. -/
def takeAll (p : Char → Bool) : Reader (List Char) := do takeUpTo p (← remaining)

/-- Takes tokens up to a closing character, at most `limit`; also takes that character. -/
def untilFrom (close : Char) (what : String) (taken : List Char) : (limit : Nat) →
    Reader (List Char)
  | 0 => failHere .tooDeep
  | limit + 1 => do
    match ← next with
    | none =>
      if taken.isEmpty then failHere (.missing what)
      else failAt ((← position) - taken.length) (.missing s!"{close}, unterminated name")
    | some token =>
      if token = .plain close then
        if taken.isEmpty then failAt ((← position) - 1) (.missing what)
        return taken
      else untilFrom close what (taken ++ token.chars) limit

/-- Takes the name before a closing character, and the character. -/
def nameUntil (close : Char) (what : String) : Reader String := do
  return String.ofList (← untilFrom close what [] ((← remaining) + 1))

/-- The number of the next group. Group zero is the whole match. -/
def groupCount : Reader Nat := do return (← get).widths.length + 1

/-- The group is closed. -/
def isClosed (index : Nat) : Reader Bool := do
  return index == 0 || (((← get).widths[index - 1]?).bind id).isSome

/-- The group of a name. -/
def named? (name : String) : Reader (Option Nat) := do return (← get).names.lookup name

/-- Refuses a reference inside a look-behind to a group that is open or stands in it. -/
def checkBehind (index : Nat) : Reader Unit := do
  match (← get).behind with
  | none => return
  | some count =>
    if !(← isClosed index) then failHere .openGroup
    if count ≤ index then failHere .groupBehind

/-- Opens a group; the start of its name is where it is refused. -/
def openGroup (name : Option String) (nameStart : Nat) : Reader Nat := do
  let index ← groupCount
  match name with
  | none => modify fun source => { source with widths := source.widths ++ [none] }
  | some name =>
    match ← named? name with
    | some earlier => failAt nameStart (.redefinedName name index earlier)
    | none => modify fun source =>
      { source with widths := source.widths ++ [none], names := (name, index) :: source.names }
  return index

/-- The width of a group; zero if it is not known. -/
def widthIn (source : Source) (index : Nat) : Width :=
  ((source.widths[index - 1]?).bind id).getD ⟨0, 0⟩

/-- Closes a group. -/
def closeGroup (index : Nat) (body : Node) : Reader Unit :=
  modify fun source =>
    { source with widths := source.widths.set (index - 1) (some (body.width (widthIn source))) }

end Reader

end PocketShell.Pattern
