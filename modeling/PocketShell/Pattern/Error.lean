import PocketShell.Fault
import PocketShell.Text.Quoted

/-!
Why a text is no pattern, or a template no replacement, and the wording of it.
-/
namespace PocketShell.Pattern

/-- Why a pattern is refused. -/
inductive Cause
  | danglingBackslash
  | badEscape (escape : String)
  | incompleteEscape (escape : String)
  | largeOctal (escape : String)
  | missing (what : String)
  | noSuchCharacter (name : String)
  | openGroup
  | groupBehind
  | noSuchGroup (index : Nat)
  | unknownName (name : String)
  | badName (name : String)
  | redefinedName (name : String) (index earlier : Nat)
  | badGroupNumber
  | unterminatedSet
  | badRange (first last : String)
  | emptyRepeat
  | nothingToRepeat
  | repeatedRepeat
  | unexpectedEnd
  | unknownExtension (text : String)
  | thirdBranch
  | lateFlags
  | conflictingFlags
  | localeFlag
  | unknownFlag
  | globalFlagOn
  | typeFlagOff
  | globalFlagOff
  | flagOnAndOff
  | unbalanced
  | looseLookBehind
  | longLookBehind
  | repeatInTemplate (mode : String)
  | tooDeep
  deriving Repr, DecidableEq

/-- The wording of a cause. -/
def Cause.message : Cause → String
  | .danglingBackslash => "bad escape (end of pattern)"
  | .badEscape escape => s!"bad escape {escape}"
  | .incompleteEscape escape => s!"incomplete escape {escape}"
  | .largeOctal escape => s!"octal escape value {escape} outside of range 0-0o377"
  | .missing what => s!"missing {what}"
  | .noSuchCharacter name => s!"undefined character name {Text.quoted name}"
  | .openGroup => "cannot refer to an open group"
  | .groupBehind => "cannot refer to group defined in the same lookbehind subpattern"
  | .noSuchGroup index => s!"invalid group reference {index}"
  | .unknownName name => s!"unknown group name {Text.quoted name}"
  | .badName name => s!"bad character in group name {Text.quoted name}"
  | .redefinedName name index earlier =>
    s!"redefinition of group name {Text.quoted name} as group {index}; was group {earlier}"
  | .badGroupNumber => "bad group number"
  | .unterminatedSet => "unterminated character set"
  | .badRange first last => s!"bad character range {first}-{last}"
  | .emptyRepeat => "min repeat greater than max repeat"
  | .nothingToRepeat => "nothing to repeat"
  | .repeatedRepeat => "multiple repeat"
  | .unexpectedEnd => "unexpected end of pattern"
  | .unknownExtension text => s!"unknown extension ?{text}"
  | .thirdBranch => "conditional backref with more than two branches"
  | .lateFlags => "global flags not at the start of the expression"
  | .conflictingFlags => "bad inline flags: flags 'a', 'u' and 'L' are incompatible"
  | .localeFlag => "bad inline flags: cannot use 'L' flag with a str pattern"
  | .unknownFlag => "unknown flag"
  | .globalFlagOn => "bad inline flags: cannot turn on global flag"
  | .typeFlagOff => "bad inline flags: cannot turn off flags 'a', 'u' and 'L'"
  | .globalFlagOff => "bad inline flags: cannot turn off global flag"
  | .flagOnAndOff => "bad inline flags: flag turned on and off"
  | .unbalanced => "unbalanced parenthesis"
  | .looseLookBehind => "look-behind requires fixed-width pattern"
  | .longLookBehind => "looks too much behind"
  | .repeatInTemplate mode => s!"internal: unsupported template operator {mode}"
  | .tooDeep => "pattern is nested too deeply"

/-- What is wrong with a pattern, and where. -/
structure Error where
  cause : Cause
  position : Option Nat
  deriving Repr, DecidableEq

/-- The line of a position, counted from one. -/
def lineOf (cs : List Char) (position : Nat) : Nat := (cs.take position).count '\n' + 1

/-- The column of a position, counted from one. -/
def columnOf (cs : List Char) (position : Nat) : Nat :=
  ((cs.take position).reverse.takeWhile (· != '\n')).length + 1

/-- The wording of what is wrong. Line and column are told when the text has several lines. -/
def Error.message (text : String) (error : Error) : String :=
  match error.position with
  | none => error.cause.message
  | some position =>
    let message := s!"{error.cause.message} at position {position}"
    let cs := text.toList
    if cs.contains '\n' then
      s!"{message} (line {lineOf cs position}, column {columnOf cs position})"
    else message

/-- How reading a pattern or a template fails. -/
inductive Failure
  | refused (error : Error)
  | fault (fault : Fault)
  deriving Repr, DecidableEq

end PocketShell.Pattern
