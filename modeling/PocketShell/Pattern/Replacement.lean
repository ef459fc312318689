import PocketShell.Pattern.Matcher

/-!
Replacements: text in which escapes stand for characters and for the groups of a match. Text without
a backslash stands for itself.
-/
namespace PocketShell.Pattern

/-- A part of a replacement. -/
inductive Piece
  | literal (text : List Char)
  | group (index : Nat)
  deriving Repr, DecidableEq

/-- A replacement. -/
abbrev Replacement := List Piece

namespace Replacement

/-- The text that takes the place of a match; a group that holds nothing is empty. -/
def expand (replacement : Replacement) (found : Match) : List Char :=
  replacement.flatMap fun
    | .literal text => text
    | .group index => (found.group? index).getD []

end Replacement

namespace Reader

/-- The part of a group that must exist. -/
def groupPiece (pattern : Pattern) (index place : Nat) : Reader Piece := do
  if index > pattern.groups then failAt place (.noSuchGroup index)
  return .group index

/-- The group that a name or number in angle brackets refers to. -/
def readBracketed (pattern : Pattern) : Reader Piece := do
  if !(← accept '<') then failHere (.missing "<")
  let start ← position
  let name ← nameUntil '>' "group name"
  if Text.isName name then
    match pattern.names.lookup name with
    | some index => groupPiece pattern index start
    | none => throw (.fault (.badIndex s!"unknown group name {Text.quoted name}"))
  else match Text.readInt name with
    | .error _ => failAt start (.badName name)
    | .ok n =>
      if n < 0 then failAt start (.badName name)
      if n ≥ groupLimit then failAt start (.noSuchGroup n.toNat)
      groupPiece pattern n.toNat start

/-- The character with a code. -/
def codePiece (code : Nat) : Piece := .literal [Char.ofNat code]

/-- An escape of digits in a replacement: three octal digits, or the number of a group. -/
def readDigitsPiece (pattern : Pattern) (start : Nat) (first : Char) : Reader Piece := do
  match ← takeUpTo Char.isDigit 1 with
  | [second] =>
    if isOctalDigit first && isOctalDigit second && (← nextIs isOctalDigit) then
      match ← octalMeaning start (first :: second :: (← takeUpTo isOctalDigit 1)) with
      | .code code => return codePiece code
      | _ => return .literal []
    else groupPiece pattern (numberOf 10 [first, second]) (start + 1)
  | _ => groupPiece pattern (numberOf 10 [first]) (start + 1)

/-- What the escape of a character in a replacement stands for; it began at `start`. -/
def readEscapePiece (pattern : Pattern) (start : Nat) (c : Char) : Reader Piece := do
  if c = 'g' then readBracketed pattern
  else if c = '0' then
    return codePiece (numberOf 8 (c :: (← takeUpTo isOctalDigit 2)) % 256)
  else if c.isDigit then readDigitsPiece pattern start c
  else match controlCode? c with
    | some code => return codePiece code
    | none =>
      if c.isAlpha then failAt start (.badEscape (String.ofList ['\\', c]))
      return .literal ['\\', c]

/-- The parts of a replacement, at most `limit`. -/
def readPieces (pattern : Pattern) : (limit : Nat) → Reader Replacement
  | 0 => return []
  | limit + 1 => do
    let start ← position
    match ← next with
    | none => return []
    | some (.plain c) => return .literal [c] :: (← readPieces pattern limit)
    | some (.escaped c) =>
      let piece ← readEscapePiece pattern start c
      return piece :: (← readPieces pattern limit)

end Reader

/-- Reads a replacement for the matches of a pattern. -/
def Replacement.read (pattern : Pattern) (text : String) : Except Failure Replacement :=
  if !text.toList.contains '\\' then .ok [.literal text.toList]
  else
    (do
      Reader.checkBackslash
      Reader.readPieces pattern (text.length + 1)).run' (sourceOf .none text)

end PocketShell.Pattern
