import PocketShell.Fault
import PocketShell.Json.Writer
import PocketShell.Template.Layout
import PocketShell.Text.Split

/-!
Templates as text: plain characters and fields in braces. A field has a name, and behind it may come
a conversion and a layout, which may hold fields in turn. Two braces beside each other are one plain
brace. Text that is no template is read up to where it breaks. To fill a template in is to replace
each field by the value that its name leads to.
-/
namespace PocketShell.Template

/-! ## Fields -/

/-- A field as it is written. -/
structure Field where
  name : List Char
  conversion : Option Char
  layout : List Char
  nested : Bool
  deriving Repr, DecidableEq

/-- A piece of a template; behind a broken one nothing more is read. -/
inductive Piece
  | plain (text : List Char)
  | field (field : Field)
  | broken (reason : String)
  deriving Repr, DecidableEq

/-- What may end the name of a field. -/
inductive NameEnd
  | brace
  | layout
  | conversion
  deriving Repr, DecidableEq

/-- The name of a field, what ends it, and what follows. Between brackets nothing ends it. -/
def nameOf : (bracketed : Bool) → List Char → Except String (List Char × NameEnd × List Char)
  | _, [] => .error "expected '\x7d' before end of string"
  | true, c :: rest => do
    let (name, stop, after) ← nameOf (c != ']') rest
    return (c :: name, stop, after)
  | false, c :: rest =>
    if c = '\x7b' then .error "unexpected '\x7b' in field name"
    else if c = '\x7d' then .ok ([], .brace, rest)
    else if c = ':' then .ok ([], .layout, rest)
    else if c = '!' then .ok ([], .conversion, rest)
    else do
      let (name, stop, after) ← nameOf (c = '[') rest
      return (c :: name, stop, after)

/-- The layout of a field up to the brace that closes it, when `depth` more braces are open. -/
def layoutOf : (depth : Nat) → List Char → Except String (List Char × List Char)
  | _, [] => .error "unmatched '\x7b' in format spec"
  | depth, c :: rest =>
    if c = '\x7d' && depth = 0 then .ok ([], rest)
    else do
      let depth := if c = '\x7b' then depth + 1 else if c = '\x7d' then depth - 1 else depth
      let (layout, after) ← layoutOf depth rest
      return (c :: layout, after)

/-- What stands behind the name of a field: conversion and layout. -/
def behindName (stop : NameEnd) (cs : List Char) :
    Except String (Option Char × List Char × List Char) := do
  match stop, cs with
  | .brace, rest => return (none, [], rest)
  | .layout, rest =>
    let (layout, after) ← layoutOf 0 rest
    return (none, layout, after)
  | .conversion, [] => throw "end of string while looking for conversion specifier"
  | .conversion, [_] => throw "unmatched '\x7b' in format spec"
  | .conversion, conversion :: c :: rest =>
    if c = '\x7d' then return (some conversion, [], rest)
    if c != ':' then throw "expected ':' after conversion specifier"
    let (layout, after) ← layoutOf 0 rest
    return (some conversion, layout, after)

/-- The field behind an opening brace, and what follows it. -/
def fieldOf (cs : List Char) : Except String (Field × List Char) := do
  let (name, stop, rest) ← nameOf false cs
  let (conversion, layout, after) ← behindName stop rest
  return (⟨name, conversion, layout, layout.contains '\x7b'⟩, after)

/-- A brace. -/
def isBrace (c : Char) : Bool := c = '\x7b' || c = '\x7d'

/-- The pieces of a template, at most `limit`. -/
def piecesWithin : (limit : Nat) → List Char → List Piece
  | 0, _ => []
  | _, [] => []
  | limit + 1, c :: rest =>
    if !isBrace c then
      .plain (c :: rest.takeWhile (!isBrace ·)) :: piecesWithin limit (rest.dropWhile (!isBrace ·))
    else match rest with
      | [] => [.broken s!"Single '{c}' encountered in format string"]
      | next :: after =>
        if next = c then .plain [c] :: piecesWithin limit after
        else if c = '\x7d' then [.broken s!"Single '{c}' encountered in format string"]
        else match fieldOf rest with
          | .error reason => [.broken reason]
          | .ok (field, after) => .field field :: piecesWithin limit after

/-- The pieces of a template. -/
def pieces (cs : List Char) : List Piece := piecesWithin cs.length cs

/-! ## Values -/

/-- The values that fields may name. -/
abbrev Scope := List (String × Json)

/-- The position that a name of digits stands for, if it is one. -/
def position? (name : List Char) : Except Fault (Option Nat) := do
  let (count, rest) ← readCount name
  return if rest.isEmpty then count else none

/-- A character ends the name of a member. -/
def endsMember (c : Char) : Bool := c = '.' || c = '['

/-- A member of a value. Only characters of a text can be reached, by their positions. -/
def memberOf (value : Json) (name : List Char) : Except Fault Json := do
  let place ← position? name
  match value, place with
  | .string text, some i => match text.toList[i]? with
    | some c => return .string (String.singleton c)
    | none => throw (.badIndex "string index out of range")
  | _, _ => throw .badType

/-- Follows the members that are written behind a name, at most `limit`. -/
def follow : (limit : Nat) → Json → List Char → Except Fault Json
  | 0, value, _ => .ok value
  | limit + 1, value, cs =>
    match cs with
    | [] => .ok value
    | '.' :: rest =>
      if (rest.takeWhile (!endsMember ·)).isEmpty then
        .error (.badValue "Empty attribute in format string")
      else .error .noMember
    | '[' :: rest => match Text.cutAt ']' rest with
      | none => .error (.badValue "Missing ']' in format string")
      | some (name, after) =>
        if name.isEmpty then .error (.badValue "Empty attribute in format string")
        else do follow limit (← memberOf value name) after
    | _ => .error (.badValue "Only '.' or '[' may follow ']' in format field specifier")

/-- The value that the name of a field leads to. No values go by position. -/
def Scope.value (scope : Scope) (name : List Char) : Except Fault Json := do
  let first := name.takeWhile (!endsMember ·)
  let place ← position? first
  let place := if first.isEmpty then some 0 else place
  match place with
  | some i => throw (.badIndex s!"Replacement index {i} out of range for positional args tuple")
  | none => match scope.lookup (String.ofList first) with
    | none => throw (.missingKey (String.ofList first))
    | some value => follow name.length value (name.dropWhile (!endsMember ·))

/-- A value after the conversion of its field. -/
def convert (value : Json) : Option Char → Except Fault Json
  | none => .ok value
  | some 'r' => .ok (.string value.display)
  | some 's' => .ok (.string value.plain)
  | some 'a' => .ok (.string (Text.plainEscapes value.display))
  | some c =>
    let shown := shownMark (fun c => 32 < c.toNat && c.toNat < 127) c
    .error (.badValue s!"Unknown conversion specifier {shown}")

/-- The text of a value by a layout; only a text takes one. -/
def textOf (value : Json) (layout : List Char) : Except Fault (List Char) :=
  match value with
  | .string text => layOut layout text.toList
  | value => if layout.isEmpty then .ok value.plain.toList else .error .badType

/-- Fills a template in; layouts may hold fields down to `depth` levels, this one included. -/
def renderWithin (scope : Scope) : (depth : Nat) → List Char → Except Fault (List Char)
  | 0, _ => .error (.badValue "Max string recursion exceeded")
  | depth + 1, cs => do
    let texts ← (pieces cs).mapM fun
      | .plain text => .ok text
      | .broken reason => .error (.badValue reason)
      | .field field => do
        let value ← convert (← scope.value field.name) field.conversion
        let layout ← if field.nested then renderWithin scope depth field.layout
          else pure field.layout
        textOf value layout
    return texts.flatten

/-- Fills a template in; the layouts of its fields may hold fields, those of these may not. -/
def render (template : String) (scope : Scope) : Except Fault String := do
  return String.ofList (← renderWithin scope 2 template.toList)

end PocketShell.Template
