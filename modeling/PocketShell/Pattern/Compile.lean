import PocketShell.Pattern.Parser

/-!
Patterns ready for use: read, and checked for what only the whole tree shows.
-/
namespace PocketShell

/-- A pattern. `groups` counts its groups, and some of them have names. -/
structure Pattern where
  node : Pattern.Node
  groups : Nat
  names : List (String × Nat)
  deriving Repr

namespace Pattern

/-- The greatest number of characters that a pattern may look behind. -/
def greatestLookBehind : Nat := 0xffffffff

/-- The name of a way to repeat. -/
def Mode.name : Mode → String
  | .greedy => "MAX_REPEAT"
  | .lazy => "MIN_REPEAT"
  | .possessive => "POSSESSIVE_REPEAT"

/-- Refuses a pattern without a place. -/
def refuse {α : Type} (cause : Cause) : Except Failure α := .error (.refused ⟨cause, none⟩)

/-- Checks the parts of a pattern from left to right, a part before what it holds: a look-behind has
a fixed width, and a template repeats nothing. -/
def Node.check (template : Bool) (groups : Nat → Width) : Node → Except Failure Unit
  | .empty => .ok ()
  | .char _ => .ok ()
  | .anchor _ => .ok ()
  | .backref _ _ => .ok ()
  | .seq first second => do
    first.check template groups
    second.check template groups
  | .alt first second => do
    first.check template groups
    second.check template groups
  | .repeat mode _ _ body => do
    if template then refuse (.repeatInTemplate mode.name)
    body.check template groups
  | .group _ body => body.check template groups
  | .atomic body => body.check template groups
  | .look direction _ body => do
    match direction with
    | .ahead => pure ()
    | .behind _ =>
      let width := body.width groups
      if width.least > greatestLookBehind then refuse .longLookBehind
      if width.least != width.most then refuse .looseLookBehind
    body.check template groups
  | .conditional _ whenSet otherwise => do
    whenSet.check template groups
    otherwise.check template groups

/-- The source of a pattern before any of it is read. -/
def sourceOf (flags : Flags) (text : String) : Source :=
  { rest := text.toList, position := 0, flags, widths := [], names := [], behind := none,
    conditions := [] }

/-- Reads and checks a pattern. -/
def compile (flags : Flags) (text : String) : Except Failure Pattern := do
  let (node, source) ← Reader.readPattern.run (sourceOf flags text)
  node.check source.flags.template (Reader.widthIn source)
  return ⟨node, source.widths.length, source.names⟩

end Pattern

end PocketShell
