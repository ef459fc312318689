import PocketShell.Pattern.Compile

/-!
Matching by backtracking. A node is tried with what is to follow it; when that fails, the next
possibility is tried. Rounds of a repetition that are not asked for end where one would begin in the
place in which the last one began, so that rounds without a character cannot go on for ever.
-/
namespace PocketShell.Pattern

/-- A place in a text, and what the groups hold, the latest first. The characters before the place
are kept in reverse. -/
structure Cursor where
  past : List Char
  rest : List Char
  position : Nat
  groups : List (Nat × List Char)
  deriving Repr, DecidableEq

namespace Cursor

/-- The start of a text. -/
def start (text : List Char) : Cursor := ⟨[], text, 0, []⟩

/-- One character on. -/
def advance? (cursor : Cursor) : Option (Char × Cursor) :=
  match cursor.rest with
  | [] => none
  | c :: rest =>
    some (c, { cursor with past := c :: cursor.past, rest, position := cursor.position + 1 })

/-- A number of characters back. -/
def back? : Nat → Cursor → Option Cursor
  | 0, cursor => some cursor
  | n + 1, cursor =>
    match cursor.past with
    | [] => none
    | c :: past =>
      back? n { cursor with past, rest := c :: cursor.rest, position := cursor.position - 1 }

/-- What a group holds. -/
def group? (cursor : Cursor) (index : Nat) : Option (List Char) := cursor.groups.lookup index

/-- The text between an earlier place and the cursor. -/
def since (cursor : Cursor) (position : Nat) : List Char :=
  (cursor.past.take (cursor.position - position)).reverse

/-- The cursor with the text since an earlier place as a group. -/
def capture (index position : Nat) (cursor : Cursor) : Cursor :=
  { cursor with groups := (index, cursor.since position) :: cursor.groups }

/-- Passes a text, character by character. -/
def pass? (fold : Fold) : List Char → Cursor → Option Cursor
  | [], cursor => some cursor
  | c :: rest, cursor => match cursor.advance? with
    | some (d, next) => if fold.small c = fold.small d then pass? fold rest next else none
    | none => none

end Cursor

/-- The cursor stands at such a place. -/
def Anchor.holds (anchor : Anchor) (cursor : Cursor) : Bool :=
  let wordIn (plain : Bool) (c : Option Char) : Bool := c.any (Category.word.holds plain)
  match anchor with
  | .textStart => cursor.past.isEmpty
  | .textEnd => cursor.rest.isEmpty
  | .lastLineEnd => cursor.rest.isEmpty || cursor.rest == ['\n']
  | .lineStart => cursor.past.isEmpty || cursor.past.head? == some '\n'
  | .lineEnd => cursor.rest.isEmpty || cursor.rest.head? == some '\n'
  | .wordEdge plain negated =>
    !(cursor.past.isEmpty && cursor.rest.isEmpty)
      && (wordIn plain cursor.past.head? != wordIn plain cursor.rest.head?) != negated

/-- What is to follow: the cursor after it, if it matches. -/
abbrev Next := Cursor → Option Cursor

/-- A number of rounds that are asked for. -/
def required (round : Next → Next) : Nat → Next → Next
  | 0, next => next
  | n + 1, next => round (required round n next)

/-- At most so many more rounds, as many as possible. `last` is where the last one began. -/
def greedyRounds (round : Next → Next) : (most : Nat) → (last : Option Nat) → Next → Next
  | 0, _, next, cursor => next cursor
  | most + 1, last, next, cursor =>
    if last = some cursor.position then next cursor
    else match round (greedyRounds round most (some cursor.position) next) cursor with
      | some found => some found
      | none => next cursor

/-- At most so many more rounds, as few as possible. -/
def lazyRounds (round : Next → Next) : (most : Nat) → (last : Option Nat) → Next → Next
  | 0, _, next, cursor => next cursor
  | most + 1, last, next, cursor =>
    match next cursor with
    | some found => some found
    | none =>
      if last = some cursor.position then none
      else round (lazyRounds round most (some cursor.position) next) cursor

/-- At most so many more rounds, each of which stays as it is once found. -/
def possessiveRounds (round : Next → Next) : (most : Nat) → (last : Option Nat) → Next
  | 0, _, cursor => some cursor
  | most + 1, last, cursor =>
    if last = some cursor.position then some cursor
    else match round some cursor with
      | some found => possessiveRounds round most (some cursor.position) found
      | none => some cursor

/-- The rounds a repetition can have at a place beyond those asked for: each but the last one takes
a character. -/
def spareRounds (least : Nat) (most : Option Nat) (cursor : Cursor) : Nat :=
  match most with
  | none => cursor.rest.length + 2
  | some most => min (most - least) (cursor.rest.length + 2)

/-- Matches a node and what is to follow it. -/
def Node.run : Node → Next → Next
  | .empty, next => next
  | .char test, next => fun cursor => match cursor.advance? with
    | some (c, after) => if test.accepts c then next after else none
    | none => none
  | .anchor place, next => fun cursor => if place.holds cursor then next cursor else none
  | .seq first second, next => first.run (second.run next)
  | .alt first second, next => fun cursor => match first.run next cursor with
    | some found => some found
    | none => second.run next cursor
  | .repeat mode least most body, next =>
    let round := fun next => body.run next
    match mode with
    | .greedy => required round least fun cursor =>
        greedyRounds round (spareRounds least most cursor) none next cursor
    | .lazy => required round least fun cursor =>
        lazyRounds round (spareRounds least most cursor) none next cursor
    | .possessive => fun cursor =>
        match required (fun next cursor => (round some cursor).bind next) least some cursor with
        | none => none
        | some cursor =>
          match possessiveRounds round (spareRounds least most cursor) none cursor with
          | some found => next found
          | none => none
  | .group index body, next => fun cursor =>
    body.run (fun after => next (after.capture index cursor.position)) cursor
  | .atomic body, next => fun cursor => match body.run some cursor with
    | some found => next found
    | none => none
  | .backref index fold, next => fun cursor =>
    match (cursor.group? index).bind fun text => cursor.pass? fold text with
    | some after => next after
    | none => none
  | .look direction negated body, next => fun cursor =>
    let from? := match direction with
      | .ahead => some cursor
      | .behind width => cursor.back? width
    match from?.bind (body.run some) with
    | some found =>
      if negated then none else next { cursor with groups := found.groups }
    | none => if negated then next cursor else none
  | .conditional index whenSet otherwise, next => fun cursor =>
    if (cursor.group? index).isSome then whenSet.run next cursor else otherwise.run next cursor

/-- A match: the text before it, its own, what its groups hold, and the cursor behind it. -/
structure Match where
  text : List Char
  groups : List (Nat × List Char)
  skipped : List Char
  after : Cursor
  deriving Repr, DecidableEq

/-- The text of a group; group zero is the whole match. -/
def Match.group? (found : Match) (index : Nat) : Option (List Char) :=
  if index = 0 then some found.text else found.groups.lookup index

/-- Matches at the cursor, ending where `accept` allows it. -/
def matchAt (pattern : Pattern) (accept : Cursor → Bool) (cursor : Cursor) : Option Cursor :=
  pattern.node.run (fun after => if accept after then some after else none)
    { cursor with groups := [] }

/-- The first match at or behind a place; `steps` bounds the characters that are skipped. At the
place itself the match must satisfy `accept`. -/
def searchFrom (pattern : Pattern) (origin : Nat) (accept : Cursor → Bool) :
    (steps : Nat) → Cursor → Option Match
  | 0, _ => none
  | steps + 1, cursor =>
    match matchAt pattern accept cursor with
    | some after =>
      some ⟨after.since cursor.position, after.groups, cursor.since origin, after⟩
    | none => match cursor.advance? with
      | none => none
      | some (_, next) => searchFrom pattern origin (fun _ => true) steps next

/-- The first match at or behind a place. With `advance` it is not the empty text at that place. -/
def searchNext (pattern : Pattern) (advance : Bool) (cursor : Cursor) : Option Match :=
  searchFrom pattern cursor.position
    (fun after => !advance || after.position != cursor.position) (cursor.rest.length + 1) cursor

end Pattern

namespace Pattern

/-- The pattern matches somewhere in the text. -/
def search (pattern : Pattern) (text : String) : Bool :=
  (searchNext pattern false (.start text.toList)).isSome

/-- The pattern matches the whole text. -/
def fullMatch (pattern : Pattern) (text : String) : Bool :=
  (matchAt pattern (·.rest.isEmpty) (.start text.toList)).isSome

/-- The matches from a place on that follow one another, at most `limit`, and the characters behind
the last one. -/
def matchesFrom (pattern : Pattern) : (limit : Nat) → (advance : Bool) → Cursor →
    List Match × List Char
  | 0, _, cursor => ([], cursor.rest)
  | limit + 1, advance, cursor =>
    match searchNext pattern advance cursor with
    | none => ([], cursor.rest)
    | some found =>
      let (rest, tail) := matchesFrom pattern limit found.text.isEmpty found.after
      (found :: rest, tail)

/-- The text with matches replaced, all of them or the first one. -/
def replace (pattern : Pattern) (all : Bool) (replacement : Match → List Char) (text : String) :
    String :=
  let cs := text.toList
  let (found, tail) := matchesFrom pattern (if all then 2 * cs.length + 2 else 1) false (.start cs)
  String.ofList (found.flatMap (fun m => m.skipped ++ replacement m) ++ tail)

end Pattern

end PocketShell
