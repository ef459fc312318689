import PocketShell.Text.Case
import PocketShell.Text.Class

/-!
Patterns as trees, and the widths of what they match. At the leaves stand tests of one character:
what a literal, a set or the dot of a pattern accepts. A test says itself how it treats case, so
that matching needs no flags.
-/
namespace PocketShell.Pattern

/-! ## Characters -/

/-- How characters are compared. -/
inductive Fold
  /-- As they are. -/
  | exact
  /-- Without regard to case among the first 128 characters. -/
  | plain
  /-- Without regard to case. -/
  | full
  deriving Repr, DecidableEq

/-- The classes of characters that have a letter of their own. -/
inductive Category
  | digit
  | space
  | word
  deriving Repr, DecidableEq

/-- The blanks among the first 128 characters. -/
def isPlainSpace (c : Char) : Bool :=
  c == ' ' || c == '\t' || c == '\n' || c == '\r' || c == '\x0b' || c == '\x0c'

/-- The character is in the class; with `plain` only the first 128 characters can be. -/
def Category.holds (category : Category) (plain : Bool) (c : Char) : Bool :=
  match category, plain with
  | .digit, true => c.isDigit
  | .digit, false => Text.isDecimal c
  | .space, true => isPlainSpace c
  | .space, false => Text.isBlank c
  | .word, true => c.isAlphanum || c == '_'
  | .word, false => Text.isWordChar c

/-- A part of a set. Characters are given by their codes. -/
inductive SetItem
  | code (n : Nat)
  | range (low high : Nat)
  | category (kind : Category) (plain negated : Bool)
  deriving Repr, DecidableEq

/-- The small form by a way of comparing. -/
def Fold.small : Fold → Char → Char
  | .exact, c => c
  | .plain, c => Text.lowerPlain c
  | .full, c => Text.lowerChar c

/-- The characters that a way of comparing takes for equal. -/
def Fold.same : Fold → Char → List Char
  | .exact, c => [c]
  | .plain, c => Text.alikePlain c
  | .full, c => Text.alike c

/-- The character with a code is taken for equal. -/
def Fold.equal (fold : Fold) (code : Nat) (c : Char) : Bool :=
  c.toNat == code || (fold != .exact && (fold.same c).any (·.toNat == code))

/-- A part of a set accepts a character. Beyond the first plane a single character stands in a set
as it is written and is compared with small forms. -/
def SetItem.accepts (fold : Fold) (c : Char) : SetItem → Bool
  | .code n => if n < 0x10000 then fold.equal n c else (fold.small c).toNat == n
  | .range low high =>
    (low ≤ c.toNat && c.toNat ≤ high)
      || (fold != .exact && (fold.same c).any fun d => low ≤ d.toNat && d.toNat ≤ high)
  | .category kind plain negated => kind.holds plain c != negated

/-- A test of one character. -/
inductive CharTest
  | any (lineBreaks : Bool)
  | one (negated : Bool) (code : Nat) (fold : Fold)
  | set (negated : Bool) (items : List SetItem) (fold : Fold)
  deriving Repr, DecidableEq

/-- The test accepts a character. -/
def CharTest.accepts (c : Char) : CharTest → Bool
  | .any lineBreaks => lineBreaks || c != '\n'
  | .one negated code fold => fold.equal code c != negated
  | .set negated items fold => items.any (·.accepts fold c) != negated

/-! ## Trees -/

/-- Places in a text. -/
inductive Anchor
  | textStart
  | textEnd
  /-- At the end, or before a newline that ends the text. -/
  | lastLineEnd
  | lineStart
  | lineEnd
  /-- Between a word and what is none, or anywhere else. -/
  | wordEdge (plain negated : Bool)
  deriving Repr, DecidableEq

/-- How a repetition chooses its number of rounds. -/
inductive Mode
  /-- As many as possible, fewer if the rest asks for it. -/
  | greedy
  /-- As few as possible. -/
  | lazy
  /-- As many as possible, whatever the rest asks for. -/
  | possessive
  deriving Repr, DecidableEq

/-- Where an assertion looks. Behind, it looks at a fixed number of characters. -/
inductive Direction
  | ahead
  | behind (width : Nat)
  deriving Repr, DecidableEq

/-- A pattern. -/
inductive Node
  | empty
  | char (test : CharTest)
  | anchor (place : Anchor)
  | seq (first second : Node)
  | alt (first second : Node)
  | «repeat» (mode : Mode) (least : Nat) (most : Option Nat) (body : Node)
  | group (index : Nat) (body : Node)
  | atomic (body : Node)
  | backref (index : Nat) (fold : Fold)
  | look (direction : Direction) (negated : Bool) (body : Node)
  | conditional (index : Nat) (whenSet otherwise : Node)
  deriving Repr, DecidableEq

namespace Node

/-- Patterns one after another. -/
def ofList : List Node → Node
  | [] => .empty
  | [node] => node
  | node :: rest => .seq node (ofList rest)

/-- Patterns as alternatives. -/
def oneOf : List Node → Node
  | [] => .empty
  | [node] => node
  | node :: rest => .alt node (oneOf rest)

end Node

/-- The least and the greatest number of characters that a pattern matches. -/
structure Width where
  least : Nat
  most : Nat
  deriving Repr, DecidableEq

/-- A width without bound. -/
def Width.unbounded : Nat := 0x10000000000000000

/-- The width of a pattern, given those of its groups. -/
def Node.width (groups : Nat → Width) : Node → Width
  | .empty => ⟨0, 0⟩
  | .char _ => ⟨1, 1⟩
  | .anchor _ => ⟨0, 0⟩
  | .seq first second =>
    let a := first.width groups
    let b := second.width groups
    ⟨a.least + b.least, a.most + b.most⟩
  | .alt first second =>
    let a := first.width groups
    let b := second.width groups
    ⟨min a.least b.least, max a.most b.most⟩
  | .repeat _ least most body =>
    let a := body.width groups
    ⟨least * a.least, match most with
      | some n => n * a.most
      | none => if a.most = 0 then 0 else Width.unbounded⟩
  | .group _ body => body.width groups
  | .atomic body => body.width groups
  | .backref index _ => groups index
  | .look _ _ _ => ⟨0, 0⟩
  | .conditional _ whenSet otherwise =>
    let a := whenSet.width groups
    let b := otherwise.width groups
    ⟨min a.least b.least, max a.most b.most⟩

end PocketShell.Pattern
