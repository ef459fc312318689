import PocketShell.Text.Class

/-!
Cutting text into words, lines and fields, and putting pieces together again. The work is done on
lists of characters; the functions on strings only wrap it.
-/
namespace PocketShell.Text

/-- The pieces between the characters that satisfy `p`; always at least one piece. -/
def splitWhere (p : Char → Bool) : List Char → List (List Char)
  | [] => [[]]
  | c :: rest =>
    if p c then [] :: splitWhere p rest
    else match splitWhere p rest with
      | [] => [[c]]
      | piece :: pieces => (c :: piece) :: pieces

theorem splitWhere_ne_nil (p : Char → Bool) (cs : List Char) : splitWhere p cs ≠ [] := by
  cases cs with
  | nil => simp [splitWhere]
  | cons c rest =>
    simp only [splitWhere]
    split
    · simp
    · split <;> simp

/-- The words of a text: maximal runs without whitespace. -/
def words (s : String) : List String :=
  ((splitWhere isBlank s.toList).filter (!·.isEmpty)).map String.ofList

/-- The lines of a text. A carriage return and the newline after it end one line together, and
nothing follows the last line end. -/
def splitLines : List Char → List (List Char)
  | [] => []
  | '\r' :: '\n' :: rest => [] :: splitLines rest
  | c :: rest =>
    if isLineBreak c then [] :: splitLines rest
    else match splitLines rest with
      | [] => [[c]]
      | line :: lines => (c :: line) :: lines

/-- The lines of a text, without their ends. -/
def lines (s : String) : List String := (splitLines s.toList).map String.ofList

/-- Lines put together with a newline between neighbours. -/
def unlines (lines : List String) : String := "\n".intercalate lines

/-- The pieces between the occurrences of `sep`, found from the left; the first argument counts the
characters of a found separator that are still to be passed. -/
def splitOnFrom (sep : List Char) : Nat → List Char → List (List Char)
  | _, [] => [[]]
  | skip + 1, _ :: rest => splitOnFrom sep skip rest
  | 0, c :: rest =>
    if sep.isPrefixOf (c :: rest) then [] :: splitOnFrom sep (sep.length - 1) rest
    else match splitOnFrom sep 0 rest with
      | [] => [[c]]
      | piece :: pieces => (c :: piece) :: pieces

/-- The fields of a text around a separator that is not empty. -/
def splitOn (sep s : String) : List String :=
  (splitOnFrom sep.toList 0 s.toList).map String.ofList

/-- Every occurrence of `old`, found from the left, becomes `new`; the first argument counts the
characters of a found occurrence that are still to be passed. -/
def replaceFrom (old new : List Char) : Nat → List Char → List Char
  | _, [] => []
  | skip + 1, _ :: rest => replaceFrom old new skip rest
  | 0, c :: rest =>
    if old.isPrefixOf (c :: rest) then new ++ replaceFrom old new (old.length - 1) rest
    else c :: replaceFrom old new 0 rest

/-- Replaces every occurrence of a text that is not empty. -/
def replaceAll (old new s : String) : String :=
  String.ofList (replaceFrom old.toList new.toList 0 s.toList)

/-- The text `part` begins somewhere in the characters. -/
def beginsWithin (part : List Char) : List Char → Bool
  | [] => part.isEmpty
  | c :: rest => part.isPrefixOf (c :: rest) || beginsWithin part rest

/-- The text `part` occurs in `s`. -/
def occursIn (part s : String) : Bool := beginsWithin part.toList s.toList

/-- The text before the first occurrence of `mark` and the text after it, or `none` without one. -/
def cutAt (mark : Char) : List Char → Option (List Char × List Char)
  | [] => none
  | c :: rest =>
    if c = mark then some ([], rest)
    else (cutAt mark rest).map fun (before, after) => (c :: before, after)

/-- Without the characters at the front that satisfy `p`. -/
def trimLeftWhere (p : Char → Bool) (s : String) : String := String.ofList (s.toList.dropWhile p)

/-- Without the characters at the end that satisfy `p`. -/
def trimRightWhere (p : Char → Bool) (s : String) : String :=
  String.ofList (s.toList.reverse.dropWhile p).reverse

/-- Without the whitespace at both ends. -/
def trim (s : String) : String := trimRightWhere isBlank (trimLeftWhere isBlank s)

/-- Runs of whitespace become one space each, and none stays at the ends. -/
def collapse (s : String) : String := " ".intercalate (words s)

/-- At most `limit` cuts at runs of whitespace; the rest of the text stays one piece, without the
whitespace before it but with all that follows, and an empty rest is no piece. -/
def wordsUpTo : (limit : Nat) → List Char → List (List Char)
  | 0, cs =>
    let rest := cs.dropWhile isBlank
    if rest.isEmpty then [] else [rest]
  | limit + 1, cs =>
    let rest := cs.dropWhile isBlank
    if rest.isEmpty then []
    else (rest.takeWhile (!isBlank ·)) :: wordsUpTo limit (rest.dropWhile (!isBlank ·))

/-- Spaces before the text up to the width. -/
def padLeft (width : Nat) (s : String) : String :=
  String.ofList (List.replicate (width - s.length) ' ') ++ s

/-- Spaces after the text up to the width. -/
def padRight (width : Nat) (s : String) : String :=
  s ++ String.ofList (List.replicate (width - s.length) ' ')

/-- A natural number in a base up to sixteen, zeros before it up to the width. -/
def padDigits (base width n : Nat) : String :=
  let digits := Nat.toDigits base n
  String.ofList (List.replicate (width - digits.length) '0' ++ digits)

end PocketShell.Text
