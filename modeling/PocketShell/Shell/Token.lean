import PocketShell.Shell.Line
import PocketShell.Shell.Substitution

/-!
Tokens of a stage: words with their quotes taken off, and the marks of redirections. A dollar sign
that is to stay one is kept behind a backslash until variables have been expanded.
-/
namespace PocketShell.Shell

/-- The marks that make a redirection. -/
inductive Mark
  | output (redirect : Redirect)
  | input
  deriving Repr, DecidableEq

/-- The text of a mark. -/
def Mark.text : Mark → String
  | .output redirect => redirect.mark
  | .input => "<"

/-- A word, or the mark of a redirection that is neither quoted nor escaped. -/
inductive Token
  | word (text : String)
  | mark (mark : Mark)
  deriving Repr, DecidableEq

/-- The text of a token. -/
def Token.text : Token → String
  | .word text => text
  | .mark m => m.text

/-- The mark at the front of the text, and what follows it. Inside a word `2>` is no mark of its
own. -/
def mark? (inWord : Bool) : List Char → Option (Mark × List Char)
  | '&' :: '>' :: rest => some (.output .both, rest)
  | '>' :: '>' :: rest => some (.output .append, rest)
  | '>' :: rest => some (.output .overwrite, rest)
  | '<' :: rest => some (.input, rest)
  | '2' :: '>' :: rest => if inWord then none else some (.output .errors, rest)
  | _ => none

/-- What follows a mark is shorter than the text. -/
theorem length_lt_of_mark {inWord : Bool} {cs after : List Char} {mark : Mark}
    (h : mark? inWord cs = some (mark, after)) : after.length < cs.length := by
  unfold mark? at h
  split at h <;> grind

/-- A character that is to be taken as it is. -/
def literally (c : Char) : List Char := if c = '$' then ['\\', '$'] else [c]

/-- The characters that a backslash protects between double quotes, the dollar sign aside. -/
def isProtected (c : Char) : Bool := c == '"' || c == '\\' || c == '\x60'

/-- The word read so far as a token; none if no word has begun. -/
def flush : Option (List Char) → List Token
  | none => []
  | some text => [.word (String.ofList text)]

/-- The word read so far with more text at its end. -/
def grow (word : Option (List Char)) (text : List Char) : Option (List Char) :=
  some (word.getD [] ++ text)

/-- Reads tokens. `marks` says whether marks are told from words, `quote` is the quote that is open
and `word` the word read so far. -/
def lex (marks : Bool) (quote : Option Char) (word : Option (List Char)) (cs : List Char) :
    List Token :=
  match quote, cs with
  | _, [] => flush word
  | some q, c :: rest =>
    if c = q then lex marks none word rest
    else if q = Text.singleQuote then lex marks (some q) (grow word (literally c)) rest
    else
      match c, rest with
      | '\\', d :: rest' =>
        if isProtected d || d = '$' then lex marks (some q) (grow word (literally d)) rest'
        else lex marks (some q) (grow word [c]) (d :: rest')
      | c, rest =>
        match _found : substitution? (c :: rest) with
        | some (command, after) => lex marks (some q) (grow word (spanOf command)) after
        | none => lex marks (some q) (grow word [c]) rest
  | none, '\\' :: d :: rest => lex marks none (grow word (literally d)) rest
  | none, c :: rest =>
    if isQuote c then lex marks (some c) (grow word []) rest
    else match _found : substitution? (c :: rest) with
      | some (command, after) => lex marks none (grow word (spanOf command)) after
      | none =>
        if Text.isBlank c then flush word ++ lex marks none none rest
        else match _marked : if marks then mark? word.isSome (c :: rest) else none with
          | some (mark, after) => flush word ++ .mark mark :: lex marks none none after
          | none => lex marks none (grow word [c]) rest
  termination_by cs.length
  decreasing_by
    all_goals first
      | exact length_lt_of_substitution _found
      | simp only [List.length_cons]; omega
      | skip
    split at _marked
    · exact length_lt_of_mark _marked
    · contradiction

/-- The words of a text, without telling marks apart. -/
def words (text : String) : List String := (lex false none none text.toList).map Token.text

end PocketShell.Shell
