import PocketShell.Text.Quoted

/-!
Command substitutions: spans that open with a dollar sign and a parenthesis and close with the
parenthesis that balances it. Quotes inside a span hide parentheses.
-/
namespace PocketShell.Shell

/-- A quote that opens or closes a quoted part. -/
def isQuote (c : Char) : Bool := c == Text.singleQuote || c == Text.doubleQuote

/-- The text up to the parenthesis that closes a span, and what follows the parenthesis. `depth`
counts the spans that are open inside. -/
def untilClose : (depth : Nat) → (quote : Option Char) → List Char → Option (List Char × List Char)
  | _, _, [] => none
  | depth, some q, c :: rest =>
    match rest with
    | d :: rest' =>
      if c = '\\' ∧ q = Text.doubleQuote then
        (untilClose depth (some q) rest').map fun (inner, after) => (c :: d :: inner, after)
      else (untilClose depth (if c = q then none else some q) (d :: rest')).map
        fun (inner, after) => (c :: inner, after)
    | [] => none
  | depth, none, c :: rest =>
    if isQuote c then
      (untilClose depth (some c) rest).map fun (inner, after) => (c :: inner, after)
    else if c = '$' then
      match rest with
      | '(' :: rest' => (untilClose (depth + 1) none rest').map
          fun (inner, after) => (c :: '(' :: inner, after)
      | rest' => (untilClose depth none rest').map fun (inner, after) => (c :: inner, after)
    else if c = ')' then
      match depth with
      | 0 => some ([], rest)
      | below + 1 => (untilClose below none rest).map fun (inner, after) => (c :: inner, after)
    else (untilClose depth none rest).map fun (inner, after) => (c :: inner, after)

/-- The command of a substitution at the front of the text, and what follows it. -/
def substitution? : List Char → Option (List Char × List Char)
  | '$' :: '(' :: rest => untilClose 0 none rest
  | _ => none

/-- The span of a command. -/
def spanOf (command : List Char) : List Char := '$' :: '(' :: command ++ [')']

/-- The text is what comes before the closing parenthesis, the parenthesis, and what follows. -/
theorem eq_append_of_untilClose {depth : Nat} {quote : Option Char} {cs inner after : List Char}
    (h : untilClose depth quote cs = some (inner, after)) : cs = inner ++ ')' :: after := by
  fun_induction untilClose depth quote cs generalizing inner after <;> simp_all <;> grind

/-- A substitution is its span followed by the rest. -/
theorem eq_append_of_substitution {cs command after : List Char}
    (h : substitution? cs = some (command, after)) : cs = spanOf command ++ after := by
  unfold substitution? at h
  split at h
  · rw [eq_append_of_untilClose h]; simp [spanOf]
  · contradiction

/-- What follows a substitution is shorter than the text. -/
theorem length_lt_of_substitution {cs command after : List Char}
    (h : substitution? cs = some (command, after)) : after.length < cs.length := by
  rw [eq_append_of_substitution h]
  simp [spanOf]
  omega

/-- A part of a word: literal text, or the command of a substitution. -/
inductive Part
  | literal (text : List Char)
  | command (text : List Char)
  deriving Repr, DecidableEq

/-- The parts with more literal text in front. -/
def Part.before (front : List Char) : List Part → List Part
  | .literal text :: parts => .literal (front ++ text) :: parts
  | parts => .literal front :: parts

/-- The parts of a word. A dollar sign behind a backslash opens nothing. -/
def parts (word : List Char) : List Part :=
  match word with
  | [] => []
  | '\\' :: '$' :: rest => Part.before ['\\', '$'] (parts rest)
  | c :: rest =>
    match _found : substitution? (c :: rest) with
    | some (command, after) => .command command :: parts after
    | none => Part.before [c] (parts rest)
  termination_by word.length
  decreasing_by
    · simp only [List.length_cons]; omega
    · exact length_lt_of_substitution _found
    · simp only [List.length_cons]; omega

/-- The word holds a substitution. -/
def hasSubstitution (word : String) : Bool :=
  (parts word.toList).any fun
    | .command _ => true
    | .literal _ => false

end PocketShell.Shell
