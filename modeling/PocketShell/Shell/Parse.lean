import PocketShell.Shell.Separator
import PocketShell.Shell.Token

/-!
From a line to its segments. Every token of a stage ends up in its words or in one of its two
redirections.
-/
namespace PocketShell.Shell

/-- Takes the first mark of a kind that a word follows, together with the word. Both leave a gap, so
that what stood before them has no new neighbour. -/
def takeRedirect (mark : Mark) : List (Option Token) → Option (String × List (Option Token))
  | [] => none
  | some (.mark found) :: some (.word target) :: rest =>
    if found = mark then some (target, none :: none :: rest)
    else (takeRedirect mark (some (.word target) :: rest)).map
      fun (path, slots) => (path, some (.mark found) :: slots)
  | slot :: rest => (takeRedirect mark rest).map fun (path, slots) => (path, slot :: slots)

/-- Takes the redirection of output that takes precedence. -/
def takeOutput (slots : List (Option Token)) :
    Option ((Redirect × String) × List (Option Token)) :=
  Redirect.byPrecedence.findSome? fun redirect =>
    (takeRedirect (.output redirect) slots).map fun (path, slots) => ((redirect, path), slots)

/-- The action of a stage; none if the stage is empty. A mark without a target, or one that is not
taken, is a word like others. -/
def parseAction (stage : String) : Option Action :=
  let slots := (lex true none none stage.toList).map some
  let (output, slots) := match takeOutput slots with
    | some (output, slots) => (some output, slots)
    | none => (none, slots)
  let (input, slots) := match takeRedirect .input slots with
    | some (path, slots) => (some path, slots)
    | none => (none, slots)
  match slots.filterMap fun slot => slot.map Token.text with
  | name :: args => some ⟨name, args, output, input⟩
  | [] => if output.isNone && input.isNone then none else some ⟨"", [], output, input⟩

/-- The stages of a segment as text. -/
def splitPipeline (segment : String) : List String :=
  (pieces ["||", "|"] segment).map fun (piece, _) => String.ofList piece

/-- The pipeline of a segment, without empty stages. -/
def parsePipeline (segment : String) : Pipeline := (splitPipeline segment).filterMap parseAction

/-- The operators that join segments. -/
def operators : List Operator := [.and, .or, .sequence]

/-- The operator that a separator stands for. -/
def operatorOf (separator : Option (List Char)) : Operator :=
  match separator with
  | none => .done
  | some cs => (operators.find? fun op => op.mark.toList == cs).getD .done

/-- Nothing follows the last segment. -/
def closeLast : List Segment → List Segment
  | [] => []
  | [last] => [{ last with operator := .done }]
  | segment :: rest => segment :: closeLast rest

/-- The segments of a line, without empty ones. A line that begins with `#` has none. -/
def parseLine (line : String) : List Segment :=
  if (line.toList.dropWhile Text.isBlank).head? = some '#' then []
  else closeLast <| (pieces (operators.map Operator.mark) line).filterMap fun (piece, separator) =>
    match parsePipeline (String.ofList piece) with
    | [] => none
    | pipeline => some ⟨pipeline, operatorOf separator⟩

end PocketShell.Shell
