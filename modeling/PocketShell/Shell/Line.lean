/-!
Command lines as data: segments joined by operators, each a pipeline of actions.
-/
namespace PocketShell.Shell

/-- Which streams of an action go to a file, and how. -/
inductive Redirect
  | overwrite
  | append
  | errors
  | both
  deriving Repr, DecidableEq

/-- The mark of a redirection of output. -/
def Redirect.mark : Redirect → String
  | .overwrite => ">"
  | .append => ">>"
  | .errors => "2>"
  | .both => "&>"

/-- The redirections of output; of several that a stage holds the first one here counts. -/
def Redirect.byPrecedence : List Redirect := [.both, .errors, .append, .overwrite]

/-- One stage of a pipeline. -/
structure Action where
  name : String
  args : List String
  output : Option (Redirect × String)
  input : Option String
  deriving Repr, DecidableEq

/-- Stages joined by pipes. -/
abbrev Pipeline := List Action

/-- What stands between a segment and the next one. -/
inductive Operator
  | and
  | or
  | sequence
  | done
  deriving Repr, DecidableEq

/-- The mark of an operator; nothing is written after the last segment. -/
def Operator.mark : Operator → String
  | .and => "&&"
  | .or => "||"
  | .sequence => ";"
  | .done => ""

/-- A pipeline and the operator that follows it. -/
structure Segment where
  pipeline : Pipeline
  operator : Operator
  deriving Repr, DecidableEq

end PocketShell.Shell
