import PocketShell.Text.Quoted

/-!
Faults: failures that no operation reports as its ordinary result. They come from data of the wrong
form, from commands that give up half way, and from a prompt that has no answer.
-/
namespace PocketShell

/-- A failure outside the ordinary results. -/
inductive Fault
  /-- A name is looked up where it is not bound. -/
  | missingKey (key : String)
  /-- A value has an unusable form. -/
  | badValue (reason : String)
  /-- A position or group does not exist. -/
  | badIndex (reason : String)
  /-- A value is of another kind than its use asks for. -/
  | badType
  /-- A value lacks what is asked of it. -/
  | noMember
  /-- A number is too large for its use. -/
  | overflow (reason : String)
  /-- The system refuses to represent a moment in time. -/
  | outOfRange
  /-- A command gives up. -/
  | failed (reason : String)
  /-- The offending argument among those of a sequence is not found; `argument` is the first one
  that is no number. -/
  | noOffender (argument : String)
  /-- The input has ended. -/
  | endOfInput
  /-- The input was interrupted. -/
  | interrupted
  /-- A command calls itself without end. -/
  | endless
  /-- A text is used as a pattern and is none. -/
  | badPattern (reason : String)
  deriving Repr, DecidableEq

namespace Fault

/-- The name under which the fault is reported. -/
def kind : Fault → String
  | .missingKey _ => "KeyError"
  | .badValue _ => "ValueError"
  | .badIndex _ => "IndexError"
  | .badType => "TypeError"
  | .noMember => "AttributeError"
  | .overflow _ => "OverflowError"
  | .outOfRange => "OSError"
  | .failed _ => "RuntimeError"
  | .noOffender _ => "RuntimeError"
  | .endOfInput => "EOFError"
  | .interrupted => "KeyboardInterrupt"
  | .endless => "RecursionError"
  | .badPattern _ => "error"

/-- The wording of the fault. -/
def message : Fault → String
  | .missingKey key => Text.quoted key
  | .badValue reason => reason
  | .badIndex reason => reason
  | .badType => ""
  | .noMember => ""
  | .overflow reason => reason
  | .outOfRange => "[Errno 75] Value too large for defined data type"
  | .failed reason => reason
  | .noOffender _ => "coroutine raised StopIteration"
  | .endOfInput => "EOF when reading a line"
  | .interrupted => ""
  | .endless => "maximum recursion depth exceeded"
  | .badPattern reason => reason

/-- The kind as logs name it. -/
def fullKind : Fault → String
  | .badPattern _ => "re.error"
  | fault => fault.kind

/-- Kind and wording on one line. -/
def summary (fault : Fault) : String :=
  if fault.message.isEmpty then fault.fullKind else fault.fullKind ++ ": " ++ fault.message

/-- The lines under which a log shows the fault, with those that led to it. -/
def trace : Fault → String
  | .noOffender argument =>
    let cause := Fault.badValue s!"invalid literal for int() with base 10: {Text.quoted argument}"
    cause.summary
      ++ "\n\nDuring handling of the above exception, another exception occurred:\n\nStopIteration"
      ++ "\n\nThe above exception was the direct cause of the following exception:\n\n"
      ++ (Fault.noOffender argument).summary
  | fault => fault.summary

end Fault

end PocketShell
