import PocketShell.Log.Line
import PocketShell.Report
import PocketShell.Session

/-!
Dialogues. The program takes inputs one at a time and answers each with what it writes and whether
it waits for another. A line whose command asks for an answer that is not there yet waits for it and
then runs again from the start: a run depends on nothing but its inputs, so that it comes to the same
question, and it leaves nothing behind before it is over.
-/
namespace PocketShell.Cli

open Shell

/-- What the program writes. -/
inductive Piece
  | output (text : String)
  | errors (text : String)
  | entry (entry : Log.Entry)
  deriving Repr

/-- A line that waits for an answer, and the answers it has got. -/
structure Waiting where
  line : String
  answers : List Answer
  deriving Repr

/-- A dialogue between two inputs. Its session is that before the line that waits, and `single` says
that the dialogue ends with this line. -/
structure Dialogue where
  session : Session
  single : Bool
  code : Int
  waiting : Option Waiting
  deriving Repr

/-- How the program goes on. -/
inductive Turn
  | wait (dialogue : Dialogue)
  | exit (code : Int)
  deriving Repr

/-- What the program does with an input. -/
structure Reply where
  pieces : List Piece
  turn : Turn
  deriving Repr

/-- The reply after further pieces. -/
def Reply.after (pieces : List Piece) (reply : Reply) : Reply :=
  { reply with pieces := pieces ++ reply.pieces }

/-- The words that end a dialogue. -/
def exitWords : List String := ["exit", "logout", "quit"]

/-- The text as a line of output; an empty one is not written. -/
def lineOf (piece : String → Piece) (text : String) : List Piece :=
  if text.isEmpty then [] else [piece (text ++ "\n")]

/-- The entries that a log has got since it had as many as `before`, if the log shows their level. -/
def newEntries (level : Log.Level) (before : Nat) (log : Log) : List Piece :=
  let fresh := (log.entries.take (log.entries.length - before)).reverse
  (fresh.filter fun entry => level.weight ≤ entry.weight).map .entry

namespace Dialogue

/-- The dialogue asks for a line. -/
def ask (dialogue : Dialogue) : Except Fault Reply := do
  return ⟨[.output (← dialogue.session.promptText)], .wait { dialogue with waiting := none }⟩

/-- The dialogue after its line: it ends, or asks for another one. -/
def proceed (dialogue : Dialogue) : Except Fault Reply :=
  if dialogue.single then .ok ⟨[], .exit dialogue.code⟩ else dialogue.ask

/-- Runs a line with the answers there are. -/
def attempt (dialogue : Dialogue) (waiting : Waiting) : Except Fault Transcript × Session :=
  let prompt : Prompt := ⟨waiting.answers, .endOfInput, []⟩
  { dialogue.session with prompt := some prompt }.run waiting.line

/-- The questions that a run has asked, the first one first. -/
def questions (session : Session) : List String :=
  ((session.prompt.map (·.asked)).getD []).reverse

/-- The end of a line that has run: what it wrote, and how the dialogue goes on. An interruption
ends the dialogue. -/
def conclude (dialogue : Dialogue) (result : Except Fault Transcript) (after : Session) :
    Except Fault Reply := do
  let entries := newEntries dialogue.session.config.level dialogue.session.machine.log.entries.length
    after.machine.log
  match result with
  | .ok transcript =>
    let written := lineOf .output transcript.output ++ lineOf .errors (transcript.error.getD "")
    let next ← { dialogue with session := after, code := transcript.code }.proceed
    return next.after (entries ++ written)
  | .error fault =>
    if fault = .interrupted && !dialogue.single then
      return ⟨entries ++ [.output "\n\nInterrupted\n"], .exit 130⟩
    throw fault

/-- Runs a line. If it asks for one more answer than there are, the dialogue waits for that answer,
unless the input has ended. Questions that are answered have been written before. -/
def runWith (ended : Bool) (dialogue : Dialogue) (waiting : Waiting) : Except Fault Reply := do
  let (result, after) := dialogue.attempt waiting
  let asked := (questions after).drop waiting.answers.length
  match asked, ended with
  | question :: _, false =>
    return ⟨[.output question], .wait { dialogue with waiting := some waiting }⟩
  | asked, true => return (← dialogue.conclude result after).after ((asked.drop 1).map .output)
  | [], false => dialogue.conclude result after

/-- The line that comes at the prompt. -/
def readLine (dialogue : Dialogue) : Answer → Except Fault Reply
  | .interrupt => do return (← dialogue.ask).after [.output "^C\n"]
  | .line line =>
    if exitWords.contains (Text.trim line) then .ok ⟨[], .exit dialogue.code⟩
    else dialogue.runWith false ⟨line, []⟩

/-- The dialogue takes an input at a moment. -/
def feed (now : Binary64) (input : Answer) (dialogue : Dialogue) : Except Fault Reply :=
  match dialogue.waiting with
  | some waiting => dialogue.runWith false { waiting with answers := waiting.answers ++ [input] }
  | none =>
    let session := dialogue.session
    { dialogue with session := { session with machine := { session.machine with now } } }.readLine
      input

/-- The input ends: the line that waits gets no answer any more, and no other line comes. -/
def close (dialogue : Dialogue) : Except Fault (List Piece × Int) := do
  let reply ← match dialogue.waiting with
    | some waiting => dialogue.runWith true waiting
    | none => pure ⟨[], .wait dialogue⟩
  match reply.turn with
  | .exit code => return (reply.pieces, code)
  | .wait dialogue => return (reply.pieces ++ [.output "\n"], dialogue.code)

end Dialogue

/-- Takes inputs one after another until the program exits or the input ends. -/
def Reply.converse (now : Binary64) (reply : Reply) (inputs : List Answer) :
    Except Fault (List Piece × Int) := do
  match reply.turn with
  | .exit code => return (reply.pieces, code)
  | .wait dialogue => match inputs with
    | [] =>
      let (pieces, code) ← dialogue.close
      return (reply.pieces ++ pieces, code)
    | input :: rest =>
      let (pieces, code) ← (← dialogue.feed now input).converse now rest
      return (reply.pieces ++ pieces, code)
termination_by inputs

end PocketShell.Cli
