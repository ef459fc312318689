import PocketShell.Command.Filters
import PocketShell.Command.Surroundings

/-!
Pattern scanning: programs of an optional pattern between slashes and an optional action in braces,
which prints items for every record that the pattern is found in.
-/
namespace PocketShell.Command

open Shell

namespace Awk

/-- A program as it is written. -/
structure Program where
  pattern : Option String
  action : Option String
  deriving Repr, DecidableEq

/-- An item to print. -/
inductive Item
  | comma
  | literal (text : String)
  | fieldCount
  | recordNumber
  | field (name : String)
  deriving Repr, DecidableEq

/-- The places where a text in marks may end, as the text and what follows its closing mark: the
first mark without a backslash before it, then those with one, the last one first. -/
def closings (mark : Char) : List Char → List (List Char × List Char)
  | [] => []
  | '\\' :: c :: rest =>
    if c = mark then
      (closings mark rest).map (fun (body, after) => ('\\' :: c :: body, after))
        ++ [(['\\'], rest)]
    else (closings mark (c :: rest)).map fun (body, after) => ('\\' :: body, after)
  | c :: rest =>
    if c = mark then [([], rest)]
    else (closings mark rest).map fun (body, after) => (c :: body, after)

/-- Reads an action: nothing, or a text in braces, without the blanks around it. -/
def action? (cs : List Char) : Option (Option String) :=
  match (Text.trim (String.ofList cs)).toList with
  | [] => some none
  | '\x7b' :: rest => match rest.reverse with
    | '\x7d' :: body => some (some (Text.trim (String.ofList body.reverse)))
    | _ => none
  | _ => none

/-- Reads a program. The pattern goes as far as lets an action follow. -/
def Program.read? (text : String) : Option Program :=
  match text.toList.dropWhile Text.isBlank with
  | '/' :: rest => (closings '/' rest).findSome? fun (body, after) =>
    (action? after).map fun action => ⟨some (String.ofList body), action⟩
  | rest => (action? rest).map fun action => ⟨none, action⟩

/-- The items in a text, at most `limit` characters of it; what is no item is skipped. The flag says
that a word ends right before. -/
def itemsFrom : (limit : Nat) → (afterWord : Bool) → List Char → List Item
  | limit + 1, _, ',' :: rest => .comma :: itemsFrom limit false rest
  | limit + 1, _, '"' :: rest => match closings '"' rest with
    | (body, after) :: _ =>
      .literal (Text.replaceAll "\\\"" "\"" (String.ofList body)) :: itemsFrom limit false after
    | [] => itemsFrom limit false rest
  | limit + 1, _, '$' :: rest => match rest.span Text.isWordChar with
    | ([], _) => itemsFrom limit false rest
    | (name, after) => .field (String.ofList name) :: itemsFrom limit true after
  | limit + 1, afterWord, c :: rest =>
    let counted := match c :: rest with
      | 'N' :: 'F' :: after => some (Item.fieldCount, after)
      | 'N' :: 'R' :: after => some (Item.recordNumber, after)
      | _ => none
    match counted with
    | some (item, after) =>
      if !afterWord && !(after.head?.map Text.isWordChar).getD false then
        item :: itemsFrom limit true after
      else itemsFrom limit true rest
    | none => itemsFrom limit (Text.isWordChar c) rest
  | _, _, _ => []

/-- The items in a text. -/
def items (text : String) : List Item := itemsFrom text.length false text.toList

/-- One line of input: its text, its number and its fields. -/
structure Record where
  text : String
  number : Nat
  fields : List String

/-- The field that a name or number means; names other than that of the last field mean nothing. -/
def Record.field (record : Record) (name : String) : Except Fault String := do
  if name = "NF" then return record.fields.getLast?.getD ""
  if !Text.isDigits name then return ""
  let index ← wholeNumber name
  return if index = 0 then record.text else record.fields.getD (index.toNat - 1) ""

/-- The pieces that items print, one for each part between commas. -/
def Record.pieces (record : Record) : List Item → Except Fault (List String)
  | [] => .ok [""]
  | .comma :: rest => do return "" :: (← record.pieces rest)
  | item :: rest => do
    let text ← match item with
      | .comma => pure ""
      | .literal text => pure text
      | .fieldCount => pure (toString record.fields.length)
      | .recordNumber => pure (toString record.number)
      | .field name => record.field name
    match ← record.pieces rest with
    | piece :: more => return (text ++ piece) :: more
    | [] => return [text]

/-- The line that items print. -/
def Record.print (record : Record) (items : List Item) : Except Fault String := do
  return " ".intercalate (← record.pieces items)

/-- The fields of a line, around a separator or between blanks. -/
def fieldsOf (separator : Option String) (line : String) : List String :=
  match separator with
  | none => Text.words line
  | some separator =>
    if separator.isEmpty then Text.words line else Text.splitOn separator line

/-- The items of an action: those behind its first word, or the whole record. -/
def itemsText (action : Option String) : String :=
  let text := Text.trim (String.ofList ((action.getD "").toList.drop 5))
  if text.isEmpty then "$0" else text

/-- An action begins with the word for printing, or is empty. -/
def isAction (text : String) : Bool := text.isEmpty || text.startsWith "print"

/-- The lines that a program prints for the lines of a text. -/
def run (pattern : Option Pattern) (separator : Option String) (items : List Item) (text : String) :
    Except Fault (List String) :=
  let records := (Text.lines text).zipIdx.filter fun (line, _) =>
    (pattern.map (·.search line)).getD true
  records.mapM fun (line, i) => Record.print ⟨line, i + 1, fieldsOf separator line⟩ items

/-- Reads the pattern of a program; an empty one is none. -/
def readPattern? (program : Program) : Except Fault (Except Outcome (Option Pattern)) :=
  match program.pattern.filter (!·.isEmpty) with
  | none => .ok (.ok none)
  | some text => do
    let wording (message : String) : Outcome := .failWith 2 "awk" s!"invalid regex: {message}"
    let result ← readPattern false wording text
    return result.map some

end Awk

/-- Scans the lines of the input by a program. -/
def awk (args : List String) (stdin : Option String) : Job := do
  let options := parseOptions ['F'] args
  match options.operands with
  | [] => return .fail "awk" "usage: awk [-F sep] '[/regex/] \x7bprint ...\x7d' [FILE...]"
  | text :: files =>
    match (Awk.Program.read? text).filter (·.action.all Awk.isAction) with
    | none => return .failWith 2 "awk" s!"syntax error in program: {text}"
    | some program => match ← Awk.readPattern? program with
      | .error failure => return failure
      | .ok pattern => withInput "awk" files stdin fun input => do
        let items := Awk.items (Awk.itemsText program.action)
        return .text (Text.unlines (← Awk.run pattern (options.value? 'F') items input))

end PocketShell.Command
