import PocketShell.Command.Basic
import PocketShell.Fs.Write
import PocketShell.Number.Decimal
import PocketShell.Pattern.Matcher

/-!
Filters over the lines of their input: finding, counting, choosing, ordering and cutting.
-/
namespace PocketShell.Command

open Shell

/-- The options of a pattern by whether capitals count. -/
def caseFlags (ignoreCase : Bool) : Pattern.Flags := { Pattern.Flags.none with ignoreCase }

/-- A pattern that a command was given, or what the command says of a text that is none. -/
def readPattern (ignoreCase : Bool) (wording : String → Outcome) (text : String) :
    Except Fault (Except Outcome Pattern) :=
  match Pattern.compile (caseFlags ignoreCase) text with
  | .ok pattern => .ok (.ok pattern)
  | .error (.refused error) => .ok (.error (wording (error.message text)))
  | .error (.fault fault) => .error fault

/-- The numbers and texts of the lines that a search is after: those that match, or with `invert`
those that do not. -/
def matchingLines (pattern : Pattern) (invert : Bool) (text : String) : List (Nat × String) :=
  ((Text.lines text).zipIdx.filter fun (line, _) => pattern.search line != invert).map
    fun (line, i) => (i + 1, line)

/-- How `grep` shows what it finds. -/
structure GrepStyle where
  invert : Bool
  counts : Bool
  numbers : Bool
  names : Bool

/-- What `grep` shows of one source. -/
def showMatches (style : GrepStyle) (name : String) (found : List (Nat × String)) : List String :=
  let source := if style.names then s!"{name}:" else ""
  if style.counts then [s!"{source}{found.length}"]
  else found.map fun (number, line) =>
    source ++ (if style.numbers then s!"{number}:" else "") ++ line

/-- The sources of a search: files by name, or the standard input without any. -/
def grepSources (files : List String) (stdin : Option String) :
    Run Command (Gathered (String × String)) :=
  if files.isEmpty then return ⟨[("", stdin.getD "")], []⟩
  else gather (fun name => do
    let result ← readArg stdin name
    return (explain (fun reason => s!"grep: {name}: {reason.message}") result).map (name, ·)) files

/-- Prints the lines in which a pattern is found. -/
def grep (args : List String) (stdin : Option String) : Job := do
  let options := parseOptions [] args
  match options.operands with
  | [] => return .failWith 2 "grep" "usage: grep [-ivnc] PATTERN [FILE...]"
  | text :: files =>
    let refused (message : String) : Outcome := .failWith 2 "grep" s!"invalid pattern: {message}"
    match ← readPattern (options.has 'i') refused text with
    | .error failure => return failure
    | .ok pattern =>
      let ⟨sources, errors⟩ ← grepSources files stdin
      let style : GrepStyle :=
        ⟨options.has 'v', options.has 'c', options.has 'n', 1 < files.length⟩
      let found := sources.map fun (name, text) => (name, matchingLines pattern style.invert text)
      let output := Text.unlines (found.flatMap fun (name, lines) => showMatches style name lines)
      if !errors.isEmpty then return .withErrors output errors 2
      return ⟨output, none, if found.all (·.2.isEmpty) then 1 else 0⟩

/-- What `wc` counts in a text, by the letters that ask for it. -/
def countsOf (text : String) : List (Char × Nat) :=
  [('l', (Text.lines text).length), ('w', (Text.words text).length), ('c', text.utf8ByteSize)]

/-- Counts lines, words and bytes. -/
def wc (args : List String) (stdin : Option String) : Job := do
  let options := parseOptions [] args
  withInput "wc" options.operands stdin fun text => do
    let counts := countsOf text
    let chosen := match counts.filter fun (letter, _) => options.has letter with
      | [] => counts
      | chosen => chosen
    let output := match chosen with
      | [(_, count)] => toString count
      | several => " ".intercalate (several.map fun (_, n) => Text.padLeft 7 (toString n))
    return match options.operands with
      | [name] => .text s!"{output} {name}"
      | _ => .text output

/-- The number of lines that `head` and `tail` are asked for; its sign does not count. -/
def lineCount (command : String) (options : Options) : Except Outcome Nat :=
  let written := (options.value? 'n').getD "10"
  match Text.readInt written with
  | .ok n => .ok n.natAbs
  | .error _ => .error (.fail command s!"invalid number of lines: '{written}'")

/-- Prints a part of the lines that depends on a number. -/
def linePart (command : String) (part : Nat → List String → List String) (args : List String)
    (stdin : Option String) : Job :=
  let options := parseOptions ['n'] args
  match lineCount command options with
  | .error failure => return failure
  | .ok count => filterLines command options.operands stdin fun lines => .ok (part count lines)

/-- Prints the first lines. -/
def head : List String → Option String → Job := linePart "head" fun count lines => lines.take count

/-- Prints the last lines. -/
def tail : List String → Option String → Job :=
  linePart "tail" fun count lines => lines.drop (lines.length - count)

/-- A decimal number at the front, behind blanks: an optional sign, digits, and a fraction. -/
def leadingNumber? (line : String) : Option String :=
  let cs := line.toList.dropWhile Text.isBlank
  let (sign, cs) := match cs with
    | '-' :: rest => (['-'], rest)
    | rest => ([], rest)
  let (whole, rest) := cs.span Text.isDecimal
  let fraction := match rest with
    | '.' :: rest => rest.takeWhile Text.isDecimal
    | _ => []
  if whole.isEmpty then none
  else some (String.ofList (sign ++ whole ++ if fraction.isEmpty then [] else '.' :: fraction))

/-- The number by which a line is ordered; without one it is zero. -/
def numericKey (line : String) : Binary64 :=
  ((leadingNumber? line).bind Decimal.read?).getD .zero

/-- The lines without repetitions, each in its first place. -/
def distinct (lines : List String) : List String := lines.eraseDups

/-- Orders lines; lines that are equal in the order stay as they stand to each other. -/
def sortLines (numeric reverse : Bool) (lines : List String) : List String :=
  if numeric then
    let keyed := lines.map fun line => (numericKey line, line)
    let sorted := keyed.mergeSort fun a b =>
      if reverse then !a.1.blt b.1 else !b.1.blt a.1
    sorted.map (·.2)
  else lines.mergeSort fun a b => if reverse then decide (b ≤ a) else decide (a ≤ b)

/-- Orders lines. -/
def sort (args : List String) (stdin : Option String) : Job :=
  let options := parseOptions [] args
  filterLines "sort" options.operands stdin fun lines =>
    .ok (sortLines (options.has 'n') (options.has 'r') (if options.has 'u' then distinct lines else lines))

/-- The runs of equal lines with their lengths. -/
def runs : List String → List (String × Nat)
  | [] => []
  | line :: rest => match runs rest with
    | (next, count) :: more =>
      if line = next then (next, count + 1) :: more else (line, 1) :: (next, count) :: more
    | [] => [(line, 1)]

/-- Collapses equal lines that stand beside each other. -/
def uniq (args : List String) (stdin : Option String) : Job :=
  let options := parseOptions [] args
  filterLines "uniq" options.operands stdin fun lines =>
    let groups := runs lines
    let groups := if options.has 'd' then groups.filter fun (_, count) => 1 < count else groups
    .ok (groups.map fun (line, count) =>
      if options.has 'c' then s!"{Text.padLeft 7 (toString count)} {line}" else line)

/-- The first and the last field of a part of a field list, counted from one. A part without an end
goes up to `width`. -/
def fieldRange? (width : Nat) (part : String) : Option (Int × Int) := do
  let (start, finish) := match Text.cutAt '-' part.toList with
    | none => (part, none)
    | some (start, finish) => (String.ofList start, some (String.ofList finish))
  let first ← if start.isEmpty then some 1 else (Text.readInt start).toOption
  let last ← match finish with
    | none => some first
    | some finish => if finish.isEmpty then some (width : Int) else (Text.readInt finish).toOption
  if first < 1 then none
  return (first, last)

/-- The places of the fields in a range that a line of `width` fields has, counted from zero. -/
def rangePlaces (width : Nat) (first last : Int) : List Nat :=
  let stop := (min last width).toNat
  (List.range stop).drop (first - 1).toNat

/-- The places of the fields that a field list chooses from a line of `width` fields, in the order
of the list and each once. -/
def fieldPlaces? (width : Nat) (list : String) : Option (List Nat) := do
  let ranges ← (Text.splitOn "," list).mapM (fieldRange? width)
  return (ranges.flatMap fun (first, last) => rangePlaces width first last).eraseDups

/-- The chosen fields of a line; a line without the delimiter stays as it is. -/
def cutLine (delimiter list line : String) : Except Outcome String :=
  if !Text.occursIn delimiter line then .ok line
  else
    let fields := Text.splitOn delimiter line
    match fieldPlaces? fields.length list with
    | none => .error (.fail "cut" s!"invalid field value '{list}'")
    | some places => .ok (delimiter.intercalate (places.filterMap (fields[·]?)))

/-- Prints fields of each line. -/
def cut (args : List String) (stdin : Option String) : Job :=
  let options := parseOptions ['d', 'f'] args
  let delimiter := (options.value? 'd').getD "\t"
  match options.value? 'f' with
  | none => return .fail "cut" "you must specify a list of fields"
  | some list =>
    if delimiter.length != 1 then return .fail "cut" "the delimiter must be a single character"
    else filterLines "cut" options.operands stdin (·.mapM (cutLine delimiter list))

/-- Writes the standard input to files and passes it on. -/
def tee (args : List String) (stdin : Option String) : Job := do
  let options := parseOptions [] args
  let text := stdin.getD ""
  let gathered ← gather (fun path => do
    let target ← Run.path path
    let result ← Run.fs (if options.has 'a' then Fs.appendText target text
      else Fs.writeText target text)
    return explain (fun reason => s!"tee: {path}: {reason.message}") result) options.operands
  return .withErrors text gathered.errors 1

end PocketShell.Command
