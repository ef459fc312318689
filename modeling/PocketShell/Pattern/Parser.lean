import PocketShell.Pattern.Escape

/-!
From the text of a pattern to its tree. Options at the front of a pattern hold for all of it, those
of a group for the group. Reading takes at least one character per level, so the length of the text
bounds its depth.
-/
namespace PocketShell.Pattern

/-- What a quantifier behind an item does: it repeats most, but neither places nor repetitions. -/
inductive ItemKind
  | ordinary
  | anchor
  | repetition
  deriving Repr, DecidableEq

/-- An item of a sequence. -/
structure Item where
  node : Node
  kind : ItemKind
  deriving Repr

/-- An item that a quantifier can repeat. -/
def Item.of (node : Node) : Item := ⟨node, .ordinary⟩

/-- What a group without capturing is for. -/
inductive Opening
  /-- Text that is skipped. -/
  | comment
  /-- Options for the whole pattern. -/
  | options
  /-- An item that is complete. -/
  | item (node : Node)
  | capture (name : Option String) (nameStart : Nat)
  | plain (add remove : Flags)
  | atomic
  | look (behind negated : Bool)
  | conditional (index : Nat)
  deriving Repr

/-- The greatest number of rounds that a repetition may name, plus one. -/
def repeatLimit : Nat := 0xffffffff

/-- The greatest number that may name a group, plus one. -/
def groupLimit : Nat := 1073741823

/-- The fault of a repetition with too large a number. -/
def tooManyRounds : Fault := .overflow "the repetition number is too large"

namespace Reader

/-- The character of a literal, by the options. -/
def literal (flags : Flags) (code : Nat) : Item := .of (.char (.one false code flags.fold))

/-- The item of an escape. -/
def itemOf (flags : Flags) : Meaning → Item
  | .code n => literal flags n
  | .category kind negated => .of (.char (.set false [.category kind flags.plain negated] .exact))
  | .textStart => ⟨.anchor .textStart, .anchor⟩
  | .textEnd => ⟨.anchor .textEnd, .anchor⟩
  | .wordEdge negated => ⟨.anchor (.wordEdge flags.plain negated), .anchor⟩
  | .backref index => .of (.backref index flags.fold)

/-- The part of a set that an escape stands for. -/
def setItemOf (flags : Flags) : Meaning → SetItem
  | .code n => .code n
  | .category kind negated => .category kind flags.plain negated
  | _ => .code 0

/-- What a token of a set stands for; it began at `start`. -/
def setMeaning (start : Nat) : Token → Reader Meaning
  | .plain c => return .code c.toNat
  | .escaped c => readSetEscape start c

/-- The parts of a set up to its closing bracket, at most `limit` of them, after those already
read, the last first. The set began at `opening`. -/
def readSetFrom (flags : Flags) (opening : Nat) (before : List SetItem) : (limit : Nat) →
    Reader (List SetItem)
  | 0 => failAt opening .unterminatedSet
  | limit + 1 => do
    let start ← position
    match ← next with
    | none => failAt opening .unterminatedSet
    | some first =>
      if first = .plain ']' && !before.isEmpty then return before.reverse
      let low ← setMeaning start first
      if !(← accept '-') then readSetFrom flags opening (setItemOf flags low :: before) limit
      else
        let start ← position
        match ← next with
        | none => failAt opening .unterminatedSet
        | some last =>
          if last = .plain ']' then
            return (.code '-'.toNat :: setItemOf flags low :: before).reverse
          let high ← setMeaning start last
          let here ← position
          match low, high with
          | .code l, .code h =>
            if h < l then
              failAt (here - (first.width + 1 + last.width)) (.badRange first.text last.text)
            readSetFrom flags opening (.range l h :: before) limit
          | _, _ => failAt (here - (first.width + 1 + last.width)) (.badRange first.text last.text)

/-- A set after its opening bracket, which stands at `opening`. -/
def readSet (flags : Flags) (opening : Nat) : Reader Item := do
  let negated ← accept '^'
  let items ← readSetFrom flags opening [] ((← remaining) + 1)
  return .of <| .char <| match items.eraseDups with
    | [.code n] => .one negated n flags.fold
    | items => .set negated items flags.fold

/-- The number of rounds that digits name. -/
def rounds (digits : List Char) : Reader Nat := do
  if digits.length > Text.maxDigits then
    throw (.fault (.badValue (Text.NumeralError.tooLong digits.length).message))
  let n := numberOf 10 digits
  if n ≥ repeatLimit then throw (.fault tooManyRounds)
  return n

/-- The bounds in braces behind the opening one; none if what stands there is no quantifier. -/
def readBounds : Reader (Option (Nat × Option Nat)) := do
  let before ← get
  if ← nextIs (· == '}') then return none
  let low ← takeAll Char.isDigit
  let high ← if ← accept ',' then takeAll Char.isDigit else pure low
  if !(← accept '}') then
    set before
    return none
  let least ← if low.isEmpty then pure 0 else rounds low
  if high.isEmpty then return some (least, none)
  let most ← rounds high
  if most < least then failAt before.position .emptyRepeat
  return some (least, some most)

/-- The bounds of a quantifier that begins with the character. -/
def boundsOf (c : Char) : Reader (Option (Nat × Option Nat)) := do
  match c with
  | '?' => return some (0, some 1)
  | '*' => return some (0, none)
  | '+' => return some (1, none)
  | _ => readBounds

/-- The way in which a quantifier chooses. -/
def readMode : Reader Mode := do
  if ← accept '?' then return .lazy
  if ← accept '+' then return .possessive
  return .greedy

/-- The items with the last one repeated; the quantifier began at `start`. -/
def repeatLast (start : Nat) (least : Nat) (most : Option Nat) : List Item → Reader (List Item)
  | [] => failAt start .nothingToRepeat
  | item :: before => do
    match item.kind with
    | .anchor => failAt start .nothingToRepeat
    | .repetition => failAt start .repeatedRepeat
    | .ordinary => return ⟨.repeat (← readMode) least most item.node, .repetition⟩ :: before

/-- Skips a comment up to the end of the line, at most `limit` tokens. -/
def skipLine : (limit : Nat) → Reader Unit
  | 0 => return
  | limit + 1 => do
    match ← next with
    | none => return
    | some token => if token = .plain '\n' then return else skipLine limit

/-- Skips a comment up to its closing parenthesis, at most `limit` tokens. -/
def skipComment (opening : Nat) : (limit : Nat) → Reader Unit
  | 0 => failAt opening (.missing "), unterminated comment")
  | limit + 1 => do
    match ← next with
    | none => failAt opening (.missing "), unterminated comment")
    | some token => if token = .plain ')' then return else skipComment opening limit

/-- The refusal of a character where an option was to come. -/
def failFlag {α : Type} (token : Token) (wanted : String) : Reader α := do
  failAt ((← position) - token.width)
    (if token.isPlain Text.isLetter then .unknownFlag else .missing wanted)

/-- The option of a token. -/
def flagOf? : Token → Option Flags
  | .plain c => Flags.ofLetter? c
  | .escaped _ => none

/-- The options that are turned off, after those already read, and the colon behind them. -/
def readRemoved (removed : Flags) (token : Token) : (limit : Nat) → Reader Flags
  | 0 => failHere (.missing ":")
  | limit + 1 => do
    let flag := (flagOf? token).getD .none
    if flag.typed || token = .plain 'L' then failHere .typeFlagOff
    let removed := removed.union flag
    match ← next with
    | none => failHere (.missing ":")
    | some token =>
      if token = .plain ':' then return removed
      if (flagOf? token).isNone then failFlag token ":"
      readRemoved removed token limit

/-- The options that are turned on, after those already read, and the token behind them. -/
def readAdded (added : Flags) (token : Token) : (limit : Nat) → Reader (Flags × Token)
  | 0 => failHere (.missing "-, : or )")
  | limit + 1 => do
    if token = .plain 'L' then failHere .localeFlag
    let flag := (flagOf? token).getD .none
    let added := added.union flag
    if flag.typed && added.plain && added.unicode then failHere .conflictingFlags
    match ← next with
    | none => failHere (.missing "-, : or )")
    | some token =>
      if token.isPlain fun c => c == ')' || c == '-' || c == ':' then return (added, token)
      if (flagOf? token).isNone then failFlag token "-, : or )"
      readAdded added token limit

/-- The options of a group, whose first token is given. Options for the whole pattern are kept in
the source. -/
def readFlags (token : Token) : Reader Opening := do
  let limit := (← remaining) + 1
  let (added, token) ←
    if token = .plain '-' then pure (Flags.none, token) else readAdded .none token limit
  if token = .plain ')' then
    modify fun source => { source with flags := source.flags.union added }
    return .options
  if added.template then failAt ((← position) - 1) .globalFlagOn
  let removed ←
    if token = .plain '-' then do
      match ← next with
      | none => failHere (.missing "flag")
      | some token =>
        if (flagOf? token).isNone then failFlag token "flag"
        readRemoved .none token limit
    else pure Flags.none
  if removed.template then failAt ((← position) - 1) .globalFlagOff
  if added.inter removed != .none then failAt ((← position) - 1) .flagOnAndOff
  return .plain added removed

/-- Refuses a name of the wrong form. -/
def checkName (name : String) (start : Nat) : Reader Unit := do
  unless Text.isName name do failAt start (.badName name)

/-- The group of a name that must be known. -/
def knownGroup (name : String) (start : Nat) : Reader Nat := do
  match ← named? name with
  | some index => return index
  | none => failAt start (.unknownName name)

/-- A group with a name, or a reference to one, after the letter that announces it. -/
def readNamed (flags : Flags) : Reader Opening := do
  if ← accept '<' then
    let start ← position
    let name ← nameUntil '>' "group name"
    checkName name start
    return .capture (some name) start
  if ← accept '=' then
    let start ← position
    let name ← nameUntil ')' "group name"
    checkName name start
    let index ← knownGroup name start
    if !(← isClosed index) then failAt start .openGroup
    checkBehind index
    return .item (.backref index flags.fold)
  match ← next with
  | none => failHere .unexpectedEnd
  | some token => failAt ((← position) - (token.width + 2)) (.unknownExtension ("P" ++ token.text))

/-- The condition of a group, after its opening parenthesis. -/
def readCondition : Reader Opening := do
  let start ← position
  let name ← nameUntil ')' "group name"
  let index ←
    if Text.isName name then knownGroup name start
    else match Text.readInt name with
      | .error _ => failAt start (.badName name)
      | .ok n =>
        if n < 0 then failAt start (.badName name)
        if n = 0 then failAt start .badGroupNumber
        if n ≥ groupLimit then failAt start (.noSuchGroup n.toNat)
        modify fun source =>
          if (source.conditions.lookup n.toNat).isSome then source
          else { source with conditions := source.conditions ++ [(n.toNat, start)] }
        pure n.toNat
  checkBehind index
  return .conditional index

/-- What a parenthesis at `opening` opens. -/
def readOpening (flags : Flags) (opening : Nat) : Reader Opening := do
  if !(← accept '?') then return .capture none opening
  match ← next with
  | none => failHere .unexpectedEnd
  | some token => match token with
    | .plain 'P' => readNamed flags
    | .plain ':' => return .plain .none .none
    | .plain '#' =>
      skipComment opening ((← remaining) + 1)
      return .comment
    | .plain '=' => return .look false false
    | .plain '!' => return .look false true
    | .plain '<' => match ← next with
      | none => failHere .unexpectedEnd
      | some (.plain '=') => return .look true false
      | some (.plain '!') => return .look true true
      | some other =>
        failAt ((← position) - (other.width + 2)) (.unknownExtension ("<" ++ other.text))
    | .plain '(' => readCondition
    | .plain '>' => return .atomic
    | token =>
      if (flagOf? token).isSome || token = .plain '-' then readFlags token
      else failAt ((← position) - (token.width + 1)) (.unknownExtension token.text)

/-- Takes the parenthesis that closes the group at `opening`. -/
def close (opening : Nat) : Reader Unit := do
  unless ← accept ')' do failAt opening (.missing "), unterminated subpattern")

mutual
/-- Alternatives up to the end or a closing parenthesis. At the top, options apply that an earlier
alternative set. -/
def readAlternatives : (fuel : Nat) → (flags : Flags) → (top first : Bool) → Reader (List Node)
  | 0, _, _, _ => failHere .tooDeep
  | fuel + 1, flags, top, first => do
    let source ← get
    let flags := if top then source.flags else flags
    let node ← readItems fuel flags (top && first) []
    if ← accept '|' then return node :: (← readAlternatives fuel flags top false)
    else return [node]

/-- A sequence of items, after those already read, the last first. Only at the `start` of a pattern
options for all of it may stand. -/
def readItems : (fuel : Nat) → (flags : Flags) → (start : Bool) → List Item → Reader Node
  | 0, _, _, _ => failHere .tooDeep
  | fuel + 1, flags, start, items => do
    let here ← position
    if ← nextIs fun c => c == '|' || c == ')' then
      return .ofList (items.reverse.map (·.node))
    match ← next with
    | none => return .ofList (items.reverse.map (·.node))
    | some (.escaped c) =>
      let item := itemOf flags (← readEscape here c)
      readItems fuel flags start (item :: items)
    | some (.plain c) =>
      if flags.verbose && isPlainSpace c then readItems fuel flags start items
      else if flags.verbose && c == '#' then
        skipLine (← remaining)
        readItems fuel flags start items
      else match c with
        | '[' => readItems fuel flags start ((← readSet flags here) :: items)
        | '.' => readItems fuel flags start (.of (.char (.any flags.dotAll)) :: items)
        | '^' =>
          let place := if flags.multiline then Anchor.lineStart else .textStart
          readItems fuel flags start (⟨.anchor place, .anchor⟩ :: items)
        | '$' =>
          let place := if flags.multiline then Anchor.lineEnd else .lastLineEnd
          readItems fuel flags start (⟨.anchor place, .anchor⟩ :: items)
        | '(' => readGroup fuel flags start here items
        | c =>
          if c == '*' || c == '+' || c == '?' || c == '{' then
            match ← boundsOf c with
            | some (least, most) =>
              readItems fuel flags start (← repeatLast here least most items)
            | none => readItems fuel flags start (literal flags c.toNat :: items)
          else readItems fuel flags start (literal flags c.toNat :: items)

/-- A group that opens at `opening`, and the items behind it. -/
def readGroup : (fuel : Nat) → (flags : Flags) → (start : Bool) → (opening : Nat) → List Item →
    Reader Node
  | 0, _, _, _, _ => failHere .tooDeep
  | fuel + 1, flags, start, opening, items => do
    match ← readOpening flags opening with
    | .comment => readItems fuel flags start items
    | .item node => readItems fuel flags start (.of node :: items)
    | .options =>
      if !start || !items.isEmpty then failAt opening .lateFlags
      let flags := (← get).flags
      readItems fuel flags start items
    | .capture name nameStart =>
      let index ← openGroup name nameStart
      let body ← .oneOf <$> readAlternatives fuel flags false false
      close opening
      closeGroup index body
      readItems fuel flags start (.of (.group index body) :: items)
    | .plain add remove =>
      let body ← .oneOf <$> readAlternatives fuel (flags.within add remove) false false
      close opening
      readItems fuel flags start (.of body :: items)
    | .atomic =>
      let body ← .oneOf <$> readAlternatives fuel flags false false
      close opening
      readItems fuel flags start (.of (.atomic body) :: items)
    | .look behind negated =>
      let outer := (← get).behind
      let count ← groupCount
      if behind then modify fun source => { source with behind := outer <|> some count }
      let body ← .oneOf <$> readAlternatives fuel flags false false
      if behind then modify fun source => { source with behind := outer }
      close opening
      let width := (body.width (widthIn (← get))).least
      let direction := if behind then Direction.behind width else .ahead
      readItems fuel flags start (.of (.look direction negated body) :: items)
    | .conditional index =>
      let whenSet ← readItems fuel flags false []
      let otherwise ←
        if ← accept '|' then do
          let node ← readItems fuel flags false []
          if ← nextIs (· == '|') then failHere .thirdBranch
          pure node
        else pure .empty
      close opening
      readItems fuel flags start (.of (.conditional index whenSet otherwise) :: items)
end

/-- A whole pattern. -/
def readPattern : Reader Node := do
  checkBackslash
  let node ← .oneOf <$> readAlternatives (3 * (← remaining) + 3) (← get).flags true true
  let source ← get
  if source.flags.plain && source.flags.unicode then
    throw (.fault (.badValue "ASCII and UNICODE flags are incompatible"))
  if !source.rest.isEmpty then failHere .unbalanced
  match source.conditions.find? fun (index, _) => source.widths.length < index with
  | some (index, place) => failAt place (.noSuchGroup index)
  | none => return node

end Reader

end PocketShell.Pattern
