import PocketShell.Pattern.Matcher
import PocketShell.Text.Split

/-!
Globs, written as patterns: `*` stands for any text, `?` for any character, and brackets for one of
several characters.
-/
namespace PocketShell.Pattern.Glob

/-- A part of a glob as it stands in the pattern. -/
inductive Part
  | star
  | fixed (text : List Char)
  deriving Repr, DecidableEq

/-- The characters that a backslash keeps from having a meaning in patterns. -/
def isSpecial (c : Char) : Bool := "()[]\x7b\x7d?*+-|^$\\.&~# \t\n\r\x0b\x0c".toList.contains c

/-- A character that stands for itself in a pattern. -/
def escape (c : Char) : List Char := if isSpecial c then ['\\', c] else [c]

/-- What stands between an opening bracket and its closing one, and what follows. A closing bracket
in the first place, also behind `!`, closes nothing. -/
def bracket? (cs : List Char) : Option (List Char × List Char) :=
  let (front, rest) := match cs with
    | '!' :: ']' :: rest => (['!', ']'], rest)
    | '!' :: rest => (['!'], rest)
    | ']' :: rest => ([']'], rest)
    | rest => ([], rest)
  (Text.cutAt ']' rest).map fun (body, after) => (front ++ body, after)

/-- What follows a bracket's closing one is not longer than the text. -/
theorem length_lt_of_bracket {cs body after : List Char} (h : bracket? cs = some (body, after)) :
    after.length ≤ cs.length := by
  have cut : ∀ {cs body after : List Char}, Text.cutAt ']' cs = some (body, after) →
      after.length ≤ cs.length := by
    intro cs
    induction cs with
    | nil => simp [Text.cutAt]
    | cons c rest ih =>
      intro body after
      simp only [Text.cutAt, List.length_cons]
      split
      · rintro ⟨rfl, rfl⟩; omega
      · simp only [Option.map_eq_some_iff, Prod.exists, Prod.mk.injEq]
        rintro ⟨b, a, found, -, rfl⟩
        have := ih found
        omega
  unfold bracket? at h
  simp only [Option.map_eq_some_iff, Prod.exists, Prod.mk.injEq] at h
  obtain ⟨b, a, found, -, rfl⟩ := h
  have := cut found
  split at this <;> simp only [List.length_cons] at this ⊢ <;> omega

/-- The chunks of a set between the hyphens that make ranges. `hold` characters come before the next
one of these. -/
def chunksFrom : (hold : Nat) → (chunk : List Char) → List Char → List (List Char)
  | _, chunk, [] => [chunk]
  | 0, chunk, c :: rest =>
    if c = '-' then chunk :: chunksFrom 2 [] rest else chunksFrom 0 (chunk ++ [c]) rest
  | hold + 1, chunk, c :: rest => chunksFrom hold (chunk ++ [c]) rest

/-- A hyphen at the end of a set is a character of it. -/
def keepLastHyphen : List (List Char) → List (List Char)
  | [] => []
  | [chunk, []] => [chunk ++ ['-']]
  | chunk :: rest => chunk :: keepLastHyphen rest

/-- Takes out ranges that hold no character, with their ends. -/
def dropEmptyRanges : List (List Char) → List (List Char)
  | [] => []
  | chunk :: rest => match dropEmptyRanges rest with
    | [] => [chunk]
    | next :: more => match chunk.getLast?, next.head? with
      | some low, some high =>
        if high < low then (chunk.dropLast ++ next.tail) :: more else chunk :: next :: more
      | _, _ => chunk :: next :: more

/-- The characters of a set, with backslashes before those that would mean something else. -/
def setBody (body : List Char) : List Char :=
  let double (c : Char) : List Char := if c = '\\' then ['\\', '\\'] else [c]
  let protect (c : Char) : List Char := if c = '-' then ['\\', '-'] else double c
  let body :=
    if !body.contains '-' then body.flatMap double
    else
      let chunks := chunksFrom (if body.head? = some '!' then 2 else 1) [] body
      ['-'].intercalate ((dropEmptyRanges (keepLastHyphen chunks)).map (·.flatMap protect))
  body.flatMap fun c => if c = '&' || c = '~' || c = '|' then ['\\', c] else [c]

/-- A set as a pattern. -/
def setText (body : List Char) : List Char :=
  match setBody body with
  | [] => "(?!)".toList
  | ['!'] => ['.']
  | '!' :: rest => '[' :: '^' :: rest ++ [']']
  | c :: rest =>
    if c = '^' || c = '[' then '[' :: '\\' :: c :: rest ++ [']'] else '[' :: c :: rest ++ [']']

/-- The parts of a glob; stars beside each other are one. -/
def parts (cs : List Char) : List Part :=
  match cs with
  | [] => []
  | '*' :: rest => match parts rest with
    | .star :: more => .star :: more
    | more => .star :: more
  | '?' :: rest => .fixed ['.'] :: parts rest
  | '[' :: rest => match _found : bracket? rest with
    | some (body, after) => .fixed (setText body) :: parts after
    | none => .fixed ['\\', '['] :: parts rest
  | c :: rest => .fixed (escape c) :: parts rest
  termination_by cs.length
  decreasing_by
    · simp
    · simp
    · have := length_lt_of_bracket _found
      simp only [List.length_cons]
      omega
    · simp
    · simp

/-- The fixed text up to the next star, and the parts from that star on. -/
def spanFixed : List Part → List Char × List Part
  | .fixed text :: rest =>
    let (more, after) := spanFixed rest
    (text ++ more, after)
  | rest => ([], rest)

/-- Parts that begin with a star as a pattern. A star before another one takes as little text as
lets its fixed text follow, and keeps to it. -/
def starsText : (limit : Nat) → List Part → List Char
  | limit + 1, .star :: rest =>
    let (text, after) := spanFixed rest
    if after.isEmpty then ".*".toList ++ text
    else "(?>.*?".toList ++ text ++ ")".toList ++ starsText limit after
  | _, _ => []

/-- The pattern of a glob. -/
def patternText (glob : String) : String :=
  let parts := parts glob.toList
  let (text, stars) := spanFixed parts
  String.ofList ("(?s:".toList ++ text ++ starsText parts.length stars ++ ")\\Z".toList)

/-- Reads a glob. -/
def compile (glob : String) : Except Failure Pattern :=
  Pattern.compile .none (patternText glob)

/-- The glob stands for the name. -/
def accepts (glob : Pattern) (name : String) : Bool :=
  (matchAt glob (fun _ => true) (.start name.toList)).isSome

end PocketShell.Pattern.Glob
