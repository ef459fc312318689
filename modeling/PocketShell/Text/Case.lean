import PocketShell.Text.CaseTable

/-!
Capital and small letters. `lowerChar` and `alike` serve comparisons that ignore case, `upper`
the names of log levels.
-/
namespace PocketShell.Text

/-- The code point moved by a shift. -/
def shiftChar (code : Nat) (shift : Int) : Char := Char.ofNat (code + shift).toNat

/-- The small form of a character, one character for one. -/
def lowerChar (c : Char) : Char :=
  if c.toNat < 128 then c.toLower
  else match lowerRuns.find? (·.covers c.toNat) with
    | some run => shiftChar c.toNat run.shift
    | none => c

/-- The small form by the first 128 characters only. -/
def lowerPlain (c : Char) : Char := if c.toNat < 128 then c.toLower else c

/-- The capital form of a character, which may take several. -/
def upperChar (c : Char) : List Char :=
  if c.toNat < 128 then [c.toUpper]
  else match longCapitals.lookup c.toNat with
    | some codes => codes.map Char.ofNat
    | none => match upperRuns.find? (·.covers c.toNat) with
      | some run => [shiftChar c.toNat run.shift]
      | none => [c]

/-- A text in capitals. -/
def upper (s : String) : String := String.ofList (s.toList.flatMap upperChar)

/-- The characters whose small form is `c`, itself included when it is small. -/
def variants (c : Char) : List Char :=
  let shifted := lowerRuns.toList.filterMap fun run =>
    let code := (c.toNat : Int) - run.shift
    if 0 ≤ code && run.covers code.toNat then some (Char.ofNat code.toNat) else none
  if lowerChar c = c then c :: shifted else shifted

/-- All characters equal to `c` up to case: those with the same small form, or with a small form
that shares its capital. -/
def alike (c : Char) : List Char :=
  let small := lowerChar c
  let partners := ((sharedCapitals.lookup small.toNat).getD []).map Char.ofNat
  (small :: partners).flatMap variants

/-- All characters equal to `c` up to case among the first 128 characters. -/
def alikePlain (c : Char) : List Char :=
  if c.isAlpha then [c.toLower, c.toUpper] else [c]

end PocketShell.Text
