import PocketShell.Shell.Substitution

/-!
Cutting a line at separators. What stands in quotes, behind a backslash or inside a substitution is
never a separator.
-/
namespace PocketShell.Shell

/-- The pieces of a line, each with the separator that follows it. -/
abbrev Pieces := List (List Char × Option (List Char))

/-- The pieces with more text at the front. -/
def Pieces.before (front : List Char) : Pieces → Pieces
  | [] => [(front, none)]
  | (piece, separator) :: pieces => (front ++ piece, separator) :: pieces

/-- The first of the separators that stands at the front of the text, and what follows it. -/
def separator? (separators : List (List Char)) (cs : List Char) :
    Option (List Char × List Char) :=
  (separators.find? fun s => !s.isEmpty && s.isPrefixOf cs).map fun s => (s, cs.drop s.length)

/-- The text is the separator followed by the rest, and the separator is not empty. -/
theorem eq_append_of_separator {separators : List (List Char)} {cs separator after : List Char}
    (h : separator? separators cs = some (separator, after)) :
    cs = separator ++ after ∧ separator ≠ [] := by
  obtain ⟨s, found, eq⟩ := Option.map_eq_some_iff.mp h
  have holds := List.find?_some found
  simp only [Bool.and_eq_true, Bool.not_eq_true', List.isPrefixOf_iff_prefix] at holds
  obtain ⟨t, rfl⟩ := holds.2
  simp only [List.drop_left, Prod.mk.injEq] at eq
  obtain ⟨rfl, rfl⟩ := eq
  exact ⟨rfl, by rintro rfl; simp at holds⟩

/-- What follows a separator is shorter than the text. -/
theorem length_lt_of_separator {separators : List (List Char)} {cs separator after : List Char}
    (h : separator? separators cs = some (separator, after)) : after.length < cs.length := by
  obtain ⟨rfl, ne⟩ := eq_append_of_separator h
  have := List.length_pos_iff.mpr ne
  simp
  omega

/-- Cuts the text at separators; `quote` is the quote that is open. -/
def cut (separators : List (List Char)) (quote : Option Char) (cs : List Char) : Pieces :=
  match quote, cs with
  | _, [] => [([], none)]
  | some q, c :: rest =>
    match rest with
    | d :: rest' =>
      if c = '\\' ∧ q = Text.doubleQuote then
        Pieces.before [c, d] (cut separators (some q) rest')
      else Pieces.before [c] (cut separators (if c = q then none else some q) (d :: rest'))
    | [] => [([c], none)]
  | none, '\\' :: d :: rest => Pieces.before ['\\', d] (cut separators none rest)
  | none, c :: rest =>
    if isQuote c then Pieces.before [c] (cut separators (some c) rest)
    else match _found : substitution? (c :: rest) with
      | some (command, after) => Pieces.before (spanOf command) (cut separators none after)
      | none => match _cut : separator? separators (c :: rest) with
        | some (separator, after) => ([], some separator) :: cut separators none after
        | none => Pieces.before [c] (cut separators none rest)
  termination_by cs.length
  decreasing_by
    all_goals first
      | exact length_lt_of_substitution _found
      | exact length_lt_of_separator _cut
      | simp only [List.length_cons]; omega

/-- The pieces of a line between separators. -/
def pieces (separators : List String) (line : String) : Pieces :=
  cut (separators.map String.toList) none line.toList

end PocketShell.Shell
