import Mathlib.Data.List.Chain
import PocketShell.Proofs.Shell.Protection
import PocketShell.Proofs.Shell.Spans
import PocketShell.Shell.Execution

/-! Splitting loses nothing. The pieces of a line are the line again, once every piece but the last
is followed by its separator; and where nothing quotes or escapes, no piece has a separator left in
it. The parts of a word are the word again, once their commands stand in spans; and no substitution
begins in a literal part but behind a backslash. -/
namespace PocketShell.Shell

variable {separators : List (List Char)} {text rest front : List Char} {slices : Pieces}

/-! ## Pieces -/

/-- The pieces were cut from the text: one of the separators follows each of them but the last. -/
inductive Pieces.CutFrom (separators : List (List Char)) : Pieces → List Char → Prop
  | last {piece : List Char} : CutFrom separators [(piece, none)] piece
  | next {piece separator : List Char} {slices : Pieces} {text : List Char} :
      separator ∈ separators → separator ≠ [] → CutFrom separators slices text →
      CutFrom separators ((piece, some separator) :: slices) (piece ++ (separator ++ text))

namespace Pieces.CutFrom

theorem before (front : List Char) (cut : CutFrom separators slices text) :
    CutFrom separators (Pieces.before front slices) (front ++ text) := by
  cases cut with
  | last => exact .last
  | next listed inhabited cut =>
    rw [← List.append_assoc]
    exact .next listed inhabited cut

theorem source_eq (cut : CutFrom separators slices text) : slices.source = text := by
  induction cut with
  | last => simp [Pieces.source]
  | next _ _ _ ih =>
    rw [← ih]
    simp [Pieces.source]

/-- Only the last piece has no separator. -/
theorem ends (cut : CutFrom separators slices text) :
    ∃ front last, slices = front ++ [(last, none)] ∧
      ∀ piece ∈ front, ∃ separator ∈ separators, separator ≠ [] ∧ piece.2 = some separator := by
  induction cut with
  | last => exact ⟨[], _, rfl, by simp⟩
  | next listed inhabited _ ih =>
    obtain ⟨front, last, rfl, separated⟩ := ih
    exact ⟨_ :: front, last, rfl, List.forall_mem_cons.mpr ⟨⟨_, listed, inhabited, rfl⟩, separated⟩⟩

/-- The text begins with the first piece. -/
theorem head_prefix {piece : List Char} {separator : Option (List Char)}
    (cut : CutFrom separators ((piece, separator) :: slices) text) : piece <+: text := by
  cases cut with
  | last => exact List.prefix_rfl
  | next => exact List.prefix_append _ _

end Pieces.CutFrom

theorem cutFrom_cut (separators : List (List Char)) (quote : Option Char) (text : List Char) :
    Pieces.CutFrom separators (cut separators quote text) text := by
  fun_induction cut separators quote text with
  | case1 => exact .last
  | case2 q c d rest _ ih => exact ih.before [c, d]
  | case3 q c d rest _ ih => exact ih.before [c]
  | case4 q c => exact .last
  | case5 d rest ih => exact ih.before ['\\', d]
  | case6 c rest _ _ ih => exact ih.before [c]
  | case7 c rest _ _ command after found ih =>
    rw [eq_append_of_substitution found]
    exact ih.before (spanOf command)
  | case8 c rest _ _ _ separator after found ih =>
    obtain ⟨whole, inhabited⟩ := eq_append_of_separator found
    rw [whole]
    exact .next (mem_of_separator found) inhabited ih
  | case9 c rest _ _ _ _ ih => exact ih.before [c]

/-- No separator is left within a piece. -/
def Pieces.Free (separators : List (List Char)) (slices : Pieces) : Prop :=
  ∀ piece ∈ slices, ∀ separator ∈ separators, separator ≠ [] → ¬ separator <:+: piece.1

theorem Pieces.free_cons {piece : List Char × Option (List Char)} :
    Pieces.Free separators (piece :: slices) ↔
      (∀ separator ∈ separators, separator ≠ [] → ¬ separator <:+: piece.1) ∧
        Pieces.Free separators slices :=
  List.forall_mem_cons

private theorem not_prefix_of_separator {separator : List Char}
    (missing : separator? separators text = none) (listed : separator ∈ separators)
    (inhabited : separator ≠ []) : ¬ separator <+: text := by
  have found := List.find?_eq_none.mp (Option.map_eq_none_iff.mp missing) separator listed
  simpa [inhabited] using found

/-- A character at which no separator stands may be put in front. -/
private theorem Pieces.Free.before {c : Char} (free : Pieces.Free separators slices)
    (cut : slices.CutFrom separators rest) (missing : separator? separators (c :: rest) = none) :
    Pieces.Free separators (Pieces.before [c] slices) := by
  rcases slices with _ | ⟨⟨piece, follower⟩, slices⟩
  · cases cut
  · obtain ⟨here, later⟩ := Pieces.free_cons.mp free
    refine Pieces.free_cons.mpr ⟨fun separator listed inhabited inside => ?_, later⟩
    rcases List.infix_cons_iff.mp inside with front | inner
    · have start : c :: piece <+: c :: rest := List.cons_prefix_cons.mpr ⟨rfl, cut.head_prefix⟩
      exact not_prefix_of_separator missing listed inhabited (front.trans start)
    · exact here separator listed inhabited inner

private theorem no_separator_in_nil :
    ∀ separator ∈ separators, separator ≠ [] → ¬ separator <:+: [] :=
  fun _ _ inhabited inside => inhabited (List.infix_nil.mp inside)

/-- Where nothing quotes or escapes, the text is cut at every separator. -/
theorem free_of_inert (separators : List (List Char)) (text : List Char)
    (idle : ∀ c ∈ text, inert c = true) : Pieces.Free separators (cut separators none text) := by
  match text with
  | [] =>
    rw [cut_nil]
    exact Pieces.free_cons.mpr ⟨no_separator_in_nil, nofun⟩
  | c :: rest =>
    have ⟨opens, escapes, spanless⟩ := plain_of_inert (idle c List.mem_cons_self) rest
    rw [cut_plain opens escapes spanless]
    cases found : separator? separators (c :: rest) with
    | some split =>
      obtain ⟨separator, after⟩ := split
      have shorter := length_lt_of_separator found
      have whole := (eq_append_of_separator found).1
      refine Pieces.free_cons.mpr ⟨no_separator_in_nil, free_of_inert separators after ?_⟩
      exact fun d member => idle d (whole ▸ List.mem_append_right separator member)
    | none =>
      have later := free_of_inert separators rest
        fun d member => idle d (List.mem_cons_of_mem c member)
      exact later.before (cutFrom_cut separators none rest) found
  termination_by text.length
  decreasing_by
    · exact Nat.lt_succ_self rest.length
    · exact shorter

/-! ## Parts -/

/-- The text of a part as it stands in the word. -/
def Part.source : Part → List Char
  | .literal text => text
  | .command text => spanOf text

/-- No substitution begins in the text and ends there or in what follows, but behind a backslash. -/
def Unopened (text after : List Char) : Prop :=
  ∀ front back, text = front ++ back → back ≠ [] → front.getLast? ≠ some '\\' →
    substitution? (back ++ after) = none

theorem Unopened.append (front : List Char) (opens : Unopened front (text ++ rest))
    (later : Unopened text rest) : Unopened (front ++ text) rest := by
  intro start back whole inhabited bare
  rcases List.append_eq_append_iff.mp whole with ⟨more, rfl, split⟩ | ⟨more, split, rfl⟩
  · refine later more back split inhabited fun last => bare ?_
    rw [List.getLast?_append, last, Option.some_or]
  · by_cases whole : more = []
    · subst whole
      exact later [] text rfl inhabited nofun
    · rw [List.append_assoc]
      exact opens start more split whole bare

theorem unopened_char {c : Char} (spanless : substitution? (c :: rest) = none) :
    Unopened [c] rest := by
  rintro (_ | ⟨first, front⟩) back whole inhabited -
  · rw [← List.nil_append back, ← whole]
    exact spanless
  · simp_all

/-- A dollar sign behind a backslash opens nothing. -/
theorem unopened_protected (rest : List Char) : Unopened ['\\', '$'] rest := by
  rintro (_ | ⟨first, _ | ⟨second, front⟩⟩) back whole inhabited bare
  · rw [← List.nil_append back, ← whole]
    exact substitution_none (by decide)
  · cases whole
    exact absurd rfl bare
  · simp_all

/-- The parts divide the word. -/
inductive Part.Divides : List Part → List Char → Prop
  | nil : Divides [] []
  | command {command : List Char} {parts : List Part} {rest : List Char} : Balanced command →
      Divides parts rest → Divides (.command command :: parts) (spanOf command ++ rest)
  | literal {text : List Char} {parts : List Part} {rest : List Char} : text ≠ [] →
      (∀ part ∈ parts.head?, part.isCommand = true) → Unopened text rest → Divides parts rest →
      Divides (.literal text :: parts) (text ++ rest)

namespace Part.Divides

variable {parts : List Part}

theorem before {front : List Char} (inhabited : front ≠ []) (divides : Divides parts rest)
    (opens : Unopened front rest) : Divides (Part.before front parts) (front ++ rest) := by
  cases divides with
  | nil => exact .literal inhabited (by simp) opens .nil
  | command balanced divides =>
    exact .literal inhabited (by simp [isCommand]) opens (.command balanced divides)
  | literal _ alone later divides =>
    rw [← List.append_assoc]
    exact .literal (by simp [inhabited]) alone (opens.append _ later) divides

theorem source_eq (divides : Divides parts text) : parts.flatMap source = text := by
  induction divides with
  | nil => rfl
  | command _ _ ih => rw [List.flatMap_cons, ih, source]
  | literal _ _ _ _ ih => rw [List.flatMap_cons, ih, source]

theorem alternates (divides : Divides parts text) :
    parts.IsChain fun first second => first.isCommand = true ∨ second.isCommand = true := by
  induction divides with
  | nil => exact .nil
  | command _ _ ih => exact List.isChain_cons.mpr ⟨fun _ _ => .inl rfl, ih⟩
  | literal _ alone _ _ ih =>
    exact List.isChain_cons.mpr ⟨fun part next => .inr (alone part next), ih⟩

theorem solid (divides : Divides parts text) : .literal [] ∉ parts := by
  induction divides with
  | nil => simp
  | command _ _ ih => simpa using ih
  | literal inhabited _ _ _ ih => simpa [Ne.symm inhabited] using ih

theorem unopened {before after : List Part}
    (divides : Divides (before ++ .literal text :: after) rest) :
    Unopened text (after.flatMap source) := by
  induction before generalizing rest with
  | nil =>
    cases divides with
    | literal _ _ opens divides => rwa [divides.source_eq]
  | cons part before ih =>
    cases divides with
    | command _ divides => exact ih divides
    | literal _ _ _ divides => exact ih divides

end Part.Divides

theorem divides_parts (word : List Char) : Part.Divides (parts word) word := by
  fun_induction parts word with
  | case1 => exact .nil
  | case2 rest ih => exact ih.before (by simp) (unopened_protected rest)
  | case3 c rest _ command after found ih =>
    rw [eq_append_of_substitution found]
    exact .command (closes_iff_balanced.mp (closes_of_substitution found)) ih
  | case4 c rest _ spanless ih => exact ih.before (by simp) (unopened_char spanless)

/-- The pieces of a line with their separators are the line, and the last piece is the one without
a separator; in a line that quotes and escapes nothing they hold none of the separators. The parts
of a word, with the commands in their spans, are the word; no literal part is empty or stands beside
another, and no substitution begins in one. -/
theorem splitting_loses_nothing :
    (∀ (separators : List String) (line : String),
      (pieces separators line).source = line.toList ∧
      (∃ front last, pieces separators line = front ++ [(last, none)] ∧ ∀ piece ∈ front,
        ∃ separator ∈ separators, separator ≠ "" ∧ piece.2 = some separator.toList) ∧
      ((∀ c ∈ line.toList, inert c = true) →
        Pieces.Free (separators.map String.toList) (pieces separators line))) ∧
    ∀ word : List Char,
      (parts word).flatMap Part.source = word ∧
      (parts word).IsChain (fun first second => first.isCommand = true ∨ second.isCommand = true) ∧
      .literal [] ∉ parts word ∧
      ∀ before text after, parts word = before ++ .literal text :: after →
        Unopened text (after.flatMap Part.source) := by
  constructor
  · intro separators line
    have whole := cutFrom_cut (separators.map String.toList) none line.toList
    refine ⟨whole.source_eq, ?_, free_of_inert _ _⟩
    obtain ⟨front, last, same, separated⟩ := whole.ends
    refine ⟨front, last, same, fun piece member => ?_⟩
    obtain ⟨separator, listed, inhabited, followed⟩ := separated piece member
    obtain ⟨text, given, rfl⟩ := List.mem_map.mp listed
    exact ⟨text, given, by simpa using inhabited, followed⟩
  · intro word
    have divides := divides_parts word
    refine ⟨divides.source_eq, divides.alternates, divides.solid, fun before text after same => ?_⟩
    rw [same] at divides
    exact divides.unopened

/-- No semicolon is left in the pieces of a line without quotes, and the first literal part of a
word holds what would be a substitution, had it no backslash before it. -/
theorem split_at_semicolons : (∀ c ∈ "a;;b".toList, inert c = true) ∧
    Pieces.Free [[';']] (pieces [";"] "a;;b") ∧
    parts "x\\$(y)$(z)$(".toList =
      [.literal "x\\$(y)".toList, .command "z".toList, .literal "$(".toList] ∧
    Unopened "x\\$(y)".toList "$(z)$(".toList := by
  have idle : ∀ c ∈ "a;;b".toList, inert c = true := List.all_eq_true.mp rfl
  have divided : parts "x\\$(y)$(z)$(".toList =
      [.literal "x\\$(y)".toList, .command "z".toList, .literal "$(".toList] := by decide +kernel
  have opens := (splitting_loses_nothing.2 "x\\$(y)$(z)$(".toList).2.2.2 [] _ _ divided
  exact ⟨idle, (splitting_loses_nothing.1 [";"] "a;;b").2.2 idle, divided, opens⟩

end PocketShell.Shell
