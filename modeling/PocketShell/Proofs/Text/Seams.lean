import Mathlib.Algebra.GroupWithZero.Nat
import PocketShell.Proofs.Text.Lines

/-! Whole texts put together like lines. The newline between two texts ends the last line of the
first one where that line is still open; where it has ended already, or the text is empty, the
newline ends a blank line of its own, which neither text has. -/
namespace PocketShell.Text

variable {cs : List Char} {text : String} {texts : List String}

/-- No line is open at the end: there is nothing, or a line has just ended. The carriage return
leaves its line open to a newline. -/
def NoneOpen (cs : List Char) : Prop := ∀ c ∈ cs.getLast?, isLineBreak c = true ∧ c ≠ '\r'

instance (cs : List Char) : Decidable (NoneOpen cs) :=
  Option.decidableForallMem cs.getLast?

/-- No line of the text is open at its end. -/
def Closed (text : String) : Prop := NoneOpen text.toList

instance (text : String) : Decidable (Closed text) :=
  inferInstanceAs (Decidable (NoneOpen text.toList))

/-- The lines that appear behind a text where another one is put. -/
def seam (text : String) : List String := if Closed text then [""] else []

private def closes (cs : List Char) : List (List Char) := if NoneOpen cs then [[]] else []

private theorem closes_cons {c : Char} {cs : List Char} (some : cs ≠ []) :
    closes (c :: cs) = closes cs := by
  have same : NoneOpen (c :: cs) ↔ NoneOpen cs := by
    unfold NoneOpen
    rw [List.getLast?_cons_of_ne_nil some]
  simp only [closes, same]

private theorem splitLines_eq_nil : splitLines cs = [] ↔ cs = [] := by
  refine ⟨?_, fun none => none ▸ rfl⟩
  fun_cases splitLines cs with
  | case1 => exact fun _ => rfl
  | case2 => nofun
  | case3 => nofun
  | case4 => nofun
  | case5 => nofun

/-- Up to a newline stand the lines of a text, and one more if no line was open. -/
private theorem splitLines_append (cs rest : List Char) :
    splitLines (cs ++ '\n' :: rest) = splitLines cs ++ closes cs ++ splitLines rest := by
  fun_induction splitLines cs with
  | case1 =>
    have alone : ∀ others, '\n' = '\r' → rest = '\n' :: others → False :=
      fun _ same => absurd same (by decide)
    rw [List.nil_append, splitLines.eq_3 '\n' rest alone]
    rfl
  | case2 more ih =>
    have ends : closes ('\r' :: '\n' :: more) = closes more := by
      rw [closes_cons (List.cons_ne_nil _ _)]
      cases more with
      | nil => rfl
      | cons c more => exact closes_cons (List.cons_ne_nil _ _)
    rw [List.cons_append, List.cons_append, splitLines, ih, ends]
    rfl
  | case3 c more alone breaks ih =>
    by_cases last : more = []
    · subst last
      by_cases returns : c = '\r'
      · subst returns
        rfl
      · have open_ : ∀ others, c = '\r' → [] ++ '\n' :: rest = '\n' :: others → False :=
          fun _ same _ => returns same
        have ends : closes [c] = [[]] := if_pos (by simp [NoneOpen, breaks, returns])
        rw [List.cons_append, splitLines.eq_3 c _ open_, if_pos breaks, ih, ends]
        rfl
    · have further : ∀ others, c = '\r' → more ++ '\n' :: rest = '\n' :: others → False := by
        intro others same begins
        obtain ⟨d, tail, rfl⟩ := List.exists_cons_of_ne_nil last
        cases begins
        exact alone tail same rfl
      rw [List.cons_append, splitLines.eq_3 c _ further, if_pos breaks, ih, closes_cons last]
      rfl
  | case4 c more alone inside none ih =>
    have plain : isLineBreak c = false := by simpa using inside
    obtain rfl : more = [] := splitLines_eq_nil.mp none
    have open_ : closes [c] = [] := if_neg (by simp [NoneOpen, plain])
    rw [List.cons_append, splitLines_cons plain, ih, open_]
    rfl
  | case5 c more alone inside first others some ih =>
    have plain : isLineBreak c = false := by simpa using inside
    have further : more ≠ [] := by
      rintro rfl
      cases some
    rw [List.cons_append, splitLines_cons plain, ih, some, closes_cons further]
    rfl

/-- Behind a text and a newline come the lines of what follows. -/
theorem lines_unlines_texts_cons (some : texts ≠ []) :
    lines (unlines (text :: texts)) = lines text ++ seam text ++ lines (unlines texts) := by
  have newline : "\n".toList = ['\n'] := rfl
  have ends : (closes text.toList).map String.ofList = seam text := by
    by_cases closed : Closed text
    · have blank : closes text.toList = [[]] := if_pos closed
      rw [seam, if_pos closed, blank]
      rfl
    · have none : closes text.toList = [] := if_neg closed
      rw [seam, if_neg closed, none]
      rfl
  unfold lines unlines
  rw [String.intercalate_cons_of_ne_nil some, String.toList_append, String.toList_append, newline,
    List.append_assoc, List.singleton_append, splitLines_append, List.map_append, List.map_append,
    ends]

/-- Texts put together hold their lines one text after the other, and a blank line behind each that
was closed already and is not the last. -/
theorem lines_unlines_texts (texts : List String) : lines (unlines texts) =
    (texts.dropLast.flatMap fun text => lines text ++ seam text) ++
      lines (texts.getLast?.getD "") := by
  induction texts with
  | nil => rfl
  | cons text texts ih =>
    by_cases last : texts = []
    · rw [last, unlines_singleton]
      rfl
    · rw [lines_unlines_texts_cons last, ih, List.dropLast_cons_of_ne_nil last,
        List.getLast?_cons_of_ne_nil last, List.flatMap_cons, List.append_assoc (_ ++ _)]

/-- The number of lines is the sum of the numbers of lines of the texts and the number of texts that
were closed already before the next one came. -/
theorem length_lines_unlines_texts (texts : List String) : (lines (unlines texts)).length =
    (texts.map fun text => (lines text).length).sum +
      texts.dropLast.countP fun text => Closed text := by
  induction texts with
  | nil => rfl
  | cons text texts ih =>
    by_cases last : texts = []
    · rw [last, unlines_singleton]
      simp
    · have one : (seam text).length = if Closed text then 1 else 0 := by
        unfold seam
        split <;> rfl
      rw [lines_unlines_texts_cons last, List.length_append, List.length_append, ih, one,
        List.dropLast_cons_of_ne_nil last, List.map_cons, List.sum_cons, List.countP_cons]
      simp only [decide_eq_true_eq]
      omega

/-- There are as many lines as in the texts exactly if none was closed before the next one came. -/
theorem length_lines_unlines_texts_iff :
    (lines (unlines texts)).length = (texts.map fun text => (lines text).length).sum ↔
      ∀ text ∈ texts.dropLast, ¬ Closed text := by
  rw [length_lines_unlines_texts, Nat.add_eq_left, List.countP_eq_zero]
  simp only [decide_eq_true_eq]

/-- The lines are those of the texts, one text after the other, exactly if none was closed before the
next one came. -/
theorem lines_unlines_texts_iff :
    lines (unlines texts) = texts.flatMap lines ↔ ∀ text ∈ texts.dropLast, ¬ Closed text := by
  refine ⟨fun same => ?_, fun open_ => ?_⟩
  · rw [← length_lines_unlines_texts_iff, same, List.length_flatMap]
  · induction texts with
    | nil => rfl
    | cons text texts ih =>
      by_cases last : texts = []
      · rw [last, unlines_singleton]
        simp
      · rw [List.dropLast_cons_of_ne_nil last, List.forall_mem_cons] at open_
        rw [lines_unlines_texts_cons last, seam, if_neg open_.1, List.append_nil, ih open_.2,
          List.flatMap_cons]

end PocketShell.Text
