import Mathlib.Data.List.Basic
import PocketShell.Text.Split

/-! Lines that are put together and taken apart again. A newline stands between neighbours and none
behind the last line, so a text does not tell that its last line is blank: that line is lost. Every
other line comes back if it holds no line end of its own. -/
namespace PocketShell.Text

variable {cs : List Char} {ls : List String} {line s : String}

/-- No character of the line ends a line. -/
def Whole (line : String) : Prop := ∀ c ∈ line.toList, isLineBreak c = false

instance (line : String) : Decidable (Whole line) :=
  inferInstanceAs (Decidable (∀ c ∈ line.toList, isLineBreak c = false))

/-- The last line is there and blank. -/
def EndsBlank (ls : List String) : Prop := ls.getLast? = some ""

instance (ls : List String) : Decidable (EndsBlank ls) :=
  inferInstanceAs (Decidable (ls.getLast? = some ""))

/-! ## Taking apart -/

theorem splitLines_cons {c : Char} (inside : isLineBreak c = false) (rest : List Char) :
    splitLines (c :: rest) = match splitLines rest with
      | [] => [[c]]
      | line :: lines => (c :: line) :: lines := by
  have other : c ≠ '\r' := by
    rintro rfl
    exact absurd inside (by decide)
  have alone : ∀ more, c = '\r' → rest = '\n' :: more → False := fun _ same _ => other same
  exact (splitLines.eq_3 c rest alone).trans (if_neg (by simp [inside]))

/-- Up to a newline stands the first line. -/
theorem splitLines_append_newline (whole : ∀ c ∈ cs, isLineBreak c = false) (rest : List Char) :
    splitLines (cs ++ '\n' :: rest) = cs :: splitLines rest := by
  induction cs with
  | nil =>
    rw [List.nil_append, splitLines.eq_3 '\n' rest nofun]
    rfl
  | cons c cs ih =>
    rw [List.cons_append, splitLines_cons (whole c List.mem_cons_self),
      ih fun d member => whole d (List.mem_cons_of_mem _ member)]

/-- Without a line end a text is one line, if it is not empty. -/
theorem splitLines_eq_single (whole : ∀ c ∈ cs, isLineBreak c = false) (some : cs ≠ []) :
    splitLines cs = [cs] := by
  induction cs with
  | nil => exact absurd rfl some
  | cons c cs ih =>
    rw [splitLines_cons (whole c List.mem_cons_self)]
    by_cases last : cs = []
    · rw [last]
      rfl
    · rw [ih (fun d member => whole d (List.mem_cons_of_mem _ member)) last]

private theorem whole_of_mem_splitLines (cs : List Char) :
    ∀ line ∈ splitLines cs, ∀ c ∈ line, isLineBreak c = false := by
  fun_induction splitLines cs with
  | case1 => nofun
  | case2 rest ih => exact List.forall_mem_cons.mpr ⟨nofun, ih⟩
  | case3 c rest alone ends ih => exact List.forall_mem_cons.mpr ⟨nofun, ih⟩
  | case4 c rest alone inside none ih =>
    intro line member d within
    cases List.mem_singleton.mp member
    cases List.mem_singleton.mp within
    simpa using inside
  | case5 c rest alone inside first others some ih =>
    rw [some] at ih
    obtain ⟨front, behind⟩ := List.forall_mem_cons.mp ih
    have plain : isLineBreak c = false := by simpa using inside
    exact List.forall_mem_cons.mpr ⟨List.forall_mem_cons.mpr ⟨plain, front⟩, behind⟩

/-- The lines of a text hold no line end. -/
theorem whole_of_mem_lines (member : line ∈ lines s) : Whole line := by
  obtain ⟨cs, inside, rfl⟩ := List.mem_map.mp member
  intro c within
  rw [String.toList_ofList] at within
  exact whole_of_mem_splitLines _ cs inside c within

/-! ## Putting together -/

theorem unlines_singleton (line : String) : unlines [line] = line := by
  simp [unlines]

theorem isEmpty_unlines {lines : List String} (some : lines ≠ [])
    (inhabited : ∀ line ∈ lines, line ≠ "") : (unlines lines).isEmpty = false := by
  obtain ⟨line, others, rfl⟩ := List.exists_cons_of_ne_nil some
  have first : line ≠ "" := inhabited line List.mem_cons_self
  cases others with
  | nil => simpa [unlines] using first
  | cons next others =>
    rw [unlines, String.intercalate_cons_of_ne_nil (List.cons_ne_nil _ _)]
    simp [first]

theorem unlines_append {lines others : List String} (some : lines ≠ [])
    (more : others ≠ []) : unlines [unlines lines, unlines others] =
      unlines (lines ++ others) := by
  rw [unlines, String.intercalate_cons_of_ne_nil (List.cons_ne_nil _ _),
    String.intercalate_singleton, unlines, unlines, unlines,
    String.intercalate_append_of_ne_nil some more]

theorem lines_unlines_cons (whole : Whole line) (some : ls ≠ []) :
    lines (unlines (line :: ls)) = line :: lines (unlines ls) := by
  unfold lines unlines
  rw [String.intercalate_cons_of_ne_nil some]
  simp only [String.toList_append]
  have newline : "\n".toList = ['\n'] := rfl
  rw [newline, List.append_assoc, List.singleton_append, splitLines_append_newline whole]
  simp

theorem lines_of_whole (whole : Whole line) (some : line ≠ "") : lines line = [line] := by
  have inhabited : line.toList ≠ [] := by simpa using some
  rw [lines, splitLines_eq_single whole inhabited]
  simp

/-- Whole lines come back, but for a blank one at the end. -/
theorem lines_unlines (whole : ∀ line ∈ ls, Whole line) :
    lines (unlines ls) = if EndsBlank ls then ls.dropLast else ls := by
  induction ls with
  | nil => rfl
  | cons line ls ih =>
    obtain ⟨first, others⟩ := List.forall_mem_cons.mp whole
    by_cases last : ls = []
    · rw [last, unlines_singleton]
      by_cases blank : line = ""
      · rw [blank]
        rfl
      · rw [lines_of_whole first blank, if_neg (by simpa [EndsBlank] using blank)]
    · have end_ : EndsBlank (line :: ls) ↔ EndsBlank ls := by
        rw [EndsBlank, List.getLast?_cons_of_ne_nil last, EndsBlank]
      rw [lines_unlines_cons first last, ih others]
      by_cases blank : EndsBlank ls
      · rw [if_pos blank, if_pos (end_.mpr blank), List.dropLast_cons_of_ne_nil last]
      · rw [if_neg blank, if_neg (mt end_.mp blank)]

/-- Lines come back exactly if each is whole and the last one is not blank. -/
theorem lines_unlines_eq_iff :
    lines (unlines ls) = ls ↔ (∀ line ∈ ls, Whole line) ∧ ¬ EndsBlank ls := by
  constructor
  · intro same
    have whole : ∀ line ∈ ls, Whole line := by
      intro line member
      rw [← same] at member
      exact whole_of_mem_lines member
    refine ⟨whole, fun blank => ?_⟩
    rw [lines_unlines whole, if_pos blank] at same
    have some : ls ≠ [] := by
      rintro rfl
      cases blank
    have shorter := congrArg List.length same
    rw [List.length_dropLast] at shorter
    have positive := List.length_pos_of_ne_nil some
    omega
  · rintro ⟨whole, filled⟩
    rw [lines_unlines whole, if_neg filled]

/-- Of whole lines none is lost exactly if the last one is not blank. -/
theorem length_lines_unlines_eq_iff (whole : ∀ line ∈ ls, Whole line) :
    (lines (unlines ls)).length = ls.length ↔ ¬ EndsBlank ls := by
  rw [lines_unlines whole]
  split
  · rename_i blank
    have some : ls ≠ [] := by
      rintro rfl
      cases blank
    have positive := List.length_pos_of_ne_nil some
    rw [List.length_dropLast]
    exact iff_of_false (by omega) (fun filled => filled blank)
  · rename_i filled
    exact iff_of_true rfl filled

/-! ## Lines that stay whole -/

theorem whole_empty : Whole "" := nofun

theorem whole_of_single {c : Char} (single : line.toList = [c]) (inside : isLineBreak c = false) :
    Whole line := by
  intro d member
  rw [single] at member
  rw [List.mem_singleton.mp member]
  exact inside

/-- What is made of the characters of whole lines is whole. -/
theorem Whole.of_mem (whole : Whole s) (within : ∀ c ∈ line.toList, c ∈ s.toList) : Whole line :=
  fun c member => whole c (within c member)

theorem Whole.append (whole : Whole line) (also : Whole s) : Whole (line ++ s) := by
  intro c member
  rw [String.toList_append] at member
  rcases List.mem_append.mp member with here | there
  · exact whole c here
  · exact also c there

theorem Whole.intercalate (whole : Whole s) (each : ∀ line ∈ ls, Whole line) :
    Whole (s.intercalate ls) := by
  induction ls with
  | nil =>
    rw [String.intercalate_nil]
    exact whole_empty
  | cons line ls ih =>
    obtain ⟨first, others⟩ := List.forall_mem_cons.mp each
    by_cases last : ls = []
    · rw [last, String.intercalate_singleton]
      exact first
    · rw [String.intercalate_cons_of_ne_nil last]
      exact (first.append whole).append (ih others)

theorem whole_toString (n : Nat) : Whole (toString n) := by
  intro c member
  have digit : c.isDigit = true := by
    have decimal : (toString n).toList = Nat.toDigits 10 n := by
      simp [Nat.repr_eq_ofList_toDigits]
    rw [decimal] at member
    exact Nat.isDigit_of_mem_toDigits (by decide) (by decide) member
  have low : 48 ≤ c.toNat ∧ c.toNat ≤ 57 := by
    simpa [Char.isDigit, UInt32.le_iff_toNat_le] using digit
  simp only [isLineBreak, Bool.or_eq_false_iff, Bool.and_eq_false_iff, decide_eq_false_iff_not,
    beq_eq_false_iff_ne]
  omega

theorem Whole.padLeft (whole : Whole line) (width : Nat) : Whole (padLeft width line) := by
  refine Whole.append (fun c member => ?_) whole
  rw [String.toList_ofList] at member
  rw [List.eq_of_mem_replicate member]
  decide

private theorem mem_of_mem_splitOnFrom (sep cs : List Char) (skip : Nat) :
    ∀ piece ∈ splitOnFrom sep skip cs, ∀ c ∈ piece, c ∈ cs := by
  fun_induction splitOnFrom sep skip cs with
  | case1 => simp
  | case2 skip d rest ih =>
    exact fun piece member c within => List.mem_cons_of_mem _ (ih piece member c within)
  | case3 d rest found ih =>
    refine List.forall_mem_cons.mpr ⟨nofun, ?_⟩
    exact fun piece member c within => List.mem_cons_of_mem _ (ih piece member c within)
  | case4 d rest other none ih => simp
  | case5 d rest other first others some ih =>
    rw [some] at ih
    obtain ⟨front, behind⟩ := List.forall_mem_cons.mp ih
    refine List.forall_mem_cons.mpr ⟨List.forall_mem_cons.mpr ⟨List.mem_cons_self, ?_⟩, ?_⟩
    · exact fun c within => List.mem_cons_of_mem _ (front c within)
    · exact fun piece member c within => List.mem_cons_of_mem _ (behind piece member c within)

/-- A field is made of characters of the text. -/
theorem mem_of_mem_splitOn {sep piece : String} (member : piece ∈ splitOn sep s) :
    ∀ c ∈ piece.toList, c ∈ s.toList := by
  obtain ⟨cs, inside, rfl⟩ := List.mem_map.mp member
  intro c within
  rw [String.toList_ofList] at within
  exact mem_of_mem_splitOnFrom _ _ _ cs inside c within

private theorem mem_of_beginsWithin {part cs : List Char} (begins : beginsWithin part cs = true) :
    ∀ c ∈ part, c ∈ cs := by
  induction cs with
  | nil =>
    rw [beginsWithin, List.isEmpty_iff] at begins
    rw [begins]
    nofun
  | cons d rest ih =>
    rw [beginsWithin, Bool.or_eq_true] at begins
    rcases begins with here | further
    · exact fun c member => (List.isPrefixOf_iff_prefix.mp here).mem member
    · exact fun c member => List.mem_cons_of_mem _ (ih further c member)

/-- What occurs in a text is made of its characters. -/
theorem mem_of_occursIn {part : String} (occurs : occursIn part s = true) :
    ∀ c ∈ part.toList, c ∈ s.toList := mem_of_beginsWithin occurs

/-- Up to a character that it does not hold a text is found as if nothing came behind. -/
private theorem isPrefixOf_append {part : List Char} {mark : Char} (free : mark ∉ part)
    (cs rest : List Char) : part.isPrefixOf (cs ++ mark :: rest) = part.isPrefixOf cs := by
  induction part generalizing cs with
  | nil => simp
  | cons c part ih =>
    rw [List.mem_cons, not_or] at free
    obtain ⟨other, further⟩ := free
    cases cs with
    | nil => simp [List.isPrefixOf, Ne.symm other]
    | cons d cs => simp [List.isPrefixOf, ih further]

private theorem beginsWithin_append {part : List Char} {mark : Char} (free : mark ∉ part)
    (some : part ≠ []) (cs rest : List Char) :
    beginsWithin part (cs ++ mark :: rest) = (beginsWithin part cs || beginsWithin part rest) := by
  induction cs with
  | nil =>
    have here := isPrefixOf_append free [] rest
    rw [List.nil_append] at here
    rw [List.nil_append, beginsWithin.eq_2, here]
    cases part with
    | nil => exact absurd rfl some
    | cons c part => simp [beginsWithin]
  | cons c cs ih =>
    have here := isPrefixOf_append free (c :: cs) rest
    rw [List.cons_append] at here ⊢
    rw [beginsWithin, beginsWithin, here, ih, Bool.or_assoc]

/-- A text without a newline occurs in lines put together if it occurs in one of them. -/
theorem occursIn_unlines {part : String} (free : '\n' ∉ part.toList) (some : part ≠ "")
    (ls : List String) : occursIn part (unlines ls) = ls.any (occursIn part) := by
  have inhabited : part.toList ≠ [] := by simpa using some
  induction ls with
  | nil =>
    obtain ⟨c, rest, shape⟩ := List.exists_cons_of_ne_nil inhabited
    simp [unlines, occursIn, beginsWithin, shape]
  | cons line ls ih =>
    cases ls with
    | nil => simp [unlines_singleton]
    | cons next ls =>
      have newline : "\n".toList = ['\n'] := rfl
      rw [List.any_cons, ← ih, unlines, String.intercalate_cons_of_ne_nil (List.cons_ne_nil _ _)]
      unfold occursIn unlines
      rw [String.toList_append, String.toList_append, newline, List.append_assoc,
        List.singleton_append, beginsWithin_append free inhabited]

end PocketShell.Text
