import Mathlib.Data.List.Chain
import Mathlib.Data.List.Sort
import Mathlib.Data.String.Basic
import PocketShell.Proofs.Shell.Piping

/-! Repeated lines. What `uniq` collapses are the runs of equal lines, which stand for the lines
they are made of. In sorted lines all equal ones are in one run, so collapsing behind sorting gives
the same lines as sorting what has been made distinct. -/
namespace PocketShell.Command

open Shell Text

variable {caller : Caller Command} {workspace : Workspace} {args : List String}
  {text line : String}
  {ls : List String} {groups : List (String × Nat)}

/-! ## Runs -/

/-- The lines that groups of equal lines stand for. -/
def spread (groups : List (String × Nat)) : List String :=
  groups.flatMap fun (line, count) => List.replicate count line

theorem spread_cons (group : String × Nat) (groups : List (String × Nat)) :
    spread (group :: groups) = List.replicate group.2 group.1 ++ spread groups := List.flatMap_cons

/-- Runs stand for the lines they are made of. -/
theorem spread_runs (ls : List String) : spread (runs ls) = ls := by
  induction ls with
  | nil => rfl
  | cons line rest ih =>
    obtain ⟨count, more, behind, front⟩ | ⟨-, front⟩ := runs_cons line rest
    · rw [behind, spread_cons] at ih
      rw [front, spread_cons]
      exact congrArg (line :: ·) ih
    · rw [front, spread_cons, ih]
      rfl

/-- No run is empty. -/
theorem runs_positive (ls : List String) : ∀ group ∈ runs ls, 0 < group.2 := by
  induction ls with
  | nil => simp [runs]
  | cons line rest ih =>
    obtain ⟨count, more, behind, front⟩ | ⟨-, front⟩ := runs_cons line rest
    · rw [behind] at ih
      rw [front]
      exact List.forall_mem_cons.mpr ⟨Nat.succ_pos count, (List.forall_mem_cons.mp ih).2⟩
    · rw [front]
      exact List.forall_mem_cons.mpr ⟨Nat.one_pos, ih⟩

/-- Runs beside each other are of different lines. -/
theorem runs_apart (ls : List String) :
    (runs ls).IsChain fun group next => group.1 ≠ next.1 := by
  induction ls with
  | nil => exact .nil
  | cons line rest ih =>
    obtain ⟨count, more, behind, front⟩ | ⟨apart, front⟩ := runs_cons line rest
    · rw [behind, List.isChain_cons] at ih
      rw [front, List.isChain_cons]
      exact ih
    · rw [front, List.isChain_cons]
      exact ⟨apart, ih⟩

theorem mem_runs_iff : line ∈ (runs ls).map Prod.fst ↔ line ∈ ls := by
  have made : line ∈ ls ↔ line ∈ spread (runs ls) := by rw [spread_runs]
  rw [made, spread, List.mem_flatMap, List.mem_map]
  refine exists_congr fun group => and_congr_right fun member => ?_
  have some : group.2 ≠ 0 := Nat.ne_of_gt (runs_positive ls group member)
  rw [List.mem_replicate, and_iff_right some]
  exact eq_comm

/-! ## Sorted lines -/

theorem sortLines_ascending (ls : List String) : (sortLines false false ls).Pairwise (· ≤ ·) := by
  simpa using sortLines_ordered false ls

theorem mem_sortLines_iff : line ∈ sortLines false false ls ↔ line ∈ ls :=
  (sortLines_perm false false ls).mem_iff

theorem nodup_distinct (ls : List String) : (distinct ls).Nodup := by
  unfold distinct
  induction shorter : ls.length using Nat.strongRecOn generalizing ls with
  | ind length ih =>
    cases ls with
    | nil => exact List.nodup_nil
    | cons line rest =>
      rw [List.eraseDups_cons, List.nodup_cons, List.mem_eraseDups]
      have fewer : (rest.filter fun other => !other == line).length < length := by
        rw [← shorter, List.length_cons]
        exact Nat.lt_succ_of_le (List.length_filter_le _ rest)
      exact ⟨by simp, ih _ fewer _ rfl⟩

theorem mem_distinct_iff : line ∈ distinct ls ↔ line ∈ ls := List.mem_eraseDups

/-- Lines made distinct and then sorted are strictly in order. -/
theorem sortLines_distinct_ordered (ls : List String) :
    (sortLines false false (distinct ls)).Pairwise (· < ·) := by
  have apart : (sortLines false false (distinct ls)).Nodup :=
    (sortLines_perm false false _).nodup_iff.mpr (nodup_distinct ls)
  exact ((sortLines_ascending _).and apart).imp fun both => lt_of_le_of_ne both.1 both.2

/-- The runs of lines that are in order are strictly in order: neighbours are, as they differ. -/
theorem runs_ordered (ordered : ls.Pairwise (· ≤ ·)) :
    ((runs ls).map Prod.fst).Pairwise (· < ·) := by
  rw [← List.isChain_iff_pairwise, List.isChain_map]
  induction ls with
  | nil => exact .nil
  | cons line rest ih =>
    obtain ⟨above, ordered⟩ := List.pairwise_cons.mp ordered
    obtain ⟨count, more, behind, front⟩ | ⟨apart, front⟩ := runs_cons line rest
    · have chain := ih ordered
      rw [behind, List.isChain_cons] at chain
      rw [front, List.isChain_cons]
      exact chain
    · rw [front, List.isChain_cons]
      refine ⟨fun group next => ?_, ih ordered⟩
      have inside : group.1 ∈ rest := mem_of_mem_runs group (List.mem_of_mem_head? next)
      exact lt_of_le_of_ne (above _ inside) (apart group next)

/-- Collapsing sorted lines comes to the same as sorting what has been made distinct. -/
theorem runs_sortLines (ls : List String) :
    (runs (sortLines false false ls)).map Prod.fst = sortLines false false (distinct ls) := by
  refine (runs_ordered (sortLines_ascending ls)).eq_of_mem_iff (sortLines_distinct_ordered ls) ?_
  intro line
  rw [mem_runs_iff, mem_sortLines_iff, mem_sortLines_iff, mem_distinct_iff]

/-! ## Counted lines -/

/-- What a counted line tells: a line, and how often it stood there. -/
def countedLine? (shown : String) : Option (String × Nat) :=
  match Decimal.spanDigits (shown.toList.dropWhile (· == ' ')) with
  | (digits, ' ' :: rest) =>
    if digits.isEmpty then none else some (String.ofList rest, Decimal.digitsToNat digits)
  | _ => none

theorem countedLine?_shown (count : Nat) (line : String) :
    countedLine? s!"{padLeft 7 (toString count)} {line}" = some (line, count) := by
  change countedLine? (padLeft 7 (toString count) ++ " " ++ line) = _
  have digit : ∀ c ∈ Nat.toDigits 10 count, c.isDigit = true :=
    fun c => Decimal.isDigit_of_mem_toDigits
  obtain ⟨first, others, shape⟩ := List.exists_cons_of_ne_nil
    (Nat.toDigits_ne_nil : Nat.toDigits 10 count ≠ [])
  have shown : (padLeft 7 (toString count) ++ " " ++ line).toList =
      List.replicate (7 - (toString count).length) ' ' ++
        first :: (others ++ ' ' :: line.toList) := by
    simp [padLeft, Nat.repr_eq_ofList_toDigits, shape]
  have solid : (first == ' ') = false := by
    have here := digit first (shape ▸ List.mem_cons_self)
    rw [beq_eq_false_iff_ne]
    rintro rfl
    cases here
  have behind : (padLeft 7 (toString count) ++ " " ++ line).toList.dropWhile (· == ' ') =
      Nat.toDigits 10 count ++ ' ' :: line.toList := by
    rw [shown, List.dropWhile_append_of_pos, List.dropWhile_cons_of_neg (by simp [solid]), shape,
      List.cons_append]
    intro c member
    simp [List.eq_of_mem_replicate member]
  have stops : Decimal.NoDigit (' ' :: line.toList) := by
    rintro c ⟨⟩
    rfl
  unfold countedLine?
  rw [behind, Decimal.spanDigits_append digit stops]
  simp

/-! ## What is printed -/

theorem uniq_prints (given : (parseOptions [] args).operands = []) :
    Prints caller workspace .uniq args text
      (unlines (uniqLines (parseOptions [] args) (lines text))) := by
  change (uniq args (some text) caller workspace).1 = _
  unfold uniq filterLines withInput
  rw [given]
  rfl

/-- No two lines in strict order are blank. -/
private theorem unlines_blank (ordered : ls.Pairwise (· < ·)) (blank : ∀ line ∈ ls, line = "") :
    unlines ls = "" := by
  match ls with
  | [] => rfl
  | [line] => rw [unlines_singleton, blank line (List.mem_singleton_self line)]
  | line :: next :: rest =>
    have above := List.rel_of_pairwise_cons ordered (List.mem_cons_self : next ∈ next :: rest)
    rw [blank line (by simp), blank next (by simp)] at above
    exact absurd above (lt_irrefl _)

/-- What is read behind sorting collapses to the distinct lines in order: the blank line that is
lost on the way is missed only where all are blank, and then nothing is shown either way. -/
private theorem unlines_runs_sorted (whole : ∀ line ∈ ls, Whole line) :
    unlines ((runs (lines (unlines (sortLines false false ls)))).map Prod.fst) =
      unlines (sortLines false false (distinct ls)) := by
  rw [lines_unlines fun line member => whole line (mem_sortLines_iff.mp member)]
  split
  · rename_i ends
    obtain ⟨-, blank⟩ := endsBlank_sortLines_iff.mp ends
    have before : ∀ line ∈ (sortLines false false ls).dropLast, line = "" :=
      fun line member => blank line (mem_sortLines_iff.mp ((List.dropLast_sublist _).mem member))
    have ordered := (sortLines_ascending ls).sublist (List.dropLast_sublist _)
    have collapsed := unlines_blank (runs_ordered ordered) fun line member =>
      before line (mem_runs_iff.mp member)
    have sorted := unlines_blank (sortLines_distinct_ordered ls) fun line member =>
      blank line (mem_distinct_iff.mp (mem_sortLines_iff.mp member))
    rw [collapsed, sorted]
  · rw [runs_sortLines]

/-- A counted line holds a digit and a space, so that none is lost when they are read again. -/
private theorem lines_counted (whole : ∀ group ∈ groups, Whole group.1) :
    (lines (unlines (groups.map fun (line, count) =>
      s!"{padLeft 7 (toString count)} {line}"))).map countedLine? = groups.map some := by
  rw [lines_unlines_eq_iff.mpr ⟨?_, ?_⟩, List.map_map]
  · refine List.map_congr_left ?_
    rintro ⟨line, count⟩ -
    rw [Function.comp_apply, countedLine?_shown]
  · intro line member
    obtain ⟨group, inside, rfl⟩ := List.mem_map.mp member
    have space : Whole " " := whole_of_single rfl rfl
    exact (((whole_toString _).padLeft _).append space).append (whole group inside)
  · intro blank
    obtain ⟨⟨line, count⟩, -, shown⟩ := List.mem_map.mp (List.mem_of_getLast? blank)
    have tells := countedLine?_shown count line
    have nothing : countedLine? "" = none := by decide
    dsimp only at shown
    rw [shown, nothing] at tells
    cases tells

/-- Sorting without repetitions prints the same as collapsing behind sorting: the lines of the text
strictly in order, where a text with blank lines alone loses them. What counting shows stands for
the lines of the text, in runs of lines that differ from their neighbours; of these the repeated
ones are shown alone, with their counts and without. -/
theorem deduplicated_alike (caller : Caller Command) (workspace : Workspace) (text : String) :
    (∃ sorted once, Prints caller workspace .sort ["-u"] text once ∧
      Prints caller workspace .sort [] text sorted ∧
      Prints caller workspace .uniq [] sorted once ∧
      (lines once).Pairwise (· < ·) ∧
      ((∃ line ∈ lines text, line ≠ "") → ∀ line, line ∈ lines once ↔ line ∈ lines text) ∧
      ((∀ line ∈ lines text, line = "") → once = "")) ∧
    ∃ groups counted repeated, Prints caller workspace .uniq ["-c"] text counted ∧
      (lines counted).map countedLine? = groups.map some ∧
      spread groups = lines text ∧
      groups.IsChain (fun group next => group.1 ≠ next.1) ∧
      (∀ group ∈ groups, 0 < group.2) ∧
      Prints caller workspace .uniq ["-d"] text
        (unlines ((groups.filter fun group => 1 < group.2).map Prod.fst)) ∧
      Prints caller workspace .uniq ["-c", "-d"] text repeated ∧
      (lines repeated).map countedLine? = (groups.filter fun group => 1 < group.2).map some := by
  have whole : ∀ line ∈ lines text, Whole line := fun line => whole_of_mem_lines
  constructor
  · have piped : Prints caller workspace .uniq [] (unlines (sortLines false false (lines text)))
        (unlines (sortLines false false (distinct (lines text)))) := by
      rw [← unlines_runs_sorted whole]
      exact uniq_prints rfl
    have among : ∀ line, line ∈ sortLines false false (distinct (lines text)) ↔ line ∈ lines text :=
      fun line => mem_sortLines_iff.trans mem_distinct_iff
    have read := lines_unlines fun line member => whole line ((among line).mp member)
    refine ⟨unlines (sortLines false false (lines text)),
      unlines (sortLines false false (distinct (lines text))), sort_prints rfl, sort_prints rfl,
      piped, ?_, ?_, fun blank => ?_⟩
    · rw [read]
      split
      · exact (sortLines_distinct_ordered _).sublist (List.dropLast_sublist _)
      · exact sortLines_distinct_ordered _
    · rintro ⟨filled, inside, some⟩ line
      rw [read, if_neg, among]
      intro ends
      exact some ((endsBlank_sortLines_iff.mp ends).2 filled (mem_distinct_iff.mpr inside))
    · exact unlines_blank (sortLines_distinct_ordered _) fun line member =>
        blank line ((among line).mp member)
  · have each : ∀ group ∈ runs (lines text), Whole group.1 :=
      fun group member => whole _ (mem_of_mem_runs group member)
    exact ⟨runs (lines text), _, _, uniq_prints rfl, lines_counted each, spread_runs _,
      runs_apart _, runs_positive _, uniq_prints rfl, uniq_prints rfl,
      lines_counted fun group member => each group (List.mem_filter.mp member).1⟩

end PocketShell.Command
