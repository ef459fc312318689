import PocketShell.Proofs.Number.Digits
import PocketShell.Proofs.Shell.Filtering

/-! Counting lines behind a pipe. What `grep -c` counts and what `wc -l` counts behind `grep` differ
by the one line that is lost if the last line found is blank; sorting loses a line in the same way
if a blank one comes last. -/
namespace PocketShell.Command

open Shell Text

variable {caller : Caller Command} {workspace : Workspace} {args : List String} {text : String}
  {options : Options}

/-- For a text a command prints an output and succeeds. -/
def Prints (caller : Caller Command) (workspace : Workspace) (standard : Builtin)
    (args : List String) (text output : String) : Prop :=
  (run (.builtin standard) args (some text) caller workspace).1 = .ok (.text output)

/-! ## Options -/

private theorem mem_foldl_addLetter {letters more : List Char} {letter : Char} :
    letter ∈ more.foldl addLetter letters ↔ letter ∈ letters ∨ letter ∈ more := by
  induction more generalizing letters with
  | nil => simp
  | cons first rest ih =>
    rw [List.foldl_cons, ih, List.mem_cons]
    unfold addLetter
    split
    · rename_i known
      have inside : first ∈ letters := by simpa using known
      constructor
      · rintro (here | there)
        · exact .inl here
        · exact .inr (.inr there)
      · rintro (here | rfl | there)
        · exact .inl here
        · exact .inl inside
        · exact .inr there
    · rw [List.mem_append, List.mem_singleton, or_assoc]

private theorem readLetters_valueless {next : Option String} (letters : List Char) :
    readLetters [] next letters options =
      ({ options with letters := letters.foldl addLetter options.letters }, false) := by
  induction letters generalizing options with
  | nil => rfl
  | cons letter rest ih => exact ih

/-- Letters that are there already change no operand and stay. -/
private theorem go_letters (args : List String) (taken : Bool) (letters : List Char)
    (values : List (Char × String)) (operands : List String) :
    (parseOptions.go [] taken ⟨letters, values, operands⟩ args).operands =
      (parseOptions.go [] taken ⟨[], values, operands⟩ args).operands ∧
    ∀ letter, letter ∈ (parseOptions.go [] taken ⟨letters, values, operands⟩ args).letters ↔
      letter ∈ letters ∨
        letter ∈ (parseOptions.go [] taken ⟨[], values, operands⟩ args).letters := by
  induction args generalizing taken letters operands with
  | nil => simp [parseOptions.go]
  | cons arg rest ih =>
    unfold parseOptions.go
    split
    · exact ih false letters operands
    split
    · simp
    split
    · exact ih false letters (operands ++ [arg])
    simp only [List.contains_nil, Bool.and_false, Bool.false_eq_true, if_false,
      readLetters_valueless]
    generalize (String.ofList (arg.toList.drop 1)).toList = given
    obtain ⟨others, kept⟩ := ih false (given.foldl addLetter letters) operands
    obtain ⟨same, fresh⟩ := ih false (given.foldl addLetter []) operands
    refine ⟨others.trans same.symm, fun letter => ?_⟩
    rw [kept, fresh, mem_foldl_addLetter, mem_foldl_addLetter]
    simp [or_assoc]

/-- Counting is one more letter. -/
private theorem parseOptions_counting (args : List String) :
    (parseOptions [] ("-c" :: args)).operands = (parseOptions [] args).operands ∧
    ∀ letter, (parseOptions [] ("-c" :: args)).has letter =
      (letter = 'c' || (parseOptions [] args).has letter) := by
  have first : parseOptions [] ("-c" :: args) = parseOptions.go [] false ⟨['c'], [], []⟩ args := by
    rfl
  obtain ⟨operands, letters⟩ := go_letters args false ['c'] [] []
  rw [first]
  refine ⟨operands, fun letter => ?_⟩
  rw [Bool.eq_iff_iff]
  simpa [Options.has, parseOptions] using letters letter

/-! ## Counting -/

theorem toString_inj {m n : Nat} : toString m = toString n ↔ m = n := by
  refine ⟨fun same => ?_, congrArg _⟩
  have digits : Nat.toDigits 10 m = Nat.toDigits 10 n := by
    simpa [Nat.repr_eq_ofList_toDigits] using congrArg String.toList same
  rw [← Decimal.digitsToNat_toDigits m, digits, Decimal.digitsToNat_toDigits]

theorem wc_prints : Prints caller workspace .wc ["-l"] text (toString (lines text).length) := rfl

theorem sort_prints (given : (parseOptions [] args).operands = []) :
    Prints caller workspace .sort args text (unlines (sortLines
      ((parseOptions [] args).has 'n') ((parseOptions [] args).has 'r')
      (if (parseOptions [] args).has 'u' then distinct (lines text) else lines text))) := by
  change (sort args (some text) caller workspace).1 = _
  unfold sort filterLines withInput
  rw [given]
  rfl

/-- What a search of the standard input shows. -/
private theorem grep_prints {script : String} {pattern : Pattern}
    (given : (parseOptions [] args).operands = [script])
    (compiled : Pattern.compile (caseFlags ((parseOptions [] args).has 'i')) script = .ok pattern)
    (found : matchingLines pattern ((parseOptions [] args).has 'v') text ≠ []) :
    Prints caller workspace .grep args text (unlines (showMatches
      (grepStyle (parseOptions [] args) []) ""
      (matchingLines pattern ((parseOptions [] args).has 'v') text))) := by
  have inhabited :
      (matchingLines pattern ((parseOptions [] args).has 'v') text).isEmpty = false := by
    simpa using found
  change (grep args (some text) caller workspace).1 = _
  unfold grep
  dsimp only
  rw [given]
  dsimp only
  rw [result_lift_bind, readPattern_eq_ok.mpr compiled]
  change Except.ok (⟨unlines ([("", matchingLines pattern _ text)].flatMap _), none,
    if [("", matchingLines pattern _ text)].all _ then 1 else 0⟩ : Outcome) = _
  simp [grepStyle, Outcome.text, inhabited]

/-- A line that is found is shown blank if it is blank and stands without its number. -/
private theorem endsBlank_showMatches {style : GrepStyle} {found : List (Nat × String)}
    (nameless : style.names = false) (shown : style.counts = false) :
    EndsBlank (showMatches style "" found) ↔
      style.numbers = false ∧ EndsBlank (found.map Prod.snd) := by
  unfold EndsBlank showMatches
  rw [nameless, shown]
  simp only [Bool.false_eq_true, if_false, List.getLast?_map]
  cases found.getLast? with
  | none => simp
  | some pair => cases style.numbers <;> simp [String.append_eq_empty_iff]

/-- What `grep -c` counts is what `wc -l` counts behind `grep`, unless the last line found is blank
and shown as it is. -/
private theorem grep_counts_iff {script : String} {pattern : Pattern}
    (given : (parseOptions [] args).operands = [script])
    (shown : (parseOptions [] args).has 'c' = false)
    (compiled : Pattern.compile (caseFlags ((parseOptions [] args).has 'i')) script = .ok pattern)
    (found : matchingLines pattern ((parseOptions [] args).has 'v') text ≠ []) :
    ∃ counted piped recounted, Prints caller workspace .grep ("-c" :: args) text counted ∧
      Prints caller workspace .grep args text piped ∧
      Prints caller workspace .wc ["-l"] piped recounted ∧
      (counted = recounted ↔ ¬ ((parseOptions [] args).has 'n' = false ∧ EndsBlank
        ((matchingLines pattern ((parseOptions [] args).has 'v') text).map Prod.snd))) := by
  obtain ⟨operands, letters⟩ := parseOptions_counting args
  have kept : ∀ letter, letter ≠ 'c' →
      (parseOptions [] ("-c" :: args)).has letter = (parseOptions [] args).has letter := by
    intro letter other
    simp [letters, other]
  have counts : Prints caller workspace .grep ("-c" :: args) text (unlines (showMatches
      (grepStyle (parseOptions [] ("-c" :: args)) []) ""
      (matchingLines pattern ((parseOptions [] args).has 'v') text))) := by
    rw [← kept 'v' (by decide)]
    apply grep_prints (operands.trans given)
    · rw [kept 'i' (by decide)]
      exact compiled
    · rw [kept 'v' (by decide)]
      exact found
  refine ⟨_, _, _, counts, grep_prints given compiled found, wc_prints, ?_⟩
  set all := matchingLines pattern ((parseOptions [] args).has 'v') text
  have counted : unlines (showMatches (grepStyle (parseOptions [] ("-c" :: args)) []) "" all) =
      toString all.length := by
    have style : (grepStyle (parseOptions [] ("-c" :: args)) []).counts = true := by
      simp [grepStyle, letters]
    have nameless : (grepStyle (parseOptions [] ("-c" :: args)) []).names = false := rfl
    rw [showMatches, if_pos style, nameless, unlines_singleton]
    exact String.empty_append
  have whole : ∀ line ∈ showMatches (grepStyle (parseOptions [] args) []) "" all, Whole line :=
    fun line member => whole_of_mem_showMatches rfl
      (fun pair inside => whole_of_mem_lines (mem_of_mem_matchingLines inside)) member
  have length : (showMatches (grepStyle (parseOptions [] args) []) "" all).length = all.length := by
    rw [showMatches, if_neg (by simp [grepStyle, shown]), List.length_map]
  have ends : EndsBlank (showMatches (grepStyle (parseOptions [] args) []) "" all) ↔
      (parseOptions [] args).has 'n' = false ∧ EndsBlank (all.map Prod.snd) :=
    endsBlank_showMatches rfl shown
  rw [counted, toString_inj, ← length, eq_comm, length_lines_unlines_eq_iff whole, ends]

/-- Sorting keeps the number of lines, unless a blank one comes last. -/
private theorem sort_counts_iff (given : (parseOptions [] args).operands = [])
    (repeated : (parseOptions [] args).has 'u' = false) :
    ∃ counted piped recounted, Prints caller workspace .wc ["-l"] text counted ∧
      Prints caller workspace .sort args text piped ∧
      Prints caller workspace .wc ["-l"] piped recounted ∧
      (counted = recounted ↔ ¬ EndsBlank (sortLines ((parseOptions [] args).has 'n')
        ((parseOptions [] args).has 'r') (lines text))) := by
  set sorted := sortLines ((parseOptions [] args).has 'n') ((parseOptions [] args).has 'r')
    (lines text)
  have printed : Prints caller workspace .sort args text (unlines sorted) := by
    have all := @sort_prints caller workspace args text given
    rwa [repeated, if_neg Bool.false_ne_true] at all
  have whole : ∀ line ∈ sorted, Whole line :=
    fun line member => whole_of_mem_lines ((sortLines_perm _ _ _).mem_iff.mp member)
  have length : sorted.length = (lines text).length := (sortLines_perm _ _ _).length_eq
  refine ⟨_, _, _, wc_prints, printed, wc_prints, ?_⟩
  rw [toString_inj, ← length, eq_comm, length_lines_unlines_eq_iff whole]

private theorem rel_getLast {R : String → String → Prop} {ls : List String} {last : String}
    (ordered : ls.Pairwise R) (ends : ls.getLast? = some last) :
    ∀ line ∈ ls, line = last ∨ R line last := by
  obtain ⟨before, rfl⟩ := List.getLast?_eq_some_iff.mp ends
  intro line member
  rcases List.mem_append.mp member with here | there
  · exact .inr ((List.pairwise_append.mp ordered).2.2 line here last (List.mem_singleton_self _))
  · exact .inl (List.mem_singleton.mp there)

/-- The blank line comes before all others. -/
private theorem le_empty_iff {line : String} : line ≤ "" ↔ line = "" := by
  constructor
  · intro below
    have least : "" ≤ line := String.not_lt.mp (List.not_lt_nil line.toList)
    exact String.le_antisymm below least
  · rintro rfl
    exact String.le_refl _

theorem sortLines_ordered (reverse : Bool) (ls : List String) :
    (sortLines false reverse ls).Pairwise
      fun first second => if reverse then second ≤ first else first ≤ second := by
  cases reverse with
  | true =>
    refine (List.pairwise_mergeSort (fun a b c => ?_) (fun a b => ?_) ls).imp fun rel => ?_
    · simp only [if_true, decide_eq_true_eq]
      exact fun first second => String.le_trans second first
    · simpa using String.le_total b a
    · simpa using rel
  | false =>
    refine (List.pairwise_mergeSort (fun a b c => ?_) (fun a b => ?_) ls).imp fun rel => ?_
    · simp only [Bool.false_eq_true, if_false, decide_eq_true_eq]
      exact String.le_trans
    · simpa using String.le_total a b
    · simpa using rel

/-- A blank line comes last among texts in their order if there is nothing else, and in the reverse
order wherever there is one. -/
theorem endsBlank_sortLines_iff {reverse : Bool} {ls : List String} :
    EndsBlank (sortLines false reverse ls) ↔
      if reverse then "" ∈ ls else ls ≠ [] ∧ ∀ line ∈ ls, line = "" := by
  have among : ∀ line, line ∈ sortLines false reverse ls ↔ line ∈ ls :=
    fun line => (sortLines_perm false reverse ls).mem_iff
  have some_iff : sortLines false reverse ls = [] ↔ ls = [] := by
    rw [← List.length_eq_zero_iff, (sortLines_perm false reverse ls).length_eq,
      List.length_eq_zero_iff]
  have ordered := sortLines_ordered reverse ls
  cases reverse with
  | true =>
    simp only [if_true] at ordered ⊢
    constructor
    · exact fun blank => (among _).mp (List.mem_of_getLast? blank)
    · intro member
      have inside := (among _).mpr member
      cases ends : (sortLines false true ls).getLast? with
      | none =>
        rw [List.getLast?_eq_none_iff.mp ends] at inside
        cases inside
      | some last =>
        rw [EndsBlank, ends]
        obtain rfl | below := rel_getLast ordered ends "" inside
        · rfl
        · rw [le_empty_iff.mp below]
  | false =>
    simp only [Bool.false_eq_true, if_false] at ordered ⊢
    constructor
    · intro blank
      refine ⟨fun none => ?_, fun line member => ?_⟩
      · rw [EndsBlank, some_iff.mpr none] at blank
        cases blank
      · obtain same | below := rel_getLast ordered blank line ((among _).mpr member)
        · exact same
        · exact le_empty_iff.mp below
    · rintro ⟨some, blank⟩
      cases ends : (sortLines false false ls).getLast? with
      | none => exact absurd (some_iff.mp (List.getLast?_eq_none_iff.mp ends)) some
      | some last =>
        rw [EndsBlank, ends, blank last ((among _).mp (List.mem_of_getLast? ends))]

/-! ## Pipes -/

/-- The next stage sees the lines that a filter has come to exactly if they are whole and the last
one is not blank; where the filter adds nothing of its own it loses at most that blank line. What is
counted behind `grep` and behind `sort` is right in the same cases. -/
theorem piped_lines_iff (reachable : Reachable Snapshot.Keyed workspace.machine) :
    (∀ (filter : Filter) (args : List String) (stdin : Option String) (outcome : Outcome),
      (run (.builtin filter.builtin) args stdin caller workspace).1 = .ok outcome →
      outcome.code = 0 → (filter = .grep → (parseOptions [] args).has 'c' = false) →
      ∃ selected,
        (∀ others, Leaves workspace caller.user args stdin filter others ↔ others = selected) ∧
        (lines outcome.output = selected ↔
          (∀ line ∈ selected, Whole line) ∧ ¬ EndsBlank selected) ∧
        (¬ filter.Adds args → lines outcome.output =
          if EndsBlank selected then selected.dropLast else selected)) ∧
    (∀ (args : List String) (text script : String) (pattern : Pattern),
      (parseOptions [] args).operands = [script] → (parseOptions [] args).has 'c' = false →
      Pattern.compile (caseFlags ((parseOptions [] args).has 'i')) script = .ok pattern →
      matchingLines pattern ((parseOptions [] args).has 'v') text ≠ [] →
      ∃ counted piped recounted, Prints caller workspace .grep ("-c" :: args) text counted ∧
        Prints caller workspace .grep args text piped ∧
        Prints caller workspace .wc ["-l"] piped recounted ∧
        (counted = recounted ↔ ¬ ((parseOptions [] args).has 'n' = false ∧ EndsBlank
          ((matchingLines pattern ((parseOptions [] args).has 'v') text).map Prod.snd)))) ∧
    ∀ (args : List String) (text : String),
      (parseOptions [] args).operands = [] → (parseOptions [] args).has 'u' = false →
      ∃ counted piped recounted, Prints caller workspace .wc ["-l"] text counted ∧
        Prints caller workspace .sort args text piped ∧
        Prints caller workspace .wc ["-l"] piped recounted ∧
        (counted = recounted ↔ ¬ EndsBlank (sortLines ((parseOptions [] args).has 'n')
          ((parseOptions [] args).has 'r') (lines text))) := by
  refine ⟨?_, ?_, ?_⟩
  · intro filter args stdin outcome ran succeeded shown
    obtain ⟨selected, leaves, rfl⟩ := leaves_of_succeeds reachable ran succeeded shown
    refine ⟨selected, fun others => ⟨fun also => also.unique leaves, ?_⟩, lines_unlines_eq_iff, ?_⟩
    · rintro rfl
      exact leaves
    · exact fun plain => lines_unlines (leaves.whole plain)
  · intro args text script pattern given shown compiled found
    exact grep_counts_iff given shown compiled found
  · intro args text given repeated
    exact sort_counts_iff given repeated

/-- A caller for whom no names are registered. -/
def bystander : Caller Command := ⟨"guest", none, "host"⟩

/-- In the reverse order a blank line comes last and is not counted. -/
theorem piped_blank_uncounted :
    Reachable Snapshot.Keyed (plainWorkspace sharedMachine).machine ∧
    ∃ counted piped recounted,
      Prints bystander (plainWorkspace sharedMachine) .wc ["-l"] "\na" counted ∧
      Prints bystander (plainWorkspace sharedMachine) .sort ["-r"] "\na" piped ∧
      Prints bystander (plainWorkspace sharedMachine) .wc ["-l"] piped recounted ∧
      counted ≠ recounted := by
  have reachable : Reachable Snapshot.Keyed (plainWorkspace sharedMachine).machine :=
    sharedMachine_reachable _
  obtain ⟨-, -, sorts⟩ := @piped_lines_iff bystander _ reachable
  obtain ⟨counted, piped, recounted, first, second, third, same⟩ :=
    sorts ["-r"] "\na" (by decide) (by decide)
  have blank : EndsBlank (sortLines false true (lines "\na")) :=
    endsBlank_sortLines_iff.mpr (by decide)
  exact ⟨reachable, counted, piped, recounted, first, second, third,
    fun equal => same.mp equal blank⟩

/-- The blank line of a text is lost when it is sorted; the next stage sees none and counts none. -/
theorem blank_line_lost :
    Prints bystander (plainWorkspace sharedMachine) .wc ["-l"] "\n" "1" ∧
    Prints bystander (plainWorkspace sharedMachine) .sort [] "\n" "" ∧
    Prints bystander (plainWorkspace sharedMachine) .wc ["-l"] "" "0" ∧
    Leaves (plainWorkspace sharedMachine) bystander.user [] (some "\n") .sort [""] ∧
    lines "" ≠ [""] := by
  have sorted : sortLines false false (lines "\n") = [""] := by
    have single : lines "\n" = [""] := by decide
    rw [single]
    exact List.mergeSort_singleton _
  have printed : Prints bystander (plainWorkspace sharedMachine) .sort [] "\n" "" := by
    have run : Prints bystander (plainWorkspace sharedMachine) .sort [] "\n"
        (unlines (sortLines false false (lines "\n"))) := rfl
    rw [sorted] at run
    exact run
  have leaves : Leaves (plainWorkspace sharedMachine) bystander.user [] (some "\n") .sort
      (sortLines false false (lines "\n")) := .sort rfl
  rw [sorted] at leaves
  exact ⟨rfl, printed, rfl, leaves, by decide⟩

end PocketShell.Command
