import PocketShell.Proofs.Shell.BreakingFiles
import PocketShell.Proofs.Text.Lines

/-! What a filter hands to the next stage of a pipeline. Each filter comes to a list of lines and
puts them together without an end behind the last one, so the next stage sees the same lines unless
the last one is blank or one of them holds a line end; only replacements and names of files can
bring such an end in. -/
namespace PocketShell.Command

open Shell Text

variable {β : Type} {caller : Caller Command} {workspace : Workspace} {stdin : Option String}
  {args files : List String} {outcome : Outcome}

/-- The commands that choose, order or change the lines of their input. -/
inductive Filter
  | grep | head | tail | sort | uniq | sed | cut
  deriving DecidableEq

/-- The standard command of a filter. -/
def Filter.builtin : Filter → Builtin
  | .grep => .grep
  | .head => .head
  | .tail => .tail
  | .sort => .sort
  | .uniq => .uniq
  | .sed => .sed
  | .cut => .cut

/-- What a search goes through: files by name, if every one can be read, or the standard input
without any. -/
def sourcesOf? (workspace : Workspace) (user : String) (files : List String)
    (stdin : Option String) : Option (List (String × String)) :=
  if files.isEmpty then some [("", stdin.getD "")]
  else files.mapM fun name => (workspace.contentOf? user stdin name).map (name, ·)

/-- How a search shows what it finds, by its options and the number of its files. -/
def grepStyle (options : Options) (files : List String) : GrepStyle :=
  ⟨options.has 'v', options.has 'c', options.has 'n', 1 < files.length⟩

/-- The lines that `uniq` makes of runs of equal lines. -/
def uniqLines (options : Options) (lines : List String) : List String :=
  ((if options.has 'd' then (runs lines).filter fun (_, count) => 1 < count else runs lines)).map
    fun (line, count) =>
      if options.has 'c' then s!"{Text.padLeft 7 (toString count)} {line}" else line

/-- The lines that a filter comes to, by its arguments and what it reads. -/
inductive Leaves (workspace : Workspace) (user : String) (args : List String)
    (stdin : Option String) : Filter → List String → Prop
  | grep {script : String} {files : List String} {pattern : Pattern}
      {sources : List (String × String)}
      (given : (parseOptions [] args).operands = script :: files)
      (compiled : Pattern.compile (caseFlags ((parseOptions [] args).has 'i')) script = .ok pattern)
      (input : sourcesOf? workspace user files stdin = some sources) :
      Leaves workspace user args stdin .grep (sources.flatMap fun (name, text) =>
        showMatches (grepStyle (parseOptions [] args) files) name
          (matchingLines pattern ((parseOptions [] args).has 'v') text))
  | head {count : Nat} {text : String}
      (number : lineCount "head" (parseOptions ['n'] args) = .ok count)
      (input : workspace.inputOf? user (parseOptions ['n'] args).operands stdin = some text) :
      Leaves workspace user args stdin .head ((lines text).take count)
  | tail {count : Nat} {text : String}
      (number : lineCount "tail" (parseOptions ['n'] args) = .ok count)
      (input : workspace.inputOf? user (parseOptions ['n'] args).operands stdin = some text) :
      Leaves workspace user args stdin .tail ((lines text).drop ((lines text).length - count))
  | sort {text : String}
      (input : workspace.inputOf? user (parseOptions [] args).operands stdin = some text) :
      Leaves workspace user args stdin .sort
        (sortLines ((parseOptions [] args).has 'n') ((parseOptions [] args).has 'r')
          (if (parseOptions [] args).has 'u' then distinct (lines text) else lines text))
  | uniq {text : String}
      (input : workspace.inputOf? user (parseOptions [] args).operands stdin = some text) :
      Leaves workspace user args stdin .uniq (uniqLines (parseOptions [] args) (lines text))
  | sed {script text : String} {files selected : List String} {edit : Substitution}
      {pattern : Pattern} (given : scriptAndFiles? (parseOptions ['e'] args) = some (script, files))
      (read : Substitution.read? script = some edit)
      (compiled : Pattern.compile (caseFlags edit.ignoreCase) edit.pattern = .ok pattern)
      (input : workspace.inputOf? user files stdin = some text)
      (changed : substitute pattern edit.replacement edit.all (lines text) = .ok selected) :
      Leaves workspace user args stdin .sed selected
  | cut {list text : String} {selected : List String}
      (chosen : (parseOptions ['d', 'f'] args).value? 'f' = some list)
      (single : (((parseOptions ['d', 'f'] args).value? 'd').getD "\t").length = 1)
      (input : workspace.inputOf? user (parseOptions ['d', 'f'] args).operands stdin = some text)
      (fields : (lines text).mapM
        (cutLine (((parseOptions ['d', 'f'] args).value? 'd').getD "\t") list) = .ok selected) :
      Leaves workspace user args stdin .cut selected

/-! ## Reading the input -/

/-- What the answers to arguments bring together. -/
private def collected (answer : String → Except String β) : List String → Gathered β
  | [] => ⟨[], []⟩
  | arg :: rest => (collected answer rest).collect (answer arg)

/-- Where no error is gathered every answer has brought something. -/
private theorem mapM_of_collected {answer : String → Except String β} {values : List β}
    (whole : collected answer args = ⟨values, []⟩) :
    args.mapM (fun arg => (answer arg).toOption) = some values := by
  induction args generalizing values with
  | nil =>
    cases whole
    rfl
  | cons arg rest ih =>
    rw [collected] at whole
    rw [List.mapM_cons]
    cases behind : collected answer rest with
    | mk others errors =>
      rw [behind] at whole
      cases brought : answer arg with
      | error reason =>
        rw [brought] at whole
        cases whole
      | ok value =>
        rw [brought] at whole
        cases whole
        rw [ih behind]
        rfl

/-- One file of a search. -/
private def searched (stdin : Option String) (name : String) :
    Run Command (Except String (String × String)) := do
  let result ← readArg stdin name
  return (explain (fun reason => s!"grep: {name}: {reason.message}") result).map (name, ·)

private theorem readPattern_refuses {ignoreCase : Bool} {wording : String → Outcome}
    {text : String} {failure : Outcome}
    (refused : readPattern ignoreCase wording text = .ok (.error failure)) :
    ∃ message, failure = wording message := by
  unfold readPattern at refused
  cases compiled : Pattern.compile (caseFlags ignoreCase) text with
  | ok pattern =>
    rw [compiled] at refused
    cases refused
  | error reason =>
    rw [compiled] at refused
    cases reason with
    | refused error =>
      cases refused
      exact ⟨_, rfl⟩
    | fault fault => cases refused

private theorem code_of_cutLine {delimiter list : String} {ls : List String} {failure : Outcome}
    (refused : ls.mapM (cutLine delimiter list) = .error failure) : failure.code = 1 := by
  induction ls with
  | nil => cases refused
  | cons line rest ih =>
    rw [List.mapM_cons, bind_eq_error] at refused
    obtain here | ⟨first, -, further⟩ := refused
    · unfold cutLine at here
      split at here
      · cases here
      · dsimp only at here
        split at here
        · cases here
          rfl
        · cases here
    · obtain there | ⟨others, -, never⟩ := bind_eq_error.mp further
      · exact ih there
      · cases never

section Reading

variable (reachable : Reachable Snapshot.Keyed workspace.machine)

include reachable

/-- An argument that cannot be read makes the command fail. -/
private theorem code_of_readArgs {command : String} {failure : Outcome}
    (refused : (readArgs command stdin args caller workspace).1 = .ok (.error failure)) :
    failure.code = 1 := by
  induction args with
  | nil => cases refused
  | cons arg rest ih =>
    unfold readArgs at refused
    rw [(readArg_looks arg).result_bind ?acts reachable] at refused
    case acts =>
      intro result
      cases result with
      | error reason => exact .pure _
      | ok content => exact (readArgs_completes command rest).acts.bind fun _ => .pure _
    obtain ⟨result, read, second⟩ := bind_eq_ok.mp refused
    cases result with
    | error reason =>
      cases second
      rfl
    | ok content =>
      obtain ⟨others, further, last⟩ : ∃ others,
          (readArgs command stdin rest caller workspace).1 = .ok others ∧
            others.map (content :: ·) = .error failure := by
        change ((readArgs command stdin rest >>= fun others => pure (others.map (content :: ·)))
          caller workspace).1 = _ at second
        rw [(readArgs_looks command rest).result_bind (fun _ => .pure _) reachable] at second
        obtain ⟨others, further, last⟩ := bind_eq_ok.mp second
        exact ⟨others, further, Except.ok.inj last⟩
      cases others with
      | error other =>
        cases last
        exact ih further
      | ok contents => cases last

/-- A command that succeeds has read its input and worked on it. -/
private theorem withInput_succeeds {command : String} {work : String → Job}
    (acts : ∀ text, Acts (work text))
    (ran : (withInput command files stdin work caller workspace).1 = .ok outcome)
    (succeeded : outcome.code = 0) :
    ∃ text, workspace.inputOf? caller.user files stdin = some text ∧
      (work text caller workspace).1 = .ok outcome := by
  unfold withInput at ran
  unfold Workspace.inputOf?
  split at ran
  · rename_i without
    rw [if_pos without]
    exact ⟨_, rfl, ran⟩
  · rename_i named
    rw [if_neg named]
    obtain ⟨result, read, contents⟩ : ∃ result,
      (readArgs command stdin files caller workspace).1 = .ok result ∧ _ :=
        readArgs_result reachable command files
    rw [(readArgs_looks command files).result_bind ?acts reachable, read] at ran
    case acts =>
      intro result
      cases result with
      | error failure => exact .pure _
      | ok contents => exact acts _
    rw [← contents]
    cases result with
    | error failure =>
      cases ran
      rw [code_of_readArgs reachable read] at succeeded
      cases succeeded
    | ok contents => exact ⟨_, rfl, ran⟩

/-- A filter that succeeds has come to lines. -/
private theorem filterLines_succeeds {command : String}
    {work : List String → Except Outcome (List String)}
    (refuses : ∀ ls failure, work ls = .error failure → failure.code = 1)
    (ran : (filterLines command files stdin work caller workspace).1 = .ok outcome)
    (succeeded : outcome.code = 0) :
    ∃ text selected, workspace.inputOf? caller.user files stdin = some text ∧
      work (lines text) = .ok selected ∧ outcome = .text (unlines selected) := by
  unfold filterLines at ran
  have reads := withInput_succeeds reachable (by
    intro text
    cases work (lines text) <;> exact .pure _) ran succeeded
  obtain ⟨text, input, result⟩ := reads
  cases worked : work (lines text) with
  | error failure =>
    rw [worked] at result
    cases result
    rw [refuses _ _ worked] at succeeded
    cases succeeded
  | ok selected =>
    rw [worked] at result
    cases result
    exact ⟨text, selected, input, worked, rfl⟩

/-- Steps that only look bring together what each brings by itself. -/
private theorem gather_result {step : String → Run Command (Except String β)}
    {answer : String → Except String β} (looks : ∀ arg, Looks (step arg))
    (answers : ∀ arg, (step arg caller workspace).1 = .ok (answer arg)) :
    (gather step args caller workspace).1 =
      .ok (collected answer args) := by
  induction args with
  | nil => rfl
  | cons arg rest ih =>
    have acts : ∀ result, Acts (gather step rest >>= fun gathered =>
        pure (gathered.collect result)) := fun result =>
      (gather_composes Acts.composes (fun arg => (looks arg).acts) rest).bind fun _ => .pure _
    rw [gather_cons, (looks arg).result_bind acts reachable, answers]
    change ((gather step rest >>= fun gathered => pure (gathered.collect (answer arg)))
      caller workspace).1 = _
    have looksRest : Looks (gather step rest) :=
      gather_composes ⟨Looks.pure, Looks.bind⟩ looks rest
    rw [looksRest.result_bind (fun _ => .pure _) reachable, ih]
    rfl

/-- A search that meets no error goes through all its sources. -/
private theorem grepSources_succeeds {sources : List (String × String)}
    (ran : (grepSources files stdin caller workspace).1 = .ok ⟨sources, []⟩) :
    sourcesOf? workspace caller.user files stdin = some sources := by
  unfold grepSources at ran
  unfold sourcesOf?
  split at ran
  · rename_i without
    rw [if_pos without]
    cases ran
    rfl
  · rename_i named
    rw [if_neg named]
    have each : ∀ name, ∃ answer, (searched stdin name caller workspace).1 = .ok answer ∧
        answer.toOption = (workspace.contentOf? caller.user stdin name).map (name, ·) := by
      intro name
      obtain ⟨result, read, content⟩ : ∃ result,
        (readArg stdin name caller workspace).1 = .ok result ∧ _ := readArg_result reachable name
      unfold searched
      rw [(readArg_looks name).result_bind (fun _ => .pure _) reachable, read, ← content]
      refine ⟨_, rfl, ?_⟩
      cases result <;> rfl
    choose answer answers contents using each
    have looks : ∀ name, Looks (searched stdin name) :=
      fun name => (readArg_looks name).bind fun _ => .pure _
    have gathered := (gather_result reachable looks answers).symm.trans ran
    simp only [← contents]
    exact mapM_of_collected (Except.ok.inj gathered)

/-! ## What comes of the filters -/

private theorem grep_succeeds (ran : (grep args stdin caller workspace).1 = .ok outcome)
    (succeeded : outcome.code = 0) : ∃ selected,
      Leaves workspace caller.user args stdin .grep selected ∧
        outcome = .text (unlines selected) := by
  unfold grep at ran
  dsimp only at ran
  cases given : (parseOptions [] args).operands with
  | nil =>
    rw [given] at ran
    cases ran
    cases succeeded
  | cons script files =>
    rw [given] at ran
    dsimp only at ran
    rw [result_lift_bind] at ran
    obtain ⟨result, compiled, ran⟩ := bind_eq_ok.mp ran
    cases result with
    | error failure =>
      obtain ⟨message, rfl⟩ := readPattern_refuses compiled
      cases ran
      cases succeeded
    | ok pattern =>
      rw [readPattern_eq_ok] at compiled
      dsimp only at ran
      rw [Task.bind_run] at ran
      generalize searched_ : grepSources files stdin caller workspace = found at ran
      obtain ⟨result, after⟩ := found
      cases result with
      | error fault => cases ran
      | ok gathered =>
        obtain ⟨sources, errors⟩ := gathered
        dsimp only at ran
        cases errors with
        | cons error more =>
          cases ran
          cases succeeded
        | nil =>
          cases ran
          refine ⟨_, .grep given compiled (grepSources_succeeds reachable (by rw [searched_])), ?_⟩
          dsimp only at succeeded
          rw [succeeded, List.flatMap_map]
          rfl

private theorem linePart_succeeds {command : String} {part : Nat → List String → List String}
    (ran : (linePart command part args stdin caller workspace).1 = .ok outcome)
    (succeeded : outcome.code = 0) : ∃ count text,
      lineCount command (parseOptions ['n'] args) = .ok count ∧
        workspace.inputOf? caller.user (parseOptions ['n'] args).operands stdin = some text ∧
        outcome = .text (unlines (part count (lines text))) := by
  unfold linePart at ran
  cases number : lineCount command (parseOptions ['n'] args) with
  | error failure =>
    rw [number] at ran
    cases ran
    unfold lineCount at number
    dsimp only at number
    split at number
    · cases number
    · cases number
      cases succeeded
  | ok count =>
    rw [number] at ran
    obtain ⟨text, selected, input, worked, left⟩ :=
      filterLines_succeeds reachable (fun _ _ refused => by cases refused) ran succeeded
    cases worked
    exact ⟨count, text, rfl, input, left⟩

private theorem cut_succeeds (ran : (cut args stdin caller workspace).1 = .ok outcome)
    (succeeded : outcome.code = 0) : ∃ selected,
      Leaves workspace caller.user args stdin .cut selected ∧
        outcome = .text (unlines selected) := by
  unfold cut at ran
  cases chosen : (parseOptions ['d', 'f'] args).value? 'f' with
  | none =>
    rw [chosen] at ran
    cases ran
    cases succeeded
  | some list =>
    rw [chosen] at ran
    dsimp only at ran
    split at ran
    · cases ran
      cases succeeded
    · rename_i single
      obtain ⟨text, selected, input, fields, left⟩ :=
        filterLines_succeeds reachable (fun _ _ => code_of_cutLine) ran succeeded
      exact ⟨selected, .cut chosen (by simpa using single) input fields, left⟩

/-- What the stream editor answers for the lines that it has read. -/
private def substituted (pattern : Pattern) (edit : Substitution) (ls : List String) : Job :=
  match substitute pattern edit.replacement edit.all ls with
  | .ok changed => return .text (unlines changed)
  | .error (.refused error) => return .fail "sed" (error.message edit.replacement)
  | .error (.fault fault) => throw fault

private theorem sed_succeeds (ran : (sed args stdin caller workspace).1 = .ok outcome)
    (succeeded : outcome.code = 0) : ∃ selected,
      Leaves workspace caller.user args stdin .sed selected ∧
        outcome = .text (unlines selected) := by
  unfold sed at ran
  cases given : scriptAndFiles? (parseOptions ['e'] args) with
  | none =>
    rw [given] at ran
    cases ran
    cases succeeded
  | some found =>
    obtain ⟨script, files⟩ := found
    rw [given] at ran
    dsimp only at ran
    cases read : Substitution.read? script with
    | none =>
      rw [read] at ran
      cases ran
      cases succeeded
    | some edit =>
      rw [read] at ran
      dsimp only at ran
      rw [result_lift_bind] at ran
      obtain ⟨result, compiled, ran⟩ := bind_eq_ok.mp ran
      cases result with
      | error failure =>
        obtain ⟨message, rfl⟩ := readPattern_refuses compiled
        cases ran
        cases succeeded
      | ok pattern =>
        rw [readPattern_eq_ok] at compiled
        have acts : ∀ text, Acts (substituted pattern edit (lines text)) := by
          intro text
          unfold substituted
          split
          · exact .pure _
          · exact .pure _
          · exact .throw _
        obtain ⟨text, input, worked⟩ := withInput_succeeds reachable acts ran succeeded
        unfold substituted at worked
        cases changed : substitute pattern edit.replacement edit.all (lines text) with
        | ok selected =>
          rw [changed] at worked
          cases worked
          exact ⟨selected, .sed given read compiled input changed, rfl⟩
        | error failure =>
          rw [changed] at worked
          cases failure with
          | refused error =>
            cases worked
            cases succeeded
          | fault fault => cases worked

/-- A filter that succeeds has come to lines and hands on these. -/
theorem leaves_of_succeeds {filter : Filter}
    (ran : (run (.builtin filter.builtin) args stdin caller workspace).1 = .ok outcome)
    (succeeded : outcome.code = 0)
    (shown : filter = .grep → (parseOptions [] args).has 'c' = false) : ∃ selected,
      Leaves workspace caller.user args stdin filter selected ∧
        outcome = .text (unlines selected) := by
  cases filter with
  | grep => exact grep_succeeds reachable ran succeeded
  | head =>
    obtain ⟨count, text, number, input, left⟩ := linePart_succeeds reachable ran succeeded
    exact ⟨_, .head number input, left⟩
  | tail =>
    obtain ⟨count, text, number, input, left⟩ := linePart_succeeds reachable ran succeeded
    exact ⟨_, .tail number input, left⟩
  | sort =>
    obtain ⟨text, selected, input, worked, left⟩ :=
      filterLines_succeeds reachable (fun _ _ refused => by cases refused) ran succeeded
    cases worked
    exact ⟨_, .sort input, left⟩
  | uniq =>
    obtain ⟨text, selected, input, worked, left⟩ :=
      filterLines_succeeds reachable (fun _ _ refused => by cases refused) ran succeeded
    cases worked
    exact ⟨_, .uniq input, left⟩
  | sed => exact sed_succeeds reachable ran succeeded
  | cut => exact cut_succeeds reachable ran succeeded

end Reading

/-- Arguments and input settle the lines. -/
theorem Leaves.unique {user : String} {filter : Filter} {selected others : List String}
    (leaves : Leaves workspace user args stdin filter selected)
    (also : Leaves workspace user args stdin filter others) : selected = others := by
  cases leaves with
  | grep given compiled input =>
    cases also with
    | grep given' compiled' input' =>
      cases given.symm.trans given'
      cases compiled.symm.trans compiled'
      cases input.symm.trans input'
      rfl
  | head number input =>
    cases also with
    | head number' input' =>
      cases number.symm.trans number'
      cases input.symm.trans input'
      rfl
  | tail number input =>
    cases also with
    | tail number' input' =>
      cases number.symm.trans number'
      cases input.symm.trans input'
      rfl
  | sort input =>
    cases also with
    | sort input' =>
      cases input.symm.trans input'
      rfl
  | uniq input =>
    cases also with
    | uniq input' =>
      cases input.symm.trans input'
      rfl
  | sed given read compiled input changed =>
    cases also with
    | sed given' read' compiled' input' changed' =>
      cases given.symm.trans given'
      cases read.symm.trans read'
      cases compiled.symm.trans compiled'
      cases input.symm.trans input'
      exact Except.ok.inj (changed.symm.trans changed')
  | cut chosen single input fields =>
    cases also with
    | cut chosen' single' input' fields' =>
      cases chosen.symm.trans chosen'
      cases input.symm.trans input'
      exact Except.ok.inj (fields.symm.trans fields')

/-! ## Lines that stay whole -/

/-- The filter puts into its lines what stands in none that it reads: a replacement, or names of
files. -/
def Filter.Adds (args : List String) : Filter → Prop
  | .sed => True
  | .grep => 2 < (parseOptions [] args).operands.length
  | _ => False

/-- One more line in front joins the first run, or makes a run of its own before it. -/
theorem runs_cons (line : String) (rest : List String) :
    (∃ count more, runs rest = (line, count) :: more ∧
      runs (line :: rest) = (line, count + 1) :: more) ∨
    ((∀ group ∈ (runs rest).head?, line ≠ group.1) ∧
      runs (line :: rest) = (line, 1) :: runs rest) := by
  rw [runs]
  cases behind : runs rest with
  | nil => exact .inr ⟨by simp, rfl⟩
  | cons next more =>
    obtain ⟨first, count⟩ := next
    by_cases same : line = first
    · subst same
      exact .inl ⟨count, more, rfl, if_pos rfl⟩
    · exact .inr ⟨by simpa using same, if_neg same⟩

theorem mem_of_mem_runs {ls : List String} : ∀ run ∈ runs ls, run.1 ∈ ls := by
  induction ls with
  | nil => nofun
  | cons line rest ih =>
    obtain ⟨count, more, behind, front⟩ | ⟨-, front⟩ := runs_cons line rest
    · rw [behind] at ih
      rw [front]
      refine List.forall_mem_cons.mpr ⟨List.mem_cons_self, fun run member => ?_⟩
      exact List.mem_cons_of_mem _ ((List.forall_mem_cons.mp ih).2 run member)
    · rw [front]
      refine List.forall_mem_cons.mpr ⟨List.mem_cons_self, fun run member => ?_⟩
      exact List.mem_cons_of_mem _ (ih run member)

/-- Ordering lines neither adds nor loses one. -/
theorem sortLines_perm (numeric reverse : Bool) (ls : List String) :
    (sortLines numeric reverse ls).Perm ls := by
  unfold sortLines
  split
  · have keyed : (ls.map fun line => (numericKey line, line)).map Prod.snd = ls := by
      rw [List.map_map]
      exact List.map_id _
    exact ((List.mergeSort_perm _ _).map _).trans (.of_eq keyed)
  · exact List.mergeSort_perm _ _

private theorem whole_of_cutLine {delimiter list line fields : String} (whole : Whole line)
    (cut : cutLine delimiter list line = .ok fields) : Whole fields := by
  unfold cutLine at cut
  split at cut
  · cases cut
    exact whole
  · rename_i occurs
    dsimp only at cut
    split at cut
    · cases cut
    · cases cut
      have inside : occursIn delimiter line = true := by simpa using occurs
      refine (whole.of_mem (mem_of_occursIn inside)).intercalate fun field member => ?_
      obtain ⟨place, -, found⟩ := List.mem_filterMap.mp member
      exact whole.of_mem (mem_of_mem_splitOn (List.mem_of_getElem? found))

theorem mem_of_mem_matchingLines {pattern : Pattern} {invert : Bool} {text : String}
    {found : Nat × String} (member : found ∈ matchingLines pattern invert text) :
    found.2 ∈ lines text := by
  obtain ⟨pair, inside, rfl⟩ := List.mem_map.mp member
  exact List.fst_mem_of_mem_zipIdx (List.mem_filter.mp inside).1

theorem whole_of_mem_showMatches {style : GrepStyle} {name line : String}
    {found : List (Nat × String)} (nameless : style.names = false)
    (whole : ∀ pair ∈ found, Whole pair.2) (member : line ∈ showMatches style name found) :
    Whole line := by
  have colon : Whole ":" := whole_of_single rfl rfl
  unfold showMatches at member
  rw [nameless] at member
  dsimp only at member
  split at member
  · rw [List.mem_singleton.mp member]
    exact whole_empty.append (whole_toString _)
  · obtain ⟨pair, inside, rfl⟩ := List.mem_map.mp member
    refine (whole_empty.append ?_).append (whole pair inside)
    split
    · exact (whole_toString _).append colon
    · exact whole_empty

private theorem whole_of_mem_uniqLines {options : Options} {ls : List String} {line : String}
    (whole : ∀ line ∈ ls, Whole line) (member : line ∈ uniqLines options ls) : Whole line := by
  obtain ⟨⟨first, count⟩, inside, rfl⟩ := List.mem_map.mp member
  have among : (first, count) ∈ runs ls := by
    split at inside
    · exact (List.mem_filter.mp inside).1
    · exact inside
  have here : Whole first := whole first (mem_of_mem_runs _ among)
  have space : Whole " " := whole_of_single rfl rfl
  dsimp only
  split
  · exact (((whole_toString _).padLeft _).append space).append here
  · exact here

/-- A filter that adds nothing of its own hands on whole lines. -/
theorem Leaves.whole {user : String} {filter : Filter} {selected : List String}
    (leaves : Leaves workspace user args stdin filter selected) (plain : ¬ filter.Adds args) :
    ∀ line ∈ selected, Whole line := by
  cases leaves with
  | grep given compiled input =>
    rename_i files pattern sources
    have nameless : (grepStyle (parseOptions [] args) files).names = false := by
      rw [Filter.Adds, given, List.length_cons] at plain
      simp only [grepStyle, decide_eq_false_iff_not]
      omega
    intro line member
    obtain ⟨source, -, shown⟩ := List.mem_flatMap.mp member
    refine whole_of_mem_showMatches nameless (fun pair found => ?_) shown
    exact whole_of_mem_lines (mem_of_mem_matchingLines found)
  | head number input => exact fun line member => whole_of_mem_lines (List.mem_of_mem_take member)
  | tail number input => exact fun line member => whole_of_mem_lines (List.mem_of_mem_drop member)
  | sort input =>
    intro line member
    have within := (sortLines_perm _ _ _).mem_iff.mp member
    split at within
    · exact whole_of_mem_lines (List.mem_eraseDups.mp within)
    · exact whole_of_mem_lines within
  | uniq input =>
    exact fun line member => whole_of_mem_uniqLines (fun _ => whole_of_mem_lines) member
  | sed => exact absurd trivial plain
  | cut chosen single input fields =>
    intro line member
    obtain ⟨before, inside, cut⟩ := exists_of_mapM_ok fields line member
    exact whole_of_cutLine (whole_of_mem_lines inside) cut

end PocketShell.Command
