import PocketShell.Proofs.Shell.Filtering
import PocketShell.Proofs.Text.Seams

/-! Commands that are fed several files. What is printed or worked on is the contents with a newline
between neighbours, whatever they end in, so the lines of a file that ends in a newline, or that is
empty, are followed by a blank one if another file comes behind it. -/
namespace PocketShell.Command

open Shell Text

variable {β : Type} {caller : Caller Command} {workspace : Workspace} {stdin : Option String}
  {files contents : List String}

/-- The files can be read, and hold the contents. -/
def Hold (workspace : Workspace) (user : String) (stdin : Option String)
    (files contents : List String) : Prop :=
  List.Forall₂ (fun file content => workspace.contentOf? user stdin file = some content)
    files contents

/-- Asked for nothing but the lines of files, `wc` prints a number, and behind it the name of a file
that is alone. -/
def CountsLines (caller : Caller Command) (workspace : Workspace) (stdin : Option String)
    (files : List String) (count : Nat) : Prop :=
  ∀ args, (parseOptions [] args).operands = files → (parseOptions [] args).has 'l' = true →
    (parseOptions [] args).has 'w' = false → (parseOptions [] args).has 'c' = false →
    run (.builtin .wc) args stdin caller workspace = (.ok (.text (match files with
      | [name] => s!"{count} {name}"
      | _ => toString count)), workspace)

/-- Steps that all bring a value and change nothing bring their values together. -/
private theorem gather_run {step : String → Run Command (Except String β)} {args : List String}
    {values : List β} (steps : List.Forall₂ (fun arg value =>
      step arg caller workspace = (.ok (.ok value), workspace)) args values) :
    gather step args caller workspace = (.ok ⟨values, []⟩, workspace) := by
  induction steps with
  | nil => rfl
  | cons first _ ih =>
    rw [gather_cons, Task.bind_run, first]
    dsimp only
    rw [Task.bind_run, ih]
    rfl

section Reading

variable (reachable : Reachable Snapshot.Keyed workspace.machine)

include reachable

/-- Who reads what can be read leaves everything as it is. -/
private theorem readArg_run {arg content : String}
    (holds : workspace.contentOf? caller.user stdin arg = some content) :
    readArg stdin arg caller workspace = (.ok (.ok content), workspace) := by
  unfold Workspace.contentOf? at holds
  unfold readArg
  split at holds
  · rename_i hyphen
    cases holds
    rw [if_pos hyphen]
    rfl
  · rename_i named
    rw [if_neg named, Run.path_bind_run, Run.fs_run]
    have linked := (reachable.sound Snapshot.keyed_closed).linked
    unfold Workspace.answer at holds
    unfold Machine.ask Machine.perform at holds ⊢
    obtain ⟨result, ran, -⟩ := Fs.readText_reads linked (workspace.pathOf arg)
    rw [ran] at holds ⊢
    cases result with
    | error failure => cases failure <;> cases holds
    | ok value =>
      cases holds
      rfl

private theorem readArgs_run {command : String}
    (hold : Hold workspace caller.user stdin files contents) :
    readArgs command stdin files caller workspace = (.ok (.ok contents), workspace) := by
  induction hold with
  | nil => rfl
  | cons first _ ih =>
    unfold readArgs
    rw [Task.bind_run, readArg_run reachable first]
    dsimp only
    rw [Task.bind_run, ih]
    rfl

private theorem withInput_run {command : String} {work : String → Job} (named : files ≠ [])
    (hold : Hold workspace caller.user stdin files contents) :
    withInput command files stdin work caller workspace =
      work (unlines contents) caller workspace := by
  unfold withInput
  rw [if_neg (by simpa using named), Task.bind_run, readArgs_run reachable hold]

private theorem cat_run (named : files ≠ [])
    (hold : Hold workspace caller.user stdin files contents) :
    run (.builtin .cat) files stdin caller workspace =
      (.ok (.text (unlines contents)), workspace) := by
  change cat files stdin caller workspace = _
  unfold cat
  have steps : List.Forall₂ (fun file content =>
      (readArg stdin file >>= fun found =>
        pure (explain (fun reason => s!"cat: {file}: {reason.message}") found)) caller workspace =
          (.ok (.ok content), workspace)) files contents := by
    refine hold.imp fun file content holds => ?_
    rw [Task.bind_run, readArg_run reachable holds]
    rfl
  rw [if_neg (by simpa using named), Task.bind_run, gather_run steps]
  rfl

private theorem countsLines (named : files ≠ [])
    (hold : Hold workspace caller.user stdin files contents) :
    CountsLines caller workspace stdin files (lines (unlines contents)).length := by
  intro args operands counted wordless byteless
  change wc args stdin caller workspace = _
  unfold wc
  dsimp only
  rw [operands, withInput_run reachable named hold]
  unfold countsOf
  simp only [List.filter_cons, counted, wordless, byteless, if_true, Bool.false_eq_true, if_false,
    List.filter_nil]
  cases files with
  | nil => exact absurd rfl named
  | cons file others => cases others <;> rfl

/-- Files that can be read are printed, and worked on, as one text. Its lines are those of the files
in their order, and as many, exactly if every file but the last one is neither empty nor ends in a
line end that a newline does not join; behind every other file comes a blank line. -/
theorem fed_in_turn_iff (named : files ≠ [])
    (hold : Hold workspace caller.user stdin files contents) :
    ∃ text,
      run (.builtin .cat) files stdin caller workspace = (.ok (.text text), workspace) ∧
      (∀ command work, withInput command files stdin work caller workspace =
        work text caller workspace) ∧
      lines text = (contents.dropLast.flatMap fun content => lines content ++ seam content) ++
        lines (contents.getLast?.getD "") ∧
      (lines text = contents.flatMap lines ↔ ∀ content ∈ contents.dropLast, ¬ Closed content) ∧
      ∃ counts total, List.Forall₂ (fun file => CountsLines caller workspace stdin [file])
          files counts ∧
        CountsLines caller workspace stdin files total ∧
        (total = counts.sum ↔ ∀ content ∈ contents.dropLast, ¬ Closed content) := by
  refine ⟨unlines contents, cat_run reachable named hold,
    fun _ _ => withInput_run reachable named hold, lines_unlines_texts contents,
    lines_unlines_texts_iff, contents.map fun content => (lines content).length, _, ?_,
    countsLines reachable named hold, length_lines_unlines_texts_iff⟩
  rw [List.forall₂_map_right_iff]
  refine hold.imp fun file content holds => ?_
  rw [← unlines_singleton content]
  exact countsLines reachable (List.cons_ne_nil _ _) (.cons holds .nil)

end Reading

/-- The workspace with two files of the guest's. -/
private def filed (first second : String) : Workspace :=
  plainWorkspace ((sharedMachine.serve ⟨"guest", "/"⟩ (.writeText "/tmp/a" first)).2.serve
    ⟨"guest", "/"⟩ (.writeText "/tmp/b" second)).2

private theorem filed_reachable (first second : String) :
    Reachable Snapshot.Keyed (filed first second).machine :=
  ((sharedMachine_reachable _).serve _ _).serve _ _

private def reader : Caller Command := ⟨"guest", none, "host"⟩

/-- A file whose last line is open, and one behind it that ends in a newline. -/
theorem open_file_fed : ∃ text,
    Reachable Snapshot.Keyed (filed "x" "y\n").machine ∧
    Hold (filed "x" "y\n") reader.user none ["/tmp/a", "/tmp/b"] ["x", "y\n"] ∧
    run (.builtin .cat) ["/tmp/a", "/tmp/b"] none reader (filed "x" "y\n") =
      (.ok (.text text), filed "x" "y\n") ∧
    lines text = ["x", "y"] := by
  have reachable := filed_reachable "x" "y\n"
  have hold : Hold (filed "x" "y\n") reader.user none ["/tmp/a", "/tmp/b"] ["x", "y\n"] :=
    .cons (by decide +kernel) (.cons (by decide +kernel) .nil)
  obtain ⟨text, printed, -, -, iff, -⟩ :=
    fed_in_turn_iff reachable (List.cons_ne_nil _ _) hold
  exact ⟨text, reachable, hold, printed, (iff.mpr (by decide)).trans (by decide)⟩

/-- Behind a file that ends in a newline comes a blank line that no file holds, and it is counted. -/
theorem blank_line_between_files :
    Reachable Snapshot.Keyed (filed "x\n" "y\n").machine ∧
    Hold (filed "x\n" "y\n") reader.user none ["/tmp/a", "/tmp/b"] ["x\n", "y\n"] ∧
    run (.builtin .cat) ["/tmp/a", "/tmp/b"] none reader (filed "x\n" "y\n") =
      (.ok (.text "x\n\ny\n"), filed "x\n" "y\n") ∧
    lines "x\n\ny\n" = ["x", "", "y"] ∧ lines "x\n" ++ lines "y\n" = ["x", "y"] ∧
    CountsLines reader (filed "x\n" "y\n") none ["/tmp/a"] 1 ∧
    CountsLines reader (filed "x\n" "y\n") none ["/tmp/b"] 1 ∧
    CountsLines reader (filed "x\n" "y\n") none ["/tmp/a", "/tmp/b"] 3 := by
  have reachable := filed_reachable "x\n" "y\n"
  have first : (filed "x\n" "y\n").contentOf? reader.user none "/tmp/a" = some "x\n" := by
    decide +kernel
  have second : (filed "x\n" "y\n").contentOf? reader.user none "/tmp/b" = some "y\n" := by
    decide +kernel
  have both : Hold (filed "x\n" "y\n") reader.user none ["/tmp/a", "/tmp/b"] ["x\n", "y\n"] :=
    .cons first (.cons second .nil)
  have joined : unlines ["x\n", "y\n"] = "x\n\ny\n" := by decide
  have printed := cat_run reachable (List.cons_ne_nil _ _) both
  have one := countsLines reachable (List.cons_ne_nil _ _) (.cons first .nil)
  have other := countsLines reachable (List.cons_ne_nil _ _) (.cons second .nil)
  have all := countsLines reachable (List.cons_ne_nil _ _) both
  rw [joined] at printed all
  rw [unlines_singleton] at one other
  exact ⟨reachable, both, printed, by decide, by decide, one, other, all⟩

end PocketShell.Command
