import PocketShell.Proofs.Shell.BreakingFiles

/-! Under the standard names a standard command answers exactly where it does not break off. A
command that runs another is followed down to the one that it runs in the end; on each step there
is one argument or word less. -/
namespace PocketShell.Command

open Shell

variable {caller : Caller Command} {workspace : Workspace} {stdin : Option String}

/-! ## Commands that need their surroundings -/

private theorem not_fails_help (registry : caller.registry = some standardRegistry)
    (args : List String) : ¬ Fails (help args caller workspace).1 := by
  have written : ¬ Fails (overview standardRegistry) := by
    have several : standardRegistry.names ≠ [] := by
      intro none
      have length := congrArg List.length none
      rw [Registry.names, List.length_mergeSort] at length
      cases length
    unfold overview
    split
    · rename_i none
      exact (several none).elim
    · exact not_fails_ok
  unfold help
  rw [Run.read_bind_run, registry]
  cases args with
  | nil =>
    rw [fails_lift_iff fun _ _ => not_fails_ok]
    exact written
  | cons name rest =>
    dsimp only
    split <;> exact not_fails_ok

private theorem not_fails_readInto (promptless : workspace.prompt = none) (args : List String)
    (stdin : Option String) (reachable : Reachable Snapshot.Keyed workspace.machine) :
    ¬ Fails (readInto args stdin caller workspace).1 := by
  have read : ∀ question, ∃ line,
      lineToRead question stdin caller workspace = (.ok line, workspace) := by
    intro question
    unfold lineToRead
    rw [Task.get_bind_run, promptless]
    cases stdin <;> exact ⟨_, rfl⟩
  obtain ⟨line, read⟩ := read (readingFrom ⟨"", []⟩ args).question
  unfold readInto
  rw [Task.bind_run, read]
  cases line with
  | none => exact not_fails_ok
  | some line =>
    refine not_fails_iff.mpr (Completes.succeeds ?_ reachable)
    exact (Completes.composes.forM fun (name, value) => Completes.setVariable name value).bind
      fun _ => .pure _

/-! ## Running commands -/

/-- The standard registry holds standard commands only. -/
private theorem builtin_of_get? {name : String} {command : Command}
    (known : standardRegistry.get? name = some command) :
    ∃ standard, command = .builtin standard := by
  obtain ⟨entry, found, rfl⟩ := Option.map_eq_some_iff.mp known
  obtain ⟨row, -, rfl⟩ := List.mem_map.mp (List.mem_of_find?_eq_some found)
  exact ⟨_, rfl⟩

private theorem echo_known : standardRegistry.get? "echo" = some (.builtin .echo) := rfl

section

variable (registry : caller.registry = some standardRegistry) {call : Command → Handler}

include registry

private theorem named_run (name : String) :
    named? name caller workspace = (.ok (standardRegistry.get? name), workspace) := by
  change (Except.ok (caller.registry.bind (·.get? name)), workspace) = _
  rw [registry]
  rfl

private theorem fails_asRoot_iff (args : List String) (calls : ∀ name rest inner,
      args = name :: rest → (Fails (call (.builtin inner) rest stdin
        { caller with user := rootUser } workspace).1 ↔
          BreaksOff workspace rootUser inner rest stdin)) :
    Fails (asRoot call args stdin caller workspace).1 ↔
      BreaksOff workspace caller.user .asRoot args stdin := by
  cases args with
  | nil => exact iff_of_false not_fails_ok nofun
  | cons name rest =>
    unfold asRoot
    dsimp only
    rw [Task.bind_run, named_run registry]
    cases known : standardRegistry.get? name with
    | none =>
      refine iff_of_false not_fails_ok fun breaks => ?_
      cases breaks with
      | asRoot other => cases known.symm.trans other
    | some command =>
      obtain ⟨inner, rfl⟩ := builtin_of_get? known
      refine (calls name rest inner rfl).trans ⟨.asRoot known, fun breaks => ?_⟩
      cases breaks with
      | asRoot other breaks =>
        cases known.symm.trans other
        exact breaks

private theorem fails_xargs_iff (args : List String) (echoes : ∀ words,
      ¬ Fails (call (.builtin .echo) words none caller workspace).1)
    (calls : ∀ name rest inner, args = name :: rest → (Fails (call (.builtin inner)
      (rest ++ Text.words (stdin.getD "")) none caller workspace).1 ↔
        BreaksOff workspace caller.user inner (rest ++ Text.words (stdin.getD "")) none)) :
    Fails (xargs call args stdin caller workspace).1 ↔
      BreaksOff workspace caller.user .xargs args stdin := by
  unfold xargs
  cases args with
  | nil =>
    dsimp only
    rw [Task.bind_run, named_run registry, echo_known]
    exact iff_of_false (echoes _) nofun
  | cons name rest =>
    dsimp only
    rw [Task.bind_run, named_run registry]
    cases known : standardRegistry.get? name with
    | none =>
      refine iff_of_false not_fails_ok fun breaks => ?_
      cases breaks with
      | xargs other => cases known.symm.trans other
    | some command =>
      obtain ⟨inner, rfl⟩ := builtin_of_get? known
      refine (calls name rest inner rfl).trans ⟨.xargs known, fun breaks => ?_⟩
      cases breaks with
      | xargs other breaks =>
        cases known.symm.trans other
        exact breaks

end

/-- By induction on the depth, for commands that run commands. -/
private theorem fails_runWithin_iff (registry : caller.registry = some standardRegistry)
    (reachable : Reachable Snapshot.Keyed workspace.machine) (promptless : workspace.prompt = none)
    (standard : Builtin) (args : List String) (stdin : Option String) {depth : Nat}
    (deep : args.length + (Text.words (stdin.getD "")).length + 2 ≤ depth) :
    Fails (runWithin depth (.builtin standard) args stdin caller workspace).1 ↔
      BreaksOff workspace caller.user standard args stdin := by
  induction depth generalizing standard args stdin caller with
  | zero => omega
  | succ depth ih =>
    have never : ∀ {operation : Job}, Completes operation →
        ¬ BreaksOff workspace caller.user standard args stdin →
        (Fails (operation caller workspace).1 ↔
          BreaksOff workspace caller.user standard args stdin) := fun completes =>
      iff_of_false (not_fails_iff.mpr (completes.succeeds reachable))
    unfold runWithin
    cases standard with
    | pwd => exact never pwd_completes nofun
    | cd => exact never (cd_completes args) nofun
    | ls => exact fails_ls_iff reachable args
    | mkdir => exact never (mkdir_completes args) nofun
    | touch => exact never (touch_completes args) nofun
    | cat => exact never (cat_completes args) nofun
    | rm => exact never (rm_completes args) nofun
    | cp => exact fails_cp_iff args
    | mv => exact never (mv_completes args) nofun
    | ln => exact never (ln_completes args) nofun
    | chmod => exact never (chmod_completes args) nofun
    | chown => exact never (chown_completes args) nofun
    | umask => exact never (umask_completes args) nofun
    | stat => exact fails_stat_iff reachable args
    | file => exact never (file_completes args) nofun
    | clear => exact iff_of_false not_fails_ok nofun
    | echo => exact iff_of_false not_fails_ok nofun
    | history => exact fails_history_iff args
    | help => exact iff_of_false (not_fails_help registry args) nofun
    | asRoot =>
      refine fails_asRoot_iff registry args fun name rest inner same => ?_
      subst same
      have root : ({ caller with user := rootUser } : Caller Command).registry =
        some standardRegistry := registry
      exact ih root inner rest stdin (by simp only [List.length_cons] at deep; omega)
    | exportNames => exact never (exportNames_completes args) nofun
    | unset => exact never (unset_completes args) nofun
    | env => exact never env_completes nofun
    | whoami => exact iff_of_false not_fails_ok nofun
    | identity => exact never (identity_completes args) nofun
    | groups => exact never (groups_completes args) nofun
    | hostname => exact never (hostName_completes.bind fun _ => .pure _) nofun
    | which => exact never (which_completes args) nofun
    | describe => exact never (describe_completes args) nofun
    | succeed => exact iff_of_false not_fails_ok nofun
    | giveUp => exact iff_of_false not_fails_ok nofun
    | basename => exact never (basename_completes args) nofun
    | dirname => exact iff_of_false not_fails_ok nofun
    | readInto => exact iff_of_false (not_fails_readInto promptless args stdin reachable) nofun
    | grep => exact fails_grep_iff reachable args
    | wc => exact never (wc_completes args) nofun
    | head => exact never (linePart_completes _ _ args) nofun
    | tail => exact never (linePart_completes _ _ args) nofun
    | sort => exact never (sort_completes args) nofun
    | uniq => exact never (uniq_completes args) nofun
    | cut => exact never (cut_completes args) nofun
    | tee => exact never (tee_completes args) nofun
    | sed => exact fails_sed_iff reachable args
    | awk => exact fails_awk_iff reachable args
    | xargs =>
      refine fails_xargs_iff registry args (fun words => ?_) fun name rest inner same => ?_
      · obtain ⟨further, rfl⟩ := Nat.exists_eq_add_of_lt (show 0 < depth by omega)
        exact not_fails_ok
      · subst same
        have wordless : (Text.words ((none : Option String).getD "")).length = 0 := rfl
        refine ih registry inner _ none ?_
        rw [wordless]
        simp only [List.length_append, List.length_cons] at deep ⊢
        omega
    | seq => exact fails_seq_iff args
    | find => exact fails_find_iff reachable args
    | uname => exact never (hostName_completes.bind fun _ => .pure _) nofun
    | date => exact fails_date_iff args
    | uptime => exact fails_uptime_iff args
    | ps => exact fails_ps_iff args
    | kill => exact fails_kill_iff args
    | df => exact fails_df_iff args
    | free => exact never (free_completes args) nofun

/-- A user under the standard names. -/
def guest : Caller Command := ⟨"guest", some standardRegistry, "host"⟩

end PocketShell.Command
