import PocketShell.Proofs.Shell.Completion

/-! Every command makes changes and nothing else. A command that runs another does so if the other
does. Most of them also complete: nothing that they do can fail, whatever they are given. -/
namespace PocketShell.Command

open Shell

variable {β : Type} {stdin : Option String}

/-! ## What commands share -/

theorem stat_asks (path : String) : Completes (Run.fs (Fs.stat path)) :=
  .fs (.stat path) .inode rfl (.lookup true path) id

theorem lstat_asks (path : String) : Completes (Run.fs (Fs.lstat path)) :=
  .fs (.lstat path) .inode rfl (.lookup false path) id

theorem listChildren_asks (path : String) : Completes (Run.fs (Fs.listChildren path)) :=
  .fs (.listChildren path) .entries rfl (.listChildren path) id

theorem readText_asks (path : String) : Completes (Run.fs (Fs.readText path)) :=
  .fs (.readText path) .text rfl (.readText path) id

theorem writeText_asks (path content : String) :
    Completes (Run.fs (Fs.writeText path content)) :=
  .fs (.writeText path content) .inode rfl (.rewrite path _) id

theorem appendText_asks (path content : String) :
    Completes (Run.fs (Fs.appendText path content)) :=
  .fs (.appendText path content) .inode rfl (.rewrite path _) id

private theorem mkdir_asks (path : String) : Completes (Run.fs (Fs.mkdir path none)) :=
  .fs (.mkdir path none) .inode rfl (.mkdir path none) id

theorem readArg_completes (arg : String) : Completes (readArg stdin arg) := by
  unfold readArg
  split
  · exact .pure _
  · exact (Completes.path arg).bind readText_asks

theorem readArgs_completes (command : String) (args : List String) :
    Completes (readArgs command stdin args) := by
  induction args with
  | nil => exact .pure _
  | cons arg rest ih =>
    refine (readArg_completes arg).bind fun result => ?_
    cases result with
    | error reason => exact .pure _
    | ok content => exact ih.bind fun _ => .pure _

section

variable {kind : ∀ {α : Type}, Run Command α → Prop} (composes : Composes kind)

include composes

theorem gather_composes {step : String → Run Command (Except String β)}
    (steps : ∀ arg, kind (step arg)) (args : List String) : kind (gather step args) := by
  induction args with
  | nil => exact composes.pure _
  | cons arg rest ih =>
    refine composes.bind (steps arg) fun result => composes.bind ih fun gathered => ?_
    cases result <;> exact composes.pure _

private theorem each_composes {step : String → Run Command (Except String Unit)}
    (steps : ∀ arg, kind (step arg)) (args : List String) : kind (each step args) :=
  composes.bind (gather_composes composes steps args) fun _ => composes.pure _

private theorem withInput_composes (command : String) (files : List String) {work : String → Job}
    (reads : kind (readArgs command stdin files)) (works : ∀ text, kind (work text)) :
    kind (withInput command files stdin work) := by
  unfold withInput
  split
  · exact works _
  · refine composes.bind reads fun result => ?_
    cases result with
    | error failure => exact composes.pure _
    | ok contents => exact works _

end

private theorem filterLines_completes (command : String) (files : List String)
    (work : List String → Except Outcome (List String)) :
    Completes (filterLines command files stdin work) := by
  refine withInput_composes Completes.composes command files (readArgs_completes _ _) fun text => ?_
  cases work (Text.lines text) <;> exact .pure _

/-! ## Files -/

private theorem makeParents_completes (wording : FsError → String) (made : String)
    (components : List String) : Completes (makeParents wording made components) := by
  induction components generalizing made with
  | nil => exact .pure _
  | cons component rest ih =>
    have makes : ∀ (next : String)
        {onward : Except FsError Inode → Run Command (Except String Unit)},
        (∀ inode, Completes (onward (.ok inode))) → (∀ reason, Completes (onward (.error reason))) →
        Completes (Run.fs (Fs.mkdir next none) >>= onward) := by
      intro next onward goesOn fails
      refine (mkdir_asks next).bind fun result => ?_
      cases result with
      | ok inode => exact goesOn inode
      | error reason => exact fails reason
    refine (stat_asks _).bind fun result => ?_
    cases result with
    | error reason => exact makes _ (fun _ => ih _) fun _ => .pure _
    | ok inode =>
      dsimp only
      split
      · exact ih _
      · exact makes _ (fun _ => ih _) fun _ => .pure _

theorem mkdir_completes (args : List String) : Completes (mkdir args) := by
  unfold mkdir
  dsimp only
  split
  · exact .pure _
  refine each_composes Completes.composes
    (fun path => (Completes.path path).bind fun target => ?_) _
  split
  · exact makeParents_completes _ _ _
  · exact (mkdir_asks target).bind fun _ => .pure _

theorem touch_completes (args : List String) : Completes (touch args) := by
  unfold touch
  split
  · exact .pure _
  refine each_composes Completes.composes
    (fun path => (Completes.path path).bind fun target => ?_) _
  exact (Completes.fs (.touch target) .inode rfl (.touch target) id).bind fun _ => .pure _

theorem cat_completes (args : List String) : Completes (cat args stdin) := by
  unfold cat
  split
  · exact .pure _
  exact (gather_composes Completes.composes
    (fun path => (readArg_completes path).bind fun _ => .pure _) args).bind fun _ => .pure _

theorem rm_completes (args : List String) : Completes (rm args) := by
  unfold rm
  dsimp only
  split
  · exact .pure _
  refine each_composes Completes.composes
    (fun path => (Completes.path path).bind fun target => ?_) _
  refine (Completes.fs (.rm target _) (fun _ => .done) rfl (.rm target _) id).bind fun result => ?_
  cases result with
  | ok done => exact .pure _
  | error reason =>
    dsimp only
    split <;> exact .pure _

private theorem cp_acts (args : List String) : Acts (cp args) := by
  unfold cp
  dsimp only
  cases sourcesAndGoal "cp" (splitFlags args).operands with
  | error failure => exact .pure _
  | ok found =>
    obtain ⟨sources, goal⟩ := found
    refine (Acts.path goal).bind fun goal => ?_
    refine each_composes Acts.composes (fun source => (Acts.path source).bind fun path => ?_) _
    exact (Acts.fs (.cp path goal _) .inode rfl (.cp path goal _)).bind fun _ => .pure _

theorem mv_completes (args : List String) : Completes (mv args) := by
  unfold mv
  cases sourcesAndGoal "mv" (splitFlags args).operands with
  | error failure => exact .pure _
  | ok found =>
    obtain ⟨sources, goal⟩ := found
    refine (Completes.path goal).bind fun target => ?_
    refine each_composes Completes.composes
      (fun source => (Completes.path source).bind fun path => ?_) _
    exact (Completes.fs (.mv path target) .inode rfl (.mv path target) id).bind fun _ => .pure _

theorem ln_completes (args : List String) : Completes (ln args) := by
  unfold ln
  dsimp only
  split
  · exact .pure _
  split
  · rename_i target link _
    refine (Completes.path link).bind fun path => ?_
    refine (Completes.fs (.ln target path) .inode rfl (.ln target path) id).bind fun result => ?_
    cases result <;> exact .pure _
  · exact .pure _

private theorem chmodEach_completes (mode : String) (errors paths : List String) :
    Completes (chmodEach mode errors paths) := by
  induction paths generalizing errors with
  | nil => exact .pure _
  | cons path rest ih =>
    refine (Completes.path path).bind fun target => ?_
    refine (Completes.fs (.chmod target mode) .inode rfl (.chmod target mode) id).bind
      fun result => ?_
    cases result with
    | ok inode => exact ih errors
    | error reason =>
      dsimp only
      split
      · exact .pure _
      · exact ih _

theorem chmod_completes (args : List String) : Completes (chmod args) := by
  unfold chmod
  split
  · exact chmodEach_completes _ _ _
  · exact .pure _

theorem chown_completes (args : List String) : Completes (chown args) := by
  unfold chown
  split
  · refine each_composes Completes.composes
      (fun path => (Completes.path path).bind fun target => ?_) _
    exact (Completes.fs (.chown target _ _) .inode rfl (.chown target _ _) id).bind fun _ => .pure _
  · exact .pure _

/-- Setting the mask is a change whether or not the text is a mask. -/
theorem umask_completes (args : List String) : Completes (umask args) := by
  cases args with
  | nil => exact .get (fun _ _ => rfl) fun _ => .pure _
  | cons mask rest =>
    refine ⟨fun caller first second mirrors => ?_, fun _ => ⟨_, rfl⟩⟩
    obtain ⟨accepted, -⟩ := mirrors.machine.setUmask mask
    refine ⟨[.setUmask mask], rfl, ?_⟩
    change (Except.ok (if (second.machine.setUmask mask).1 then _ else _), _) = _
    rw [accepted]
    rfl

private theorem stat_acts (args : List String) : Acts (stat args) := by
  unfold stat
  split
  · exact .pure _
  refine (gather_composes Acts.composes
    (fun path => (Acts.path path).bind fun target => ?_) args).bind fun _ => .pure _
  refine (lstat_asks target).acts.bind fun result => ?_
  cases result with
  | error reason => exact .pure _
  | ok inode => exact (Acts.lift _).bind fun _ => .pure _

theorem file_completes (args : List String) : Completes (file args) := by
  unfold file
  split
  · exact .pure _
  refine (Completes.composes.mapM fun path => ?_).bind fun _ => .pure _
  refine (Completes.path path).bind fun target => (lstat_asks target).bind fun result => ?_
  cases result <;> exact .pure _

/-! ## Moving around -/

theorem pwd_completes : Completes pwd := .get (fun _ _ => rfl) fun _ => .pure _

private theorem destination_completes (args : List String) : Completes (destination args) := by
  unfold destination
  split
  · exact .home
  · exact .get (fun _ _ => rfl) fun _ => .pure _
  · exact .path _

theorem cd_completes (args : List String) : Completes (cd args) := by
  unfold cd
  split
  · exact .pure _
  refine (destination_completes args).bind fun target => (stat_asks target).bind fun result => ?_
  cases result with
  | error reason => exact .pure _
  | ok inode =>
    dsimp only
    split
    · exact .pure _
    refine Completes.user.bind fun user => ?_
    split
    · exact .pure _
    · exact .get (fun _ _ => rfl) fun _ => .pure _

private theorem listPath_acts (style : ListStyle) (path : String) : Acts (listPath style path) := by
  refine (Acts.path path).bind fun target => (stat_asks target).acts.bind fun result => ?_
  cases result with
  | error reason => exact .pure _
  | ok inode =>
    dsimp only
    split
    · exact (Acts.lift _).bind fun _ => .pure _
    refine (Acts.fs (.listChildren target) .entries rfl (.listChildren target)).bind
      fun result => ?_
    cases result with
    | error reason => exact .pure _
    | ok children =>
      exact .get (fun _ _ => rfl) fun _ => (Acts.lift _).bind fun _ => .pure _

private theorem ls_acts (args : List String) : Acts (ls args) :=
  (gather_composes Acts.composes (listPath_acts _) _).bind fun _ => .pure _

private theorem find_acts (args : List String) : Acts (find args) := by
  unfold find
  cases Find.startOf args with
  | mk start tests =>
    dsimp only
    cases Find.Query.read ⟨none, none⟩ tests with
    | error option => exact .pure _
    | ok query =>
      dsimp only
      split
      · exact .pure _
      refine (Acts.path start).bind fun target => (stat_asks target).acts.bind fun result => ?_
      cases result with
      | error reason => exact .pure _
      | ok inode =>
        exact (Acts.lift _).bind fun _ => .get (fun _ _ => rfl) fun _ =>
          Acts.user.bind fun _ => .pure _

/-! ## Filters -/

theorem grepSources_completes (files : List String) : Completes (grepSources files stdin) := by
  unfold grepSources
  split
  · exact .pure _
  · exact gather_composes Completes.composes
      (fun name => (readArg_completes name).bind fun _ => .pure _) files

private theorem grep_acts (args : List String) : Acts (grep args stdin) := by
  unfold grep
  dsimp only
  split
  · exact .pure _
  refine (Acts.lift _).bind fun result => ?_
  cases result with
  | error failure => exact .pure _
  | ok pattern =>
    refine (grepSources_completes _).acts.bind fun gathered => ?_
    split <;> exact .pure _

theorem wc_completes (args : List String) : Completes (wc args stdin) := by
  unfold wc
  refine withInput_composes Completes.composes "wc" _ (readArgs_completes _ _) fun text => ?_
  split <;> exact .pure _

theorem linePart_completes (command : String) (part : Nat → List String → List String)
    (args : List String) : Completes (linePart command part args stdin) := by
  unfold linePart
  dsimp only
  split
  · exact .pure _
  · exact filterLines_completes _ _ _

theorem sort_completes (args : List String) : Completes (sort args stdin) := by
  unfold sort
  exact filterLines_completes _ _ _

theorem uniq_completes (args : List String) : Completes (uniq args stdin) := by
  unfold uniq
  exact filterLines_completes _ _ _

theorem cut_completes (args : List String) : Completes (cut args stdin) := by
  unfold cut
  dsimp only
  split
  · exact .pure _
  split
  · exact .pure _
  · exact filterLines_completes _ _ _

theorem tee_completes (args : List String) : Completes (tee args stdin) := by
  refine (gather_composes Completes.composes
    (fun path => (Completes.path path).bind fun target => ?_) _).bind fun _ => .pure _
  refine Completes.bind ?_ fun _ => .pure _
  split
  · exact appendText_asks target _
  · exact writeText_asks target _

private theorem sed_acts (args : List String) : Acts (sed args stdin) := by
  unfold sed
  split
  · exact .pure _
  dsimp only
  split
  · exact .pure _
  refine (Acts.lift _).bind fun result => ?_
  cases result with
  | error failure => exact .pure _
  | ok pattern =>
    refine withInput_composes Acts.composes "sed" _ (readArgs_completes _ _).acts fun text => ?_
    split
    · exact .pure _
    · exact .pure _
    · exact .throw _

private theorem awk_acts (args : List String) : Acts (awk args stdin) := by
  unfold awk
  dsimp only
  split
  · exact .pure _
  split
  · exact .pure _
  refine (Acts.lift _).bind fun result => ?_
  cases result with
  | error failure => exact .pure _
  | ok pattern =>
    exact withInput_composes Acts.composes "awk" _ (readArgs_completes _ _).acts fun text =>
      (Acts.lift _).bind fun _ => .pure _

private theorem seq_acts (args : List String) : Acts (seq args) := by
  unfold seq
  split
  · exact .pure _
  refine (Acts.lift _).bind fun result => ?_
  cases result with
  | error failure => exact .pure _
  | ok numbers =>
    dsimp only
    split
    · exact .pure _
    · split <;> exact .pure _

/-! ## The line and its surroundings -/

private theorem history_acts (args : List String) : Acts (history args) := by
  refine .get (fun _ _ => rfl) fun workspace => ?_
  dsimp only
  split
  · exact Acts.tell_clearHistory.bind fun _ => .pure _
  · split
    · exact (Acts.lift _).bind fun _ => .pure _
    · exact .pure _
  · exact .pure _

private theorem help_acts (args : List String) : Acts (help args) := by
  refine .read fun caller => ?_
  split
  · exact .pure _
  · exact (Acts.lift _).bind fun _ => .pure _
  · split <;> exact .pure _

private theorem exportName_completes (arg : String) : Completes (exportName arg) := by
  unfold exportName
  cases Text.cutAt '=' arg.toList with
  | none =>
    dsimp only
    split
    · exact .pure _
    refine .get (fun _ _ => rfl) fun workspace => ?_
    split
    · rename_i impossible
      cases impossible
    · exact (Completes.setVariable _ _).bind fun _ => .pure _
    · exact .pure _
  | some pair =>
    dsimp only
    split
    · exact .pure _
    · exact .get (fun _ _ => rfl) fun _ => (Completes.setVariable _ _).bind fun _ => .pure _

private theorem exportEach_completes (args : List String) : Completes (exportEach args) := by
  induction args with
  | nil => exact .pure _
  | cons arg rest ih =>
    refine (exportName_completes arg).bind fun result => ?_
    cases result with
    | error failure => exact .pure _
    | ok done => exact ih

theorem exportNames_completes (args : List String) : Completes (exportNames args) := by
  unfold exportNames
  split
  · exact .get (fun _ _ => rfl) fun _ => .pure _
  · exact exportEach_completes args

theorem unset_completes (args : List String) : Completes (unset args) :=
  (Completes.composes.forM Completes.unsetVariable).bind fun _ => .pure _

theorem env_completes : Completes env := .get (fun _ _ => rfl) fun _ => .pure _

private theorem lineToRead_acts (question : String) : Acts (lineToRead question stdin) := by
  refine .get (fun _ _ => rfl) fun workspace => ?_
  split
  · exact .pure _
  · exact (Acts.ask _ question).bind fun _ => .pure _
  · exact .pure _

private theorem readInto_acts (args : List String) : Acts (readInto args stdin) := by
  refine (lineToRead_acts _).bind fun line => ?_
  cases line with
  | none => exact .pure _
  | some line =>
    exact (Acts.composes.forM fun (name, value) => Acts.setVariable name value).bind
      fun _ => .pure _

/-! ## Users and the system -/

/-- A file of the system is read for root, whoever asks. -/
private theorem systemFile_completes (path : String) : Completes (systemFile path) := by
  refine (Completes.perform _ (.readText path) .text rfl (.readText path) id).bind fun result => ?_
  cases result <;> exact .pure _

private theorem subject_completes (args : List String) : Completes (subject args) := by
  cases args with
  | nil => exact .user
  | cons user rest => exact .pure _

private theorem userNumbers_completes (user : String) : Completes (userNumbers user) :=
  (systemFile_completes _).bind fun _ => .pure _

private theorem groupsOf_completes (user : String) : Completes (groupsOf user) :=
  (userNumbers_completes user).bind fun _ => (systemFile_completes _).bind fun _ => .pure _

theorem identity_completes (args : List String) : Completes (identity args) :=
  (subject_completes args).bind fun user => (userNumbers_completes user).bind fun _ =>
    (groupsOf_completes user).bind fun _ => .pure _

theorem groups_completes (args : List String) : Completes (groups args) :=
  (subject_completes args).bind fun user => (groupsOf_completes user).bind fun _ => .pure _

theorem hostName_completes : Completes hostName :=
  (systemFile_completes _).bind fun _ => .read fun _ => .pure _

private theorem isKnown_completes (name : String) : Completes (isKnown name) :=
  .read fun _ => .pure _

theorem which_completes (args : List String) : Completes (which args) :=
  (Completes.composes.filterM isKnown_completes).bind fun _ => .pure _

theorem describe_completes (args : List String) : Completes (describe args) := by
  refine (gather_composes Completes.composes
    (fun name => (isKnown_completes name).bind fun known => ?_) args).bind fun _ => .pure _
  split <;> exact .pure _

theorem basename_completes (args : List String) : Completes (basename args) := by
  unfold basename
  split <;> exact .pure _

/-! ## The simulated machine -/

private theorem showTime_acts (pattern : String) : Acts (showTime pattern) :=
  Acts.now.bind fun _ => (Acts.lift _).bind fun _ => .pure _

private theorem date_acts (args : List String) : Acts (date args) := by
  unfold date
  split <;> exact showTime_acts _

private theorem uptime_acts : Acts uptime :=
  Acts.now.bind fun _ => .get (fun _ _ => rfl) fun _ => (Acts.lift _).bind fun _ =>
    (Acts.lift _).bind fun _ => .pure _

private theorem ps_acts : Acts ps :=
  Acts.now.bind fun _ => .get (fun _ _ => rfl) fun _ => (Acts.lift _).bind fun _ => .pure _

/-- The processes that are left are set and told in one go. -/
private theorem kill_eq (pids : List String) :
    (do
      let workspace ← get
      let (remaining, errors) ← endEach (← Run.user) workspace.processes pids
      if remaining.length != workspace.processes.length then
        set { workspace with processes := remaining }
        Run.tell (.setProcesses remaining)
      return .withErrors "" errors 1 : Job) = do
      let processes := (← get).processes
      let (remaining, errors) ← endEach (← Run.user) processes pids
      if remaining.length != processes.length then
        modify (Workspace.told (.setProcesses remaining))
      return .withErrors "" errors 1 := by
  funext caller workspace
  simp only [Task.get_bind_run, Run.user_bind_run]
  rw [Task.bind_run, Task.bind_run, Task.lift_run]
  cases endEach caller.user workspace.processes pids with
  | error fault => rfl
  | ok ended =>
    dsimp only
    split <;> rfl

private theorem kill_acts (args : List String) : Acts (kill args) := by
  unfold kill
  dsimp only
  split
  · exact .pure _
  rw [kill_eq]
  refine .get (fun _ _ => rfl) fun workspace => Acts.user.bind fun user => ?_
  refine (Acts.lift _).bind fun (remaining, errors) => ?_
  dsimp only
  split
  · exact (Acts.change (.tell (.setProcesses remaining)) fun _ => rfl).bind fun _ => .pure _
  · exact .pure _

private theorem df_acts (args : List String) : Acts (df args) :=
  .get (fun _ _ => rfl) fun _ => (Acts.lift _).bind fun _ => (Acts.lift _).bind fun _ =>
    (Acts.lift _).bind fun _ => (Acts.lift _).bind fun _ => .pure _

theorem free_completes (args : List String) : Completes (free args) :=
  .get (fun _ _ => rfl) fun _ => .pure _

/-! ## Running commands -/

private theorem runScript_acts (script : Script) (args : List String) :
    Acts (runScript script args stdin) := by
  refine Acts.user.bind fun user => (Acts.tell_called _ _ _ _).bind fun _ => ?_
  cases script.gives? with
  | none => exact .pure _
  | some reason => exact .throw _

theorem named_completes (name : String) : Completes (named? name) := .read fun _ => .pure _

section

variable {call : Command → Handler} (calls : ∀ command args stdin, Acts (call command args stdin))

include calls

private theorem asRoot_acts (args : List String) : Acts (asRoot call args stdin) := by
  cases args with
  | nil => exact .pure _
  | cons name rest =>
    refine (named_completes name).acts.bind fun found => ?_
    cases found with
    | none => exact .pure _
    | some command => exact (calls command rest stdin).adapt _

private theorem xargs_acts (args : List String) : Acts (xargs call args stdin) := by
  have runs : ∀ name rest, Acts (xargs call (name :: rest) stdin) := by
    refine fun name rest => (named_completes name).acts.bind fun found => ?_
    cases found with
    | none => exact .pure _
    | some command => exact calls command _ _
  cases args with
  | nil => exact runs "echo" []
  | cons name rest => exact runs name rest

private theorem runBuiltin_acts (standard : Builtin) (args : List String) :
    Acts (runBuiltin call standard args stdin) := by
  cases standard with
  | pwd => exact pwd_completes.acts
  | cd => exact (cd_completes args).acts
  | ls => exact ls_acts args
  | mkdir => exact (mkdir_completes args).acts
  | touch => exact (touch_completes args).acts
  | cat => exact (cat_completes args).acts
  | rm => exact (rm_completes args).acts
  | cp => exact cp_acts args
  | mv => exact (mv_completes args).acts
  | ln => exact (ln_completes args).acts
  | chmod => exact (chmod_completes args).acts
  | chown => exact (chown_completes args).acts
  | umask => exact (umask_completes args).acts
  | stat => exact stat_acts args
  | file => exact (file_completes args).acts
  | clear => exact .pure _
  | echo => exact .pure _
  | history => exact history_acts args
  | help => exact help_acts args
  | asRoot => exact asRoot_acts calls args
  | exportNames => exact (exportNames_completes args).acts
  | unset => exact (unset_completes args).acts
  | env => exact env_completes.acts
  | whoami => exact Acts.user.bind fun _ => .pure _
  | identity => exact (identity_completes args).acts
  | groups => exact (groups_completes args).acts
  | hostname => exact (hostName_completes.bind fun _ => .pure _).acts
  | which => exact (which_completes args).acts
  | describe => exact (describe_completes args).acts
  | succeed => exact .pure _
  | giveUp => exact .pure _
  | basename => exact (basename_completes args).acts
  | dirname => exact .pure _
  | readInto => exact readInto_acts args
  | grep => exact grep_acts args
  | wc => exact (wc_completes args).acts
  | head => exact (linePart_completes _ _ args).acts
  | tail => exact (linePart_completes _ _ args).acts
  | sort => exact (sort_completes args).acts
  | uniq => exact (uniq_completes args).acts
  | cut => exact (cut_completes args).acts
  | tee => exact (tee_completes args).acts
  | sed => exact sed_acts args
  | awk => exact awk_acts args
  | xargs => exact xargs_acts calls args
  | seq => exact seq_acts args
  | find => exact find_acts args
  | uname => exact (hostName_completes.bind fun _ => .pure _).acts
  | date => exact date_acts args
  | uptime => exact uptime_acts
  | ps => exact ps_acts
  | kill => exact kill_acts args
  | df => exact df_acts args
  | free => exact (free_completes args).acts

end

/-- By induction on the depth, for commands that run commands. -/
private theorem runWithin_acts (depth : Nat) (command : Command) (args : List String)
    (stdin : Option String) : Acts (runWithin depth command args stdin) := by
  induction depth generalizing command args stdin with
  | zero =>
    cases command with
    | builtin standard => exact .throw _
    | scripted script => exact runScript_acts script args
  | succ depth ih =>
    cases command with
    | builtin standard => exact runBuiltin_acts ih standard args
    | scripted script => exact runScript_acts script args

/-- A command makes changes and nothing else. -/
theorem run_acts (command : Command) (args : List String) (stdin : Option String) :
    Acts (run command args stdin) :=
  runWithin_acts _ command args stdin
end PocketShell.Command
