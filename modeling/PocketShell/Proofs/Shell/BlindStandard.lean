import PocketShell.Proofs.Shell.BlindCommands

/-! The commands that filter text, that look at the line and its surroundings and that tell about
users and the system. None of them gets at a file by a way of its own but those that read the files
of the system. With them every standard command but the one that acts for root does the same in two
workspaces that differ in what one file holds, and so does a command that runs another. -/
namespace PocketShell.Command

open Shell

variable {caller : Caller Command} {secret : String} {stdin : Option String}

/-! ## Filters -/

section

variable (plain : caller.user ≠ rootUser)

include plain

private theorem grepSources_blind (files : List String) :
    caller.Blind secret (grepSources files stdin) := by
  unfold grepSources
  split
  · exact .pure rfl
  exact gather_blind (fun name => (readArg_blind plain name).thenSame fun _ => .pure rfl) files

private theorem grep_blind (args : List String) : caller.Blind secret (grep args stdin) := by
  unfold grep
  dsimp only
  split
  · exact .pure rfl
  refine (Alongside.lift (.refl _)).thenSame fun result => ?_
  cases result with
  | error failure => exact .pure rfl
  | ok pattern =>
    refine (grepSources_blind plain _).thenSame fun gathered => ?_
    obtain ⟨sources, errors⟩ := gathered
    dsimp only
    split <;> exact .pure rfl

private theorem wc_blind (args : List String) : caller.Blind secret (wc args stdin) := by
  unfold wc
  dsimp only
  refine withInput_blind plain "wc" _ fun text => ?_
  split <;> exact .pure rfl

private theorem linePart_blind (command : String) (part : Nat → List String → List String)
    (args : List String) : caller.Blind secret (linePart command part args stdin) := by
  unfold linePart
  dsimp only
  split
  · exact .pure rfl
  · exact filterLines_blind plain _ _ _

private theorem sort_blind (args : List String) : caller.Blind secret (sort args stdin) := by
  unfold sort
  dsimp only
  exact filterLines_blind plain _ _ _

private theorem uniq_blind (args : List String) : caller.Blind secret (uniq args stdin) := by
  unfold uniq
  dsimp only
  exact filterLines_blind plain _ _ _

private theorem cut_blind (args : List String) : caller.Blind secret (cut args stdin) := by
  unfold cut
  dsimp only
  split
  · exact .pure rfl
  split
  · exact .pure rfl
  · exact filterLines_blind plain _ _ _

private theorem tee_blind (args : List String) : caller.Blind secret (tee args stdin) := by
  have writes : ∀ target text, caller.Alongside secret (Results (caller.veil secret).Alike)
      (Run.fs (if (parseOptions [] args).has 'a' then Fs.appendText target text
        else Fs.writeText target text))
      (Run.fs (if (parseOptions [] args).has 'a' then Fs.appendText target text
        else Fs.writeText target text)) := by
    intro target text
    split
    · exact appendText_alongside plain target text
    · exact writeText_alongside plain target text
  have steps : ∀ path, caller.Alongside secret (Results (caller.veil secret).Alike) _ _ :=
    fun path => (Caller.path_blind path).thenSame fun target =>
      (writes target (stdin.getD "")).bind fun result other results =>
        .pure (explain_results results fun reason => s!"tee: {path}: {reason.message}")
  refine (gather_alongside steps (parseOptions [] args).operands).bind
    fun gathered other ⟨_, errors⟩ => ?_
  rw [errors]
  exact .pure rfl

private theorem sed_blind (args : List String) : caller.Blind secret (sed args stdin) := by
  unfold sed
  split
  · exact .pure rfl
  dsimp only
  split
  · exact .pure rfl
  refine (Alongside.lift (.refl _)).thenSame fun result => ?_
  cases result with
  | error failure => exact .pure rfl
  | ok pattern =>
    refine withInput_blind plain "sed" _ fun text => ?_
    split
    · exact .pure rfl
    · exact .pure rfl
    · exact .throw _

private theorem awk_blind (args : List String) : caller.Blind secret (awk args stdin) := by
  unfold awk
  dsimp only
  split
  · exact .pure rfl
  split
  · exact .pure rfl
  refine (Alongside.lift (.refl _)).thenSame fun result => ?_
  cases result with
  | error failure => exact .pure rfl
  | ok pattern =>
    refine withInput_blind plain "awk" _ fun text => ?_
    exact (Alongside.lift (.refl _)).thenSame fun _ => .pure rfl

end

private theorem seq_blind (args : List String) : caller.Blind secret (seq args) := by
  unfold seq
  split
  · exact .pure rfl
  refine (Alongside.lift (.refl _)).thenSame fun result => ?_
  cases result with
  | error failure => exact .pure rfl
  | ok numbers =>
    dsimp only
    split
    · exact .pure rfl
    · split <;> exact .pure rfl

/-! ## The line and its surroundings -/

private theorem history_blind (args : List String) : caller.Blind secret (history args) := by
  refine Alongside.get.bind ?_
  rintro first _ ⟨⟨_⟩, _⟩
  dsimp only
  split
  · exact (Caller.tell_blind _).thenSame fun _ => .pure rfl
  · split
    · exact (Alongside.lift (.refl _)).thenSame fun _ => .pure rfl
    · exact .pure rfl
  · exact .pure rfl

private theorem help_blind (args : List String) : caller.Blind secret (help args) := by
  refine .read ?_
  split
  · exact .pure rfl
  · exact (Alongside.lift (.refl _)).thenSame fun _ => .pure rfl
  · split <;> exact .pure rfl

private theorem exportName_blind (arg : String) : caller.Blind secret (exportName arg) := by
  unfold exportName
  cases Text.cutAt '=' arg.toList with
  | none =>
    dsimp only
    split
    · exact .pure rfl
    refine Alongside.get.bind ?_
    rintro first _ ⟨⟨_⟩, _⟩
    dsimp only
    split
    · rename_i impossible
      cases impossible
    · exact (Caller.setVariable_blind _ _).thenSame fun _ => .pure rfl
    · exact .pure rfl
  | some pair =>
    dsimp only
    split
    · exact .pure rfl
    refine Alongside.get.bind ?_
    rintro first _ ⟨⟨_⟩, _⟩
    exact (Caller.setVariable_blind _ _).thenSame fun _ => .pure rfl

private theorem exportEach_blind (args : List String) : caller.Blind secret (exportEach args) := by
  induction args with
  | nil => exact .pure rfl
  | cons arg rest ih =>
    refine (exportName_blind arg).thenSame fun result => ?_
    cases result with
    | error failure => exact .pure rfl
    | ok done => exact ih

private theorem exportNames_blind (args : List String) :
    caller.Blind secret (exportNames args) := by
  unfold exportNames
  split
  · exact Caller.get_blind fun _ _ => rfl
  · exact exportEach_blind args

private theorem unset_blind (args : List String) : caller.Blind secret (unset args) := by
  refine (Alongside.forM (List.forall₂_same.mpr fun _ _ => rfl) ?_).thenSame fun _ => .pure rfl
  rintro name _ rfl
  exact Caller.unsetVariable_blind name

private theorem env_blind : caller.Blind secret env := Caller.get_blind fun _ _ => rfl

private theorem lineToRead_blind (question : String) :
    caller.Blind secret (lineToRead question stdin) := by
  refine Alongside.get.bind ?_
  rintro first _ ⟨⟨_⟩, _⟩
  dsimp only
  split
  · exact .pure rfl
  · exact (Caller.ask_blind _ question).thenSame fun _ => .pure rfl
  · exact .pure rfl

private theorem readInto_blind (args : List String) :
    caller.Blind secret (readInto args stdin) := by
  refine (lineToRead_blind _).thenSame fun line => ?_
  cases line with
  | none => exact .pure rfl
  | some line =>
    refine (Alongside.forM (List.forall₂_same.mpr fun _ _ => rfl) ?_).thenSame fun _ => .pure rfl
    rintro pair _ rfl
    exact Caller.setVariable_blind _ _

/-! ## Users and the system -/

/-- What the files of the system say is no secret. -/
private theorem systemFile_blind (reads : caller.ReadsSystem) (name : String)
    (listed : name ∈ systemNames) : caller.Blind secret (systemFile ("/etc/" ++ name)) := by
  refine (Caller.system_blind reads listed).thenSame fun result => ?_
  cases result <;> exact .pure rfl

private theorem subject_blind (args : List String) : caller.Blind secret (subject args) := by
  cases args with
  | nil => exact Caller.user_blind
  | cons user rest => exact .pure rfl

section

variable (reads : caller.ReadsSystem)

include reads

private theorem userNumbers_blind (user : String) : caller.Blind secret (userNumbers user) :=
  (systemFile_blind reads "passwd" (by decide)).thenSame fun _ => .pure rfl

private theorem groupsOf_blind (user : String) : caller.Blind secret (groupsOf user) :=
  (userNumbers_blind reads user).thenSame fun _ =>
    (systemFile_blind reads "group" (by decide)).thenSame fun _ => .pure rfl

private theorem identity_blind (args : List String) : caller.Blind secret (identity args) :=
  (subject_blind args).thenSame fun user => (userNumbers_blind reads user).thenSame fun _ =>
    (groupsOf_blind reads user).thenSame fun _ => .pure rfl

private theorem groups_blind (args : List String) : caller.Blind secret (groups args) :=
  (subject_blind args).thenSame fun user => (groupsOf_blind reads user).thenSame fun _ => .pure rfl

private theorem hostName_blind : caller.Blind secret hostName :=
  (systemFile_blind reads "hostname" (by decide)).thenSame fun _ => .read (.pure rfl)

private theorem hostname_blind : caller.Blind secret hostname :=
  (hostName_blind reads).thenSame fun _ => .pure rfl

private theorem uname_blind (args : List String) : caller.Blind secret (uname args) :=
  (hostName_blind reads).thenSame fun _ => .pure rfl

end

private theorem isKnown_blind (name : String) : caller.Blind secret (isKnown name) :=
  .read (.pure rfl)

private theorem which_blind (args : List String) : caller.Blind secret (which args) :=
  (Alongside.filterM isKnown_blind).thenSame fun _ => .pure rfl

private theorem describe_blind (args : List String) : caller.Blind secret (describe args) := by
  refine (gather_blind (fun name => ?_) args).thenSame fun _ => .pure rfl
  refine (isKnown_blind name).thenSame fun known => ?_
  split <;> exact .pure rfl

private theorem basename_blind (args : List String) : caller.Blind secret (basename args) := by
  unfold basename
  split <;> exact .pure rfl

private theorem dirname_blind (args : List String) : caller.Blind secret (dirname args) := by
  unfold dirname
  split <;> exact .pure rfl

/-! ## The simulated machine -/

private theorem showTime_blind (pattern : String) : caller.Blind secret (showTime pattern) :=
  Caller.now_blind.thenSame fun _ => (Alongside.lift (.refl _)).thenSame fun _ => .pure rfl

private theorem date_blind (args : List String) : caller.Blind secret (date args) := by
  unfold date
  split <;> exact showTime_blind _

private theorem uptime_blind : caller.Blind secret uptime := by
  refine Caller.now_blind.thenSame fun now => Alongside.get.bind ?_
  rintro first _ ⟨⟨_⟩, _⟩
  refine (Alongside.lift (.refl _)).thenSame fun seconds => ?_
  exact (Alongside.lift (.refl _)).thenSame fun _ => .pure rfl

private theorem ps_blind : caller.Blind secret ps := by
  refine Caller.now_blind.thenSame fun now => Alongside.get.bind ?_
  rintro first _ ⟨⟨_⟩, _⟩
  exact (Alongside.lift (.refl _)).thenSame fun _ => .pure rfl

private theorem kill_blind (args : List String) : caller.Blind secret (kill args) := by
  unfold kill
  dsimp only
  split
  · exact .pure rfl
  refine Alongside.get.bind ?_
  rintro first _ ⟨⟨twins⟩, keeps⟩
  refine Caller.user_blind.thenSame fun user => ?_
  refine (Alongside.lift (.refl _)).thenSame fun ended => ?_
  obtain ⟨remaining, errors⟩ := ended
  dsimp only
  split
  · refine (Alongside.set ⟨.mk twins, keeps⟩).thenSame fun _ => ?_
    exact (Caller.tell_blind _).thenSame fun _ => .pure rfl
  · exact .pure rfl

private theorem df_blind (args : List String) : caller.Blind secret (df args) := by
  refine Alongside.get.bind ?_
  rintro first _ ⟨⟨twins⟩, _⟩
  unfold blocksOf
  rw [twins.beside.stats]
  refine (Alongside.lift (.refl _)).thenSame fun _ => (Alongside.lift (.refl _)).thenSame fun _ => ?_
  exact (Alongside.lift (.refl _)).thenSame fun _ =>
    (Alongside.lift (.refl _)).thenSame fun _ => .pure rfl

private theorem free_blind (args : List String) : caller.Blind secret (free args) := by
  refine Alongside.get.bind ?_
  rintro first _ ⟨⟨_⟩, _⟩
  exact .pure rfl

/-! ## Running commands -/

private theorem runScript_blind (script : Script) (args : List String) :
    caller.Blind secret (runScript script args stdin) := by
  refine Caller.user_blind.thenSame fun user => (Caller.tell_blind _).thenSame fun _ => ?_
  cases script.gives? with
  | none => exact .pure rfl
  | some reason => exact .throw _

private theorem xargs_named_blind {call : Command → Handler}
    (calls : ∀ command, caller.CanRun command → ∀ args stdin,
      caller.Blind secret (call command args stdin)) (name : String) (rest : List String) :
    caller.Blind secret (xargs call (name :: rest) stdin) := by
  refine (Caller.named_alongside name).bind ?_
  rintro found _ ⟨rfl, runs⟩
  cases found with
  | none => exact .pure rfl
  | some command => exact calls command (runs command rfl) _ _

private theorem xargs_blind {call : Command → Handler}
    (calls : ∀ command, caller.CanRun command → ∀ args stdin,
      caller.Blind secret (call command args stdin)) (args : List String) :
    caller.Blind secret (xargs call args stdin) := by
  cases args with
  | nil => exact xargs_named_blind calls "echo" []
  | cons name rest => exact xargs_named_blind calls name rest

/-- A standard command that is registered, other than the one that acts for root. -/
private theorem runBuiltin_blind {call : Command → Handler} (plain : caller.user ≠ rootUser)
    (rootless : ¬ caller.Offers .asRoot)
    (calls : ∀ command, caller.CanRun command → ∀ args stdin,
      caller.Blind secret (call command args stdin))
    {standard : Builtin} (offers : caller.Offers standard) (args : List String) :
    caller.Blind secret (runBuiltin call standard args stdin) := by
  cases standard with
  | pwd => exact pwd_blind
  | cd => exact cd_blind plain args
  | ls => exact ls_blind plain args
  | mkdir => exact mkdir_blind plain args
  | touch => exact touch_blind plain args
  | cat => exact cat_blind plain args
  | rm => exact rm_command_blind plain args
  | cp => exact cp_blind plain args
  | mv => exact mv_blind plain args
  | ln => exact ln_blind plain args
  | chmod => exact chmod_blind plain args
  | chown => exact chown_blind plain args
  | umask => exact umask_blind args
  | stat => exact stat_blind plain args
  | file => exact file_blind plain offers args
  | clear => exact .pure rfl
  | echo => exact .pure rfl
  | history => exact history_blind args
  | help => exact help_blind args
  | asRoot => exact absurd offers rootless
  | exportNames => exact exportNames_blind args
  | unset => exact unset_blind args
  | env => exact env_blind
  | whoami => exact Caller.user_blind.thenSame fun _ => .pure rfl
  | identity => exact identity_blind ⟨.identity, by decide, offers⟩ args
  | groups => exact groups_blind ⟨.groups, by decide, offers⟩ args
  | hostname => exact hostname_blind ⟨.hostname, by decide, offers⟩
  | which => exact which_blind args
  | describe => exact describe_blind args
  | succeed => exact .pure rfl
  | giveUp => exact .pure rfl
  | basename => exact basename_blind args
  | dirname => exact dirname_blind args
  | readInto => exact readInto_blind args
  | grep => exact grep_blind plain args
  | wc => exact wc_blind plain args
  | head => exact linePart_blind plain _ _ args
  | tail => exact linePart_blind plain _ _ args
  | sort => exact sort_blind plain args
  | uniq => exact uniq_blind plain args
  | cut => exact cut_blind plain args
  | tee => exact tee_blind plain args
  | sed => exact sed_blind plain args
  | awk => exact awk_blind plain args
  | xargs => exact xargs_blind calls args
  | seq => exact seq_blind args
  | find => exact find_blind plain args
  | uname => exact uname_blind ⟨.uname, by decide, offers⟩ args
  | date => exact date_blind args
  | uptime => exact uptime_blind
  | ps => exact ps_blind
  | kill => exact kill_blind args
  | df => exact df_blind args
  | free => exact free_blind args

private theorem runWithin_blind (plain : caller.user ≠ rootUser)
    (rootless : ¬ caller.Offers .asRoot) (depth : Nat) {command : Command}
    (runs : caller.CanRun command) (args : List String) (stdin : Option String) :
    caller.Blind secret (runWithin depth command args stdin) := by
  induction depth generalizing command args stdin with
  | zero =>
    cases command with
    | builtin standard => exact .throw _
    | scripted script => exact runScript_blind script args
  | succ depth ih =>
    cases command with
    | builtin standard =>
      exact runBuiltin_blind plain rootless (fun _ runs args stdin => ih runs args stdin) runs args
    | scripted script => exact runScript_blind script args

/-- Whatever a user runs who cannot act for root does the same in two workspaces that differ in
what a file holds that is kept from the user. -/
theorem run_blind (plain : caller.user ≠ rootUser) (rootless : ¬ caller.Offers .asRoot)
    {command : Command} (runs : caller.CanRun command) (args : List String)
    (stdin : Option String) : caller.Blind secret (run command args stdin) :=
  runWithin_blind plain rootless _ runs args stdin

end PocketShell.Command
