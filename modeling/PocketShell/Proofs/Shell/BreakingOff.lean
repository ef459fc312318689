import PocketShell.Proofs.Shell.Looking

/-! When a standard command breaks off. Commands report what they cannot do, and all that a standard
command does with the filesystem is answered, but for some copies. What is left are the steps that
have no value for some of their inputs: numbers with too many digits, digits without a value,
moments that the calendar does not show, patterns and replacements that are neither read nor
refused. A command breaks off exactly where it comes to such a step. -/
namespace PocketShell.Command

open Shell

/-! ## The conditions -/

/-- Digits that stand for no number: there are too many of them, or some have no decimal value. -/
def Unreadable (digits : String) : Prop := Text.isDigits digits = true ∧ Fails (Text.readInt digits)

/-- A number with more digits than are written. -/
def Unwritable (n : Int) : Prop := Text.maxDigits < (toString n.natAbs).length

/-- A number of seconds after which there is no moment to be shown by the pattern. -/
def Unshowable (pattern : String) (seconds : Binary64) : Prop :=
  Fails (Moment.textOfNumber pattern seconds)

/-- The pattern by which the date is shown. -/
def datePattern (args : List String) : String :=
  match args.head?.map String.toList with
  | some ('+' :: pattern) => String.ofList pattern
  | _ => "%a %b %d %H:%M:%S %Z %Y"

/-- The paths that `ls` lists. -/
def listedPaths (args : List String) : List String :=
  if (splitFlags args).operands.isEmpty then ["."] else (splitFlags args).operands

/-- How `ls` lists them. -/
def listStyle (args : List String) : ListStyle :=
  ⟨(splitFlags args).has 'l', (splitFlags args).has 'a', 1 < (listedPaths args).length⟩

/-- What a listing shows of a path: what it leads to, or the entries if that is a directory. -/
inductive Shows (workspace : Workspace) (user : String) (style : ListStyle) (path : String) :
    List (String × Inode) → Prop
  | single {inode : Inode}
      (found : workspace.answer user (Fs.stat (workspace.pathOf path)) = .ok (.ok inode))
      (other : inode.isDirectory = false) : Shows workspace user style path [(path, inode)]
  | directory {inode : Inode} {children : List Inode}
      (found : workspace.answer user (Fs.stat (workspace.pathOf path)) = .ok (.ok inode))
      (isDirectory : inode.isDirectory = true)
      (opened : workspace.answer user (Fs.listChildren (workspace.pathOf path)) =
        .ok (.ok children)) :
      Shows workspace user style path
        (shownEntries style workspace.machine.volume inode children)

/-- The workspace after copies of a user's, each of a source to a path. -/
def copied (workspace : Workspace) (user goal : String) (recursive : Bool)
    (sources : List String) : Workspace :=
  workspace.follow (sources.map fun source =>
    .serve ⟨user, workspace.cwd⟩ (.cp (workspace.pathOf source) goal recursive))

/-- The command breaks off for the user in the workspace. -/
inductive BreaksOff (workspace : Workspace) :
    (user : String) → Builtin → List String → Option String → Prop
  /-- The number of lines is unreadable. -/
  | history (count : Unreadable arg) : BreaksOff workspace user .history (arg :: rest) stdin
  /-- The number of a process is unreadable. -/
  | kill (listed : arg ∈ args) (number : Unreadable arg) : BreaksOff workspace user .kill args stdin
  /-- An argument is no number although all of them are digits behind hyphens. -/
  | seq (few : args.length ≤ 3) (alike : ∀ arg ∈ args, looksNumeric arg = true)
      (listed : bad ∈ args) (number : Fails (Text.readInt bad)) :
      BreaksOff workspace user .seq args stdin
  /-- The present cannot be shown by the pattern. -/
  | date (present : Unshowable (datePattern args) workspace.machine.now) :
      BreaksOff workspace user .date args stdin
  /-- The time since the first process began is no number, or the present cannot be shown. -/
  | uptime (present : Fails (elapsed (sessionStart workspace.machine.now workspace.processes)
        workspace.machine.now) ∨ Unshowable "%H:%M:%S" workspace.machine.now) :
      BreaksOff workspace user .uptime args stdin
  /-- The time since a process began is no number, or its own number is too long. -/
  | ps (listed : process ∈ workspace.processes)
      (line : Fails (elapsed process.started workspace.machine.now) ∨ Unwritable process.pid) :
      BreaksOff workspace user .ps args stdin
  /-- The numbers of the blocks are too long. -/
  | df (used : blocksOf workspace.machine.volume = blocks)
      (row : Fails (blocksText ((splitFlags args).has 'h') blocks) ∨
        Fails (blocksText ((splitFlags args).has 'h') (diskBlocks - blocks)) ∨
        Unwritable (percentOf blocks)) : BreaksOff workspace user .df args stdin
  /-- A long listing comes to an entry whose time cannot be shown or whose size is too long. -/
  | ls (long : (splitFlags args).has 'l' = true) (listed : path ∈ listedPaths args)
      (shows : Shows workspace user (listStyle args) path entries) (shown : (name, inode) ∈ entries)
      (line : Unshowable "%b %d %H:%M" inode.modified ∨ Unwritable inode.size) :
      BreaksOff workspace user .ls args stdin
  /-- A path leads to an inode whose size is too long or of which a time cannot be shown. -/
  | stat (listed : path ∈ args)
      (found : workspace.answer user (Fs.lstat (workspace.pathOf path)) = .ok (.ok inode))
      (text : Unwritable inode.size ∨ Unshowable "%Y-%m-%d %H:%M:%S" inode.modified ∨
        Unshowable "%Y-%m-%d %H:%M:%S" inode.created) :
      BreaksOff workspace user .stat args stdin
  /-- The pattern is neither read nor refused. -/
  | grep (given : (parseOptions [] args).operands = text :: files)
      (pattern : Pattern.compile (caseFlags ((parseOptions [] args).has 'i')) text =
        .error (.fault fault)) : BreaksOff workspace user .grep args stdin
  /-- The pattern is neither read nor refused. -/
  | sedPattern (given : scriptAndFiles? (parseOptions ['e'] args) = some (script, files))
      (read : Substitution.read? script = some edit)
      (pattern : Pattern.compile (caseFlags edit.ignoreCase) edit.pattern =
        .error (.fault fault)) : BreaksOff workspace user .sed args stdin
  /-- There is a line to edit, and the replacement is neither read nor refused. -/
  | sedReplacement (given : scriptAndFiles? (parseOptions ['e'] args) = some (script, files))
      (read : Substitution.read? script = some edit)
      (compiled : Pattern.compile (caseFlags edit.ignoreCase) edit.pattern = .ok pattern)
      (input : workspace.inputOf? user files stdin = some text) (lines : Text.lines text ≠ [])
      (replacement : Pattern.Replacement.read pattern edit.replacement = .error (.fault fault)) :
      BreaksOff workspace user .sed args stdin
  /-- The pattern is neither read nor refused. -/
  | awkPattern (given : (parseOptions ['F'] args).operands = text :: files)
      (read : Awk.Program.read? text = some program)
      (action : program.action.all Awk.isAction = true)
      (written : program.pattern = some pattern) (filled : pattern.isEmpty = false)
      (fails : Pattern.compile (caseFlags false) pattern = .error (.fault fault)) :
      BreaksOff workspace user .awk args stdin
  /-- The pattern is found in a line, and the number of a field to print is unreadable. -/
  | awkField (given : (parseOptions ['F'] args).operands = text :: files)
      (read : Awk.Program.read? text = some program)
      (action : program.action.all Awk.isAction = true)
      (compiled : Awk.readPattern? program = .ok (.ok pattern))
      (input : workspace.inputOf? user files stdin = some content)
      (present : line ∈ Text.lines content) (found : (pattern.map (·.search line)).getD true = true)
      (printed : .field field ∈ Awk.items (Awk.itemsText program.action))
      (number : Unreadable field) : BreaksOff workspace user .awk args stdin
  /-- The search starts, and the glob for the names makes no pattern. -/
  | find (given : Find.startOf args = (start, tests))
      (read : Find.Query.read ⟨none, none⟩ tests = .ok query)
      (type : query.type.all (fun letter => (Find.typeOf? letter).isSome) = true)
      (found : workspace.answer user (Fs.stat (workspace.pathOf start)) = .ok (.ok inode))
      (named : query.name = some glob) (pattern : Fails (Pattern.Glob.compile glob)) :
      BreaksOff workspace user .find args stdin
  /-- A copy behind others does not end. -/
  | cp (given : sourcesAndGoal "cp" (splitFlags args).operands =
        .ok (before ++ source :: after, goal))
      (endless : ¬ (copied workspace user (workspace.pathOf goal) (isRecursive (splitFlags args))
        before).machine.Answers ⟨user, workspace.cwd⟩ (.cp (workspace.pathOf source)
          (workspace.pathOf goal) (isRecursive (splitFlags args)))) :
      BreaksOff workspace user .cp args stdin
  /-- The command that is run as root breaks off. -/
  | asRoot (known : standardRegistry.get? name = some (.builtin called))
      (breaks : BreaksOff workspace rootUser called rest stdin) :
      BreaksOff workspace user .asRoot (name :: rest) stdin
  /-- The command that is given the words of the input breaks off. -/
  | xargs (known : standardRegistry.get? name = some (.builtin called))
      (breaks : BreaksOff workspace user called (rest ++ Text.words (stdin.getD "")) none) :
      BreaksOff workspace user .xargs (name :: rest) stdin

variable {α β : Type} {caller : Caller Command} {workspace : Workspace} {stdin : Option String}

/-! ## Numbers -/

theorem fails_showNumber_iff {n : Int} : Fails (showNumber n) ↔ Unwritable n := by
  unfold showNumber Unwritable
  split
  · rename_i long
    exact iff_of_true ⟨_, rfl⟩ long
  · rename_i short
    exact iff_of_false not_fails_ok short

theorem fails_wholeNumber_iff {digits : String} :
    Fails (wholeNumber digits) ↔ Fails (Text.readInt digits) := by
  unfold wholeNumber
  cases Text.readInt digits <;> simp [Except.mapError]

theorem result_lift_bind {result : Except Fault α} {next : α → Run Command β} :
    ((liftM result >>= next) caller workspace).1 =
      result >>= fun value => (next value caller workspace).1 := by
  rw [Task.bind_run, Task.lift_run]
  cases result <;> rfl

/-- A command that computes a value first and then cannot fail. -/
theorem fails_lift_iff {result : Except Fault α} {next : α → Run Command β}
    (succeeds : ∀ value after, ¬ Fails (next value caller after).1) :
    Fails ((liftM result >>= next) caller workspace).1 ↔ Fails result := by
  rw [fails_bind_iff succeeds, Task.lift_run]

theorem fails_history_iff (args : List String) : Fails (history args caller workspace).1 ↔
    BreaksOff workspace caller.user .history args stdin := by
  unfold history
  rw [Task.get_bind_run]
  split
  · refine iff_of_false not_fails_ok ?_
    rintro ⟨digits, -⟩
    revert digits
    decide
  · split
    · rename_i digits
      rw [fails_lift_iff fun _ _ => not_fails_ok, fails_wholeNumber_iff]
      exact ⟨fun fails => .history ⟨digits, fails⟩, fun | .history count => count.2⟩
    · rename_i other
      exact iff_of_false not_fails_ok fun | .history count => other count.1
  · exact iff_of_false not_fails_ok nofun

private theorem fails_endNamed_iff {user arg : String} {processes : List Proc} :
    Fails (endNamed user processes arg) ↔ Unreadable arg := by
  unfold endNamed Unreadable
  cases digits : Text.isDigits arg with
  | false => exact iff_of_false not_fails_ok (by simp)
  | true =>
    rw [← fails_wholeNumber_iff]
    change Fails (wholeNumber arg >>= _) ↔ _
    refine (fails_bind_of_succeeds fun pid => ?_).trans (iff_and_self.mpr fun _ => rfl)
    split
    · exact not_fails_ok
    · split <;> exact not_fails_ok

private theorem fails_endEach_iff {user : String} {processes : List Proc} {args : List String} :
    Fails (endEach user processes args) ↔ ∃ arg ∈ args, Unreadable arg := by
  induction args generalizing processes with
  | nil => exact iff_of_false not_fails_ok (by simp)
  | cons arg rest ih =>
    have behind : ∀ (ended : List Proc × Option String),
        Fails (endEach user ended.1 rest >>= fun others =>
          pure (others.1, ended.2.toList ++ others.2)) ↔ ∃ arg ∈ rest, Unreadable arg :=
      fun _ => (fails_bind_of_succeeds fun _ => not_fails_ok).trans ih
    change Fails (endNamed user processes arg >>= fun ended => endEach user ended.1 rest >>=
      fun others => pure (others.1, ended.2.toList ++ others.2)) ↔ _
    rw [fails_bind_of_iff behind, fails_endNamed_iff]
    simp only [List.mem_cons, exists_eq_or_imp]

/-- What begins with a hyphen are no digits. -/
private theorem not_startsWith_of_isDigits {arg : String} (digits : Text.isDigits arg = true) :
    arg.startsWith "-" = false := by
  rw [Bool.eq_false_iff, ne_eq, String.startsWith_string_iff]
  intro starts
  have hyphen : '-' ∈ arg.toList := starts.subset (by simp)
  unfold Text.isDigits at digits
  have digit := List.all_eq_true.mp (Bool.and_eq_true_iff.mp digits).2 '-' hyphen
  revert digit
  decide

theorem fails_kill_iff (args : List String) : Fails (kill args caller workspace).1 ↔
    BreaksOff workspace caller.user .kill args stdin := by
  have named : (∃ arg ∈ args.filter fun arg => !arg.startsWith "-", Unreadable arg) ↔
      BreaksOff workspace caller.user .kill args stdin := by
    constructor
    · rintro ⟨arg, listed, unreadable⟩
      exact .kill (List.mem_of_mem_filter listed) unreadable
    · rintro (_ | ⟨listed, unreadable⟩)
      refine ⟨_, List.mem_filter.mpr ⟨listed, ?_⟩, unreadable⟩
      rw [not_startsWith_of_isDigits unreadable.1]
      rfl
  rw [← named]
  unfold kill
  dsimp only
  split
  · rename_i none
    rw [List.isEmpty_iff.mp none]
    exact iff_of_false not_fails_ok (by simp)
  · rw [Task.get_bind_run, Run.user_bind_run, fails_lift_iff ?_, fails_endEach_iff]
    rintro ⟨remaining, errors⟩ after
    dsimp only
    split <;> exact not_fails_ok

private theorem fails_numbersOf_iff {args : List String} : Fails (numbersOf args) ↔
    (∃ bad ∈ args, Fails (Text.readInt bad)) ∧ ∀ arg ∈ args, looksNumeric arg = true := by
  have unread : ∀ arg, (Text.readInt arg).toOption.isNone = true ↔ Fails (Text.readInt arg) := by
    intro arg
    cases Text.readInt arg <;> simp [Except.toOption]
  unfold numbersOf
  cases bad : args.find? fun arg => (Text.readInt arg).toOption.isNone with
  | none =>
    refine iff_of_false not_fails_ok ?_
    rintro ⟨⟨arg, listed, fails⟩, -⟩
    exact List.find?_eq_none.mp bad arg listed ((unread arg).mpr fails)
  | some arg =>
    have listed : ∃ bad ∈ args, Fails (Text.readInt bad) :=
      ⟨arg, List.mem_of_find?_eq_some bad, (unread arg).mp (by simpa using List.find?_some bad)⟩
    dsimp only
    cases other : args.find? (!looksNumeric ·) with
    | none =>
      refine iff_of_true fails_error ⟨listed, fun arg listed => ?_⟩
      simpa using List.find?_eq_none.mp other arg listed
    | some offender =>
      refine iff_of_false not_fails_ok fun both => ?_
      have numeric := both.2 offender (List.mem_of_find?_eq_some other)
      have found := List.find?_some other
      simp [numeric] at found

theorem fails_seq_iff (args : List String) : Fails (seq args caller workspace).1 ↔
    BreaksOff workspace caller.user .seq args stdin := by
  have conditions : BreaksOff workspace caller.user .seq args stdin ↔
      args.length ≤ 3 ∧ Fails (numbersOf args) := by
    rw [fails_numbersOf_iff]
    constructor
    · rintro (_ | _ | ⟨few, alike, listed, number⟩)
      exact ⟨few, ⟨_, listed, number⟩, alike⟩
    · rintro ⟨few, ⟨bad, listed, number⟩, alike⟩
      exact .seq few alike listed number
  rw [conditions]
  unfold seq
  split
  · rename_i usage
    refine iff_of_false not_fails_ok ?_
    rintro ⟨few, fails⟩
    simp only [Bool.or_eq_true, List.isEmpty_iff, decide_eq_true_eq] at usage
    rcases usage with rfl | many
    · exact not_fails_ok fails
    · omega
  · rename_i usage
    have few : args.length ≤ 3 := by simp at usage; omega
    rw [fails_lift_iff ?_]
    · exact (and_iff_right few).symm
    intro numbers after
    cases numbers with
    | error failure => exact not_fails_ok
    | ok numbers =>
      dsimp only
      cases Progression.ofNumbers? numbers with
      | none => exact not_fails_ok
      | some progression =>
        dsimp only
        split <;> exact not_fails_ok

/-! ## Times and sizes -/

private theorem fails_showTime_iff {pattern : String} :
    Fails (showTime pattern caller workspace).1 ↔ Unshowable pattern workspace.machine.now := by
  change Fails ((liftM (Moment.textOfNumber pattern workspace.machine.now) >>= fun text =>
    pure (Outcome.text text) : Job) caller workspace).1 ↔ _
  exact fails_lift_iff fun _ _ => not_fails_ok

theorem fails_date_iff (args : List String) : Fails (date args caller workspace).1 ↔
    BreaksOff workspace caller.user .date args stdin := by
  have same : date args = showTime (datePattern args) := by
    unfold date datePattern
    rcases args.head?.map String.toList with _ | _ | ⟨sign, pattern⟩
    · rfl
    · rfl
    · by_cases plus : sign = '+' <;> simp [plus]
  rw [same, fails_showTime_iff]
  refine ⟨.date, fun breaks => ?_⟩
  cases breaks with
  | date present => exact present

theorem fails_uptime_iff (args : List String) : Fails (uptime caller workspace).1 ↔
    BreaksOff workspace caller.user .uptime args stdin := by
  have conditions : BreaksOff workspace caller.user .uptime args stdin ↔ Fails (elapsed
      (sessionStart workspace.machine.now workspace.processes) workspace.machine.now) ∨
      Unshowable "%H:%M:%S" workspace.machine.now :=
    ⟨fun | .uptime present => present, .uptime⟩
  rw [conditions]
  unfold uptime
  rw [Run.now_bind_run, Task.get_bind_run, result_lift_bind]
  exact fails_bind_of_iff fun _ => fails_lift_iff fun _ _ => not_fails_ok

private theorem fails_processLine_iff {now : Binary64} {process : Proc} :
    Fails (processLine now process) ↔
      Fails (elapsed process.started now) ∨ Unwritable process.pid := by
  unfold processLine
  refine fails_bind_of_iff fun seconds => ?_
  exact (fails_bind_of_succeeds fun _ => not_fails_ok).trans fails_showNumber_iff

theorem fails_ps_iff (args : List String) : Fails (ps caller workspace).1 ↔
    BreaksOff workspace caller.user .ps args stdin := by
  have conditions : BreaksOff workspace caller.user .ps args stdin ↔
      ∃ process ∈ workspace.processes, Fails (processLine workspace.machine.now process) := by
    simp only [fails_processLine_iff]
    exact ⟨fun | .ps listed line => ⟨_, listed, line⟩, fun ⟨_, listed, line⟩ => .ps listed line⟩
  rw [conditions]
  unfold ps
  rw [Run.now_bind_run, Task.get_bind_run, fails_lift_iff fun _ _ => not_fails_ok, fails_mapM]
  simp only [List.mem_mergeSort]

/-- The size of the disk itself can be shown. -/
private theorem not_fails_diskBlocks {human : Bool} : ¬ Fails (blocksText human diskBlocks) := by
  cases human <;> exact not_fails_ok

theorem fails_df_iff (args : List String) : Fails (df args caller workspace).1 ↔
    BreaksOff workspace caller.user .df args stdin := by
  have conditions : BreaksOff workspace caller.user .df args stdin ↔
      Fails (blocksText ((splitFlags args).has 'h') (blocksOf workspace.machine.volume)) ∨
        Fails (blocksText ((splitFlags args).has 'h')
          (diskBlocks - blocksOf workspace.machine.volume)) ∨
        Unwritable (percentOf (blocksOf workspace.machine.volume)) :=
    ⟨fun | .df rfl row => row, .df rfl⟩
  rw [conditions]
  unfold df
  rw [Task.get_bind_run, result_lift_bind]
  refine (fails_bind_of_iff fun _ => ?_).trans (or_iff_right not_fails_diskBlocks)
  rw [result_lift_bind]
  refine fails_bind_of_iff fun _ => ?_
  rw [result_lift_bind]
  refine fails_bind_of_iff fun _ => ?_
  exact (fails_lift_iff fun _ _ => not_fails_ok).trans fails_showNumber_iff

end PocketShell.Command
