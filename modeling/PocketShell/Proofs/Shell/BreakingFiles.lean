import PocketShell.Proofs.Shell.BreakingOff

/-! Where the standard commands break off that work on entries and on the contents of files. What
they come to is decided by looking alone, but for copies, which change what the next one finds. -/
namespace PocketShell.Command

open Shell

variable {α β : Type} {caller : Caller Command} {workspace : Workspace} {stdin : Option String}

/-! ## Entries -/

private theorem fails_longEntry_iff {name : String} {inode : Inode} :
    Fails (longEntry name inode) ↔
      Unshowable "%b %d %H:%M" inode.modified ∨ Unwritable inode.size := by
  unfold longEntry
  refine fails_bind_of_iff fun stamp => ?_
  exact (fails_bind_of_succeeds fun _ => not_fails_ok).trans fails_showNumber_iff

private theorem fails_statusText_iff {path : String} {inode : Inode} :
    Fails (statusText path inode) ↔ Unwritable inode.size ∨
      Unshowable "%Y-%m-%d %H:%M:%S" inode.modified ∨
        Unshowable "%Y-%m-%d %H:%M:%S" inode.created := by
  unfold statusText
  rw [← fails_showNumber_iff]
  refine fails_bind_of_iff fun size => ?_
  refine fails_bind_of_iff fun modified => ?_
  exact (fails_bind_of_succeeds fun _ => not_fails_ok)

private theorem fails_listing_iff {style : ListStyle} {path : String} {directory : Bool}
    {entries : List (String × Inode)} : Fails (listing style path directory entries) ↔
      style.long = true ∧ ∃ entry ∈ entries, Fails (longEntry entry.1 entry.2) := by
  unfold listing
  cases style.long with
  | false => exact iff_of_false not_fails_ok (by simp)
  | true =>
    refine ((fails_bind_of_succeeds fun _ => not_fails_ok).trans fails_mapM).trans ?_
    simp only [true_and]

/-! ## Patterns -/

/-- Where a refusal does not fail, a command that reads one of its arguments fails as the reading
does, or as what follows on a value does. -/
theorem fails_reading_iff {result : Except Fault (Except Outcome α)}
    {next : Except Outcome α → Run Command β}
    (refuses : ∀ failure, ¬ Fails (next (.error failure) caller workspace).1) :
    Fails ((liftM result >>= next) caller workspace).1 ↔ Fails result ∨
      ∃ value, result = .ok (.ok value) ∧ Fails (next (.ok value) caller workspace).1 := by
  rw [result_lift_bind, fails_bind]
  refine or_congr_right ⟨?_, fun ⟨value, read, fails⟩ => ⟨.ok value, read, fails⟩⟩
  rintro ⟨answer, read, fails⟩
  cases answer with
  | error failure => exact (refuses failure fails).elim
  | ok value => exact ⟨value, read, fails⟩

theorem fails_readPattern_iff {ignoreCase : Bool} {wording : String → Outcome} {text : String} :
    Fails (readPattern ignoreCase wording text) ↔
      ∃ fault, Pattern.compile (caseFlags ignoreCase) text = .error (.fault fault) := by
  unfold readPattern
  cases Pattern.compile (caseFlags ignoreCase) text with
  | ok pattern => exact iff_of_false not_fails_ok (by simp)
  | error failure => cases failure <;> simp

theorem readPattern_eq_ok {ignoreCase : Bool} {wording : String → Outcome} {text : String}
    {pattern : Pattern} : readPattern ignoreCase wording text = .ok (.ok pattern) ↔
      Pattern.compile (caseFlags ignoreCase) text = .ok pattern := by
  unfold readPattern
  cases Pattern.compile (caseFlags ignoreCase) text with
  | ok pattern => simp
  | error failure => cases failure <;> simp

/-- Without a line the replacement is not read. -/
private theorem substitute_eq_fault {pattern : Pattern} {replacement : String} {all : Bool}
    {lines : List String} {fault : Fault} :
    substitute pattern replacement all lines = .error (.fault fault) ↔
      lines ≠ [] ∧ Pattern.Replacement.read pattern replacement = .error (.fault fault) := by
  cases lines with
  | nil => simp [substitute]
  | cons line rest =>
    unfold substitute
    rw [bind_eq_error]
    simp [pure, Except.pure]

private theorem fails_field_iff {record : Awk.Record} {name : String} :
    Fails (record.field name) ↔ Unreadable name := by
  unfold Awk.Record.field Unreadable
  by_cases last : name = "NF"
  · rw [if_pos last, last]
    exact iff_of_false not_fails_ok fun unreadable => absurd unreadable.1 (by decide)
  rw [if_neg last]
  cases Text.isDigits name with
  | false => exact iff_of_false not_fails_ok (by simp)
  | true =>
    refine ((fails_bind_of_succeeds fun _ => not_fails_ok).trans fails_wholeNumber_iff).trans ?_
    simp

/-- Printing comes to every item, whatever the record. -/
private theorem fails_pieces_iff {record : Awk.Record} {items : List Awk.Item} :
    Fails (record.pieces items) ↔ ∃ name, .field name ∈ items ∧ Unreadable name := by
  induction items with
  | nil => exact iff_of_false not_fails_ok (by simp)
  | cons item rest ih =>
    -- an item other than a comma is made a text, and this is put before the next piece
    cases item with
    | comma => exact ((fails_bind_of_succeeds fun _ => not_fails_ok).trans ih).trans (by simp)
    | field name =>
      refine (fails_bind_of_iff fun text =>
        (fails_bind_of_succeeds fun more => ?_).trans ih).trans ?_
      · cases more <;> exact not_fails_ok
      · simp only [fails_field_iff, List.mem_cons, Awk.Item.field.injEq, or_and_right, exists_or,
          exists_eq_left]
    | _ =>
      refine (fails_bind_of_iff fun text =>
        (fails_bind_of_succeeds fun more => ?_).trans ih).trans ?_
      · cases more <;> exact not_fails_ok
      · simp [pure, Except.pure]

/-- A field is looked for in every line in which the pattern is found. -/
private theorem fails_run_iff {pattern : Option Pattern} {separator : Option String}
    {items : List Awk.Item} {text : String} : Fails (Awk.run pattern separator items text) ↔
      (∃ line ∈ Text.lines text, (pattern.map (·.search line)).getD true = true) ∧
        ∃ name, .field name ∈ items ∧ Unreadable name := by
  have prints : ∀ record : Awk.Record, Fails (record.print items) ↔
      ∃ name, .field name ∈ items ∧ Unreadable name :=
    fun _ => (fails_bind_of_succeeds fun _ => not_fails_ok).trans fails_pieces_iff
  unfold Awk.run
  refine fails_mapM.trans ?_
  have lines : (Text.lines text).zipIdx.map Prod.fst = Text.lines text :=
    List.zipIdx_map_fst 0 _
  have listed : ∀ line, line ∈ Text.lines text ↔
      ∃ record ∈ (Text.lines text).zipIdx, record.1 = line := by
    intro line
    rw [← List.mem_map, lines]
  simp only [prints, List.mem_filter, listed]
  constructor
  · rintro ⟨record, ⟨listed, found⟩, field⟩
    exact ⟨⟨record.1, ⟨record, listed, rfl⟩, found⟩, field⟩
  · rintro ⟨⟨_, ⟨record, listed, rfl⟩, found⟩, field⟩
    exact ⟨record, ⟨listed, found⟩, field⟩

private theorem fails_programPattern_iff {program : Awk.Program} :
    Fails (Awk.readPattern? program) ↔ ∃ text, program.pattern = some text ∧
      text.isEmpty = false ∧ ∃ fault,
        Pattern.compile (caseFlags false) text = .error (.fault fault) := by
  unfold Awk.readPattern?
  cases found : program.pattern.filter (!·.isEmpty) with
  | none =>
    refine iff_of_false not_fails_ok ?_
    rintro ⟨text, written, filled, -⟩
    rw [written, Option.filter_some, filled] at found
    cases found
  | some text =>
    obtain ⟨written, filled⟩ := Option.filter_eq_some_iff.mp found
    refine ((fails_bind_of_succeeds fun _ => not_fails_ok).trans fails_readPattern_iff).trans ?_
    simp only [written, Option.some.injEq]
    exact ⟨fun fails => ⟨text, rfl, by simpa using filled, fails⟩, fun ⟨_, rfl, _, fails⟩ => fails⟩

private theorem all_isSome_iff {α β : Type} {f : α → Option β} {value : Option α} :
    value.all (fun x => (f x).isSome) = true ↔ value.filter (fun x => (f x).isNone) = none := by
  cases value with
  | none => simp
  | some x => cases image : f x <;> simp [Option.filter, image]

private theorem fails_filter_iff {query : Find.Query} : Fails query.filter ↔
    ∃ glob, query.name = some glob ∧ Fails (Pattern.Glob.compile glob) := by
  unfold Find.Query.filter
  cases query.name with
  | none => exact iff_of_false not_fails_ok (by simp)
  | some glob =>
    simp only [Option.some.injEq, exists_eq_left']
    cases Pattern.Glob.compile glob with
    | ok pattern => simp
    | error failure => cases failure <;> simp

/-! ## What breaking off comes to -/

private theorem breaksOff_stat_iff {user : String} {args : List String} :
    BreaksOff workspace user .stat args stdin ↔ ∃ path ∈ args, ∃ inode,
      workspace.answer user (Fs.lstat (workspace.pathOf path)) = .ok (.ok inode) ∧
        Fails (statusText path inode) := by
  simp only [fails_statusText_iff]
  constructor
  · rintro (_ | _ | _ | _ | _ | _ | _ | _ | ⟨listed, found, text⟩)
    exact ⟨_, listed, _, found, text⟩
  · rintro ⟨path, listed, inode, found, text⟩
    exact .stat listed found text

private theorem exists_shows_iff {user path : String} {style : ListStyle}
    {P : List (String × Inode) → Prop} :
    (∃ entries, Shows workspace user style path entries ∧ P entries) ↔
      ∃ inode, workspace.answer user (Fs.stat (workspace.pathOf path)) = .ok (.ok inode) ∧
        ((inode.isDirectory = false ∧ P [(path, inode)]) ∨
          (inode.isDirectory = true ∧ ∃ children,
            workspace.answer user (Fs.listChildren (workspace.pathOf path)) =
              .ok (.ok children) ∧
            P (shownEntries style workspace.machine.volume inode children))) := by
  constructor
  · rintro ⟨entries, shows, holds⟩
    cases shows with
    | single found other => exact ⟨_, found, .inl ⟨other, holds⟩⟩
    | directory found isDirectory opens =>
      exact ⟨_, found, .inr ⟨isDirectory, _, opens, holds⟩⟩
  · rintro ⟨inode, found, ⟨other, holds⟩ | ⟨isDirectory, children, opens, holds⟩⟩
    · exact ⟨_, .single found other, holds⟩
    · exact ⟨_, .directory found isDirectory opens, holds⟩

private theorem breaksOff_ls_iff {user : String} {args : List String} :
    BreaksOff workspace user .ls args stdin ↔ ∃ path ∈ listedPaths args, ∃ entries,
      Shows workspace user (listStyle args) path entries ∧ (listStyle args).long = true ∧
        ∃ entry ∈ entries, Fails (longEntry entry.1 entry.2) := by
  simp only [fails_longEntry_iff]
  constructor
  · rintro (_ | _ | _ | _ | _ | _ | _ | ⟨long, listed, shows, shown, line⟩)
    exact ⟨_, listed, _, shows, long, _, shown, line⟩
  · rintro ⟨path, listed, entries, shows, long, entry, shown, line⟩
    exact .ls long listed shows shown line

private theorem breaksOff_grep_iff {user text : String} {args files : List String}
    (given : (parseOptions [] args).operands = text :: files) :
    BreaksOff workspace user .grep args stdin ↔ ∃ fault,
      Pattern.compile (caseFlags ((parseOptions [] args).has 'i')) text =
        .error (.fault fault) := by
  constructor
  · intro breaks
    cases breaks with
    | grep other pattern =>
      cases given.symm.trans other
      exact ⟨_, pattern⟩
  · rintro ⟨fault, pattern⟩
    exact .grep given pattern

private theorem breaksOff_sed_iff {user script : String} {args files : List String}
    {edit : Substitution}
    (given : scriptAndFiles? (parseOptions ['e'] args) = some (script, files))
    (read : Substitution.read? script = some edit) :
    BreaksOff workspace user .sed args stdin ↔
      (∃ fault, Pattern.compile (caseFlags edit.ignoreCase) edit.pattern =
        .error (.fault fault)) ∨
      ∃ pattern, Pattern.compile (caseFlags edit.ignoreCase) edit.pattern = .ok pattern ∧
        ∃ text, workspace.inputOf? user files stdin = some text ∧ ∃ fault,
          substitute pattern edit.replacement edit.all (Text.lines text) =
            .error (.fault fault) := by
  simp only [substitute_eq_fault]
  constructor
  · intro breaks
    cases breaks with
    | sedPattern other same pattern =>
      cases given.symm.trans other
      cases read.symm.trans same
      exact .inl ⟨_, pattern⟩
    | sedReplacement other same compiled input lines replacement =>
      cases given.symm.trans other
      cases read.symm.trans same
      exact .inr ⟨_, compiled, _, input, _, lines, replacement⟩
  · rintro (⟨fault, pattern⟩ | ⟨pattern, compiled, text, input, fault, lines, replacement⟩)
    · exact .sedPattern given read pattern
    · exact .sedReplacement given read compiled input lines replacement

private theorem breaksOff_awk_iff {user text : String} {args files : List String}
    {program : Awk.Program} (given : (parseOptions ['F'] args).operands = text :: files)
    (read : Awk.Program.read? text = some program)
    (action : program.action.all Awk.isAction = true) :
    BreaksOff workspace user .awk args stdin ↔
      Fails (Awk.readPattern? program) ∨ ∃ pattern,
        Awk.readPattern? program = .ok (.ok pattern) ∧ ∃ content,
          workspace.inputOf? user files stdin = some content ∧
            Fails (Awk.run pattern ((parseOptions ['F'] args).value? 'F')
              (Awk.items (Awk.itemsText program.action)) content) := by
  simp only [fails_programPattern_iff, fails_run_iff]
  constructor
  · intro breaks
    cases breaks with
    | awkPattern other again _ written filled fails =>
      cases given.symm.trans other
      cases read.symm.trans again
      exact .inl ⟨_, written, filled, _, fails⟩
    | awkField other again _ compiled input present found printed number =>
      cases given.symm.trans other
      cases read.symm.trans again
      exact .inr ⟨_, compiled, _, input, ⟨_, present, found⟩, _, printed, number⟩
  · rintro (⟨pattern, written, filled, fault, fails⟩ | ⟨pattern, compiled, content, input,
      ⟨line, present, found⟩, field, printed, number⟩)
    · exact .awkPattern given read action written filled fails
    · exact .awkField given read action compiled input present found printed number

private theorem breaksOff_find_iff {user start : String} {args tests : List String}
    {query : Find.Query} (given : Find.startOf args = (start, tests))
    (read : Find.Query.read ⟨none, none⟩ tests = .ok query) :
    BreaksOff workspace user .find args stdin ↔
      (query.type.filter fun letter => (Find.typeOf? letter).isNone) = none ∧ ∃ inode,
        workspace.answer user (Fs.stat (workspace.pathOf start)) = .ok (.ok inode) ∧
          Fails query.filter := by
  rw [← all_isSome_iff, fails_filter_iff]
  constructor
  · intro breaks
    cases breaks with
    | find other again type found named pattern =>
      cases given.symm.trans other
      cases read.symm.trans again
      exact ⟨type, _, found, _, named, pattern⟩
  · rintro ⟨type, inode, found, glob, named, pattern⟩
    exact .find given read type found named pattern

private theorem breaksOff_cp_iff {user goal : String} {args sources : List String}
    (given : sourcesAndGoal "cp" (splitFlags args).operands = .ok (sources, goal)) :
    BreaksOff workspace user .cp args stdin ↔
      ∃ before source after, sources = before ++ source :: after ∧
        ¬ (copied workspace user (workspace.pathOf goal) (isRecursive (splitFlags args))
          before).machine.Answers ⟨user, workspace.cwd⟩ (.cp (workspace.pathOf source)
            (workspace.pathOf goal) (isRecursive (splitFlags args))) := by
  constructor
  · intro breaks
    cases breaks with
    | cp other endless =>
      cases given.symm.trans other
      exact ⟨_, _, _, rfl, endless⟩
  · rintro ⟨before, source, after, rfl, endless⟩
    exact .cp given endless

/-! ## Commands that only look -/

section

variable (reachable : Reachable Snapshot.Keyed workspace.machine)

include reachable

theorem fails_stat_iff (args : List String) : Fails (stat args caller workspace).1 ↔
    BreaksOff workspace caller.user .stat args stdin := by
  rw [breaksOff_stat_iff]
  unfold stat
  split
  · rename_i none
    rw [List.isEmpty_iff.mp none]
    exact iff_of_false not_fails_ok (by simp)
  · refine (fails_bind_iff fun _ _ => not_fails_ok).trans ?_
    refine (fails_gather_iff reachable (fun path => ?_) args).trans ?_
    · refine (Looks.path path).bind fun target => (lstat_looks target).bind fun result => ?_
      cases result with
      | error reason => exact .pure _
      | ok inode => exact (Looks.lift _).bind fun _ => .pure _
    · refine exists_congr fun path => and_congr_right fun _ => ?_
      rw [Run.path_bind_run]
      refine (fails_ask_iff reachable (lstat_asks _) (lstat_looks _) (fun result => ?_)
        fun _ => not_fails_ok).trans ?_
      · cases result with
        | error reason => exact .pure _
        | ok inode => exact (Acts.lift _).bind fun _ => .pure _
      · exact exists_congr fun inode => and_congr_right fun _ =>
          fails_lift_iff fun _ _ => not_fails_ok

omit reachable in
private theorem listPath_looks (style : ListStyle) (path : String) :
    Looks (listPath style path) := by
  refine (Looks.path path).bind fun target => (stat_looks target).bind fun result => ?_
  cases result with
  | error reason => exact .pure _
  | ok inode =>
    dsimp only
    split
    · exact (Looks.lift _).bind fun _ => .pure _
    refine (listChildren_looks target).bind fun result => ?_
    cases result with
    | error reason => exact .pure _
    | ok children =>
      exact .get (fun _ _ => rfl) fun _ => (Looks.lift _).bind fun _ => .pure _

/-- What a path is found to be decides which listing is made. -/
private theorem fails_listPath_iff {style : ListStyle} {path : String} :
    Fails (listPath style path caller workspace).1 ↔ ∃ entries,
      Shows workspace caller.user style path entries ∧ style.long = true ∧
        ∃ entry ∈ entries, Fails (longEntry entry.1 entry.2) := by
  unfold listPath
  rw [exists_shows_iff, Run.path_bind_run]
  refine (fails_ask_iff reachable (stat_asks _) (stat_looks _) (fun result => ?_)
    fun _ => not_fails_ok).trans ?_
  · cases result with
    | error reason => exact .pure _
    | ok inode =>
      dsimp only
      split
      · exact (Acts.lift _).bind fun _ => .pure _
      refine (listChildren_asks _).acts.bind fun result => ?_
      cases result with
      | error reason => exact .pure _
      | ok children =>
        exact .get (fun _ _ => rfl) fun _ => (Acts.lift _).bind fun _ => .pure _
  refine exists_congr fun inode => and_congr_right fun _ => ?_
  dsimp only
  cases inode.isDirectory with
  | false =>
    refine ((fails_lift_iff fun _ _ => not_fails_ok).trans fails_listing_iff).trans ?_
    simp
  | true =>
    refine (fails_ask_iff reachable (listChildren_asks _) (listChildren_looks _)
      (fun result => ?_) fun _ => not_fails_ok).trans ?_
    · cases result with
      | error reason => exact .pure _
      | ok children =>
        exact .get (fun _ _ => rfl) fun _ => (Acts.lift _).bind fun _ => .pure _
    · refine (exists_congr fun children => and_congr_right fun _ =>
        (fails_lift_iff fun _ _ => not_fails_ok).trans fails_listing_iff).trans ?_
      simp

theorem fails_ls_iff (args : List String) : Fails (ls args caller workspace).1 ↔
    BreaksOff workspace caller.user .ls args stdin := by
  rw [breaksOff_ls_iff]
  refine (fails_bind_iff fun _ _ => not_fails_ok).trans ?_
  refine (fails_gather_iff reachable (listPath_looks _) _).trans ?_
  exact exists_congr fun path => and_congr_right fun _ => fails_listPath_iff reachable

theorem fails_grep_iff (args : List String) :
    Fails (grep args stdin caller workspace).1 ↔
      BreaksOff workspace caller.user .grep args stdin := by
  unfold grep
  dsimp only
  cases given : (parseOptions [] args).operands with
  | nil =>
    refine iff_of_false not_fails_ok fun breaks => ?_
    cases breaks with
    | grep other pattern => cases given.symm.trans other
  | cons text files =>
    rw [breaksOff_grep_iff given]
    refine (fails_reading_iff fun _ => not_fails_ok).trans ?_
    rw [fails_readPattern_iff, or_iff_left]
    rintro ⟨pattern, -, fails⟩
    refine not_fails_iff.mpr (Completes.succeeds ?_ reachable) fails
    refine (grepSources_completes _).bind fun gathered => ?_
    split <;> exact .pure _

theorem fails_sed_iff (args : List String) :
    Fails (sed args stdin caller workspace).1 ↔
      BreaksOff workspace caller.user .sed args stdin := by
  unfold sed
  cases given : scriptAndFiles? (parseOptions ['e'] args) with
  | none =>
    refine iff_of_false not_fails_ok fun breaks => ?_
    cases breaks with
    | sedPattern other => cases given.symm.trans other
    | sedReplacement other => cases given.symm.trans other
  | some found =>
    obtain ⟨script, files⟩ := found
    dsimp only
    cases read : Substitution.read? script with
    | none =>
      refine iff_of_false not_fails_ok fun breaks => ?_
      cases breaks with
      | sedPattern other edit =>
        cases given.symm.trans other
        cases read.symm.trans edit
      | sedReplacement other edit =>
        cases given.symm.trans other
        cases read.symm.trans edit
    | some edit =>
      rw [breaksOff_sed_iff given read]
      refine (fails_reading_iff fun _ => not_fails_ok).trans ?_
      simp only [fails_readPattern_iff, readPattern_eq_ok]
      refine or_congr_right (exists_congr fun pattern => and_congr_right fun _ => ?_)
      refine (fails_withInput_iff reachable "sed" files fun text => ?_).trans ?_
      · split
        · exact .pure _
        · exact .pure _
        · exact .throw _
      refine exists_congr fun text => and_congr_right fun _ => ?_
      cases substitute pattern edit.replacement edit.all (Text.lines text) with
      | ok lines => exact iff_of_false not_fails_ok (by simp)
      | error failure =>
        cases failure with
        | refused error => exact iff_of_false not_fails_ok (by simp)
        | fault fault => exact iff_of_true ⟨fault, rfl⟩ ⟨fault, rfl⟩

theorem fails_awk_iff (args : List String) :
    Fails (awk args stdin caller workspace).1 ↔
      BreaksOff workspace caller.user .awk args stdin := by
  unfold awk
  dsimp only
  cases given : (parseOptions ['F'] args).operands with
  | nil =>
    refine iff_of_false not_fails_ok fun breaks => ?_
    cases breaks with
    | awkPattern other => cases given.symm.trans other
    | awkField other => cases given.symm.trans other
  | cons text files =>
    dsimp only
    cases read : (Awk.Program.read? text).filter (·.action.all Awk.isAction) with
    | none =>
      have unread : ∀ program, Awk.Program.read? text = some program →
          program.action.all Awk.isAction ≠ true := by
        simpa [Option.filter_eq_none_iff] using read
      refine iff_of_false not_fails_ok fun breaks => ?_
      cases breaks with
      | awkPattern other read action =>
        cases given.symm.trans other
        exact unread _ read action
      | awkField other read action =>
        cases given.symm.trans other
        exact unread _ read action
    | some program =>
      obtain ⟨same, action⟩ := Option.filter_eq_some_iff.mp read
      rw [breaksOff_awk_iff given same action]
      refine (fails_reading_iff fun _ => not_fails_ok).trans ?_
      refine or_congr_right (exists_congr fun pattern => and_congr_right fun _ => ?_)
      refine (fails_withInput_iff reachable "awk" files fun text =>
        (Acts.lift _).bind fun _ => .pure _).trans ?_
      exact exists_congr fun content => and_congr_right fun _ =>
        fails_lift_iff fun _ _ => not_fails_ok

theorem fails_find_iff (args : List String) :
    Fails (find args caller workspace).1 ↔ BreaksOff workspace caller.user .find args stdin := by
  unfold find
  cases given : Find.startOf args with
  | mk start tests =>
    dsimp only
    cases read : Find.Query.read ⟨none, none⟩ tests with
    | error option =>
      refine iff_of_false not_fails_ok fun breaks => ?_
      cases breaks with
      | find other again =>
        cases given.symm.trans other
        cases read.symm.trans again
    | ok query =>
      rw [breaksOff_find_iff given read]
      dsimp only
      cases query.type.filter fun letter => (Find.typeOf? letter).isNone with
      | some letter => exact iff_of_false not_fails_ok (by simp)
      | none =>
        dsimp only
        rw [Run.path_bind_run]
        refine (fails_ask_iff reachable (stat_asks _) (stat_looks _) (fun result => ?_)
          fun _ => not_fails_ok).trans ?_
        · cases result with
          | error reason => exact .pure _
          | ok inode =>
            exact (Acts.lift _).bind fun _ => .get (fun _ _ => rfl) fun _ =>
              Acts.user.bind fun _ => .pure _
        · simp only [true_and]
          exact exists_congr fun inode => and_congr_right fun _ =>
            fails_lift_iff fun _ _ => not_fails_ok

end

/-! ## Copies -/

/-- Copies one after another fail at the first one that is not answered. -/
private theorem fails_copies_iff {goal : String} {recursive : Bool}
    {step : String → Run Command (Except String Unit)}
    (leaves : ∀ source workspace, (step source caller workspace).2 = workspace.step (.serve
      ⟨caller.user, workspace.cwd⟩ (.cp (workspace.pathOf source) goal recursive)))
    (fails : ∀ source workspace, Fails (step source caller workspace).1 ↔
      ¬ workspace.machine.Answers ⟨caller.user, workspace.cwd⟩
        (.cp (workspace.pathOf source) goal recursive))
    (sources : List String) : Fails (gather step sources caller workspace).1 ↔
      ∃ before source after, sources = before ++ source :: after ∧
        ¬ (copied workspace caller.user goal recursive before).machine.Answers
          ⟨caller.user, workspace.cwd⟩ (.cp (workspace.pathOf source) goal recursive) := by
  induction sources generalizing workspace with
  | nil => exact iff_of_false not_fails_ok (by simp)
  | cons first rest ih =>
    have later : Fails (gather step rest caller (step first caller workspace).2).1 ↔ _ := ih
    have here := fails first workspace
    have left := leaves first workspace
    rw [gather_cons, Task.bind_run]
    generalize step first caller workspace = outcome at later here left
    obtain ⟨result, after⟩ := outcome
    obtain rfl : after = _ := left
    cases result with
    | error fault =>
      exact iff_of_true fails_error ⟨[], first, rest, rfl, here.mp fails_error⟩
    | ok value =>
      have answered := not_fails_ok ∘ here.mpr
      refine ((fails_bind_iff fun _ _ => not_fails_ok).trans later).trans ?_
      constructor
      · rintro ⟨before, source, after, rfl, endless⟩
        exact ⟨first :: before, source, after, rfl, endless⟩
      · rintro ⟨before, source, after, whole, endless⟩
        cases before with
        | nil =>
          cases whole
          exact (answered endless).elim
        | cons _ before =>
          cases whole
          exact ⟨before, source, after, rfl, endless⟩

theorem fails_cp_iff (args : List String) : Fails (cp args caller workspace).1 ↔
    BreaksOff workspace caller.user .cp args stdin := by
  unfold cp
  dsimp only
  cases given : sourcesAndGoal "cp" (splitFlags args).operands with
  | error failure =>
    refine iff_of_false not_fails_ok fun breaks => ?_
    cases breaks with
    | cp other endless => cases given.symm.trans other
  | ok found =>
    obtain ⟨sources, goal⟩ := found
    rw [breaksOff_cp_iff given]
    dsimp only
    rw [Run.path_bind_run]
    refine (fails_bind_iff fun _ _ => not_fails_ok).trans (fails_copies_iff ?_ ?_ sources)
    · intro source workspace
      rw [Run.path_bind_run, Task.bind_run, ← Run.fs_left rfl]
      generalize Run.fs _ caller workspace = outcome
      obtain ⟨result, after⟩ := outcome
      cases result <;> rfl
    · intro source workspace
      rw [Run.path_bind_run, fails_bind_iff fun _ _ => not_fails_ok, Run.fs_result,
        Machine.answers_iff rfl, not_not]
      rfl

end PocketShell.Command
