import PocketShell.Proofs.Fs.Confinement
import PocketShell.Proofs.Fs.Standing
import PocketShell.Proofs.Shell.Expansion
import PocketShell.Proofs.Shell.LineEffects
import PocketShell.Proofs.Shell.Passing
import PocketShell.Proofs.Shell.Spans

/-! Moving. A line changes its directory in one way only: at the top, its first segment is a single
`cd` that succeeds and tells a directory. That is the directory which the argument leads the user to,
told by the path that leads the user there again. -/
namespace PocketShell.Shell

open Volume

variable {caller : Caller Command} {start here after : Workspace} {depth : Nat} {line path : String}

/-- How a line can set out: the single command of its first segment, the segments behind it, and
what the command has left. -/
structure Departure where
  action : Action
  operator : Operator
  rest : List Segment
  outcome : Outcome
  between : Workspace

namespace Departure

/-- The line is at the top and sets out with a `cd` that succeeds and tells a directory. -/
structure Begins (departure : Departure) (caller : Caller Command) (depth : Nat) (line : String)
    (start : Workspace) : Prop where
  top : depth = 0
  leading : parseLine line = ⟨[departure.action], departure.operator⟩ :: departure.rest
  named : departure.action.name = "cd"
  ran : runPipeline (nestingLimit - depth) [departure.action] caller start =
    (.ok departure.outcome, departure.between)
  succeeds : departure.outcome.code = 0
  tells : departure.outcome.output ≠ ""

/-- The workspace at the moment at which the line has moved. -/
def moment (departure : Departure) : Workspace :=
  departure.between.moveTo departure.outcome.output

/-- What the first segment has added to the line by then: no output, and the warnings. -/
def progress (departure : Departure) : Progress where
  outputs := []
  errors := [departure.outcome.errorText].filter (!·.isEmpty)
  code := 0
  moved := some departure.outcome.output

/-- The segments that run from there. -/
def onward (departure : Departure) : List Segment :=
  Segment.onward ⟨[departure.action], departure.operator⟩ 0 departure.rest

end Departure

/-- The line is where the argument of the command has led the user, and can tell so: the directory is
there with the path to which the line has moved, the user may search it and all directories above
it, and from there the dot leads to it; the variables name the directory and the one before. -/
inductive Arrives (caller : Caller Command) (action : Action) (start moment : Workspace) : Prop
  | mk {args warnings : List String} {filled : Workspace} {effects : List Effect}
      {target : String} {directory current : Inode}
      (words : fillWords (innerAt nestingLimit) action.args caller start =
        (.ok (args, warnings), filled))
      (argument : Command.destination args caller (filled.follow effects) =
        (.ok target, filled.follow effects))
      (leads : (filled.follow effects).machine.volume.lookup ⟨caller.user, start.cwd⟩ true target =
        .ok directory)
      (named : moment.cwd = (filled.follow effects).machine.volume.pathOf directory.id)
      (same : current.id = directory.id)
      (held : moment.machine.volume.inode? current.id = some current)
      (shape : current.isDirectory = true)
      (canonical : moment.machine.volume.pathOf current.id = moment.cwd)
      (enters : current.permits caller.user .execute = true)
      (above : ∀ ancestor, moment.machine.volume.Ancestor current ancestor →
        ancestor.permits caller.user .execute = true)
      (back : (moment.machine.serve ⟨caller.user, moment.cwd⟩ (.stat ".")).1 =
        .ok (.inode current))
      (last : moment.env.get? "OLDPWD" = some start.cwd)
      (present : moment.env.get? "PWD" = some moment.cwd) :
      Arrives caller action start moment

/-! ## What `cd` answers -/

/-- What `cd` gets to know before it succeeds. -/
inductive Leads (caller : Caller Command) (args : List String) (here : Workspace) (path : String) :
    Prop
  | mk {target : String} {directory : Inode}
      (argument : Command.destination args caller here = (.ok target, here))
      (leads : here.machine.volume.lookup ⟨caller.user, here.cwd⟩ true target = .ok directory)
      (shape : directory.isDirectory = true)
      (enters : directory.permits caller.user .execute = true)
      (named : here.machine.volume.pathOf directory.id = path) : Leads caller args here path

private theorem destination_reads {args : List String} {target : String}
    (ran : Command.destination args caller here = (.ok target, after)) : after = here := by
  unfold Command.destination at ran
  split at ran <;>
    · cases ran
      rfl

/-- A `cd` that succeeds leaves everything as it is. -/
theorem leads_of_cd {args : List String} {outcome : Outcome}
    (ran : Command.cd args caller here = (.ok outcome, after)) (succeeds : outcome.code = 0) :
    after = here ∧ Leads caller args here outcome.output := by
  unfold Command.cd at ran
  split at ran
  · cases ran
    cases succeeds
  obtain ⟨target, between, argument, looks⟩ := Task.bind_eq_ok.mp ran
  obtain rfl := destination_reads argument
  obtain ⟨result, looked, found, tells⟩ := Task.bind_eq_ok.mp looks
  cases result with
  | error reason =>
    cases tells
    cases succeeds
  | ok directory =>
    obtain ⟨leads, rfl⟩ := Run.lookup_ok.mp found
    dsimp only at tells
    split at tells
    · cases tells
      cases succeeds
    rename_i shape
    rw [Run.user_bind_run] at tells
    split at tells
    · cases tells
      cases succeeds
    rename_i enters
    cases tells
    exact ⟨rfl, .mk argument leads (by simpa using shape) (by simpa using enters) rfl⟩

/-- What runs under the name `cd` is the command, unless it breaks off and fails. -/
private theorem cd_of_runNamed {args : List String} {stdin : Option String} {outcome : Outcome}
    (standard : caller.registry = some Command.standardRegistry)
    (ran : runNamed "cd" args stdin caller here = (.ok outcome, after))
    (succeeds : outcome.code = 0) : Command.cd args caller here = (.ok outcome, after) := by
  have found : Command.named? "cd" caller here = (.ok (some (.builtin .cd)), here) := by
    change (Except.ok (caller.registry.bind (·.get? "cd")), here) = _
    rw [standard]
    rfl
  have known : Command.run (.builtin .cd) args stdin = Command.cd args := rfl
  rw [runNamed, Task.bind_run, found] at ran
  dsimp only at ran
  rw [Task.tryCatch_run, known] at ran
  generalize Command.cd args caller here = ending at ran
  obtain ⟨result, left⟩ := ending
  cases result with
  | ok told => exact ran
  | error fault =>
    dsimp only at ran
    split at ran
    · cases ran
    · cases ran
      cases succeeds

/-! ## The first segment -/

/-- A word without a substitution, a reference or an escape stands for itself. -/
theorem fillWords_plain {word : String} (whole : (parts word.toList).any Part.isCommand = false)
    (plain : word.toList.all (fun c => c != '\\' && c != '$') = true)
    (bare : unescapeDollars word = word) (inner : Inner) (words : List String) :
    fillWords inner (word :: words) =
      (fun filled : List String × List String => (word :: filled.1, filled.2)) <$>
        fillWords inner words := by
  have fills : fillWord inner word = pure ⟨word, false, []⟩ := by
    unfold fillWord
    dsimp only
    rw [whole]
    rfl
  have stays : ∀ env : Env, expandWord env word = word := by
    intro env
    have reads : fillIn env (word.toList ++ []) = _ := fillIn_plain (by simpa using plain) []
    rw [fillIn, List.append_nil] at reads
    rw [expandWord, reads, String.ofList_toList, bare]
  rw [fillWords, fills]
  funext caller workspace
  simp only [pure_bind, map_eq_pure_bind, stays]
  rfl

/-- What is told flows on past a redirection that is done; the file has been written to. -/
private theorem kept_of_write {kept routed : Outcome} {operation : Fs Inode}
    (ran : (do return (← Run.fs operation).map fun _ => kept : Run Command (Except FsError Outcome))
      caller here = (.ok (.ok routed), after)) :
    routed = kept ∧ after = { here with
      machine := (here.machine.ask ⟨caller.user, here.cwd⟩ operation).2 } := by
  rw [Task.bind_run, Run.fs_run] at ran
  generalize here.machine.ask ⟨caller.user, here.cwd⟩ operation = answer at ran
  obtain ⟨result, machine⟩ := answer
  cases result with
  | error fault => cases ran
  | ok result =>
    cases result <;> cases ran
    exact ⟨rfl, rfl⟩

/-- The workspace is as it was, but for a file that may have been written. -/
def WrittenAtMost (caller : Caller Command) (here after : Workspace) : Prop :=
  after = here ∨ ∃ path text,
    after = here.step (.serve ⟨caller.user, here.cwd⟩ (.writeText path text))

/-- Only where errors go to a file does an output flow on past a redirection. -/
private theorem output_of_route {redirect : Redirect} {told routed : Outcome}
    (ran : route redirect path told caller here = (.ok (.ok routed), after))
    (tells : routed.output ≠ "") :
    routed = { told with error := none } ∧ WrittenAtMost caller here after := by
  unfold route at ran
  cases redirect with
  | overwrite =>
    obtain ⟨rfl, -⟩ := kept_of_write ran
    exact absurd rfl tells
  | append =>
    obtain ⟨rfl, -⟩ := kept_of_write ran
    exact absurd rfl tells
  | errors =>
    dsimp only at ran
    split at ran
    · cases ran
      exact ⟨rfl, .inl rfl⟩
    · obtain ⟨rfl, rfl⟩ := kept_of_write ran
      refine ⟨rfl, .inr ⟨path, told.errorText, ?_⟩⟩
      have asked : (Request.writeText path told.errorText).run =
        Request.Value.inode <$> Fs.writeText path told.errorText := rfl
      rw [Machine.ask_left _ asked]
      rfl
  | both =>
    dsimp only at ran
    split at ran
    · cases ran
      exact absurd rfl tells
    · obtain ⟨rfl, -⟩ := kept_of_write ran
      exact absurd rfl tells

private theorem output_of_redirectStage {redirect : Option Redirect} {path : Option String}
    {told outcome : Outcome} {ending : StageEnd}
    (ran : redirectStage redirect path told caller here = (.ok ending, after))
    (ends : ending = .stop outcome ∨ ending = .proceed outcome)
    (succeeds : outcome.code = 0) (tells : outcome.output ≠ "") :
    (outcome.output = told.output ∧ outcome.code = told.code) ∧
      WrittenAtMost caller here after := by
  unfold redirectStage at ran
  split at ran
  · obtain ⟨routed, written, flows, stops⟩ := Task.bind_eq_ok.mp ran
    cases routed with
    | error reason =>
      cases stops
      rcases ends with ⟨⟨⟩⟩ | ⟨⟨⟩⟩
      cases succeeds
    | ok routed =>
      cases stops
      rcases ends with ⟨⟨⟩⟩ | ⟨⟨⟩⟩
      obtain ⟨rfl, leaves⟩ := output_of_route flows tells
      exact ⟨⟨rfl, rfl⟩, leaves⟩
  · cases ran
    rcases ends with ⟨⟨⟩⟩ | ⟨⟨⟩⟩
    exact ⟨⟨rfl, rfl⟩, .inl rfl⟩

/-- A stage that is a `cd` and tells a directory has found it where its words were filled in and its
input was read. -/
private theorem leads_of_runStage {inner : Inner} {action : Action} {ending : StageEnd}
    {outcome : Outcome} (within : ActsWithin inner)
    (standard : caller.registry = some Command.standardRegistry) (named : action.name = "cd")
    (ran : runStage inner 0 none action caller start = (.ok ending, after))
    (ends : ending = .stop outcome ∨ ending = .proceed outcome)
    (succeeds : outcome.code = 0) (tells : outcome.output ≠ "") :
    ∃ args warnings filled effects,
      fillWords inner action.args caller start = (.ok (args, warnings), filled) ∧
        Leads caller args (filled.follow effects) outcome.output ∧
        WrittenAtMost caller (filled.follow effects) after := by
  unfold runStage at ran
  have words : [action.name].filter (!·.isEmpty) ++ action.args = "cd" :: action.args := by
    rw [named]
    rfl
  rw [words, fillWords_plain (by decide +kernel) (by decide) (by decide)] at ran
  obtain ⟨⟨_, _⟩, filled, fills, paths⟩ := Task.bind_eq_ok.mp ran
  rw [map_eq_pure_bind] at fills
  obtain ⟨⟨args, warnings⟩, _, gathered, same⟩ := Task.bind_eq_ok.mp fills
  cases same
  obtain ⟨⟨path, pathWarnings⟩, second, output, inputs⟩ := Task.bind_eq_ok.mp paths
  obtain ⟨⟨input, inputWarnings⟩, third, read, rest⟩ := Task.bind_eq_ok.mp inputs
  dsimp only at rest
  split at rest
  · cases rest
    rcases ends with ⟨⟨⟩⟩ | ⟨⟨⟩⟩
    cases succeeds
  obtain ⟨stdin, here, looked, runs⟩ := Task.bind_eq_ok.mp rest
  obtain ⟨told, left, finds, redirects⟩ := Task.bind_eq_ok.mp runs
  obtain ⟨first, rfl⟩ := (fillOptional_acts within _).follows output
  obtain ⟨more, rfl⟩ := (fillOptional_acts within _).follows read
  obtain ⟨last, rfl⟩ := (stageInput_acts _ _).follows looked
  simp only [← Workspace.follow_append] at finds redirects
  have kept : (withWarnings (warnings ++ pathWarnings ++ inputWarnings) told).output = told.output ∧
      (withWarnings (warnings ++ pathWarnings ++ inputWarnings) told).code = told.code := by
    unfold withWarnings
    split <;> exact ⟨rfl, rfl⟩
  split at redirects
  · rename_i fails
    obtain ⟨_, _, -, stops⟩ := Task.bind_eq_ok.mp redirects
    cases stops
    rcases ends with ⟨⟨⟩⟩ | ⟨⟨⟩⟩
    rw [succeeds] at fails
    cases fails
  · obtain ⟨⟨output, code⟩, written⟩ := output_of_redirectStage redirects ends succeeds tells
    have found := cd_of_runNamed standard finds (by rw [← kept.2, ← code, succeeds])
    obtain ⟨rfl, leads⟩ := leads_of_cd found (by rw [← kept.2, ← code, succeeds])
    rw [kept.1] at output
    exact ⟨args, warnings, filled, _, gathered, output ▸ leads, written⟩

private theorem leads_of_runPipeline {levels : Nat} {action : Action} {outcome : Outcome}
    (nests : levels ≤ nestingLimit) (standard : caller.registry = some Command.standardRegistry)
    (named : action.name = "cd")
    (ran : runPipeline levels [action] caller start = (.ok outcome, after))
    (succeeds : outcome.code = 0) (tells : outcome.output ≠ "") :
    ∃ args warnings filled effects,
      fillWords (innerAt levels) action.args caller start = (.ok (args, warnings), filled) ∧
        Leads caller args (filled.follow effects) outcome.output ∧
        WrittenAtMost caller (filled.follow effects) after := by
  rw [runPipeline_eq] at ran
  obtain ⟨ending, between, stage, ends⟩ := Task.bind_eq_ok.mp ran
  have within := actsWithin_innerAt nests
  cases ending with
  | stop stopped =>
    cases ends
    exact leads_of_runStage within standard named stage (.inl rfl) succeeds tells
  | proceed proceeded =>
    cases ends
    exact leads_of_runStage within standard named stage (.inr rfl) succeeds tells

/-! ## Arriving -/

/-- A file that is written to stands in no one's way. -/
private theorem WrittenAtMost.standsIn (written : WrittenAtMost caller here after)
    (sound : Sound Snapshot.Plain here.machine) :
    here.machine.volume.StandsIn after.machine.volume := by
  rcases written with rfl | ⟨path, text, rfl⟩
  · exact .refl _
  · exact Machine.serve_writeText_stands sound.linked sound.fresh _ path text

private theorem arrives_of_begins {departure : Departure}
    (reachable : Reachable Snapshot.Plain start.machine)
    (standard : caller.registry = some Command.standardRegistry)
    (begins : departure.Begins caller depth line start) :
    Arrives caller departure.action start departure.moment := by
  obtain ⟨rfl, leading, named, ran, succeeds, tells⟩ := begins
  obtain ⟨args, warnings, filled, effects, words, ⟨argument, leads, shape, enters, told⟩, written⟩ :=
    leads_of_runPipeline (Nat.le_refl _) standard named ran succeeds tells
  obtain ⟨fills, rfl⟩ := (fillWords_acts (actsWithin_innerAt (Nat.le_refl _)) _).follows words
  obtain ⟨changes, left⟩ := (runPipeline_acts (Nat.le_refl _) _).follows ran
  have before : Sound Snapshot.Plain ((start.follow fills).follow effects).machine :=
    (Workspace.follow_reachable effects (Workspace.follow_reachable fills reachable)).sound
      Snapshot.plain_closed
  have behind : Sound Snapshot.Plain departure.between.machine := by
    rw [left]
    exact (Workspace.follow_reachable changes reachable).sound Snapshot.plain_closed
  have stands := written.standsIn before
  obtain ⟨trail, route⟩ := before.linked.route_of_lookup leads
  obtain ⟨way, current, there, same, still, -⟩ := stands.route route
  have canonical :
      departure.between.machine.volume.pathOf current.id = departure.outcome.output := by
    rw [same, stands.pathOf before.linked before.kept.numbered behind.linked behind.kept.numbered
      route, told]
  have directory : current.isDirectory = true := by
    simpa only [Record.isDirectory, still.type] using shape
  have search := (still.permits caller.user .execute).trans enters
  have place : ((start.follow fills).follow effects).cwd = start.cwd := by
    rw [Workspace.follow_cwd, Workspace.follow_cwd]
  have origin : departure.between.cwd = start.cwd := by rw [left, Workspace.follow_cwd]
  rw [place] at leads
  refine .mk words argument leads told.symm same there.held directory canonical search ?_ ?_ ?_ ?_
  · exact fun ancestor above => there.search_of_mem (above.mem_trail behind.linked there)
  · have dot := there.lookup_dot behind.linked behind.kept.numbered behind.kept.proper directory
      search
    rw [canonical] at dot
    have looks : (Request.stat ".").run ⟨caller.user, departure.outcome.output⟩
        departure.between.machine = (.ok (.inode current), departure.between.machine) := by
      change (Request.Value.inode <$> Fs.lookup true "." : Fs Request.Value) _ _ = _
      rw [Fs.map_run, Fs.lookup_run, dot]
      rfl
    change (departure.between.machine.perform ⟨caller.user, departure.outcome.output⟩
      (Request.stat ".").run).1 = _
    rw [Machine.perform, looks]
  · change ((departure.between.env.insert "OLDPWD" departure.between.cwd).insert "PWD" _).get?
      "OLDPWD" = _
    rw [Env.get?_moved, if_neg (by decide), if_pos rfl, origin]
  · change ((departure.between.env.insert "OLDPWD" departure.between.cwd).insert "PWD" _).get?
      "PWD" = _
    rw [Env.get?_moved, if_pos rfl]
    rfl

/-! ## Lines -/

private theorem runLine_run (levels : Nat) : runLine levels line = (Progress.transcript <$>
    runSegments (runPipeline levels) (levels = nestingLimit) ⟨[], [], 0, none⟩ (parseLine line)) := by
  rw [runLine_eq, runPipeline_eq, map_eq_pure_bind]
  rfl

/-- What a first segment moves a line to. -/
private theorem moveOf_eq_some {mayMove : Bool} {pipeline : Pipeline} {outcome : Outcome}
    (moves : moveOf mayMove pipeline outcome = some path) :
    mayMove = true ∧ (∃ action, pipeline = [action] ∧ action.name = "cd") ∧ outcome.code = 0 ∧
      outcome.output ≠ "" ∧ path = outcome.output := by
  unfold moveOf at moves
  split at moves
  · rename_i conditions
    simp only [Bool.and_eq_true, decide_eq_true_eq, Bool.not_eq_true', String.isEmpty_eq_false_iff]
      at conditions
    obtain ⟨⟨⟨top, lone⟩, succeeds⟩, tells⟩ := conditions
    refine ⟨top, ?_, succeeds, tells, (Option.some.inj moves).symm⟩
    unfold isMove at lone
    split at lone
    · exact ⟨_, rfl, by simpa using lone⟩
    · cases lone
  · cases moves

/-- While the remaining segments run the line stays where it is. -/
private theorem follows_on {levels : Nat} {progress : Progress} {segments : List Segment}
    {result : Except Fault Transcript} (nests : levels ≤ nestingLimit)
    (ran : (Progress.transcript <$> runSegments (runPipeline levels) false progress segments)
      caller start = (result, after)) :
    (∃ effects, after = start.follow effects) ∧
      ∀ transcript, result = .ok transcript → transcript.moved = progress.moved := by
  have acts := runSegments_acts (runPipeline_acts nests) progress segments
  rw [map_eq_pure_bind] at ran
  refine ⟨(acts.bind fun _ => .pure _).follows ran, ?_⟩
  rintro transcript rfl
  obtain ⟨last, _, runs, same⟩ := Task.bind_eq_ok.mp ran
  cases same
  exact moved_of_runSegments runs

/-- A line that does not set out stays. -/
theorem stays_of_not_begins {result : Except Fault Transcript}
    (ran : runLine (nestingLimit - depth) line caller start = (result, after))
    (never : ∀ departure : Departure, ¬ departure.Begins caller depth line start) :
    (∃ effects, after = start.follow effects) ∧
      ∀ transcript, result = .ok transcript → transcript.moved = none := by
  have nests : nestingLimit - depth ≤ nestingLimit := Nat.sub_le _ _
  have began := ran
  rw [runLine_run, map_eq_pure_bind, Task.bind_run] at began
  cases segments : parseLine line with
  | nil =>
    rw [segments] at began
    cases began
    exact ⟨⟨[], rfl⟩, by rintro _ ⟨⟩; rfl⟩
  | cons segment rest =>
    rw [segments] at began
    cases first : runPipeline (nestingLimit - depth) segment.pipeline caller start with
    | mk answer between =>
      obtain ⟨effects, rfl⟩ := (runPipeline_acts nests _).follows first
      cases answer with
      | error fault =>
        rw [runSegments_of_error first] at began
        cases began
        exact ⟨⟨effects, rfl⟩, fun _ impossible => nomatch impossible⟩
      | ok outcome =>
        rw [runSegments_of_ok first] at began
        cases moves : moveOf (nestingLimit - depth = nestingLimit) segment.pipeline outcome with
        | some path =>
          obtain ⟨top, ⟨action, single, named⟩, succeeds, tells, -⟩ := moveOf_eq_some moves
          obtain ⟨pipeline, operator⟩ := segment
          cases single
          have outer : depth = 0 := by
            have whole : nestingLimit - depth = nestingLimit := of_decide_eq_true top
            have some : 0 < nestingLimit := by decide
            omega
          exact absurd ⟨outer, segments, named, first, succeeds, tells⟩
            (never ⟨action, operator, rest, outcome, start.follow effects⟩)
        | none =>
          rw [moves] at began
          rw [← Task.bind_run, ← map_eq_pure_bind] at began
          obtain ⟨⟨more, rfl⟩, moved⟩ := follows_on nests began
          exact ⟨⟨effects ++ more, by simp⟩, moved⟩

/-- A line that sets out runs on from where it has moved to. -/
theorem runLine_of_begins {departure : Departure}
    (begins : departure.Begins caller depth line start) :
    runLine (nestingLimit - depth) line caller start = (Progress.transcript <$>
      runSegments (runPipeline (nestingLimit - depth)) false departure.progress departure.onward)
        caller departure.moment := by
  obtain ⟨rfl, leading, named, ran, succeeds, tells⟩ := begins
  have lone : isMove [departure.action] = true := by simp [isMove, named]
  have moves : moveOf (nestingLimit - 0 = nestingLimit) [departure.action] departure.outcome =
      some departure.outcome.output := by
    have some : departure.outcome.output.isEmpty = false := by simpa using tells
    simp [moveOf, lone, succeeds, some]
  rw [runLine_run, leading, map_eq_pure_bind, map_eq_pure_bind, Task.bind_run, Task.bind_run,
    runSegments_of_ok ran]
  dsimp only
  rw [moves, succeeds]
  have adds : (⟨[], [], 0, none⟩ : Progress).add [departure.action] departure.outcome
      (some departure.outcome.output) = departure.progress := by
    simp [Progress.add, Departure.progress, lone, succeeds]
  rw [adds]
  rfl

/-- Where a line that sets out is in the end. -/
theorem follows_of_begins {departure : Departure} {result : Except Fault Transcript}
    (begins : departure.Begins caller depth line start)
    (ran : runLine (nestingLimit - depth) line caller start = (result, after)) :
    (∃ effects, after = departure.moment.follow effects) ∧
      ∀ transcript, result = .ok transcript → transcript.moved = some departure.outcome.output := by
  rw [runLine_of_begins begins] at ran
  exact follows_on (Nat.sub_le _ _) ran

/-- A line stays where it is unless it is at the top and its first segment is a single `cd` that
succeeds and tells a directory. Such a line is from then on where the argument has led the user, by
the path of that directory; the segment adds no output, and the rest of the line runs from there. -/
theorem only_leading_cd_moves {result : Except Fault Transcript}
    (reachable : Reachable Snapshot.Plain start.machine)
    (standard : caller.registry = some Command.standardRegistry)
    (ran : runLine (nestingLimit - depth) line caller start = (result, after)) :
    ((∀ departure : Departure, ¬ departure.Begins caller depth line start) →
      after.cwd = start.cwd ∧ ∀ transcript, result = .ok transcript → transcript.moved = none) ∧
    ∀ departure : Departure, departure.Begins caller depth line start →
      after.cwd = departure.outcome.output ∧
      (∀ transcript, result = .ok transcript →
        transcript.moved = some departure.outcome.output) ∧
      (Progress.transcript <$> runSegments (runPipeline (nestingLimit - depth)) false
        departure.progress departure.onward) caller departure.moment = (result, after) ∧
      Arrives caller departure.action start departure.moment := by
  constructor
  · intro never
    obtain ⟨⟨effects, rfl⟩, moved⟩ := stays_of_not_begins ran never
    exact ⟨Workspace.follow_cwd effects, moved⟩
  · intro departure begins
    obtain ⟨⟨effects, rfl⟩, moved⟩ := follows_of_begins begins ran
    refine ⟨Workspace.follow_cwd effects, moved, ?_, arrives_of_begins reachable standard begins⟩
    rw [← runLine_of_begins begins]
    exact ran

/-- A user with every standard command. -/
def visitor : Caller Command := ⟨"guest", some Command.standardRegistry, "host"⟩

/-- The line moves once; the `cd` in its second segment and that in a substitution do not. -/
private def wandering : String := "cd tmp; cd /; echo $(pwd; cd /; pwd)"

theorem cd_moves_once : ∃ departure : Departure,
    departure.Begins visitor 0 wandering (plainWorkspace sharedMachine) ∧
      departure.moment.cwd = "/tmp" ∧
      Arrives visitor departure.action (plainWorkspace sharedMachine) departure.moment ∧
      (runLine (nestingLimit - 0) wandering visitor (plainWorkspace sharedMachine)).2.cwd = "/tmp" ∧
      (runLine (nestingLimit - 0) wandering visitor (plainWorkspace sharedMachine)).1.toOption =
        some ⟨"/tmp /tmp", none, 0, some "/tmp"⟩ := by
  have told : (runPipeline (nestingLimit - 0) [⟨"cd", ["tmp"], none, none⟩] visitor
      (plainWorkspace sharedMachine)).1.toOption = some (.text "/tmp") := by decide +kernel
  have begins : Departure.Begins
      { action := ⟨"cd", ["tmp"], none, none⟩
        operator := .sequence
        rest := [⟨[⟨"cd", ["/"], none, none⟩], .sequence⟩,
          ⟨[⟨"echo", ["$(pwd; cd /; pwd)"], none, none⟩], .done⟩]
        outcome := .text "/tmp"
        between := (runPipeline (nestingLimit - 0) [⟨"cd", ["tmp"], none, none⟩] visitor
          (plainWorkspace sharedMachine)).2 }
      visitor 0 wandering (plainWorkspace sharedMachine) :=
    ⟨rfl, by decide +kernel, rfl, Prod.ext (toOption_eq_some.mp told) rfl, rfl, by decide⟩
  obtain ⟨-, moves⟩ := only_leading_cd_moves (sharedMachine_reachable _)
    (rfl : visitor.registry = _) (Prod.mk.eta (p := runLine (nestingLimit - 0) wandering visitor
      (plainWorkspace sharedMachine))).symm
  obtain ⟨there, -, -, arrives⟩ := moves _ begins
  exact ⟨_, begins, rfl, arrives, there, by decide +kernel⟩

end PocketShell.Shell
