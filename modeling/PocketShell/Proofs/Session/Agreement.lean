import PocketShell.Proofs.Shell.Moving
import PocketShell.Session

/-! A session and its lines. A line tells its session what becomes of variables and processes while
it runs, and the session takes over the directory behind the line, with the two variables that go
with it. So the session ends where the line does, unless the line has given those two another value
after it has moved. -/
namespace PocketShell.Session

open Shell

variable {session : Session} {line : String} {workspace ended : Workspace}
  {result : Except Fault Transcript} {name : String} {among : String → Prop}

/-- A line of the session: what it comes to, and the workspace that it leaves. -/
def runWithin (session : Session) (line : String) : Except Fault Transcript × Workspace :=
  runLine nestingLimit line session.caller session.workspace

/-- The session after what it has been told, the last event first. -/
def hear (session : Session) (events : List Event) : Session :=
  events.reverse.foldl absorb session

theorem hear_cons (event : Event) (events : List Event) :
    session.hear (event :: events) = (session.hear events).absorb event := by
  unfold hear
  rw [List.reverse_cons, List.foldl_concat]

/-- What a session is told is of variables, processes and the history. -/
theorem hear_keeps (session : Session) (events : List Event) :
    (session.hear events).machine = session.machine ∧ (session.hear events).cwd = session.cwd ∧
      (session.hear events).prompt = session.prompt := by
  induction events with
  | nil => exact ⟨rfl, rfl, rfl⟩
  | cons event rest ih =>
    rw [hear_cons]
    cases event with
    | setVariable name value => cases value <;> exact ih
    | _ => exact ih

private theorem told_events (event : Event) :
    (workspace.told event).events = event :: workspace.events := by
  cases event with
  | setVariable name value => cases value <;> rfl
  | _ => rfl

private theorem absorb_variable (event : Event)
    (same : session.env.get? name = workspace.env.get? name) :
    (session.absorb event).env.get? name = (workspace.told event).env.get? name := by
  cases event with
  | setVariable other value =>
    cases value with
    | some value => simp only [absorb, Workspace.told, Env.get?_insert, same]
    | none => simp only [absorb, Workspace.told, Env.get?_erase, same]
  | _ => exact same

private theorem absorb_processes (event : Event)
    (same : session.processes = workspace.processes) :
    (session.absorb event).processes = (workspace.told event).processes := by
  cases event with
  | setVariable name value => cases value <;> exact same
  | setProcesses processes => rfl
  | _ => exact same

/-- With all that it has been told the session has the processes of the workspace, and the variables
of some names. -/
structure Follows (session : Session) (among : String → Prop) (workspace : Workspace) : Prop where
  values : ∀ name, among name →
    (session.hear workspace.events).env.get? name = workspace.env.get? name
  processes : (session.hear workspace.events).processes = workspace.processes

namespace Follows

/-- Whatever a command does to a variable or to the processes, it tells the session. -/
theorem step (follows : session.Follows among workspace) (effect : Effect) :
    session.Follows among (workspace.step effect) := by
  cases effect with
  | tell event =>
    have heard : session.hear (workspace.told event).events =
        (session.hear workspace.events).absorb event := by
      rw [told_events, hear_cons]
    refine ⟨fun name here => ?_, ?_⟩
    · exact (congrArg (·.env.get? name) heard).trans <|
        absorb_variable event (follows.values name here)
    · exact (congrArg (·.processes) heard).trans (absorb_processes event follows.processes)
  | _ => exact ⟨follows.values, follows.processes⟩

theorem follow (follows : session.Follows among workspace) (effects : List Effect) :
    session.Follows among (workspace.follow effects) :=
  Workspace.follow_keeps (session.Follows among) (fun _ effect here => here.step effect) effects
    follows

/-- A line that moves does not tell the session so before it has ended. -/
theorem moveTo (follows : session.Follows among workspace) (path : String) :
    session.Follows (fun name => among name ∧ name ≠ "PWD" ∧ name ≠ "OLDPWD")
      (workspace.moveTo path) := by
  refine ⟨fun name here => ?_, follows.processes⟩
  obtain ⟨here, present, last⟩ := here
  rw [Workspace.moveTo, Env.get?_moved, if_neg present, if_neg last]
  exact follows.values name here

end Follows

/-- The session while its line is over and the directory has not been taken over. -/
def behind (session : Session) (line : String) (ended : Workspace) : Session :=
  { session with
    machine := ended.machine
    prompt := ended.prompt
    history := record session.config.historyLimit line session.history }

/-- The session after a line that has come to a result: it has heard what it was told, and is where
the line has moved to. -/
def takeOver (session : Session) (line : String) (result : Except Fault Transcript)
    (ended : Workspace) : Session :=
  let heard := (session.behind line ended).hear ended.events
  ((result.toOption.bind (·.moved)).map heard.moveTo).getD heard

theorem run_eq (ran : session.runWithin line = (result, ended)) :
    session.run line = (result, session.takeOver line result ended) := by
  have same : ((runLine nestingLimit line).run session.caller).run session.workspace =
      (result, ended) := ran
  unfold run
  rw [same]
  cases result <;> rfl

theorem get?_moveTo_of_ne {path : String} (present : name ≠ "PWD") (last : name ≠ "OLDPWD") :
    (session.moveTo path).env.get? name = session.env.get? name := by
  rw [moveTo, Env.get?_moved, if_neg present, if_neg last]

/-- A session that has all variables of an environment but for the two of the directory has these
too after a move exactly if the environment has them as the move sets them. -/
theorem moveTo_agrees_iff {env : Env} {path : String}
    (others : ∀ name, name ≠ "PWD" → name ≠ "OLDPWD" → session.env.get? name = env.get? name) :
    (∀ name, (session.moveTo path).env.get? name = env.get? name) ↔
      env.get? "PWD" = some path ∧ env.get? "OLDPWD" = some session.cwd := by
  have present : (session.moveTo path).env.get? "PWD" = some path := by
    rw [moveTo, Env.get?_moved, if_pos rfl]
  have last : (session.moveTo path).env.get? "OLDPWD" = some session.cwd := by
    rw [moveTo, Env.get?_moved, if_neg (by decide), if_pos rfl]
  constructor
  · intro agree
    exact ⟨(agree "PWD").symm.trans present, (agree "OLDPWD").symm.trans last⟩
  · rintro ⟨presentKept, lastKept⟩ name
    by_cases isPresent : name = "PWD"
    · rw [isPresent, present, presentKept]
    · by_cases isLast : name = "OLDPWD"
      · rw [isLast, last, lastKept]
      · rw [get?_moveTo_of_ne isPresent isLast, others name isPresent isLast]

/-- The directory that a line has moved to, if it has, is where it is; and until it has moved the
session has every variable of the line. -/
private theorem follows_of_ran (ran : session.runWithin line = (result, ended)) :
    ((session.behind line ended).Follows (fun _ => True) ended ∧ ended.cwd = session.cwd ∧
      ∀ transcript, result = .ok transcript → transcript.moved = none) ∨
    ((session.behind line ended).Follows (fun name => True ∧ name ≠ "PWD" ∧ name ≠ "OLDPWD")
        ended ∧
      ∀ transcript, result = .ok transcript → transcript.moved = some ended.cwd) := by
  have start : (session.behind line ended).Follows (fun _ => True) session.workspace :=
    ⟨fun _ _ => rfl, rfl⟩
  have ran : runLine (nestingLimit - 0) line session.caller session.workspace =
    (result, ended) := ran
  by_cases sets : ∃ departure : Departure, departure.Begins session.caller 0 line session.workspace
  · obtain ⟨departure, begins⟩ := sets
    obtain ⟨before, out⟩ := (runPipeline_acts (Nat.sub_le _ _) _).follows begins.ran
    obtain ⟨⟨effects, rfl⟩, moved⟩ := follows_of_begins begins ran
    right
    have here := (((start.follow before).moveTo departure.outcome.output)).follow effects
    rw [← out] at here
    refine ⟨here, fun transcript finished => ?_⟩
    rw [moved transcript finished, Workspace.follow_cwd]
    rfl
  · obtain ⟨⟨effects, rfl⟩, moved⟩ := stays_of_not_begins ran fun departure begins =>
      sets ⟨departure, begins⟩
    exact .inl ⟨start.follow effects, Workspace.follow_cwd effects, moved⟩

/-- After a line the session has the filesystem, the prompt, the processes and the variables of the
line, and is where the line is, except that the two variables of the directory are what the move has
made of them: the session has all variables of the line exactly if the line has left those two as
its move has set them, or has not moved. -/
theorem run_agrees_iff (ran : session.runWithin line = (result, ended)) :
    (session.run line).1 = result ∧ (session.run line).2.machine = ended.machine ∧
    (session.run line).2.prompt = ended.prompt ∧
    (session.run line).2.processes = ended.processes ∧
    (∀ name, name ≠ "PWD" → name ≠ "OLDPWD" →
      (session.run line).2.env.get? name = ended.env.get? name) ∧
    ∀ transcript, result = .ok transcript →
      (session.run line).2.cwd = ended.cwd ∧
      ((∀ name, (session.run line).2.env.get? name = ended.env.get? name) ↔
        ∀ path, transcript.moved = some path →
          ended.env.get? "PWD" = some path ∧ ended.env.get? "OLDPWD" = some session.cwd) := by
  rw [run_eq ran, takeOver]
  dsimp only
  obtain ⟨machine, cwd, prompt⟩ := hear_keeps (session.behind line ended) ended.events
  rcases follows_of_ran ran with ⟨follows, here, moved⟩ | ⟨follows, moved⟩
  · have still : result.toOption.bind (·.moved) = none := by
      cases result with
      | error fault => rfl
      | ok transcript => exact moved transcript rfl
    rw [still]
    refine ⟨rfl, machine, prompt, follows.processes, fun name _ _ => follows.values name trivial,
      fun transcript finished => ⟨cwd.trans here.symm, ?_, fun _ name => follows.values name trivial⟩⟩
    intro _ path moves
    rw [moved transcript finished] at moves
    cases moves
  · cases result with
    | error fault =>
      exact ⟨rfl, machine, prompt, follows.processes,
        fun name present last => follows.values name ⟨trivial, present, last⟩, nofun⟩
    | ok transcript =>
      have goes := moved transcript rfl
      have taken : (Except.ok transcript : Except Fault Transcript).toOption.bind (·.moved) =
        some ended.cwd := goes
      rw [taken, Option.map_some, Option.getD_some]
      have others : ∀ name, name ≠ "PWD" → name ≠ "OLDPWD" →
          ((session.behind line ended).hear ended.events).env.get? name = ended.env.get? name :=
        fun name present last => follows.values name ⟨trivial, present, last⟩
      refine ⟨rfl, machine, prompt, follows.processes,
        fun name present last =>
          (get?_moveTo_of_ne present last).trans (others name present last), ?_⟩
      rintro _ ⟨⟩
      refine ⟨rfl, (moveTo_agrees_iff others).trans ?_⟩
      rw [cwd]
      constructor
      · intro kept path moves
        obtain rfl : ended.cwd = path := Option.some.inj (goes.symm.trans moves)
        exact kept
      · exact fun kept => kept _ goes

theorem opens :
    (start sharedMachine .usual "the-terminal" "guest" none).toOption.isSome = true := by
  decide +kernel

/-- A new session of a guest who has no home. -/
def opened : Session :=
  (start sharedMachine .usual "the-terminal" "guest" none).toOption.get opens

theorem moved_and_agreed :
    (opened.run "cd tmp; export A=b; kill 100").2.cwd = "/tmp" ∧
      ∀ name, (opened.run "cd tmp; export A=b; kill 100").2.env.get? name =
        (opened.runWithin "cd tmp; export A=b; kill 100").2.env.get? name := by
  have finished : (opened.runWithin "cd tmp; export A=b; kill 100").1 =
      .ok ⟨"", none, 0, some "/tmp"⟩ := toOption_eq_some.mp (by decide +kernel)
  obtain ⟨-, -, -, -, -, behind⟩ :=
    run_agrees_iff (Prod.mk.eta (p := opened.runWithin "cd tmp; export A=b; kill 100")).symm
  obtain ⟨there, agrees⟩ := behind _ finished
  refine ⟨there.trans (by decide +kernel), agrees.mpr ?_⟩
  rintro _ ⟨⟩
  decide +kernel

/-- What a line gives the variable after it has moved, the session replaces behind the line. -/
theorem overwritten_behind_line :
    (opened.runWithin "cd tmp; export PWD=foo").1.toOption = some ⟨"", none, 0, some "/tmp"⟩ ∧
      (opened.runWithin "cd tmp; export PWD=foo").2.env.get? "PWD" = some "foo" ∧
      (opened.run "cd tmp; export PWD=foo").2.env.get? "PWD" = some "/tmp" := by
  decide +kernel

end PocketShell.Session
