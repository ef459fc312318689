import PocketShell.Proofs.Shell.Looking

/-! Commands that go through their arguments and take the same step for each. Such a command succeeds
exactly if every step does, each in the workspace that the one before has left. -/
namespace PocketShell

namespace Shell

variable {α : Type} {operation : Fs α} {value : α} {caller : Caller Command}
  {workspace after : Workspace}

/-- A value from the filesystem comes from the machine and leaves the rest of the workspace. -/
theorem Run.fs_ok : Run.fs operation caller workspace = (.ok (.ok value), after) ↔
    ∃ machine, operation ⟨caller.user, workspace.cwd⟩ workspace.machine = (.ok value, machine) ∧
      after = { workspace with machine } := by
  rw [Run.fs_run]
  unfold Machine.ask Machine.perform
  generalize operation ⟨caller.user, workspace.cwd⟩ workspace.machine = outcome
  obtain ⟨result, machine⟩ := outcome
  cases result with
  | ok given =>
    constructor
    · intro same
      cases same
      exact ⟨machine, rfl, rfl⟩
    · rintro ⟨_, same, rfl⟩
      cases same
      rfl
  | error failure =>
    refine iff_of_false (fun same => ?_) (fun ⟨_, same, _⟩ => by cases same)
    have settled := congrArg Prod.fst same
    cases failure <;> cases settled

/-- What a request can ask for leaves a machine that can be reached. -/
theorem Run.fs_reaches {kind : Snapshot → Prop} {request : Request} {result : α → Request.Value}
    (reachable : Reachable kind workspace.machine) (asked : request.run = result <$> operation)
    (ran : Run.fs operation caller workspace = (.ok (.ok value), after)) :
    ∃ machine, operation ⟨caller.user, workspace.cwd⟩ workspace.machine = (.ok value, machine) ∧
      after = { workspace with machine } ∧ Reachable kind machine := by
  obtain ⟨machine, done, rfl⟩ := Run.fs_ok.mp ran
  have served : machine =
      (workspace.machine.serve ⟨caller.user, workspace.cwd⟩ request).2 := by
    rw [Machine.serve_eq asked, done]
  exact ⟨machine, done, rfl, served ▸ reachable.serve _ _⟩

/-- To look up a path leaves everything as it is where it succeeds. -/
theorem Run.lookup_ok {follow : Bool} {path : String} {inode : Inode} :
    Run.fs (Fs.lookup follow path) caller workspace = (.ok (.ok inode), after) ↔
      workspace.machine.volume.lookup ⟨caller.user, workspace.cwd⟩ follow path = .ok inode ∧
        after = workspace := by
  rw [Run.fs_ok]
  constructor
  · rintro ⟨machine, ran, rfl⟩
    rw [Fs.lookup_run] at ran
    obtain ⟨leads, rfl⟩ := Prod.mk.inj ran
    rw [Machine.noting_of_ok leads]
    exact ⟨leads, rfl⟩
  · rintro ⟨leads, rfl⟩
    refine ⟨after.machine, ?_, rfl⟩
    rw [Fs.lookup_run, Machine.noting_of_ok leads, leads]

end Shell

namespace Command

open Shell

variable {step : String → Run Command (Except String Unit)} {caller : Caller Command}
  {workspace after : Workspace} {args : List String} {outcome : Outcome}

/-- One step after the other succeeds. -/
inductive Passes (step : String → Run Command (Except String Unit)) (caller : Caller Command) :
    List String → Workspace → Workspace → Prop
  | done {workspace : Workspace} : Passes step caller [] workspace workspace
  | next {workspace between after : Workspace} {arg : String} {rest : List String}
      (ran : step arg caller workspace = (.ok (.ok ()), between))
      (passes : Passes step caller rest between after) :
      Passes step caller (arg :: rest) workspace after

private theorem gather_passes_iff : (∃ values,
      gather step args caller workspace = (.ok ⟨values, []⟩, after)) ↔
    Passes step caller args workspace after := by
  induction args generalizing workspace with
  | nil =>
    constructor
    · rintro ⟨values, ran⟩
      cases ran
      exact .done
    · rintro ⟨⟩
      exact ⟨[], rfl⟩
  | cons arg rest ih =>
    rw [gather_cons]
    constructor
    · rintro ⟨values, ran⟩
      obtain ⟨result, between, first, further⟩ := Task.bind_eq_ok.mp ran
      obtain ⟨gathered, last, others, collects⟩ := Task.bind_eq_ok.mp further
      cases result with
      | error message => cases collects
      | ok value =>
        obtain ⟨values, errors⟩ := gathered
        cases collects
        exact .next first (ih.mp ⟨values, others⟩)
    · rintro ⟨⟩
      rename_i between ran passes
      obtain ⟨values, others⟩ := ih.mpr passes
      exact ⟨() :: values, Task.bind_eq_ok.mpr
        ⟨_, _, ran, Task.bind_eq_ok.mpr ⟨_, _, others, rfl⟩⟩⟩

/-- A command that goes through its arguments succeeds exactly if every step does, and then it is
silent. -/
theorem each_passes_iff : (each step args caller workspace = (.ok outcome, after) ∧
      outcome.code = 0) ↔ outcome = .silent ∧ Passes step caller args workspace after := by
  unfold each
  rw [Task.bind_eq_ok, ← gather_passes_iff]
  constructor
  · rintro ⟨⟨⟨values, errors⟩, between, gathers, told⟩, succeeded⟩
    cases errors with
    | nil =>
      cases told
      exact ⟨rfl, values, gathers⟩
    | cons error errors =>
      cases told
      cases succeeded
  · rintro ⟨rfl, values, gathers⟩
    exact ⟨⟨_, _, gathers, rfl⟩, rfl⟩

/-- A run is known by its outcome and the workspace that it leaves. -/
theorem ending_eq {ending : Except Fault Outcome × Workspace} (answered : ending.1 = .ok outcome) :
    ending = (.ok outcome, ending.2) := Prod.ext answered rfl

end Command

end PocketShell
