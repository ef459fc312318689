import PocketShell.Proofs.Fs.Shape
import PocketShell.Proofs.Shell.Effects

/-! Whether operations give a value. The filesystem answers every request but some for a copy, so an
operation that is put together from such requests, from changes and from values completes on every
machine that a run gets to. One that only looks leaves the workspace as it was but for the log, and
what follows it fails where it would have failed at once. -/
namespace PocketShell

variable {α : Type} {actor : Actor} {machine : Machine} {holds : α → Prop}

/-- An operation is answered like the request for it. -/
theorem Machine.answers_iff {operation : Fs α} {request : Request} {value : α → Request.Value}
    (asked : request.run = value <$> operation) :
    machine.Answers actor request ↔ ¬ Fails (machine.ask actor operation).1 := by
  rw [not_fails_iff]
  unfold Machine.Answers Machine.ask Machine.perform
  rw [asked, Fs.map_run]
  generalize operation actor machine = outcome
  obtain ⟨result, after⟩ := outcome
  cases result with
  | ok given => exact ⟨fun _ => ⟨_, rfl⟩, fun _ => ⟨_, rfl⟩⟩
  | error failure => cases failure <;> simp [FsFailure.settle, Except.map]

/-- What only reads leaves nothing behind but what it has logged. -/
theorem Fs.Reads.mirrors {operation : Fs α} (reads : Fs.Reads operation actor machine holds) :
    machine.Mirrors (machine.ask actor operation).2 := by
  obtain ⟨result, ran, -⟩ := reads
  unfold Machine.ask Machine.perform
  rw [ran]
  cases result with
  | ok value => exact .refl machine
  | error failure =>
    cases failure with
    | denied path action => exact .mk _
    | _ => exact .refl machine

namespace Shell

variable {β : Type} {caller : Caller Command} {workspace : Workspace}

theorem Workspace.Mirrors.refl (workspace : Workspace) : workspace.Mirrors workspace :=
  .mk workspace.machine.log

theorem Workspace.Mirrors.trans {first second third : Workspace} (left : first.Mirrors second)
    (right : second.Mirrors third) : first.Mirrors third := by
  obtain ⟨_⟩ := left
  obtain ⟨log⟩ := right
  exact .mk log

/-! ## What completes -/

/-- The operation makes changes and nothing else, and a value comes of it on every machine that a
run gets to. -/
structure Completes (operation : Run Command α) : Prop where
  acts : Acts operation
  succeeds : ∀ {caller : Caller Command} {workspace : Workspace},
    Reachable Snapshot.Keyed workspace.machine → ∃ value, (operation caller workspace).1 = .ok value

namespace Completes

variable {operation : Run Command α} {next : α → Run Command β}

theorem pure (value : α) : Completes (Pure.pure value) := ⟨.pure value, fun _ => ⟨value, rfl⟩⟩

theorem bind (completes : Completes operation) (continues : ∀ value, Completes (next value)) :
    Completes (operation >>= next) where
  acts := completes.acts.bind fun value => (continues value).acts
  succeeds := by
    intro caller workspace reachable
    obtain ⟨value, succeeded⟩ : ∃ value, (operation caller workspace).1 = .ok value :=
      completes.succeeds reachable
    rw [Task.bind_run]
    cases ran : operation caller workspace with
    | mk result after =>
      obtain rfl : result = .ok value := by rw [← succeeded, ran]
      obtain ⟨effects, rfl⟩ := completes.acts.follows ran
      exact (continues value).succeeds (Workspace.follow_reachable effects reachable)

theorem read {next : Caller Command → Run Command β}
    (continues : ∀ caller, Completes (next caller)) : Completes (MonadReader.read >>= next) :=
  ⟨.read fun caller => (continues caller).acts,
    fun {caller _} reachable => (continues caller).succeeds reachable⟩

theorem get {next : Workspace → Run Command β}
    (unseen : ∀ workspace log,
      next { workspace with machine := { workspace.machine with log } } = next workspace)
    (continues : ∀ workspace, Completes (next workspace)) :
    Completes (MonadState.get >>= next) :=
  ⟨.get unseen fun workspace => (continues workspace).acts,
    fun {_ workspace} reachable => (continues workspace).succeeds reachable⟩

theorem change {rule : Workspace → Workspace} (effect : Effect)
    (does : ∀ workspace, rule workspace = workspace.step effect) :
    Completes (modify rule : Run Command PUnit) :=
  ⟨.change effect does, fun _ => ⟨⟨⟩, rfl⟩⟩

theorem composes : Composes Completes := ⟨pure, bind⟩

/-! ## Primitives -/

theorem user : Completes Run.user := read fun _ => pure _

theorem home : Completes Run.home := get (fun _ _ => rfl) fun _ => pure _

theorem path (arg : String) : Completes (Run.path arg) := home.bind fun _ => pure _

theorem setVariable (name value : String) : Completes (Run.setVariable name value) :=
  change (.tell (.setVariable name (some value))) fun _ => rfl

theorem unsetVariable (name : String) : Completes (Run.unsetVariable name) :=
  change (.tell (.setVariable name none)) fun _ => rfl

/-- The filesystem answers whatever is asked of it, unless it is a copy. -/
theorem perform (actor : Actor) {operation : Fs α} (request : Request)
    (value : α → Request.Value) (asked : request.run = value <$> operation)
    (heedless : Fs.Heedless operation) (copies : ¬ request.Copies) :
    Completes (Run.perform actor operation) where
  acts := .perform actor request value asked heedless
  succeeds := by
    intro caller workspace reachable
    have sound := reachable.sound Snapshot.keyed_closed
    have answers := workspace.machine.answers_of_not_copies sound.linked sound.fresh actor copies
    rw [Run.perform_run]
    exact not_fails_iff.mp ((Machine.answers_iff asked).mp answers)

theorem fs {operation : Fs α} (request : Request) (value : α → Request.Value)
    (asked : request.run = value <$> operation) (heedless : Fs.Heedless operation)
    (copies : ¬ request.Copies) : Completes (Run.fs operation) :=
  user.bind fun _ => get (fun _ _ => rfl) fun _ => perform _ request value asked heedless copies

end Completes

/-! ## What only looks -/

/-- The operation leaves nothing behind but what it has logged. -/
structure Looks (operation : Run Command α) : Prop where
  acts : Acts operation
  leaves : ∀ {caller : Caller Command} {workspace : Workspace},
    Reachable Snapshot.Keyed workspace.machine → workspace.Mirrors (operation caller workspace).2

namespace Looks

variable {operation : Run Command α} {next : α → Run Command β}

theorem pure (value : α) : Looks (Pure.pure value) := ⟨.pure value, fun _ => .refl _⟩

theorem lift (result : Except Fault α) : Looks (liftM result : Run Command α) := by
  refine ⟨.lift result, fun _ => ?_⟩
  rw [Task.lift_run]
  exact .refl _

theorem bind (looks : Looks operation) (continues : ∀ value, Looks (next value)) :
    Looks (operation >>= next) where
  acts := looks.acts.bind fun value => (continues value).acts
  leaves := by
    intro caller workspace reachable
    have left : workspace.Mirrors (operation caller workspace).2 := looks.leaves reachable
    rw [Task.bind_run]
    cases ran : operation caller workspace with
    | mk result after =>
      obtain ⟨effects, rfl⟩ := looks.acts.follows ran
      rw [ran] at left
      cases result with
      | error fault => exact left
      | ok value =>
        exact left.trans ((continues value).leaves (Workspace.follow_reachable effects reachable))

theorem get {next : Workspace → Run Command β}
    (unseen : ∀ workspace log,
      next { workspace with machine := { workspace.machine with log } } = next workspace)
    (continues : ∀ workspace, Looks (next workspace)) : Looks (MonadState.get >>= next) :=
  ⟨.get unseen fun workspace => (continues workspace).acts,
    fun {_ workspace} reachable => (continues workspace).leaves reachable⟩

theorem path (arg : String) : Looks (Run.path arg) :=
  get (fun _ _ => rfl) fun _ => pure _

/-- To ask the filesystem what it holds is to look. -/
theorem fs {operation : Fs α} (request : Request) (value : α → Request.Value)
    (asked : request.run = value <$> operation) (heedless : Fs.Heedless operation)
    (reads : ∀ {machine actor}, machine.volume.Linked →
      Fs.Reads operation actor machine fun _ => True) : Looks (Run.fs operation) where
  acts := .fs request value asked heedless
  leaves := by
    intro caller workspace reachable
    rw [Run.fs_run]
    exact (Workspace.Mirrors.refl workspace).withMachine
      (reads (reachable.sound Snapshot.keyed_closed).linked).mirrors

/-- What follows a look gives what it would have given at once. -/
theorem result_bind (looks : Looks operation) (acts : ∀ value, Acts (next value))
    (reachable : Reachable Snapshot.Keyed workspace.machine) :
    ((operation >>= next) caller workspace).1 =
      (operation caller workspace).1 >>= fun value => (next value caller workspace).1 := by
  have left : workspace.Mirrors (operation caller workspace).2 := looks.leaves reachable
  rw [Task.bind_run]
  generalize operation caller workspace = outcome at left
  obtain ⟨result, after⟩ := outcome
  cases result with
  | error fault => rfl
  | ok value => exact ((acts value).alongside caller _ _ left).results.eq.symm

end Looks

end Shell

end PocketShell
