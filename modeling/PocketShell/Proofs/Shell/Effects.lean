import PocketShell.Command.Standard
import PocketShell.Proofs.Fs.Heedless
import PocketShell.Proofs.Fs.Runs

/-! What commands do to the workspace, one change after another. A command asks the filesystem, sets
the mask, logs, asks its prompt and tells its surroundings, and there is nothing else that it
changes; nor does what it does depend on what has been logged before. -/
namespace PocketShell.Shell

variable {α β γ : Type} {actor : Actor} {workspace first second : Workspace}

/-- A workspace in the root directory and nothing else around it. -/
def plainWorkspace (machine : Machine) : Workspace where
  machine := machine
  cwd := "/"
  env := []
  history := []
  processes := []
  prompt := none
  events := []

/-- A change that a command makes in one go. -/
inductive Effect
  | serve (actor : Actor) (request : Request)
  | setUmask (text : String)
  | report (entry : Log.Entry)
  | setPrompt (prompt : Prompt)
  | tell (event : Event)

/-- The workspace after its surroundings have been told. -/
def Workspace.told (event : Event) (workspace : Workspace) : Workspace :=
  match event with
  | .setVariable name (some value) =>
    { workspace with env := workspace.env.insert name value, events := event :: workspace.events }
  | .setVariable name none =>
    { workspace with env := workspace.env.erase name, events := event :: workspace.events }
  | .setProcesses processes =>
    { workspace with processes, events := event :: workspace.events }
  | .clearHistory => { workspace with events := event :: workspace.events }
  | .called _ _ _ _ => { workspace with events := event :: workspace.events }

/-- The workspace after a change. -/
def Workspace.step (workspace : Workspace) : Effect → Workspace
  | .serve actor request =>
    { workspace with machine := (workspace.machine.serve actor request).2 }
  | .setUmask text => { workspace with machine := (workspace.machine.setUmask text).2 }
  | .report entry => { workspace with machine := workspace.machine.report entry }
  | .setPrompt prompt => { workspace with prompt := some prompt }
  | .tell event => workspace.told event

/-- The workspace after changes. -/
def Workspace.follow (workspace : Workspace) (effects : List Effect) : Workspace :=
  effects.foldl Workspace.step workspace

@[simp] theorem Workspace.follow_nil : workspace.follow [] = workspace := rfl

@[simp] theorem Workspace.follow_cons {effect : Effect} {effects : List Effect} :
    workspace.follow (effect :: effects) = (workspace.step effect).follow effects := rfl

@[simp] theorem Workspace.follow_append {effects more : List Effect} :
    workspace.follow (effects ++ more) = (workspace.follow effects).follow more :=
  List.foldl_append ..

/-- What every change keeps, all changes keep. -/
theorem Workspace.follow_keeps (holds : Workspace → Prop)
    (kept : ∀ workspace effect, holds workspace → holds (workspace.step effect))
    (effects : List Effect) (here : holds workspace) : holds (workspace.follow effects) := by
  induction effects generalizing workspace with
  | nil => exact here
  | cons effect rest ih => exact ih (kept workspace effect here)

/-- No change moves the workspace. -/
theorem Workspace.step_cwd (workspace : Workspace) (effect : Effect) :
    (workspace.step effect).cwd = workspace.cwd := by
  cases effect with
  | tell event =>
    cases event with
    | setVariable name value => cases value <;> rfl
    | _ => rfl
  | _ => rfl

theorem Workspace.follow_cwd (effects : List Effect) :
    (workspace.follow effects).cwd = workspace.cwd :=
  Workspace.follow_keeps (fun after => after.cwd = workspace.cwd)
    (fun after effect kept => (after.step_cwd effect).trans kept) effects rfl

/-- Every change takes the machine further on its run, or leaves it. -/
theorem Workspace.follow_reachable {kind : Snapshot → Prop} (effects : List Effect)
    (reachable : Reachable kind workspace.machine) :
    Reachable kind (workspace.follow effects).machine := by
  refine Workspace.follow_keeps (fun after => Reachable kind after.machine) ?_ effects reachable
  intro after effect reached
  cases effect with
  | serve actor request => exact reached.serve actor request
  | setUmask text => exact reached.setUmask text
  | report entry =>
    exact reached.elapse after.machine.now (after.machine.log.emit entry) (Nat.le_refl _)
  | setPrompt prompt => exact reached
  | tell event =>
    cases event with
    | setVariable name value => cases value <;> exact reached
    | _ => exact reached

/-! ## Workspaces that differ in what they have logged -/

/-- The second workspace is the first but for what it has logged. -/
inductive Workspace.Mirrors (first : Workspace) : Workspace → Prop
  | mk (log : Log) : first.Mirrors { first with machine := { first.machine with log } }

theorem Workspace.Mirrors.withMachine {machine twin : Machine}
    (mirrors : first.Mirrors second) (twins : machine.Mirrors twin) :
    Workspace.Mirrors { first with machine } { second with machine := twin } := by
  obtain ⟨_⟩ := mirrors
  obtain ⟨log⟩ := twins
  exact .mk log

theorem Workspace.Mirrors.machine (mirrors : first.Mirrors second) :
    first.machine.Mirrors second.machine := by
  obtain ⟨log⟩ := mirrors
  exact .mk log

/-- A change is the same in both. -/
theorem Workspace.Mirrors.step (mirrors : first.Mirrors second) (effect : Effect) :
    (first.step effect).Mirrors (second.step effect) := by
  cases effect with
  | serve actor request => exact mirrors.withMachine (mirrors.machine.serve actor request).2
  | setUmask text => exact mirrors.withMachine (mirrors.machine.setUmask text).2
  | report entry => exact mirrors.withMachine (mirrors.machine.report entry)
  | setPrompt prompt =>
    obtain ⟨log⟩ := mirrors
    exact .mk log
  | tell event =>
    obtain ⟨log⟩ := mirrors
    cases event with
    | setVariable name value => cases value <;> exact .mk log
    | _ => exact .mk log

theorem Workspace.Mirrors.follow (mirrors : first.Mirrors second) (effects : List Effect) :
    (first.follow effects).Mirrors (second.follow effects) := by
  induction effects generalizing first second with
  | nil => exact mirrors
  | cons effect rest ih => exact ih (mirrors.step effect)

/-! ## What makes changes and nothing else -/

/-- All that the operation does are changes, and these and the result are the same whatever has
been logged. -/
def Acts (operation : Run Command α) : Prop :=
  ∀ caller first second, first.Mirrors second → ∃ effects,
    (operation caller first).2 = first.follow effects ∧
      operation caller second = ((operation caller first).1, second.follow effects)

/-- A kind of operations that holds of values and of what is put together from its own. -/
structure Composes (kind : ∀ {α : Type}, Run Command α → Prop) : Prop where
  pure : ∀ {α : Type} (value : α), kind (Pure.pure value)
  bind : ∀ {α β : Type} {operation : Run Command α} {next : α → Run Command β},
    kind operation → (∀ value, kind (next value)) → kind (operation >>= next)

namespace Composes

variable {kind : ∀ {α : Type}, Run Command α → Prop} (composes : Composes kind) {xs : List γ}

include composes

theorem forM {each : γ → Run Command PUnit} (holds : ∀ x, kind (each x)) :
    kind (xs.forM each) := by
  induction xs with
  | nil => exact composes.pure _
  | cons x rest ih => exact composes.bind (holds x) fun _ => ih

theorem mapM {each : γ → Run Command β} (holds : ∀ x, kind (each x)) : kind (xs.mapM each) := by
  induction xs with
  | nil => exact composes.pure _
  | cons x rest ih =>
    rw [List.mapM_cons]
    exact composes.bind (holds x) fun _ => composes.bind ih fun _ => composes.pure _

theorem filterM {test : γ → Run Command Bool} (holds : ∀ x, kind (test x)) :
    kind (xs.filterM test) := by
  have gathers : ∀ found, kind (xs.filterAuxM test found) := by
    induction xs with
    | nil => exact fun found => composes.pure _
    | cons x rest ih => exact fun found => composes.bind (holds x) fun _ => ih _
  exact composes.bind (gathers []) fun _ => composes.pure _

end Composes

theorem Run.user_bind_run {caller : Caller Command} {next : String → Run Command β} :
    (Run.user >>= next) caller workspace = next caller.user caller workspace := rfl

/-- To perform an operation is to ask the machine. -/
theorem Run.perform_run {operation : Fs α} {caller : Caller Command} :
    Run.perform actor operation caller workspace =
      ((workspace.machine.ask actor operation).1,
        { workspace with machine := (workspace.machine.ask actor operation).2 }) := by
  change (do
    set { workspace with machine := (workspace.machine.ask actor operation).2 }
    (workspace.machine.ask actor operation).1 : Run Command (Except FsError α))
      caller workspace = _
  cases (workspace.machine.ask actor operation).1 <;> rfl

/-- The filesystem is asked for the user, from the working directory. -/
theorem Run.fs_run {operation : Fs α} {caller : Caller Command} :
    Run.fs operation caller workspace =
      ((workspace.machine.ask ⟨caller.user, workspace.cwd⟩ operation).1,
        { workspace with
          machine := (workspace.machine.ask ⟨caller.user, workspace.cwd⟩ operation).2 }) := by
  change Run.perform ⟨caller.user, workspace.cwd⟩ operation caller workspace = _
  exact Run.perform_run

namespace Acts

variable {operation : Run Command α} {next : α → Run Command β}

/-- What an operation leaves is what it was given after some changes. -/
theorem follows {caller : Caller Command} {workspace after : Workspace} {result : Except Fault α}
    (acts : Acts operation) (ran : operation caller workspace = (result, after)) :
    ∃ effects, after = workspace.follow effects := by
  obtain ⟨effects, same, -⟩ := acts caller workspace _ (.mk workspace.machine.log)
  rw [ran] at same
  exact ⟨effects, same⟩

/-- It does the same whatever has been logged. -/
theorem alongside (acts : Acts operation) (caller : Caller Command) :
    Alongside caller Workspace.Mirrors Eq operation operation := by
  intro first second mirrors
  obtain ⟨effects, here, there⟩ := acts caller first second mirrors
  rw [there]
  exact ⟨.refl _, here ▸ mirrors.follow effects⟩

theorem pure (value : α) : Acts (Pure.pure value) := fun _ _ _ _ => ⟨[], rfl, rfl⟩

theorem throw (fault : Fault) : Acts (MonadExcept.throw fault : Run Command α) :=
  fun _ _ _ _ => ⟨[], rfl, rfl⟩

theorem lift (result : Except Fault α) : Acts (liftM result : Run Command α) := by
  intro caller first second mirrors
  rw [Task.lift_run, Task.lift_run]
  exact ⟨[], rfl, rfl⟩

theorem bind (acts : Acts operation) (continues : ∀ value, Acts (next value)) :
    Acts (operation >>= next) := by
  intro caller first second mirrors
  obtain ⟨effects, here, there⟩ := acts caller first second mirrors
  rw [Task.bind_run, Task.bind_run, there]
  generalize operation caller first = outcome at here
  obtain ⟨result, after⟩ := outcome
  obtain rfl : after = first.follow effects := here
  cases result with
  | error fault => exact ⟨effects, rfl, rfl⟩
  | ok value =>
    obtain ⟨more, later, twin⟩ := continues value caller _ _ (mirrors.follow effects)
    rw [← Workspace.follow_append] at later twin
    exact ⟨effects ++ more, later, twin⟩

theorem tryCatch {handler : Fault → Run Command α} (acts : Acts operation)
    (handled : ∀ fault, Acts (handler fault)) : Acts (MonadExcept.tryCatch operation handler) := by
  intro caller first second mirrors
  obtain ⟨effects, here, there⟩ := acts caller first second mirrors
  rw [Task.tryCatch_run, Task.tryCatch_run, there]
  generalize operation caller first = outcome at here
  obtain ⟨result, after⟩ := outcome
  obtain rfl : after = first.follow effects := here
  cases result with
  | ok value => exact ⟨effects, rfl, rfl⟩
  | error fault =>
    obtain ⟨more, later, twin⟩ := handled fault caller _ _ (mirrors.follow effects)
    rw [← Workspace.follow_append] at later twin
    exact ⟨effects ++ more, later, twin⟩

theorem read {next : Caller Command → Run Command β} (continues : ∀ caller, Acts (next caller)) :
    Acts (MonadReader.read >>= next) :=
  fun caller => continues caller caller

/-- What acts, acts for another caller. -/
theorem adapt (acts : Acts operation) (change : Caller Command → Caller Command) :
    Acts (ReaderT.adapt change operation) :=
  fun caller => acts (change caller)

/-- What is seen of the workspace is not the log. -/
theorem get {next : Workspace → Run Command β}
    (unseen : ∀ workspace log,
      next { workspace with machine := { workspace.machine with log } } = next workspace)
    (continues : ∀ workspace, Acts (next workspace)) : Acts (MonadState.get >>= next) := by
  intro caller first second mirrors
  have same : next second = next first := by
    obtain ⟨log⟩ := mirrors
    exact unseen first log
  obtain ⟨effects, here, there⟩ := continues first caller first second mirrors
  exact ⟨effects, here, (congrArg (· caller second) same).trans there⟩

theorem change {rule : Workspace → Workspace} (effect : Effect)
    (does : ∀ workspace, rule workspace = workspace.step effect) :
    Acts (modify rule : Run Command PUnit) :=
  fun _ first second _ =>
    ⟨[effect], does first, congrArg (Prod.mk (Except.ok PUnit.unit)) (does second)⟩

theorem composes : Composes Acts := ⟨pure, bind⟩

/-! ## Primitives -/

theorem user : Acts Run.user := read fun _ => pure _

theorem tell_called (name : String) (args : List String) (stdin : Option String) (user : String) :
    Acts (Run.tell (.called name args stdin user)) :=
  change (.tell (.called name args stdin user)) fun _ => rfl

theorem tell_clearHistory : Acts (Run.tell .clearHistory) :=
  change (.tell .clearHistory) fun _ => rfl

theorem report (entry : Log.Entry) : Acts (Run.report entry) := change (.report entry) fun _ => rfl

theorem now : Acts Run.now := get (fun _ _ => rfl) fun _ => pure _

theorem home : Acts Run.home := get (fun _ _ => rfl) fun _ => pure _

theorem path (arg : String) : Acts (Run.path arg) := home.bind fun _ => pure _

theorem setVariable (name value : String) : Acts (Run.setVariable name value) :=
  change (.tell (.setVariable name (some value))) fun _ => rfl

theorem ask (prompt : Prompt) (question : String) : Acts (Run.ask prompt question) := by
  refine (change (.setPrompt ⟨_, _, _⟩) fun _ => rfl).bind fun _ => ?_
  cases prompt.answers with
  | nil => exact throw _
  | cons answer rest =>
    cases answer with
    | line text => exact pure _
    | interrupt => exact throw _

/-- To ask the filesystem is a change, whatever is answered. -/
theorem perform (actor : Actor) {operation : Fs α} (request : Request) (value : α → Request.Value)
    (asked : request.run = value <$> operation) (heedless : Fs.Heedless operation) :
    Acts (Run.perform actor operation) := by
  intro caller first second mirrors
  have left : ∀ machine : Machine,
      (machine.ask actor operation).2 = (machine.serve actor request).2 :=
    fun machine => machine.ask_left asked
  refine ⟨[.serve actor request], ?_, ?_⟩
  · rw [Run.perform_run, left]
    rfl
  · rw [Run.perform_run, Run.perform_run, left, mirrors.machine.ask heedless]
    rfl

/-- So is to ask it for the user. -/
theorem fs {operation : Fs α} (request : Request) (value : α → Request.Value)
    (asked : request.run = value <$> operation) (heedless : Fs.Heedless operation) :
    Acts (Run.fs operation) :=
  user.bind fun _ => get (fun _ _ => rfl) fun _ => perform _ request value asked heedless

end Acts

end PocketShell.Shell
