import PocketShell.Proofs.Fs.SystemFiles
import PocketShell.Proofs.Fs.UnseenCopies
import PocketShell.Proofs.Shell.Effects

/-! Commands in two workspaces that differ in what one file holds. The file is kept from the user who
runs the commands. What a command is made of does the same in both and leaves two workspaces that
again differ in nothing else. -/
namespace PocketShell.Shell

variable {α β : Type} {caller : Caller Command} {secret : String} {first second : Workspace}
  {machine twin : Machine} {actor : Actor}

/-- The command is registered for the caller. -/
def Caller.CanRun (caller : Caller Command) (command : Command) : Prop :=
  ∃ registry entry, caller.registry = some registry ∧ entry ∈ registry ∧ entry.handler = command

/-- The standard command is registered for the caller. -/
abbrev Caller.Offers (caller : Caller Command) (standard : Builtin) : Prop :=
  caller.CanRun (.builtin standard)

/-- The caller can run a command that reads files of the system whoever asks. -/
def Caller.ReadsSystem (caller : Caller Command) : Prop :=
  ∃ standard ∈ [Builtin.identity, .groups, .hostname, .uname], caller.Offers standard

/-- A file that is kept from the caller, who can tell how files begin if there is the command to. -/
def Caller.veil (caller : Caller Command) (secret : String) : Veil :=
  ⟨caller.user, secret, caller.Offers .file⟩

/-- The second workspace is the first but for what the file holds. -/
inductive Caller.Twins (caller : Caller Command) (secret : String) (first : Workspace) :
    Workspace → Prop
  | mk {machine : Machine} (twins : (caller.veil secret).Twins first.machine machine) :
      caller.Twins secret first { first with machine }

/-- What a machine has to be for the file to stay kept from the caller. -/
structure Caller.Keeps (caller : Caller Command) (secret : String) (machine : Machine) : Prop where
  linked : machine.volume.Linked
  fresh : machine.IdsFresh
  system : caller.ReadsSystem → machine.volume.HoldsSystem (caller.veil secret)

/-- Two workspaces between which the caller is not going to tell. -/
structure Caller.Beside (caller : Caller Command) (secret : String) (first second : Workspace) :
    Prop where
  twins : caller.Twins secret first second
  keeps : caller.Keeps secret first.machine

/-- The operation ends alike in both workspaces, with values that stand in the relation. -/
abbrev Caller.Alongside (caller : Caller Command) (secret : String) (values : α → β → Prop)
    (operation : Run Command α) (other : Run Command β) : Prop :=
  PocketShell.Alongside caller (caller.Beside secret) values operation other

/-- The operation does the same in both workspaces. -/
abbrev Caller.Blind (caller : Caller Command) (secret : String) (operation : Run Command α) : Prop :=
  caller.Alongside secret Eq operation operation

/-! ## Asking the machine -/

private theorem ask_matched {values : α → α → Prop} {operation : Fs α} {veil : Veil}
    (matched : Matched values veil.Twins (operation actor machine) (operation actor twin)) :
    Matched (Results values) veil.Twins (machine.ask actor operation)
      (twin.ask actor operation) := by
  obtain ⟨results, twins⟩ := matched
  unfold Machine.ask Machine.perform
  generalize operation actor machine = outcome at results twins
  generalize operation actor twin = another at results twins
  obtain ⟨result, after⟩ := outcome
  obtain ⟨image, later⟩ := another
  cases results with
  | ok related => exact ⟨.ok (.ok related), twins⟩
  | error failure =>
    cases failure with
    | refused reason => exact ⟨.ok (.error reason), twins⟩
    | denied path action => exact ⟨.ok (.error FsError.permissionDenied), twins⟩
    | missing id => exact ⟨.error _, twins⟩
    | childless => exact ⟨.error _, twins⟩
    | endless => exact ⟨.error _, twins⟩

namespace Caller

variable (plain : caller.user ≠ rootUser)

/-- Whatever the caller asks for, the file stays kept from it. -/
private theorem Keeps.serve (keeps : caller.Keeps secret machine) (plain : caller.user ≠ rootUser)
    (acts : actor.user = caller.user) (request : Request) :
    caller.Keeps secret (machine.serve actor request).2 := by
  have step := machine.serve_step keeps.linked keeps.fresh actor request
  rw [acts] at step
  exact ⟨step.edit.linked keeps.linked, step.supplied.idsFresh keeps.fresh,
    fun reads => (keeps.system reads).step keeps.linked plain step.edit⟩

theorem Keeps.report (keeps : caller.Keeps secret machine) (entry : Log.Entry) :
    caller.Keeps secret (machine.report entry) :=
  ⟨keeps.linked, keeps.fresh, keeps.system⟩

theorem Keeps.setUmask (keeps : caller.Keeps secret machine) (text : String) :
    caller.Keeps secret (machine.setUmask text).2 := by
  unfold Machine.setUmask
  cases Mode.parse? true text with
  | none => exact keeps
  | some mode =>
    refine ⟨keeps.linked.remask _, keeps.fresh, fun reads => ?_⟩
    obtain ⟨root, directory, files⟩ := keeps.system reads
    exact ⟨root, directory, files⟩

/-! ## What commands are made of -/

theorem user_alongside : caller.Alongside secret
    (fun value other => value = caller.user ∧ other = caller.user) Run.user Run.user :=
  Alongside.read (Alongside.pure ⟨rfl, rfl⟩)

theorem user_blind : caller.Blind secret Run.user :=
  user_alongside.imp fun _ _ ⟨here, there⟩ => here.trans there.symm

/-- What does not look at the machine is the same in both workspaces. -/
theorem get_blind {view : Workspace → α}
    (blind : ∀ (workspace : Workspace) machine, view { workspace with machine } = view workspace) :
    caller.Blind secret (do return view (← get)) := by
  refine Alongside.get.bind ?_
  rintro first _ ⟨⟨_⟩, _⟩
  exact .pure (blind _ _).symm

/-- So is what a change leaves that does not touch the machine. -/
theorem modify_blind {rule : Workspace → Workspace}
    (blind : ∀ (workspace : Workspace) machine,
      rule { workspace with machine } = { rule workspace with machine }) :
    caller.Blind secret (modify rule) := by
  refine .change ?_
  rintro first _ ⟨@⟨machine, twins⟩, keeps⟩
  have untouched : (rule first).machine = first.machine := by
    have same := congrArg Workspace.machine (blind first first.machine)
    exact same
  rw [← untouched] at twins keeps
  rw [blind first machine]
  exact ⟨.mk twins, keeps⟩

theorem tell_blind (event : Event) : caller.Blind secret (Run.tell event) :=
  modify_blind fun _ _ => rfl

theorem report_blind (entry : Log.Entry) : caller.Blind secret (Run.report entry) := by
  refine .change ?_
  rintro first _ ⟨⟨twins⟩, keeps⟩
  exact ⟨.mk (twins.report entry), keeps.report entry⟩

theorem now_blind : caller.Blind secret Run.now := by
  refine Alongside.get.bind ?_
  rintro first _ ⟨⟨⟨_⟩⟩, _⟩
  exact .pure rfl

theorem home_blind : caller.Blind secret Run.home := get_blind fun _ _ => rfl

theorem path_blind (arg : String) : caller.Blind secret (Run.path arg) :=
  home_blind.thenSame fun _ => .pure rfl

theorem setVariable_blind (name value : String) :
    caller.Blind secret (Run.setVariable name value) :=
  (modify_blind fun _ _ => rfl).thenSame fun _ => tell_blind _

theorem unsetVariable_blind (name : String) : caller.Blind secret (Run.unsetVariable name) :=
  (modify_blind fun _ _ => rfl).thenSame fun _ => tell_blind _

theorem ask_blind (prompt : Prompt) (question : String) :
    caller.Blind secret (Run.ask prompt question) := by
  refine (modify_blind fun _ _ => rfl).thenSame fun _ => ?_
  cases prompt.answers with
  | nil => exact .throw _
  | cons answer rest =>
    cases answer with
    | line text => exact .pure rfl
    | interrupt => exact .throw _

/-! ## Asking the filesystem -/

/-- A request of the caller's is answered alike in both workspaces. -/
theorem fs_alongside {operation : Fs α} {values : α → α → Prop} (plain : caller.user ≠ rootUser)
    (request : Request) (value : α → Request.Value) (asked : request.run = value <$> operation)
    (matched : ∀ {actor machine twin}, actor.user = (caller.veil secret).user →
      machine.volume.Linked → (caller.veil secret).Twins machine twin →
      Matched values (caller.veil secret).Twins (operation actor machine) (operation actor twin)) :
    caller.Alongside secret (Results values) (Run.fs operation) (Run.fs operation) := by
  refine user_alongside.bind fun _ _ ⟨here, there⟩ => ?_
  cases here
  cases there
  refine Alongside.get.bind ?_
  rintro workspace _ ⟨⟨_⟩, _⟩ first _ ⟨⟨twins⟩, keeps⟩
  have acts : (Actor.mk caller.user workspace.cwd).user = (caller.veil secret).user := rfl
  rw [Run.perform_run, Run.perform_run]
  obtain ⟨results, left⟩ := ask_matched (matched acts keeps.linked twins)
  refine ⟨results, .mk left, ?_⟩
  rw [Machine.ask_left _ asked]
  exact keeps.serve plain rfl request

/-- Whoever asks, the files of the system are read the same. -/
theorem system_blind {name : String} (reads : caller.ReadsSystem) (listed : name ∈ systemNames) :
    caller.Blind secret (Run.perform ⟨rootUser, "/"⟩ (Fs.readText ("/etc/" ++ name))) := by
  rintro first _ ⟨⟨twins⟩, keeps⟩
  rw [Run.perform_run, Run.perform_run]
  obtain ⟨results, left⟩ := ask_matched (Fs.readText_system twins (keeps.system reads) listed)
  have same : Results Eq _ _ := results.imp fun _ _ => Results.eq
  refine ⟨same, .mk left, ?_⟩
  have looks : Fs.Reads (Fs.readText ("/etc/" ++ name)) ⟨rootUser, "/"⟩ first.machine _ :=
    Fs.readText_reads keeps.linked _
  obtain ⟨result, ran, -⟩ := looks
  simp only [Machine.ask, Machine.perform, ran]
  cases result with
  | ok content => exact keeps
  | error failure =>
    cases failure with
    | denied path action => exact keeps.report _
    | _ => exact keeps

/-- What is registered under a name can be run. -/
theorem named_alongside (name : String) : caller.Alongside secret
    (fun found other => found = other ∧ ∀ command, found = some command → caller.CanRun command)
    (Command.named? name) (Command.named? name) := by
  refine .read (.pure ⟨rfl, fun command found => ?_⟩)
  cases known : caller.registry with
  | none =>
    rw [known] at found
    cases found
  | some registry =>
    rw [known] at found
    obtain ⟨entry, listed, same⟩ := Option.map_eq_some_iff.mp found
    exact ⟨registry, entry, known, List.mem_of_find?_eq_some listed, same⟩

end Caller

end PocketShell.Shell
