import PocketShell.Proofs.Shell.CommandEffects

/-! What commands learn by looking. A user in a working directory gets an answer to whatever is
asked about the filesystem, and a command that only looks ends as it would if all its answers came
from the workspace that it was given. -/
namespace PocketShell

namespace Shell

variable {α β : Type} {caller : Caller Command} {workspace : Workspace}

/-- The path that an argument means. -/
def Workspace.pathOf (workspace : Workspace) (arg : String) : String :=
  Path.expandHome arg ((workspace.env.get? "HOME").getD "/")

/-- What the filesystem answers a user in the working directory. -/
def Workspace.answer (workspace : Workspace) (user : String) (operation : Fs α) :
    Except Fault (Except FsError α) :=
  (workspace.machine.ask ⟨user, workspace.cwd⟩ operation).1

/-- The content that an argument of a user's names. -/
def Workspace.contentOf? (workspace : Workspace) (user : String) (stdin : Option String)
    (arg : String) : Option String :=
  if arg = "-" then some (stdin.getD "")
  else (workspace.answer user (Fs.readText (workspace.pathOf arg))).toOption.bind Except.toOption

/-- The text that a user's filter works on, if every file can be read. -/
def Workspace.inputOf? (workspace : Workspace) (user : String) (files : List String)
    (stdin : Option String) : Option String :=
  if files.isEmpty then some (stdin.getD "")
  else (files.mapM (workspace.contentOf? user stdin)).map Text.unlines

theorem Run.now_bind_run {next : Binary64 → Run Command β} :
    (Run.now >>= next) caller workspace = next workspace.machine.now caller workspace := rfl

theorem Run.path_bind_run {arg : String} {next : String → Run Command β} :
    (Run.path arg >>= next) caller workspace = next (workspace.pathOf arg) caller workspace := rfl

theorem Run.read_bind_run {next : Caller Command → Run Command β} :
    (read >>= next) caller workspace = next caller caller workspace := rfl

/-- To ask the filesystem is to be served. -/
theorem Run.fs_left {operation : Fs α} {request : Request} {value : α → Request.Value}
    (asked : request.run = value <$> operation) :
    (Run.fs operation caller workspace).2 =
      workspace.step (.serve ⟨caller.user, workspace.cwd⟩ request) := by
  rw [Run.fs_run, Machine.ask_left _ asked]
  rfl

theorem Run.fs_result {operation : Fs α} :
    (Run.fs operation caller workspace).1 = workspace.answer caller.user operation := by
  rw [Run.fs_run]
  rfl

end Shell

namespace Command

open Shell

variable {β : Type} {caller : Caller Command} {workspace : Workspace} {stdin : Option String}

/-! ## Operations that only look -/

theorem stat_looks (path : String) : Looks (Run.fs (Fs.stat path)) :=
  .fs (.stat path) .inode rfl (.lookup true path) fun linked =>
    (Fs.Reads.lookup linked true path).imp fun _ _ => trivial

theorem lstat_looks (path : String) : Looks (Run.fs (Fs.lstat path)) :=
  .fs (.lstat path) .inode rfl (.lookup false path) fun linked =>
    (Fs.Reads.lookup linked false path).imp fun _ _ => trivial

theorem listChildren_looks (path : String) : Looks (Run.fs (Fs.listChildren path)) :=
  .fs (.listChildren path) .entries rfl (.listChildren path) fun linked =>
    Fs.listChildren_reads linked path

theorem readText_looks (path : String) : Looks (Run.fs (Fs.readText path)) :=
  .fs (.readText path) .text rfl (.readText path) fun linked => Fs.readText_reads linked path

theorem readArg_looks (arg : String) : Looks (readArg stdin arg) := by
  unfold readArg
  split
  · exact .pure _
  · exact (Looks.path arg).bind readText_looks

theorem readArgs_looks (command : String) (args : List String) :
    Looks (readArgs command stdin args) := by
  induction args with
  | nil => exact .pure _
  | cons arg rest ih =>
    refine (readArg_looks arg).bind fun result => ?_
    cases result with
    | error reason => exact .pure _
    | ok content => exact ih.bind fun _ => .pure _

/-! ## Going through arguments -/

/-- Where what follows cannot fail, the whole fails as its first part does. -/
theorem fails_bind_iff {α : Type} {operation : Run Command α} {next : α → Run Command β}
    (succeeds : ∀ value after, ¬ Fails (next value caller after).1) :
    Fails ((operation >>= next) caller workspace).1 ↔ Fails (operation caller workspace).1 := by
  rw [Task.bind_run]
  generalize operation caller workspace = outcome
  obtain ⟨result, after⟩ := outcome
  cases result with
  | error fault => simp
  | ok value => simpa using succeeds value after

/-- What has been gathered behind a step together with what the step brings. -/
def Gathered.collect (gathered : Gathered β) : Except String β → Gathered β
  | .ok value => ⟨value :: gathered.values, gathered.errors⟩
  | .error error => ⟨gathered.values, error :: gathered.errors⟩

theorem gather_cons {step : String → Run Command (Except String β)} {arg : String}
    {rest : List String} : gather step (arg :: rest) = do
      let result ← step arg
      let gathered ← gather step rest
      return gathered.collect result := by
  refine bind_congr fun result => bind_congr fun gathered => ?_
  cases result <;> rfl

variable (reachable : Reachable Snapshot.Keyed workspace.machine)

include reachable

/-- Where a refusal does not fail, a question about the filesystem fails as what follows on a value
does. -/
theorem fails_ask_iff {α : Type} {operation : Fs α} {next : Except FsError α → Run Command β}
    (completes : Completes (Run.fs operation)) (looks : Looks (Run.fs operation))
    (acts : ∀ result, Acts (next result))
    (refuses : ∀ reason, ¬ Fails (next (.error reason) caller workspace).1) :
    Fails ((Run.fs operation >>= next) caller workspace).1 ↔ ∃ value,
      workspace.answer caller.user operation = .ok (.ok value) ∧
        Fails (next (.ok value) caller workspace).1 := by
  obtain ⟨result, answered⟩ : ∃ result, (Run.fs operation caller workspace).1 = .ok result :=
    completes.succeeds reachable
  rw [looks.result_bind acts reachable, ← Run.fs_result, answered]
  cases result with
  | error reason => exact iff_of_false (refuses reason) (by simp)
  | ok value => simp [bind, Except.bind]

/-- Steps that only look fail together where one of them fails. -/
theorem fails_gather_iff {step : String → Run Command (Except String β)}
    (looks : ∀ arg, Looks (step arg)) (args : List String) :
    Fails (gather step args caller workspace).1 ↔
      ∃ arg ∈ args, Fails (step arg caller workspace).1 := by
  induction args with
  | nil => exact iff_of_false nofun (by simp)
  | cons arg rest ih =>
    have behind : ∀ result, Fails ((gather step rest >>= fun gathered =>
        pure (gathered.collect result)) caller workspace).1 ↔
          ∃ arg ∈ rest, Fails (step arg caller workspace).1 :=
      fun result => (fails_bind_iff fun _ _ => not_fails_ok).trans ih
    have acts : ∀ result, Acts (gather step rest >>= fun gathered =>
        pure (gathered.collect result)) := fun result =>
      (gather_composes Acts.composes (fun arg => (looks arg).acts) rest).bind fun _ => .pure _
    rw [gather_cons, (looks arg).result_bind acts reachable, fails_bind_of_iff behind]
    simp only [List.mem_cons, exists_eq_or_imp]

theorem readArg_result (arg : String) : ∃ result,
    (readArg stdin arg caller workspace).1 = .ok result ∧
      result.toOption = workspace.contentOf? caller.user stdin arg := by
  unfold readArg Workspace.contentOf?
  split
  · exact ⟨.ok (stdin.getD ""), rfl, rfl⟩
  · obtain ⟨result, ran⟩ : ∃ result,
        (Run.fs (Fs.readText (workspace.pathOf arg)) caller workspace).1 = .ok result :=
      (readText_asks _).succeeds reachable
    rw [Run.path_bind_run]
    refine ⟨result, ran, ?_⟩
    rw [Run.fs_result] at ran
    rw [ran]
    rfl

/-- Reading arguments never fails, and brings the contents of all if every one can be read. -/
theorem readArgs_result (command : String) (args : List String) : ∃ result,
    (readArgs command stdin args caller workspace).1 = .ok result ∧
      result.toOption = args.mapM (workspace.contentOf? caller.user stdin) := by
  induction args with
  | nil => exact ⟨.ok [], rfl, rfl⟩
  | cons arg rest ih =>
    obtain ⟨first, readFirst, content⟩ : ∃ first,
        (readArg stdin arg caller workspace).1 = .ok first ∧ _ := readArg_result reachable arg
    obtain ⟨others, readRest, contents⟩ := ih
    rw [List.mapM_cons, ← content, ← contents]
    unfold readArgs
    rw [(readArg_looks arg).result_bind ?acts reachable, readFirst]
    case acts =>
      intro result
      cases result with
      | error reason => exact .pure _
      | ok content => exact (readArgs_completes command rest).acts.bind fun _ => .pure _
    cases first with
    | error reason => exact ⟨_, rfl, rfl⟩
    | ok value =>
      refine ⟨others.map (value :: ·), ?_, ?_⟩
      · change ((readArgs command stdin rest >>= fun others => pure (others.map (value :: ·)))
          caller workspace).1 = _
        rw [Task.bind_run]
        generalize readArgs command stdin rest caller workspace = outcome at readRest
        obtain ⟨_, after⟩ := outcome
        cases readRest
        rfl
      · cases others <;> rfl

/-- A filter fails where it works on an input and its work fails. -/
theorem fails_withInput_iff (command : String) (files : List String) {work : String → Job}
    (acts : ∀ text, Acts (work text)) :
    Fails (withInput command files stdin work caller workspace).1 ↔ ∃ text,
      workspace.inputOf? caller.user files stdin = some text ∧
        Fails (work text caller workspace).1 := by
  unfold withInput Workspace.inputOf?
  split
  · simp
  · obtain ⟨result, read, contents⟩ : ∃ result,
      (readArgs command stdin files caller workspace).1 = .ok result ∧ _ :=
        readArgs_result reachable command files
    rw [(readArgs_looks command files).result_bind ?acts reachable, read, ← contents]
    case acts =>
      intro result
      cases result with
      | error failure => exact .pure _
      | ok contents => exact acts _
    cases result with
    | error failure => exact iff_of_false nofun (by simp [Except.toOption])
    | ok contents => simp [Except.toOption, bind, Except.bind]

end Command

end PocketShell
