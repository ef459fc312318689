import PocketShell.Proofs.Fs.Decoding
import PocketShell.Proofs.Number.Digits
import PocketShell.Proofs.Session.Agreement

/-! A session that is reset goes on like a new one over the same snapshot, but for one thing that a
line can change and that neither the filesystem's snapshot nor the session's first state holds: the
mask for new modes stays as it was. -/
namespace PocketShell.Session

open Shell

variable {session first second : Session} {line : String}

/-! ## Sessions that differ in what they have logged -/

/-- The second session is the first but for what it has logged. -/
inductive Mirrors (first : Session) : Session → Prop
  | mk (log : Log) : first.Mirrors { first with machine := { first.machine with log } }

namespace Mirrors

theorem machine (mirrors : first.Mirrors second) : first.machine.Mirrors second.machine := by
  obtain ⟨log⟩ := mirrors
  exact .mk log

theorem absorb (mirrors : first.Mirrors second) (event : Event) :
    (first.absorb event).Mirrors (second.absorb event) := by
  obtain ⟨log⟩ := mirrors
  cases event with
  | setVariable name value => cases value <;> exact .mk log
  | _ => exact .mk log

/-- Either session hears the same. -/
theorem hear (mirrors : first.Mirrors second) (events : List Event) :
    (first.hear events).Mirrors (second.hear events) := by
  induction events with
  | nil => exact mirrors
  | cons event rest ih =>
    rw [hear_cons, hear_cons]
    exact ih.absorb event

theorem moveTo (mirrors : first.Mirrors second) (path : String) :
    (first.moveTo path).Mirrors (second.moveTo path) := by
  obtain ⟨log⟩ := mirrors
  exact .mk log

theorem takeOver (mirrors : first.Mirrors second) {ended after : Workspace}
    (left : ended.Mirrors after) (line : String) (result : Except Fault Transcript) :
    (first.takeOver line result ended).Mirrors (second.takeOver line result after) := by
  obtain ⟨log⟩ := left
  have behind : Mirrors (first.behind line ended)
      (second.behind line { ended with machine := { ended.machine with log } }) := by
    obtain ⟨_⟩ := mirrors
    unfold Session.behind
    dsimp only
    -- Both have the same history, and what it is must not be worked out to see that.
    generalize record first.config.historyLimit line first.history = history
    exact .mk log
  have heard := behind.hear ended.events
  unfold Session.takeOver
  dsimp only
  cases result.toOption.bind (·.moved) with
  | none => exact heard
  | some path => exact heard.moveTo path

private theorem runWithin (mirrors : first.Mirrors second) (line : String) :
    (second.runWithin line).1 = (first.runWithin line).1 ∧
      (first.runWithin line).2.Mirrors (second.runWithin line).2 := by
  obtain ⟨log⟩ := mirrors
  obtain ⟨results, left⟩ : Matched Eq Workspace.Mirrors
      (runLine nestingLimit line first.caller first.workspace) _ :=
    runLine_alongside (Nat.le_refl _) line first.workspace _ (.mk log)
  exact ⟨results.eq.symm, left⟩

/-- A line comes to the same in either session. -/
theorem run (mirrors : first.Mirrors second) (line : String) :
    (second.run line).1 = (first.run line).1 ∧ (first.run line).2.Mirrors (second.run line).2 := by
  obtain ⟨same, left⟩ := mirrors.runWithin line
  rw [run_eq (Prod.mk.eta (p := first.runWithin line)).symm,
    run_eq (Prod.mk.eta (p := second.runWithin line)).symm, same]
  exact ⟨rfl, mirrors.takeOver left line _⟩

end Mirrors

/-! ## What is seen of a session -/

/-- What is seen of a session between two lines. -/
structure Sight where
  prompt : Except Fault String
  cwd : String
  env : Env
  history : List String
  processes : List Proc
  rootId : String
  inodes : List Inode

/-- What is seen of the session. -/
def sight (session : Session) : Sight where
  prompt := session.promptText
  cwd := session.cwd
  env := session.env
  history := session.history
  processes := session.processes
  rootId := session.machine.volume.rootId
  inodes := session.machine.volume.inodes

/-- The session at another time. -/
def atTime (now : Binary64) (session : Session) : Session :=
  { session with machine := { session.machine with now } }

/-- What lines come to, one after another, each at its time, with what is seen after each. -/
def watch (session : Session) : List (Binary64 × String) → List (Except Fault Transcript × Sight)
  | [] => []
  | (now, line) :: rest =>
    (((session.atTime now).run line).1, ((session.atTime now).run line).2.sight) ::
      ((session.atTime now).run line).2.watch rest

namespace Mirrors

private theorem hostname (mirrors : first.Mirrors second) : second.hostname = first.hostname := by
  have reads := (mirrors.machine.perform (Fs.Heedless.readText "/etc/hostname") ⟨rootUser, "/"⟩).1
  obtain ⟨log⟩ := mirrors
  unfold Session.hostname
  dsimp only at reads ⊢
  rw [reads]

/-- The log is not seen. -/
theorem sight (mirrors : first.Mirrors second) : second.sight = first.sight := by
  have shown : second.promptText = first.promptText := by
    have host := mirrors.hostname
    obtain ⟨log⟩ := mirrors
    unfold promptText
    rw [host]
  unfold Session.sight
  rw [shown]
  obtain ⟨log⟩ := mirrors
  rfl

/-- Nor is it seen in what lines come to. By induction on the lines: every line leaves sessions that
again differ in nothing else. -/
theorem watch (mirrors : first.Mirrors second) (lines : List (Binary64 × String)) :
    second.watch lines = first.watch lines := by
  induction lines generalizing first second with
  | nil => rfl
  | cons head rest ih =>
    obtain ⟨now, line⟩ := head
    have later : (first.atTime now).Mirrors (second.atTime now) := by
      obtain ⟨log⟩ := mirrors
      exact .mk log
    obtain ⟨same, left⟩ := later.run line
    rw [Session.watch, Session.watch, same, left.sight, ih left]

end Mirrors

/-! ## The line that shows the mask -/

private theorem runStage_umask (inner : Inner) (caller : Caller Command) (workspace : Workspace)
    (standard : caller.registry = some Command.standardRegistry) :
    runStage inner 0 none ⟨"umask", [], none, none⟩ caller workspace =
      (.ok (.proceed (.text workspace.machine.volume.umask.octal4)), workspace) := by
  unfold runStage
  have words : [Action.name ⟨"umask", [], none, none⟩].filter (!·.isEmpty) ++
    Action.args ⟨"umask", [], none, none⟩ = ["umask"] := by decide
  rw [words, fillWords_plain (by decide +kernel) (by decide) (by decide)]
  obtain ⟨user, registry, host⟩ := caller
  obtain rfl : registry = _ := standard
  rfl

private theorem runPipeline_umask (caller : Caller Command) (workspace : Workspace)
    (standard : caller.registry = some Command.standardRegistry) (levels : Nat) :
    runPipeline levels [⟨"umask", [], none, none⟩] caller workspace =
      (.ok (.text workspace.machine.volume.umask.octal4), workspace) := by
  rw [runPipeline_eq, runPipelineWith, runStages, Task.bind_run, runStage_umask _ _ _ standard]
  rfl

private theorem octal4_isEmpty (mask : Mode) : mask.octal4.isEmpty = false := by
  rw [Bool.eq_false_iff, ne_eq, String.isEmpty_iff, ← String.toList_eq_nil_iff, Mode.octal4,
    Text.padDigits, String.toList_ofList]
  exact List.append_ne_nil_of_right_ne_nil _ Nat.toDigits_ne_nil

/-- The line that shows the mask does nothing else. -/
theorem run_umask (session : Session) :
    (session.run "umask").1 = .ok ⟨session.machine.volume.umask.octal4, none, 0, none⟩ := by
  have segments : parseLine "umask" = [⟨[⟨"umask", [], none, none⟩], .done⟩] := by decide +kernel
  have ran : session.runWithin "umask" = (.ok (Progress.transcript
      ⟨[session.machine.volume.umask.octal4].filter (!·.isEmpty), [], 0, none⟩),
        session.workspace) := by
    unfold runWithin
    rw [runLine_eq, runLineWith, segments, Task.bind_run, ← runPipeline_eq,
      runSegments_of_ok (runPipeline_umask session.caller session.workspace rfl nestingLimit)]
    rfl
  rw [run_eq ran]
  simp [Progress.transcript, octal4_isEmpty, Text.unlines]

private theorem octal4_injective {mask other : Mode} (same : mask.octal4 = other.octal4) :
    mask = other := by
  have read : ∀ mode : Mode, Nat.ofDigitChars 8 mode.octal4.toList 0 = mode.toNat := by
    intro mode
    rw [Mode.octal4, Text.padDigits, String.toList_ofList, Nat.ofDigitChars_append,
      Nat.ofDigitChars_replicate_zero, Nat.mul_zero]
    exact Nat.ofDigitChars_toDigits (by decide) (by decide)
  have back := read mask
  rw [same, read other] at back
  exact BitVec.eq_of_toNat_eq back.symm

/-! ## Resetting and starting anew -/

/-- The mask that a new machine starts with. -/
def startMask (umask : Json) : Mode :=
  ((Mode.parse? true (umask.string?.getD "")).map (· &&& Mode.maskable)).getD Machine.initialUmask

/-- What the machine of a session takes over to be reset to a target, and what a new one starts from
to hold the same. -/
inductive Target.Means (config : Config) : Target → Replacement → Origin → Prop
  | initial {name : String} (configured : config.filesystem.initialSnapshot = .string name) :
      Target.Means config .initial (.named name) (.named name)
  | named (name : String) : Target.Means config (.named name) (.named name) (.named name)
  | snapshot (given : Snapshot) :
      Target.Means config (.snapshot given) (.snapshot given) (.snapshot given)

/-- How the log calls what a session is reset to. -/
def Target.title (config : Config) : Target → String
  | .initial => config.filesystem.initialSnapshot.plain
  | .named name => name
  | .snapshot _ => "custom"

/-- The note of a reset in the log. -/
def resetEntry (user title : String) : Log.Entry :=
  .of .info subsystem "Session reset" [("user", .string user), ("snapshot", .string title)]

/-- A new session with the user, the configuration and the prompt of this one. Its machine starts
from the origin with a mask and a log of its own, at the same time and with the same ids to come. -/
def anew (session : Session) (origin : Origin) (umask : Json) (log : Log) (asked : String) :
    Except SnapshotFailure Session := do
  let machine ← Machine.start origin umask session.machine.now session.machine.nextId log
  match start machine session.config session.host asked session.prompt with
  | .error fault => throw (.fault fault)
  | .ok fresh => return fresh

section

variable {config : Config} {target : Target} {replacement : Replacement} {origin : Origin}
  {machine twin : Machine}

/-- The second machine is the first but for its mask and what it has logged. -/
inductive SameTree (machine : Machine) : Machine → Prop
  | mk (mask : Mode) (log : Log) :
      SameTree machine { machine with volume := { machine.volume with umask := mask }, log }

theorem SameTree.mirrors (same : SameTree machine twin)
    (masks : machine.volume.umask = twin.volume.umask) : machine.Mirrors twin := by
  obtain ⟨mask, log⟩ := same
  obtain rfl : machine.volume.umask = mask := masks
  exact .mk log

/-- What a snapshot makes of two machines with the same clock and the same ids to come, each keeping
its mask. -/
private theorem load_alike (machine twin : Machine) (snapshot : Snapshot)
    (clock : machine.now = twin.now) (ids : machine.nextId = twin.nextId) :
    Results (fun taken other => SameTree taken other ∧
        taken.volume.umask = machine.volume.umask ∧ other.volume.umask = twin.volume.umask)
      (machine.load snapshot) (twin.load snapshot) := by
  obtain ⟨volume, now, nextId, log⟩ := machine
  obtain ⟨other, _, _, _⟩ := twin
  obtain rfl : now = _ := clock
  obtain rfl : nextId = _ := ids
  unfold Machine.load
  cases snapshot.copy.check with
  | error failure => exact .error failure
  | ok accepted => exact .ok ⟨.mk _ _, rfl, rfl⟩

private theorem outcome_alike (means : target.Means config replacement origin)
    (clock : machine.now = twin.now) (ids : machine.nextId = twin.nextId) :
    Results (fun taken other => SameTree taken other ∧
        taken.volume.umask = machine.volume.umask ∧ other.volume.umask = twin.volume.umask)
      (replacement.outcome machine) (replacement.outcome twin) := by
  have named : ∀ name, Results (fun taken other => SameTree taken other ∧
      taken.volume.umask = machine.volume.umask ∧ other.volume.umask = twin.volume.umask)
        (machine.loadNamed name) (twin.loadNamed name) := by
    intro name
    unfold Machine.loadNamed
    cases Layout.named? name with
    | none => exact .error _
    | some layout =>
      have stock : (machine.build layout).1 = (twin.build layout).1 := by
        unfold Machine.build
        rw [clock, ids]
      change Results _ ((machine.build layout).2.load (machine.build layout).1)
        ((twin.build layout).2.load (twin.build layout).1)
      rw [stock]
      exact load_alike (machine.build layout).2 (twin.build layout).2 _ clock
        (congrArg (· + 1 + layout.length) ids)
  cases means with
  | initial configured => exact named _
  | named name => exact named name
  | snapshot given => exact load_alike _ _ given clock ids

private theorem start_outcome (means : target.Means config replacement origin) (umask : Json)
    (now : Binary64) (nextId : Nat) (log : Log) : ∃ blank : Machine,
      Machine.start origin umask now nextId log = replacement.outcome blank ∧
        blank.now = now ∧ blank.nextId = nextId ∧ blank.volume.umask = startMask umask := by
  have blank : ∃ blank : Machine, Machine.start origin umask now nextId log =
      replacement.outcome blank ∧ ∃ accepted between,
        Machine.setUmask (umask.string?.getD "")
          ⟨⟨[], "", Machine.initialUmask⟩, now, nextId, log⟩ = (accepted, between) ∧
        blank = if accepted then between
          else between.report (.of .warning fsSubsystem "Ignoring invalid umask" [("umask", umask)]) := by
    cases means <;> exact ⟨_, rfl, _, _, rfl, rfl⟩
  obtain ⟨_, started, accepted, between, sets, rfl⟩ := blank
  refine ⟨_, started, ?_⟩
  unfold Machine.setUmask at sets
  unfold startMask
  cases parsed : Mode.parse? true (umask.string?.getD "") with
  | none =>
    rw [parsed] at sets
    cases sets
    exact ⟨rfl, rfl, rfl⟩
  | some mode =>
    rw [parsed] at sets
    cases sets
    exact ⟨rfl, rfl, rfl⟩

private theorem loadTarget_eq (means : target.Means session.config replacement origin) :
    session.loadTarget target =
      (replacement.outcome session.machine).map (·, target.title session.config) := by
  cases means with
  | @initial name configured =>
    unfold loadTarget loadInitial
    rw [configured]
    change (do return (← session.machine.loadNamed name, _)) = Except.map _ _
    rw [Replacement.outcome]
    cases session.machine.loadNamed name <;> simp [Target.title, configured] <;> rfl
  | named name =>
    unfold loadTarget Replacement.outcome
    cases session.machine.loadNamed name <;> rfl
  | snapshot given =>
    unfold loadTarget Replacement.outcome
    cases session.machine.load given <;> rfl

end

private theorem stat_volume (machine : Machine) (actor : Actor) (path : String) :
    (machine.perform actor (Fs.stat path)).2.volume = machine.volume := by
  rw [Machine.perform, Fs.stat, Fs.lookup_run]
  exact Machine.noting_volume

/-- Sessions of the same user begin alike, each with its mask. -/
private theorem begin_alike {machine twin : Machine} (same : SameTree machine twin)
    (session : Session) :
    Results (fun again fresh =>
        again.machine.volume.umask = machine.volume.umask ∧
        fresh.machine.volume.umask = twin.volume.umask ∧
        (machine.volume.umask = twin.volume.umask → again.Mirrors fresh))
      (begin { session with machine, history := [] })
      (begin { session with
        machine := twin, history := [], cwd := "/", env := [], processes := [] }) := by
  unfold begin
  dsimp only
  cases homeOf session.config session.user with
  | error fault => exact .error fault
  | ok home =>
    refine .ok ⟨?_, ?_, fun masks => ?_⟩
    · exact congrArg Volume.umask (stat_volume machine _ home)
    · exact congrArg Volume.umask (stat_volume twin _ home)
    · have heedless : Fs.Heedless (Fs.stat home) := .lookup true home
      obtain ⟨found, left⟩ := (same.mirrors masks).perform heedless ⟨session.user, "/"⟩
      generalize twin.perform ⟨session.user, "/"⟩ (Fs.stat home) = there at found left
      generalize machine.perform ⟨session.user, "/"⟩ (Fs.stat home) = here at found left
      obtain ⟨answer, after⟩ := here
      obtain ⟨other, later⟩ := there
      obtain rfl : other = answer := found
      obtain ⟨log⟩ := left
      exact .mk log

private theorem reset_of_loaded {target : Target} {machine : Machine} {name : String}
    (loaded : session.loadTarget target = .ok (machine, name)) :
    session.reset target = ((begin { session with machine, history := [] }).mapError .fault).map
      fun again => { again with machine := again.machine.report (resetEntry again.user name) } := by
  unfold reset
  rw [loaded]
  change (match begin { session with machine, history := [] } with
    | .error fault => (throw (SnapshotFailure.fault fault) : Except SnapshotFailure Session)
    | .ok again => _) = _
  cases begin { session with machine, history := [] } <;> rfl

private theorem anew_of_started {origin : Origin} {umask : Json} {log : Log} {asked : String}
    {machine : Machine} (same : userOf session.config asked = .ok session.user)
    (started : Machine.start origin umask session.machine.now session.machine.nextId log =
      .ok machine) :
    session.anew origin umask log asked = (begin { session with
      machine, history := [], cwd := "/", env := [], processes := [] }).mapError .fault := by
  unfold anew start
  rw [started, same]
  change (match begin _ with
    | .error fault => (throw (SnapshotFailure.fault fault) : Except SnapshotFailure Session)
    | .ok fresh => _) = _
  cases begin _ <;> rfl

/-- A session that is reset goes on like a new one exactly if the mask is that of the new one. -/
private theorem reset_alike {target : Target} {replacement : Replacement} {origin : Origin}
    {asked : String} (means : target.Means session.config replacement origin)
    (same : userOf session.config asked = .ok session.user) (umask : Json) (log : Log) :
    Results (fun again fresh =>
        (again.sight = fresh.sight ∧ ∀ lines, again.watch lines = fresh.watch lines) ↔
          session.machine.volume.umask = startMask umask)
      (session.reset target) (session.anew origin umask log asked) := by
  obtain ⟨blank, started, clock, ids, mask⟩ :=
    start_outcome means umask session.machine.now session.machine.nextId log
  have loaded := loadTarget_eq means
  have taken := outcome_alike means clock.symm ids.symm
  generalize replacement.outcome session.machine = here at taken loaded
  generalize replacement.outcome blank = there at taken started
  cases taken with
  | error failure =>
    unfold reset anew
    rw [loaded, started]
    exact .error failure
  | @ok machine twin related =>
    obtain ⟨alike, kept, given⟩ := related
    rw [reset_of_loaded loaded, anew_of_started same started]
    have begun := begin_alike alike session
    generalize begin { session with machine, history := [] } = again at begun
    generalize begin { session with
      machine := twin, history := [], cwd := "/", env := [], processes := [] } = fresh at begun
    cases begun with
    | error fault => exact .error _
    | @ok again fresh related =>
      obtain ⟨hereMask, thereMask, mirrors⟩ := related
      rw [kept] at hereMask mirrors
      rw [given, mask] at thereMask mirrors
      refine .ok ⟨fun seen => ?_, fun masks => ?_⟩
      · have shown := seen.2 [(session.machine.now, "umask")]
        simp only [watch, List.cons.injEq, Prod.mk.injEq, run_umask, Except.ok.injEq,
          Transcript.mk.injEq] at shown
        have same := octal4_injective shown.1.1.1
        exact hereMask.symm.trans (same.trans thereMask)
      · have mirrored : ∀ entry,
            Mirrors { again with machine := again.machine.report entry } fresh := by
          intro entry
          obtain ⟨other⟩ := mirrors masks
          exact .mk other
        exact ⟨(mirrored _).sight.symm, fun lines => ((mirrored _).watch lines).symm⟩

/-! ## Resetting step by step -/

/-- Steps of a session. What was done before one fails stays done. -/
abbrev Resetting := ExceptT SnapshotFailure (StateM Session)

/-- Steps of the session's machine. -/
def Resetting.onMachine (steps : Takeover Unit) : Resetting Unit := fun session =>
  ((steps session.machine).1, { session with machine := (steps session.machine).2 })

/-- Puts the directory, the variables and the processes into their first state. -/
def Resetting.begin : Resetting Unit := fun session =>
  match homeOf session.config session.user with
  | .error fault => (.error (.fault fault), session)
  | .ok home =>
    let (found, machine) := session.machine.perform ⟨session.user, "/"⟩ (Fs.stat home)
    let cwd := match found with
      | .ok inode => if inode.isDirectory then home else "/"
      | .error _ => "/"
    let session := { session with machine }
    let session := { session with cwd }
    let session := { session with env := initialEnv session.user home session.cwd }
    (.ok (), { session with processes := initialProcesses session.user session.machine.now })

/-- Notes the reset in the log. -/
def Resetting.note (title : String) : Resetting Unit := modify fun session =>
  { session with machine := session.machine.report (resetEntry session.user title) }

/-- Takes over what the target holds, forgets the history, begins again and notes that. -/
def Resetting.steps (replacement : Replacement) (title : String) : Resetting Unit := do
  onMachine replacement.steps
  modify Session.clear
  begin
  note title

/-- The steps end with the session that is to be, or fail; if the snapshot was refused, the session
and its filesystem are as they were. -/
def Resetting.Reaches (steps : Resetting Unit) (session : Session) :
    Except SnapshotFailure Session → Prop
  | .ok after => steps session = (.ok (), after)
  | .error failure => ∃ kept, steps session = (.error failure, kept) ∧
      ∀ cause inode, failure = .corrupt cause inode →
        ∃ machine, kept = { session with machine } ∧ machine.volume = session.machine.volume

private theorem resetting_bind {steps : Resetting Unit} {next : Unit → Resetting Unit} :
    (steps >>= next) session = match steps session with
      | (.ok (), after) => next () after
      | (.error failure, after) => (.error failure, after) := by
  change (match steps session with
    | (result, after) => ExceptT.bindCont next result after) = _
  cases steps session with
  | mk result after => cases result <;> rfl

private theorem begin_steps (session : Session) :
    Resetting.begin session = match Session.begin session with
      | .error fault => (.error (.fault fault), session)
      | .ok begun => (.ok (), begun) := by
  unfold Resetting.begin Session.begin
  cases homeOf session.config session.user <;> rfl

private theorem steps_reach {target : Target} {replacement : Replacement} {origin : Origin}
    (means : target.Means session.config replacement origin) :
    (Resetting.steps replacement (target.title session.config)).Reaches session
      (session.reset target) := by
  have loaded := loadTarget_eq means
  have reached := replacement.steps_reach session.machine
  cases outcome : replacement.outcome session.machine with
  | error failure =>
    rw [outcome] at loaded reached
    obtain ⟨machine, ran, kept⟩ := reached
    have refused : session.reset target = .error failure := by
      unfold reset
      rw [loaded]
      rfl
    rw [refused]
    have stops : Resetting.onMachine replacement.steps session =
        (.error failure, { session with machine }) := by
      unfold Resetting.onMachine
      rw [ran]
    refine ⟨{ session with machine }, ?_, fun _ _ _ => ⟨machine, rfl, kept⟩⟩
    rw [Resetting.steps, resetting_bind, stops]
  | ok machine =>
    rw [outcome] at loaded reached
    have goes : Resetting.onMachine replacement.steps session = (.ok (), { session with machine }) := by
      unfold Resetting.onMachine
      rw [show replacement.steps session.machine = (.ok (), machine) from reached]
    have ran : Resetting.steps replacement (target.title session.config) session =
        (Resetting.begin >>= fun _ => Resetting.note (target.title session.config))
          { session with machine, history := [] } := by
      rw [Resetting.steps, resetting_bind, goes]
      rfl
    rw [reset_of_loaded loaded]
    rw [resetting_bind, begin_steps] at ran
    cases begun : begin { session with machine, history := [] } with
    | error fault =>
      rw [begun] at ran
      exact ⟨_, ran, fun _ _ impossible => nomatch impossible⟩
    | ok again =>
      rw [begun] at ran
      exact ran

/-- Resetting a session succeeds where a new one over the same snapshot can be started, and fails as
that does. From then on both come to the same, line after line and to the eye, exactly if the mask
of the session is the one that the new one is given. A reset whose snapshot is refused leaves the
session and its filesystem as they were. -/
theorem reset_renews_iff {target : Target} {replacement : Replacement} {origin : Origin}
    {asked : String} (means : target.Means session.config replacement origin)
    (same : userOf session.config asked = .ok session.user) (umask : Json) (log : Log) :
    Results (fun again fresh =>
        (again.sight = fresh.sight ∧ ∀ lines, again.watch lines = fresh.watch lines) ↔
          session.machine.volume.umask = startMask umask)
      (session.reset target) (session.anew origin umask log asked) ∧
    (Resetting.steps replacement (target.title session.config)).Reaches session
      (session.reset target) :=
  ⟨reset_alike means same umask log, steps_reach means⟩

/-- A snapshot with a directory for all below its root. -/
def sharedSnapshot : Snapshot := .ofVolume sharedMachine.volume

theorem renewed_after_moving : ∃ again fresh,
    (opened.run "cd tmp; touch x").2.reset (.snapshot sharedSnapshot) = .ok again ∧
    (opened.run "cd tmp; touch x").2.anew (.snapshot sharedSnapshot) (.string "022")
      (.atLevel .warning) "guest" = .ok fresh ∧
    ∀ lines, again.watch lines = fresh.watch lines := by
  have succeeds : ((opened.run "cd tmp; touch x").2.reset
      (.snapshot sharedSnapshot)).toOption.isSome = true := by decide +kernel
  have mask : (opened.run "cd tmp; touch x").2.machine.volume.umask = startMask (.string "022") := by
    decide +kernel
  have user : userOf (opened.run "cd tmp; touch x").2.config "guest" =
      .ok (opened.run "cd tmp; touch x").2.user := toOption_eq_some.mp (by decide +kernel)
  obtain ⟨renews, -⟩ :=
    reset_renews_iff (.snapshot sharedSnapshot) user (.string "022") (.atLevel .warning)
  generalize (opened.run "cd tmp; touch x").2.reset (.snapshot sharedSnapshot) = here at *
  generalize (opened.run "cd tmp; touch x").2.anew _ _ _ _ = there at renews ⊢
  cases renews with
  | error failure => cases succeeds
  | ok related => exact ⟨_, _, rfl, rfl, (related.mpr mask).2⟩

/-- The mask that a line has set is still there after a reset, and not in a new session. -/
theorem mask_survives_reset :
    ((opened.run "umask 077").2.reset (.snapshot sharedSnapshot)).toOption.map
        (fun again => (again.run "umask").1.toOption.map (·.output)) = some (some "0077") ∧
      ((opened.run "umask 077").2.anew (.snapshot sharedSnapshot) (.string "022")
          (.atLevel .warning) "guest").toOption.map
        (fun fresh => (fresh.run "umask").1.toOption.map (·.output)) = some (some "0022") := by
  decide +kernel

end PocketShell.Session
