import PocketShell.Log.Buffer
import PocketShell.Proofs.Fs.TwoRuns

/-! What operations leave in the audit log, the notices that the filesystem logs. An operation that
fails because the permissions do not allow an action leaves one notice, which names who acted; no
other operation leaves any. The sticky bit, too, keeps users from what they want, but nothing is
noticed of that. -/
namespace PocketShell

variable {α β γ : Type} {machine : Machine} {user : String}

/-! ## The audit log -/

/-- The entry is a notice of the filesystem's. -/
def Log.Entry.isAudit (entry : Log.Entry) : Bool :=
  Buffer.answers (some Level.notice.name) (some fsSubsystem) entry

/-- The notices of the filesystem in a log, the oldest first. -/
def Log.audits (log : Log) : List Log.Entry := log.entries.reverse.filter Entry.isAudit

/-- The log hears notices. -/
def Log.Hears (log : Log) : Prop := log.threshold ≤ Level.notice.weight

instance (log : Log) : Decidable log.Hears := inferInstanceAs (Decidable (_ ≤ _))

/-- What a failure leaves in the audit log. -/
def FsFailure.audit (user : String) : FsFailure → List Log.Entry
  | .denied path action => [auditEntry user path action]
  | _ => []

/-- What a result leaves in the audit log. -/
def auditOf (user : String) : Except FsFailure α → List Log.Entry
  | .ok _ => []
  | .error failure => failure.audit user

namespace Log

variable {log : Log} {entry : Entry}

theorem isAudit_auditEntry (user path action : String) :
    (auditEntry user path action).isAudit = true := rfl

theorem isAudit_debug (subsystem message : String) (context : List (String × Json)) :
    (Entry.of .debug subsystem message context).isAudit = false := rfl

theorem isAudit_info (subsystem message : String) (context : List (String × Json)) :
    (Entry.of .info subsystem message context).isAudit = false := rfl

theorem isAudit_warning (subsystem message : String) (context : List (String × Json)) :
    (Entry.of .warning subsystem message context).isAudit = false := rfl

/-- At whatever level a log is kept, it hears notices. -/
theorem hears_atLevel (level : Level) : (atLevel level).Hears := Int.min_le_right _ _

theorem Hears.emit (hears : log.Hears) (entry : Entry) : (log.emit entry).Hears := by
  unfold Log.emit
  split
  · exact hears
  · exact hears

theorem audits_emit_of_not (other : entry.isAudit = false) :
    (log.emit entry).audits = log.audits := by
  unfold emit
  split
  · rw [audits, List.reverse_cons, List.filter_append, List.filter_singleton, other]
    exact List.append_nil _
  · rfl

theorem audits_emit_auditEntry (hears : log.Hears) (path action : String) :
    (log.emit (auditEntry user path action)).audits =
      log.audits ++ [auditEntry user path action] := by
  have kept : log.emit (auditEntry user path action) =
      { log with entries := auditEntry user path action :: log.entries } := if_pos hears
  rw [kept, audits, List.reverse_cons, List.filter_append, List.filter_singleton,
    isAudit_auditEntry]
  rfl

end Log

theorem Machine.record_hears (hears : machine.log.Hears) (failure : FsFailure) :
    (machine.record user failure).log.Hears := by
  cases failure with
  | denied path action => exact hears.emit _
  | _ => exact hears

theorem Machine.record_audits (hears : machine.log.Hears) (failure : FsFailure) :
    (machine.record user failure).log.audits = machine.log.audits ++ failure.audit user := by
  cases failure with
  | denied path action => exact Log.audits_emit_auditEntry hears path action
  | _ => exact (List.append_nil _).symm

/-! ## Wants of permission -/

/-- If the permissions do not allow an action, the failure tells which and on what. -/
def FsFailure.Located (failure : FsFailure) : Prop := failure ≠ .refused .permissionDenied

instance (failure : FsFailure) : Decidable failure.Located :=
  inferInstanceAs (Decidable (_ ≠ _))

theorem FsFailure.located_of_not_forbids {failure : FsFailure} (plain : ¬ failure.Forbids) :
    failure.Located := by
  rintro rfl
  exact plain (.inl rfl)

theorem FsFailure.audit_of_not_forbids {failure : FsFailure} (plain : ¬ failure.Forbids) :
    failure.audit user = [] := by
  cases failure with
  | denied path action => exact absurd (.inl rfl) plain
  | _ => rfl

/-- What root is not refused either is located. -/
theorem Concedes.located {result other : Except FsFailure α} {failure : FsFailure}
    (concedes : Concedes result other) (failed : result = .error failure) : failure.Located := by
  cases concedes with
  | same unbarred => exact failure.located_of_not_forbids (unbarred failure failed)
  | barred unbarred =>
    cases failed
    exact nofun

/-! ## Operations and what they are made of -/

namespace Fs

/-- What an outcome leaves in the audit log is what its result does. -/
structure Audited (user : String) (before : Machine) (outcome : Except FsFailure α × Machine) :
    Prop where
  located : ∀ failure, outcome.1 = .error failure → failure.Located
  hears : outcome.2.log.Hears
  audits : outcome.2.log.audits = before.log.audits ++ auditOf user outcome.1

/-- While the log hears notices, what the operation leaves in the audit log is what its result
does. -/
def Audits (operation : Fs α) : Prop :=
  ∀ actor machine, machine.log.Hears → Audited actor.user machine (operation actor machine)

namespace Audits

variable {operation : Fs α} {next : α → Fs β} {volume : Volume}

theorem pure (value : α) : Audits (Pure.pure value) :=
  fun _ _ hears => ⟨nofun, hears, (List.append_nil _).symm⟩

theorem fail {failure : FsFailure} (located : failure.Located) :
    Audits (Fs.fail failure : Fs α) := by
  intro actor machine hears
  refine ⟨?_, machine.record_hears hears failure, machine.record_audits hears failure⟩
  rintro _ ⟨⟩
  exact located

/-- A failure without a record is none for want of permission. -/
theorem throw {failure : FsFailure} (located : failure.Located)
    (silent : ∀ user, failure.audit user = []) :
    Audits (MonadExcept.throw failure : Fs α) := by
  intro actor machine hears
  change Audited actor.user machine (.error failure, machine)
  refine ⟨?_, hears, ?_⟩
  · rintro _ ⟨⟩
    exact located
  · rw [auditOf, silent, List.append_nil]

theorem refuse {reason : FsError} (other : reason ≠ .permissionDenied) :
    Audits (Fs.refuse reason : Fs α) :=
  throw (fun same => other (FsFailure.refused.inj same)) fun _ => rfl

theorem lift {result : Except FsFailure α} (unbarred : Unbarred result) :
    Audits (liftM result : Fs α) := by
  cases result with
  | ok value => exact pure value
  | error failure =>
    have plain := unbarred failure rfl
    exact throw (failure.located_of_not_forbids plain) fun _ => failure.audit_of_not_forbids plain

theorem answer {result other : Except FsFailure α} (concedes : Concedes result other) :
    Audits (Fs.answer result) := by
  cases result with
  | ok value => exact pure value
  | error failure => exact fail (concedes.located rfl)

/-- A first part that succeeds leaves nothing, and one that fails is all there is. -/
theorem bind (first : Audits operation) (continues : ∀ value, Audits (next value)) :
    Audits (operation >>= next) := by
  intro actor machine hears
  obtain ⟨located, between, audits⟩ := first actor machine hears
  rw [run_bind]
  generalize operation actor machine = outcome at located between audits
  obtain ⟨result, after⟩ := outcome
  cases result with
  | ok value =>
    obtain ⟨locatedNext, final, auditsNext⟩ := continues value actor after between
    refine ⟨locatedNext, final, ?_⟩
    have untouched : after.log.audits = machine.log.audits :=
      audits.trans (List.append_nil _)
    rw [auditsNext, untouched]
  | error failure =>
    refine ⟨?_, between, audits⟩
    rintro _ ⟨⟩
    exact located failure rfl

theorem read {next : Actor → Fs β} (continues : ∀ actor, Audits (next actor)) :
    Audits (MonadReader.read >>= next) :=
  fun actor => continues actor actor

theorem get {next : Machine → Fs β} (continues : ∀ machine, Audits (next machine)) :
    Audits (MonadState.get >>= next) :=
  fun actor machine => continues machine actor machine

theorem seen {next : Volume → Fs β} (continues : ∀ volume, Audits (next volume)) :
    Audits (Fs.volume >>= next) :=
  get fun machine => continues machine.volume

/-- A change that the log does not see. -/
theorem change {rule : Machine → Machine} (kept : ∀ machine, (rule machine).log = machine.log) :
    Audits (modify rule : Fs PUnit) := by
  intro actor machine hears
  change Audited actor.user machine (.ok PUnit.unit, rule machine)
  refine ⟨nofun, ?_, ?_⟩
  · rw [kept]
    exact hears
  · rw [kept]
    exact (List.append_nil _).symm

theorem guard {condition : Prop} [Decidable condition] {stop : Fs PUnit} {rest : PUnit → Fs β}
    (stops : Audits stop) (continues : Audits (rest ⟨⟩)) :
    Audits (if condition then stop >>= rest else rest ⟨⟩) := by
  split
  · exact stops.bind fun _ => continues
  · exact continues

theorem check {condition : Prop} [Decidable condition] {reason : FsError} {rest : PUnit → Fs β}
    (other : reason ≠ .permissionDenied) (continues : Audits (rest ⟨⟩)) :
    Audits (if condition then Fs.refuse reason >>= rest else rest ⟨⟩) :=
  guard (refuse other) continues

theorem forM {xs : List γ} {each : γ → Fs PUnit} (audits : ∀ x, Audits (each x)) :
    Audits (xs.forM each) := by
  induction xs with
  | nil => exact pure _
  | cons x rest ih => exact (audits x).bind fun _ => ih

theorem map {f : α → β} (audits : Audits operation) : Audits (f <$> operation) := by
  rw [map_eq_pure_bind]
  exact audits.bind fun value => pure (f value)

theorem deny (path action : String) : Audits (Fs.deny path action : Fs α) := fail nofun

theorem lookup (follow : Bool) (path : String) : Audits (Fs.lookup follow path) :=
  seen fun _ => read fun _ => answer Volume.lookup_concedes

theorem lookupParent (path : String) : Audits (Fs.lookupParent path) :=
  seen fun _ => read fun _ => answer Volume.lookupParent_concedes

theorem demand (inode : Inode) (access : Access) (path action : String) :
    Audits (Fs.demand inode access path action) := by
  refine read fun actor => ?_
  split
  · exact pure _
  · exact deny path action

theorem put (inode : Inode) : Audits (Fs.put inode) := change fun _ => rfl

/-- What is done is logged, but not as a notice. -/
theorem note (message : String) (context : List (String × Json)) :
    Audits (Fs.note message context) := by
  intro actor machine hears
  have unnoticed := Log.isAudit_debug fsSubsystem message context
  change Audited actor.user machine (.ok (), machine.report _)
  exact ⟨nofun, hears.emit _, (Log.audits_emit_of_not unnoticed).trans (List.append_nil _).symm⟩

theorem attach (parent : Inode) (name : String) (mode : Mode) (size : Int)
    (payload : Payload String) : Audits (Fs.attach parent name mode size payload) := by
  intro actor machine hears
  unfold Fs.attach
  simp only [run_bind, get_run, read_run]
  cases parent.addChild machine.now (inodeId machine.nextId) with
  | none => exact throw (by decide) (fun _ => rfl) actor machine hears
  | some parent => exact ⟨nofun, hears, (List.append_nil _).symm⟩

private theorem claimName (path : String) : Audits (Fs.claimName path) :=
  (lookupParent path).bind fun (parent, _) => seen fun _ => check (by decide) <|
    (demand parent .write path "write").bind fun _ => pure _

private theorem directoryMode (written : Option String) : Audits (Fs.directoryMode written) := by
  cases written with
  | none => exact seen fun _ => pure _
  | some text =>
    unfold Fs.directoryMode
    dsimp only
    cases Mode.parse? true text with
    | none => exact refuse (by decide)
    | some mode => exact pure _

/-! ## Operations -/

theorem mkdir (path : String) (mode : Option String) : Audits (Fs.mkdir path mode) :=
  (claimName path).bind fun _ => (directoryMode mode).bind fun _ =>
    (attach _ _ _ _ _).bind fun _ => (note _ _).bind fun _ => pure _

theorem touch (path : String) : Audits (Fs.touch path) := by
  refine (lookupParent path).bind fun (parent, name) => seen fun volume => ?_
  cases volume.childNamed? parent name with
  | some existing => exact get fun _ => (put _).bind fun _ => pure _
  | none =>
    refine (demand parent .write path "write").bind fun _ => seen fun _ => ?_
    exact (attach _ _ _ _ _).bind fun _ => (note _ _).bind fun _ => pure _

theorem ln (target path : String) : Audits (Fs.ln target path) :=
  (claimName path).bind fun _ => (attach _ _ _ _ _).bind fun _ => (note _ _).bind fun _ => pure _

/-- A failure that the search comes to is recorded here, unless it is that nothing is there. -/
private theorem findOrCreate (path : String) : Audits (Fs.findOrCreate path) := by
  refine seen fun volume => read fun actor => ?_
  have concedes : Concedes (volume.lookup actor true path) _ := Volume.lookup_concedes
  generalize volume.lookup actor true path = found at concedes
  split
  · exact pure _
  · exact check (by decide) (touch path)
  · exact fail (concedes.located rfl)

private theorem demandFile (path : String) (inode : Inode) : Audits (Fs.demandFile path inode) := by
  unfold Fs.demandFile
  exact check (by decide) (check (by decide) (check (by decide)
    (demand inode .write path "write")))

theorem rewrite (path : String) (rule : Inode → String) : Audits (Fs.rewrite path rule) := by
  have opens : Audits (Fs.openForWrite path) :=
    (findOrCreate path).bind fun inode => (demandFile path inode).bind fun _ => pure inode
  refine opens.bind fun inode => ?_
  exact get fun _ => (put _).bind fun _ => pure _

theorem chmod (path mode : String) : Audits (Fs.chmod path mode) := by
  refine (lookup true path).bind fun inode => read fun actor => guard (deny path "chmod") ?_
  cases Mode.parse? false mode with
  | none => exact refuse (by decide)
  | some bits => exact get fun _ => (put _).bind fun _ => (note _ _).bind fun _ => pure _

theorem chown (path owner : String) (group : Option String) :
    Audits (Fs.chown path owner group) := by
  refine read fun actor => guard (deny path "chown") (check (by decide) ?_)
  exact (lookup true path).bind fun _ => get fun _ => (put _).bind fun _ => pure _

/-- The sticky bit stops the actor without a record, a missing permission with one. -/
private theorem demandUnlink (parent entry : Inode) : Audits (Fs.demandUnlink parent entry) := by
  refine read fun actor => ?_
  dsimp only
  split
  · exact pure _
  refine check (by decide) ?_
  split
  · exact seen fun _ => deny _ _
  · exact pure _

theorem rm (path : String) (recursive : Bool) : Audits (Fs.rm path recursive) := by
  refine (lookup false path).bind fun inode => seen fun before => check (by decide) ?_
  refine check (by decide) ((lift (Volume.parentOf_concedes inode).unbarred).bind fun parent => ?_)
  refine (demandUnlink parent inode).bind fun _ => ?_
  refine (lift (Volume.walk_concedes inode).unbarred).bind fun subtree => ?_
  refine (forM fun row => forM fun id => ?_).bind fun _ => get fun machine => ?_
  · exact seen fun volume => (lift (volume.inode_concedes id).unbarred).bind fun child =>
      demandUnlink _ child
  dsimp only
  cases parent.removeChild machine.now inode.id with
  | none => exact throw (by decide) fun _ => rfl
  | some parent =>
    refine (change ?_).bind fun _ => note _ _
    exact fun _ => rfl

private theorem demandReadable (path : String) (source : Inode) :
    Audits (Fs.demandReadable path source) := by
  refine seen fun _ => (lift (Volume.walk_concedes source).unbarred).bind fun rows => ?_
  refine forM fun (_, node) => (demand node .read path "read").bind fun _ => ?_
  split
  · exact demand node .execute path "read"
  · exact pure _

private theorem destination (path : String) (source : Inode) :
    Audits (Fs.destination path source) := by
  refine seen fun volume => read fun actor => ?_
  have concedes : Concedes (volume.lookup actor true path) _ := Volume.lookup_concedes
  generalize volume.lookup actor true path = found at concedes
  split
  · split
    · exact pure _
    · exact lookupParent path
  · exact lookupParent path
  · exact fail (concedes.located rfl)

/-- By induction on the levels, as the copy goes down. -/
private theorem copyTree (levels : Nat) (source parent : Inode) (name : String) :
    Audits (Fs.copyTree levels source parent name) := by
  induction levels generalizing source parent name with
  | zero => exact throw (by decide) fun _ => rfl
  | succ levels ih =>
    refine (attach _ _ _ _ _).bind fun copy => (forM fun id => ?_).bind fun _ => pure copy
    refine seen fun volume => (lift (volume.inode_concedes id).unbarred).bind fun child => ?_
    refine seen fun volume => (lift (volume.inode_concedes copy.id).unbarred).bind fun target => ?_
    exact (ih child target child.name).map

theorem cp (source dest : String) (recursive : Bool) : Audits (Fs.cp source dest recursive) := by
  refine (lookup true source).bind fun inode => check (by decide) ?_
  refine (demandReadable source inode).bind fun _ => (destination dest inode).bind
    fun (parent, name) => seen fun volume => ?_
  cases volume.childNamed? parent name with
  | some existing =>
    dsimp only
    refine check (by decide) ?_
    split
    · refine (demand existing .write dest "write").bind fun _ => get fun _ => ?_
      exact (put _).bind fun _ => pure _
    · exact check (by decide) (refuse (by decide))
  | none =>
    refine (demand parent .write dest "write").bind fun _ => seen fun volume => ?_
    refine check (by decide) ((copyTree _ inode parent name).bind fun copy => ?_)
    exact (note _ _).bind fun _ => seen fun volume => lift (volume.inode_concedes copy.id).unbarred

theorem mv (source dest : String) : Audits (Fs.mv source dest) := by
  refine (lookup false source).bind fun inode => seen fun _ => check (by decide) ?_
  refine (destination dest inode).bind fun (parent, name) => seen fun before => ?_
  refine check (by decide) (check (by decide) ?_)
  refine (lift (Volume.parentOf_concedes inode).unbarred).bind fun oldParent => ?_
  refine (demandUnlink oldParent inode).bind fun _ => ?_
  refine (demand parent .write dest "write").bind fun _ => get fun machine => ?_
  dsimp only
  cases oldParent.removeChild machine.now inode.id with
  | none => exact throw (by decide) fun _ => rfl
  | some oldParent =>
    refine (put oldParent).bind fun _ => seen fun volume => ?_
    refine (lift (volume.inode_concedes parent.id).unbarred).bind fun there => ?_
    cases there.addChild machine.now inode.id with
    | none => exact throw (by decide) fun _ => rfl
    | some parent =>
      exact (put parent).bind fun _ => (put _).bind fun _ => (note _ _).bind fun _ => pure _

theorem resolve (follow : Bool) (depth : Int) (start : Option String) (path : String) :
    Audits (Fs.resolve follow depth start path) :=
  seen fun _ => read fun _ => answer (Volume.resolve_concedes depth start)

theorem listChildren (path : String) : Audits (Fs.listChildren path) :=
  (lookup true path).bind fun directory => check (by decide) <|
    (demand directory .read path "read").bind fun _ => seen fun _ => pure _

theorem readText (path : String) : Audits (Fs.readText path) := by
  refine (lookup true path).bind fun inode => ?_
  cases inode.payload with
  | directory entries => exact refuse (by decide)
  | symlink target => exact refuse (by decide)
  | file content => exact (demand inode .read path "read").bind fun _ => pure _

end Audits

end Fs

/-- Whatever is asked for, what it leaves in the audit log is what its result does. -/
theorem Request.run_audits (request : Request) : Fs.Audits request.run := by
  cases request with
  | stat path => exact (Fs.Audits.lookup true path).map
  | lstat path => exact (Fs.Audits.lookup false path).map
  | resolve follow depth start path => exact (Fs.Audits.resolve follow depth start path).map
  | listChildren path => exact (Fs.Audits.listChildren path).map
  | readText path => exact (Fs.Audits.readText path).map
  | mkdir path mode => exact (Fs.Audits.mkdir path mode).map
  | touch path => exact (Fs.Audits.touch path).map
  | ln target path => exact (Fs.Audits.ln target path).map
  | writeText path content => exact (Fs.Audits.rewrite path _).map
  | appendText path content => exact (Fs.Audits.rewrite path _).map
  | rm path recursive => exact (Fs.Audits.rm path recursive).map
  | chmod path mode => exact (Fs.Audits.chmod path mode).map
  | chown path owner group => exact (Fs.Audits.chown path owner group).map
  | cp source dest recursive => exact (Fs.Audits.cp source dest recursive).map
  | mv source dest => exact (Fs.Audits.mv source dest).map

end PocketShell
