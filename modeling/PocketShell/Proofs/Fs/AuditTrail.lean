import Mathlib.Data.List.Forall2
import PocketShell.Proofs.Fs.Auditing
import PocketShell.Proofs.Fs.Runs

/-! The audit log of a run. Every call for which a permission was missing has its notice there, in
the order of the calls, and there are no others. Calls that the sticky bit stops are forbidden as
well, but have none. -/
namespace PocketShell

variable {machine : Machine}

/-! ## Calls -/

/-- A request that has been made: who asked, and what came of it. -/
structure Call where
  user : String
  result : Except FsFailure Request.Value

/-- The call that an actor makes with a request. -/
def Machine.call (actor : Actor) (request : Request) (machine : Machine) : Call :=
  ⟨actor.user, (machine.serve actor request).1⟩

namespace Call

/-- The reason for which the call is refused. -/
def reason? (call : Call) : Option FsError :=
  match call.result with
  | .ok _ => none
  | .error failure => failure.reason?

/-- The call is refused because it is not permitted, be it by a permission or by the sticky bit. -/
def Forbidden (call : Call) : Prop :=
  call.reason? = some .permissionDenied ∨ call.reason? = some .notPermitted

instance (call : Call) : Decidable call.Forbidden := inferInstanceAs (Decidable (_ ∨ _))

/-- The entry is a notice that names who made the call. -/
def Signs (call : Call) (entry : Log.Entry) : Prop :=
  ∃ path action, entry = auditEntry call.user path action

/-- The entry is the notice of the action that the permissions did not allow the call, of its path
and of who made it. -/
def Records (call : Call) (entry : Log.Entry) : Prop :=
  ∃ path action, call.result = .error (.denied path action) ∧
    entry = auditEntry call.user path action

/-- The entries are those that record a call: one if a permission was missing, or else none. -/
inductive Leaves (call : Call) : List Log.Entry → Prop
  | denied {entry : Log.Entry} (reason : call.reason? = some .permissionDenied)
      (records : call.Records entry) : call.Leaves [entry]
  | other (reason : call.reason? ≠ some .permissionDenied) : call.Leaves []

theorem leaves_auditOf {call : Call}
    (located : ∀ failure, call.result = .error failure → failure.Located) :
    call.Leaves (auditOf call.user call.result) := by
  obtain ⟨user, result⟩ := call
  cases result with
  | ok value => exact .other nofun
  | error failure =>
    cases failure with
    | denied path action => exact .denied rfl ⟨path, action, rfl, rfl⟩
    | refused reason =>
      refine .other fun same => located _ rfl ?_
      exact congrArg FsFailure.refused (Option.some.inj same)
    | _ => exact .other nofun

end Call

/-- A call leaves what records it. -/
theorem Machine.serve_leaves (hears : machine.log.Hears) (actor : Actor) (request : Request) :
    (machine.serve actor request).2.log.Hears ∧
      ∃ entries, (machine.serve actor request).2.log.audits = machine.log.audits ++ entries ∧
        (machine.call actor request).Leaves entries := by
  have audited : Fs.Audited actor.user machine (machine.serve actor request) :=
    request.run_audits actor machine hears
  exact ⟨audited.hears, _, audited.audits, Call.leaves_auditOf audited.located⟩

/-! ## Runs -/

/-- A run from one machine to another, with the calls that are made in it. Between them the mask is
set, snapshots are loaded, time passes and others log. -/
inductive History (first : Machine) : List Call → Machine → Prop
  | start : History first [] first
  | serve {calls : List Call} {machine : Machine} (before : History first calls machine)
      (actor : Actor) (request : Request) :
      History first (calls ++ [machine.call actor request]) (machine.serve actor request).2
  | setUmask {calls : List Call} {machine : Machine} (before : History first calls machine)
      (text : String) : History first calls (machine.setUmask text).2
  | loadNamed {calls : List Call} {machine after : Machine} {name : String}
      (before : History first calls machine) (loaded : machine.loadNamed name = .ok after) :
      History first calls after
  | load {calls : List Call} {machine after : Machine} {snapshot : Snapshot}
      (before : History first calls machine) (loaded : machine.load snapshot = .ok after) :
      History first calls after
  | deserialize {calls : List Call} {machine after : Machine} {text : String}
      (before : History first calls machine) (loaded : machine.deserialize text = .ok after) :
      History first calls after
  | elapse {calls : List Call} {machine : Machine} (before : History first calls machine)
      (now : Binary64) (nextId : Nat) : History first calls { machine with now, nextId }
  | report {calls : List Call} {machine : Machine} (before : History first calls machine)
      {entry : Log.Entry} (other : entry.isAudit = false) :
      History first calls (machine.report entry)

/-- What leads from one machine to the other is not noticed in the audit log. -/
structure Machine.Unnoticed (before after : Machine) : Prop where
  hears : before.log.Hears → after.log.Hears
  audits : after.log.audits = before.log.audits

namespace Machine.Unnoticed

variable {between after : Machine}

theorem trans (first : machine.Unnoticed between) (second : between.Unnoticed after) :
    machine.Unnoticed after :=
  ⟨fun hears => second.hears (first.hears hears), second.audits.trans first.audits⟩

theorem report {entry : Log.Entry} (other : entry.isAudit = false) (machine : Machine) :
    machine.Unnoticed (machine.report entry) :=
  ⟨fun hears => hears.emit entry, Log.audits_emit_of_not other⟩

theorem setUmask (text : String) (machine : Machine) :
    machine.Unnoticed (machine.setUmask text).2 := by
  unfold Machine.setUmask
  cases Mode.parse? true text with
  | none => exact ⟨id, rfl⟩
  | some mode => exact ⟨id, rfl⟩

/-- To load a snapshot is logged, but not as a notice. -/
theorem load {snapshot : Snapshot} (loaded : machine.load snapshot = .ok after) :
    machine.Unnoticed after := by
  obtain ⟨accepted, -, done⟩ := bind_eq_ok.mp loaded
  cases done
  exact ⟨fun hears => hears.emit _, Log.audits_emit_of_not (Log.isAudit_info _ _ _)⟩

theorem loadNamed {name : String} (loaded : machine.loadNamed name = .ok after) :
    machine.Unnoticed after := by
  unfold Machine.loadNamed at loaded
  cases known : Layout.named? name with
  | none =>
    rw [known] at loaded
    cases loaded
  | some layout =>
    simp only [known] at loaded
    have loads : (machine.build layout).2.Unnoticed after := load loaded
    exact ⟨loads.hears, loads.audits⟩

theorem deserialize {text : String} (loaded : machine.deserialize text = .ok after) :
    machine.Unnoticed after := by
  obtain ⟨accepted, -, done⟩ := bind_eq_ok.mp loaded
  cases done
  exact ⟨id, rfl⟩

end Machine.Unnoticed

/-- A machine that starts with a log of its own, at whatever level, hears notices and has none. -/
theorem Machine.start_hears {origin : Origin} {umask : Json} {now : Binary64} {nextId : Nat}
    {level : Log.Level} (started : start origin umask now nextId (.atLevel level) = .ok machine) :
    machine.log.Hears ∧ machine.log.audits = [] := by
  let bare : Machine := ⟨⟨[], "", initialUmask⟩, now, nextId, .atLevel level⟩
  suffices bare.Unnoticed machine from ⟨this.hears (Log.hears_atLevel level), this.audits⟩
  have masks := Unnoticed.setUmask (umask.string?.getD "") bare
  unfold start at started
  dsimp only at started
  have warned : bare.Unnoticed (if (bare.setUmask (umask.string?.getD "")).1
      then (bare.setUmask (umask.string?.getD "")).2
      else (bare.setUmask (umask.string?.getD "")).2.report
        (.of .warning fsSubsystem "Ignoring invalid umask" [("umask", umask)])) := by
    split
    · exact masks
    · exact masks.trans (.report (Log.isAudit_warning _ _ _) _)
  generalize (if (bare.setUmask (umask.string?.getD "")).1 then _ else _) = masked at warned started
  cases origin with
  | layout layout =>
    cases started
    exact ⟨warned.hears, warned.audits⟩
  | named name => exact warned.trans (.loadNamed started)
  | snapshot snapshot => exact warned.trans (.load started)

namespace History

variable {first last : Machine} {calls : List Call}

/-- The log hears notices, and what the calls leave has been put at the end of the audit log, call
after call. -/
private def Audited (first : Machine) (calls : List Call) (machine : Machine) : Prop :=
  machine.log.Hears ∧ ∃ left, machine.log.audits = first.log.audits ++ left.flatten ∧
    List.Forall₂ Call.Leaves calls left

private theorem Audited.step {machine after : Machine} (audited : Audited first calls machine)
    (unnoticed : machine.Unnoticed after) : Audited first calls after := by
  obtain ⟨hears, left, grown, leaves⟩ := audited
  exact ⟨unnoticed.hears hears, left, unnoticed.audits.trans grown, leaves⟩

private theorem Audited.serve {machine : Machine} (audited : Audited first calls machine)
    (actor : Actor) (request : Request) :
    Audited first (calls ++ [machine.call actor request]) (machine.serve actor request).2 := by
  obtain ⟨hears, left, grown, leaves⟩ := audited
  obtain ⟨final, entries, added, records⟩ := machine.serve_leaves hears actor request
  refine ⟨final, left ++ [entries], ?_, List.rel_append leaves (.cons records .nil)⟩
  rw [added, grown, List.flatten_append, List.flatten_singleton, List.append_assoc]

/-- By induction on the run. -/
private theorem audited (history : History first calls last) (hears : first.log.Hears) :
    Audited first calls last := by
  induction history with
  | start => exact ⟨hears, [], (List.append_nil _).symm, .nil⟩
  | serve before actor request ih => exact ih.serve actor request
  | setUmask before text ih => exact ih.step (.setUmask text _)
  | loadNamed before loaded ih => exact ih.step (.loadNamed loaded)
  | load before loaded ih => exact ih.step (.load loaded)
  | deserialize before loaded ih => exact ih.step (.deserialize loaded)
  | elapse before now nextId ih => exact ih
  | report before other ih => exact ih.step (.report other _)

/-- The notices are those of the calls for which a permission was missing, in the order of the
calls. -/
private theorem records_of_leaves {left : List (List Log.Entry)}
    (leaves : List.Forall₂ Call.Leaves calls left) :
    List.Forall₂ Call.Records
      (calls.filter fun call => call.reason? = some .permissionDenied) left.flatten := by
  induction leaves with
  | nil => exact .nil
  | cons head tail ih =>
    rw [List.flatten_cons]
    cases head with
    | denied reason records =>
      simp only [List.filter_cons, reason, decide_true, ↓reduceIte]
      exact .cons records ih
    | other reason =>
      simp only [List.filter_cons, reason, decide_false, Bool.false_eq_true, ↓reduceIte]
      exact ih

/-- Every forbidden call has its notice if and only if a missing permission is all that forbids. -/
private theorem signs_iff {entries : List Log.Entry}
    (records : List.Forall₂ Call.Records
      (calls.filter fun call => call.reason? = some .permissionDenied) entries) :
    List.Forall₂ Call.Signs (calls.filter fun call => call.Forbidden) entries ↔
      ∀ call ∈ calls, call.reason? ≠ some .notPermitted := by
  constructor
  · intro signs call member stuck
    -- There are as many forbidden calls as notices, hence as calls that lacked a permission.
    have forbidden : call ∈ calls.filter fun call => call.Forbidden :=
      List.mem_filter.mpr ⟨member, decide_eq_true (.inr stuck)⟩
    have within : (calls.filter fun call => call.Forbidden).filter
        (fun call => call.reason? = some .permissionDenied) =
          calls.filter fun call => call.reason? = some .permissionDenied := by
      rw [List.filter_filter]
      refine List.filter_congr fun call _ => ?_
      by_cases reason : call.reason? = some .permissionDenied <;> simp [reason, Call.Forbidden]
    have lengths := records.length_eq.trans signs.length_eq.symm
    rw [← within, List.length_filter_eq_length_iff] at lengths
    have reason := of_decide_eq_true (lengths call forbidden)
    rw [stuck] at reason
    cases reason
  · intro unstuck
    have same : (calls.filter fun call => call.Forbidden) =
        calls.filter fun call => call.reason? = some .permissionDenied := by
      refine List.filter_congr fun call member => ?_
      have passes := unstuck call member
      simp [Call.Forbidden, passes]
    rw [same]
    exact records.imp fun _ _ ⟨path, action, _, entry⟩ => ⟨path, action, entry⟩

end History

/-- A call leaves one notice if a permission was missing, and else none; so a run adds to the audit
log, in the order of its calls, the notices of those for which a permission was missing. They are
the notices of all forbidden calls exactly if the sticky bit has stopped none. -/
theorem forbidden_noticed_iff {first last : Machine} {calls : List Call}
    (history : History first calls last) (hears : first.log.Hears) :
    (∀ actor request, ∃ entries,
      (last.serve actor request).2.log.audits = last.log.audits ++ entries ∧
        (last.call actor request).Leaves entries) ∧
    ∃ entries, last.log.audits = first.log.audits ++ entries ∧
      List.Forall₂ Call.Records
        (calls.filter fun call => call.reason? = some .permissionDenied) entries ∧
      (List.Forall₂ Call.Signs (calls.filter fun call => call.Forbidden) entries ↔
        ∀ call ∈ calls, call.reason? ≠ some .notPermitted) := by
  obtain ⟨final, left, grown, leaves⟩ := history.audited hears
  refine ⟨fun actor request => (last.serve_leaves final actor request).2, ?_⟩
  have records := History.records_of_leaves leaves
  exact ⟨_, grown, records, History.signs_iff records⟩

/-- A machine with a file of root's in a sticky directory that all may write to. -/
def stickyMachine : Machine :=
  [Request.mkdir "/tmp" (some "1777"), .touch "/tmp/x"].foldl
    (fun machine request => (machine.serve ⟨rootUser, "/"⟩ request).2) bareMachine

/-- The machine after a user has tried to change the mode of the file. -/
def probedMachine : Machine :=
  (stickyMachine.serve ⟨"guest", "/"⟩ (.chmod "/tmp/x" "777")).2

/-- What the user has tried: to change the mode of the file, and then to remove it. -/
def probes : List Call :=
  [stickyMachine.call ⟨"guest", "/"⟩ (.chmod "/tmp/x" "777"),
    probedMachine.call ⟨"guest", "/"⟩ (.rm "/tmp/x" false)]

/-- Both are forbidden, and the first alone is noticed. -/
theorem probes_noticed :
    probes.map Call.reason? = [some .permissionDenied, some .notPermitted] ∧
    stickyMachine.log.Hears ∧
    ∃ last, History stickyMachine probes last ∧ last.log.audits.length = 1 ∧
      ∃ entries, last.log.audits = stickyMachine.log.audits ++ entries ∧
        ¬ List.Forall₂ Call.Signs (probes.filter fun call => call.Forbidden) entries := by
  have hears : stickyMachine.log.Hears := by decide +kernel
  have history : History stickyMachine probes
      (probedMachine.serve ⟨"guest", "/"⟩ (.rm "/tmp/x" false)).2 :=
    (History.start.serve _ _).serve _ _
  have reasons : probes.map Call.reason? = [some .permissionDenied, some .notPermitted] := by
    decide +kernel
  refine ⟨reasons, hears, _, history, by decide +kernel, ?_⟩
  obtain ⟨-, entries, grown, -, signs⟩ := forbidden_noticed_iff history hears
  refine ⟨entries, grown, fun all => ?_⟩
  exact signs.mp all _ (List.mem_cons_of_mem _ List.mem_cons_self) (by decide +kernel)

/-- A user whom the sticky bit keeps from removing a file leaves no notice. -/
theorem sticky_unnoticed :
    (stickyMachine.call ⟨"guest", "/"⟩ (.rm "/tmp/x" false)).Forbidden ∧
    ¬ ∃ entry, (stickyMachine.serve ⟨"guest", "/"⟩ (.rm "/tmp/x" false)).2.log.audits =
      stickyMachine.log.audits ++ [entry] := by
  have unnoticed : (stickyMachine.serve ⟨"guest", "/"⟩
      (.rm "/tmp/x" false)).2.log.audits.length = stickyMachine.log.audits.length := by
    decide +kernel
  refine ⟨by decide +kernel, ?_⟩
  rintro ⟨entry, grown⟩
  rw [grown, List.length_append, List.length_singleton] at unnoticed
  exact Nat.succ_ne_self _ unnoticed

end PocketShell
