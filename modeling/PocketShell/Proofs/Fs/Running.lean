import PocketShell.Fs.Machine
import PocketShell.Proofs.Fs.Changes

/-! Running operations. Most of an operation only reads: it ends with a value or a refusal and the
machine as it was, but for the record of the refusal. What follows then makes one change. An
operation taken apart along this line is judged by how it may end. -/
namespace PocketShell

/-! ## The supply of ids -/

theorem inodeId_injective : Function.Injective inodeId := by
  intro first second same
  unfold inodeId at same
  have digits := (String.append_right_inj _).mp same
  have value : ∀ n, Nat.ofDigitChars 10 (Text.padDigits 10 12 n).toList 0 = n := by
    intro n
    rw [Text.padDigits, String.toList_ofList, Nat.ofDigitChars_append,
      Nat.ofDigitChars_replicate_zero, Nat.mul_zero, Nat.ofDigitChars_ten_toDigits]
  rw [← value first, digits, value second]

theorem inodeId_ne_empty (n : Nat) : inodeId n ≠ "" := by
  intro empty
  unfold inodeId at empty
  exact absurd (String.append_eq_empty_iff.mp empty).1 (by decide)

theorem head_inodeId (n : Nat) : (inodeId n).toList.head? = some '0' := by
  unfold inodeId
  rw [String.toList_append]
  rfl

/-- No id that the machine will give out is taken. -/
def Machine.IdsFresh (machine : Machine) : Prop :=
  ∀ n, machine.nextId ≤ n → machine.volume.inode? (inodeId n) = none

/-- What is new in the second machine got an id that was given out since the first. -/
structure Machine.Supplied (before after : Machine) : Prop where
  later : before.nextId ≤ after.nextId
  given : ∀ id, before.volume.inode? id = none → after.volume.inode? id ≠ none →
    ∃ n, before.nextId ≤ n ∧ n < after.nextId ∧ id = inodeId n

namespace Machine.Supplied

variable {before machine after : Machine} {parent child : Inode} {now : Binary64}

theorem of_kept (kept : ∀ id, before.volume.inode? id = none → after.volume.inode? id = none)
    (supply : after.nextId = before.nextId) : before.Supplied after where
  later := Nat.le_of_eq supply.symm
  given := fun id unused taken => absurd (kept id unused) taken

theorem refl : before.Supplied before := of_kept (fun _ unused => unused) rfl

/-- Ids that were still to be given out still are. -/
theorem idsFresh (supplied : before.Supplied after) (fresh : before.IdsFresh) :
    after.IdsFresh := by
  intro n ahead
  by_contra taken
  obtain ⟨m, -, given, same⟩ :=
    supplied.given _ (fresh n (Nat.le_trans supplied.later ahead)) taken
  rw [inodeId_injective same] at ahead
  exact absurd given (Nat.not_lt.mpr ahead)

/-- No new inode has an empty id. -/
theorem named (supplied : before.Supplied after) {id : String}
    (unused : before.volume.inode? id = none) (taken : after.volume.inode? id ≠ none) :
    id ≠ "" := by
  obtain ⟨n, -, -, same⟩ := supplied.given id unused taken
  exact same ▸ inodeId_ne_empty n

/-- A new inode takes up the next id. -/
theorem graft (supplied : before.Supplied machine) (fits : machine.volume.Fits parent child)
    (next : child.id = inodeId machine.nextId)
    (grafted : after.volume = machine.volume.graft now parent child)
    (supply : after.nextId = machine.nextId + 1) : before.Supplied after where
  later := by
    rw [supply]
    exact Nat.le_succ_of_le supplied.later
  given := by
    intro id unused taken
    rw [supply]
    by_cases old : machine.volume.inode? id = none
    · rw [grafted, Volume.inode?_graft] at taken
      split at taken
      · rename_i new
        exact ⟨machine.nextId, supplied.later, Nat.lt_succ_self _, new.trans next⟩
      split at taken
      · rename_i here
        rw [here, fits.held] at old
        cases old
      · exact absurd old taken
    · obtain ⟨n, after, given, same⟩ := supplied.given id unused old
      exact ⟨n, after, Nat.lt_succ_of_lt given, same⟩

end Machine.Supplied

/-- The second machine is the first after one change by the user. -/
structure Machine.Step (user : String) (before after : Machine) : Prop where
  edit : Volume.Edit user before.volume after.volume
  supplied : before.Supplied after

namespace Machine.Step

variable {user : String} {before after : Machine} {inode target : Inode}

theorem amend (held : before.volume.inode? inode.id = some inode)
    (amends : Volume.Amends user inode target) (volume : after.volume = before.volume.put target)
    (supply : after.nextId = before.nextId) : before.Step user after where
  edit := volume ▸ .amend held amends
  supplied := by
    refine .of_kept (fun id unused => ?_) supply
    rw [volume, Volume.inode?_put]
    split
    · rename_i here
      rw [here, amends.id, held] at unused
      cases unused
    · exact unused

/-- Neither the clock nor the log matters to a step. -/
theorem congr {other : Machine} (step : before.Step user after)
    (volume : other.volume = after.volume) (supply : other.nextId = after.nextId) :
    before.Step user other where
  edit := volume ▸ step.edit
  supplied := by
    constructor
    · rw [supply]
      exact step.supplied.later
    · rw [volume, supply]
      exact step.supplied.given

theorem report {entry : Log.Entry} (step : before.Step user after) :
    before.Step user (after.report entry) :=
  step.congr rfl rfl

theorem refl : before.Step user before := ⟨.keep, .refl⟩

end Machine.Step

/-! ## Refusals on record -/

section Record

variable {user : String} {machine : Machine} {failure : FsFailure}

theorem Machine.record_volume : (machine.record user failure).volume = machine.volume := by
  cases failure <;> rfl

theorem Machine.record_nextId : (machine.record user failure).nextId = machine.nextId := by
  cases failure <;> rfl

theorem Machine.Step.record {before : Machine} (step : before.Step user machine) :
    before.Step user (machine.record user failure) :=
  step.congr Machine.record_volume Machine.record_nextId

end Record

/-- The machine after a search has come to a result. -/
def Machine.noting {α : Type} (user : String) : Except FsFailure α → Machine → Machine
  | .ok _, machine => machine
  | .error failure, machine => machine.record user failure

theorem Machine.noting_volume {α : Type} {user : String} {machine : Machine}
    {result : Except FsFailure α} : (machine.noting user result).volume = machine.volume := by
  cases result with
  | ok value => rfl
  | error failure => exact Machine.record_volume

theorem Machine.noting_of_ok {α : Type} {user : String} {machine : Machine}
    {result : Except FsFailure α} {value : α} (found : result = .ok value) :
    machine.noting user result = machine := by
  rw [found]
  rfl

namespace Fs

variable {α β : Type} {operation : Fs α} {next : α → Fs β} {actor : Actor}
  {machine before after : Machine} {P Q : α → Prop} {R : β → Prop} {result : Except FsFailure α}
  {spoils : FsFailure → Machine → Prop}

/-- The operation leaves the machine as it is, but for a refusal on record, and gives a value with
the property or refuses. -/
def Reads (operation : Fs α) (actor : Actor) (machine : Machine) (holds : α → Prop) : Prop :=
  ∃ result, operation actor machine = (result, machine.noting actor.user result) ∧
    Settled holds result

/-- How an operation of a user's may end: refused with the machine as it was and that on record,
done after one step, or spoilt in a way that is allowed for. -/
inductive Ending (user : String) (before : Machine) (spoils : FsFailure → Machine → Prop) :
    Except FsFailure α → Machine → Prop
  | refused {failure : FsFailure} (refuses : failure.Refuses) :
      Ending user before spoils (.error failure) (before.record user failure)
  | done {value : α} {after : Machine} (step : before.Step user after) :
      Ending user before spoils (.ok value) after
  | spoilt {failure : FsFailure} {after : Machine} (step : before.Step user after)
      (spoilt : spoils failure after) :
      Ending user before spoils (.error failure) after

/-- Run from the machine, the operation ends in one of the ways of one that began before. -/
def Ends (operation : Fs α) (actor : Actor) (machine before : Machine)
    (spoils : FsFailure → Machine → Prop) : Prop :=
  Ending actor.user before spoils (operation actor machine).1 (operation actor machine).2

theorem run_bind : (operation >>= next) actor machine =
    match operation actor machine with
    | (.ok value, after) => next value actor after
    | (.error failure, after) => (.error failure, after) := by
  change (match operation actor machine with
    | (result, after) => ExceptT.bindCont (fun value => next value actor) result after) = _
  cases operation actor machine with
  | mk result after => cases result <;> rfl

/-- Where a sequence succeeds, its first part has succeeded and the rest went on from there. -/
theorem bind_ok {value : β} (ran : (operation >>= next) actor machine = (.ok value, after)) :
    ∃ first between, operation actor machine = (.ok first, between) ∧
      next first actor between = (.ok value, after) := by
  rw [run_bind] at ran
  generalize operation actor machine = outcome at ran
  obtain ⟨result, between⟩ := outcome
  cases result with
  | ok first => exact ⟨first, between, rfl, ran⟩
  | error failure => cases ran

/-- Behind a check that succeeds the condition does not hold. -/
theorem check_ok {value : α} {condition : Prop} [Decidable condition] {reason : FsError}
    {rest : Unit → Fs α}
    (ran : (if condition then refuse reason >>= rest else rest ()) actor machine =
      (.ok value, after)) : ¬ condition ∧ rest () actor machine = (.ok value, after) := by
  split at ran
  · cases ran
  · rename_i passed
    exact ⟨passed, ran⟩

/-- So it does behind one that does not refuse. -/
theorem check_passed {outcome : Except FsFailure α} {condition : Prop} [Decidable condition]
    {reason : FsError} {rest : Unit → Fs α}
    (ran : (if condition then refuse reason >>= rest else rest ()) actor machine =
      (outcome, after)) (goes : ∀ failure, outcome = .error failure → ¬ failure.Refuses) :
    ¬ condition ∧ rest () actor machine = (outcome, after) := by
  split at ran
  · cases ran
    exact absurd rfl (goes _ rfl)
  · rename_i passed
    exact ⟨passed, ran⟩

/-- Checks that pass one by one pass together. -/
theorem forM_run {xs : List α} {check : α → Fs PUnit}
    (each : ∀ x ∈ xs, check x actor machine = (.ok PUnit.unit, machine)) :
    xs.forM check actor machine = (.ok PUnit.unit, machine) := by
  induction xs with
  | nil => rfl
  | cons x rest ih =>
    change (check x >>= fun _ => rest.forM check) actor machine = _
    rw [run_bind, each x List.mem_cons_self]
    exact ih fun y member => each y (List.mem_cons_of_mem _ member)

theorem lift_run : (liftM result : Fs α) actor machine = (result, machine) := by
  cases result <;> rfl

theorem discard_run : discard operation actor machine =
    match operation actor machine with
    | (.ok _, after) => (.ok PUnit.unit, after)
    | (.error failure, after) => (.error failure, after) := by
  have same : discard operation = operation >>= fun _ => pure PUnit.unit := by
    rw [Functor.discard, map_const, Function.comp, map_eq_pure_bind]
  rw [same, run_bind]
  rfl

theorem pure_run (value : α) : (pure value : Fs α) actor machine = (.ok value, machine) := rfl

theorem note_run {message : String} {context : List (String × Json)} :
    note message context actor machine =
      (.ok (), machine.report (.of .debug fsSubsystem message context)) := rfl

theorem put_run {inode : Inode} : put inode actor machine =
    (.ok (), { machine with volume := machine.volume.put inode }) := rfl

theorem volume_run : volume actor machine = (.ok machine.volume, machine) := rfl

theorem read_run : (read : Fs Actor) actor machine = (.ok actor, machine) := rfl

theorem get_run : (get : Fs Machine) actor machine = (.ok machine, machine) := rfl

theorem demand_run {inode : Inode} {access : Access} {path action : String} :
    demand inode access path action actor machine =
      if inode.permits actor.user access then (.ok (), machine)
        else (.error (.denied path action),
          machine.record actor.user (.denied path action)) := by
  simp only [demand, run_bind, read_run]
  split <;> rfl

theorem answer_run : answer result actor machine = (result, machine.noting actor.user result) := by
  cases result <;> rfl

theorem lookup_run {follow : Bool} {path : String} : lookup follow path actor machine =
    (machine.volume.lookup actor follow path,
      machine.noting actor.user (machine.volume.lookup actor follow path)) := by
  unfold lookup
  simp only [run_bind, volume_run, read_run, answer_run]

theorem lookupParent_run {path : String} : lookupParent path actor machine =
    (machine.volume.lookupParent actor path,
      machine.noting actor.user (machine.volume.lookupParent actor path)) := by
  unfold lookupParent
  simp only [run_bind, volume_run, read_run, answer_run]

namespace Reads

/-- What only reads and succeeds has changed nothing. -/
theorem of_ok {value : α} (reads : Reads operation actor machine P)
    (ran : operation actor machine = (.ok value, after)) : after = machine ∧ P value := by
  obtain ⟨result, same, settled⟩ := reads
  rw [ran] at same
  cases settled with
  | ok here =>
    cases same
    exact ⟨rfl, here⟩
  | error refuses => cases same

/-- What only reads and is not refused goes on from what it has read, with nothing changed. -/
theorem passed {next : α → Fs β} {outcome : Except FsFailure β}
    (reads : Reads operation actor machine P)
    (ran : (operation >>= next) actor machine = (outcome, after))
    (goes : ∀ failure, outcome = .error failure → ¬ failure.Refuses) :
    ∃ value, P value ∧ next value actor machine = (outcome, after) := by
  obtain ⟨result, same, settled⟩ := reads
  rw [run_bind, same] at ran
  cases settled with
  | ok here => exact ⟨_, here, ran⟩
  | error refuses =>
    cases ran
    exact absurd refuses (goes _ rfl)

theorem imp (reads : Reads operation actor machine P) (weaker : ∀ value, P value → Q value) :
    Reads operation actor machine Q := by
  obtain ⟨result, ran, settled⟩ := reads
  exact ⟨result, ran, settled.imp weaker⟩

theorem bind (reads : Reads operation actor machine P)
    (continues : ∀ value, P value → Reads (next value) actor machine R) :
    Reads (operation >>= next) actor machine R := by
  obtain ⟨result, ran, settled⟩ := reads
  cases settled with
  | ok here =>
    obtain ⟨final, ranNext, settledNext⟩ := continues _ here
    exact ⟨final, by rw [run_bind, ran]; exact ranNext, settledNext⟩
  | @error failure refuses => exact ⟨.error failure, by rw [run_bind, ran]; rfl, .error refuses⟩

/-- After reading, an operation ends in the ways of what follows, or is refused. -/
theorem ends_after (reads : Reads operation actor machine P)
    (refused : ∀ failure, failure.Refuses → Ending actor.user before spoils
      (.error failure : Except FsFailure β) (machine.record actor.user failure))
    (continues : ∀ value, P value → Ends (next value) actor machine before spoils) :
    Ends (operation >>= next) actor machine before spoils := by
  obtain ⟨result, ran, settled⟩ := reads
  unfold Ends
  rw [run_bind, ran]
  cases settled with
  | ok here => exact continues _ here
  | error refuses => exact refused _ refuses

/-- A refusal before any change leaves the machine as it was. -/
theorem ends (reads : Reads operation actor before P)
    (continues : ∀ value, P value → Ends (next value) actor before before spoils) :
    Ends (operation >>= next) actor before before spoils :=
  reads.ends_after (fun _ refuses => .refused refuses) continues

theorem pure (value : α) : Reads (Pure.pure value) actor machine (· = value) :=
  ⟨.ok value, rfl, .ok rfl⟩

theorem volume {next : Volume → Fs β} (continues : Reads (next machine.volume) actor machine R) :
    Reads (Fs.volume >>= next) actor machine R :=
  continues

theorem read {next : Actor → Fs β} (continues : Reads (next actor) actor machine R) :
    Reads (MonadReader.read >>= next) actor machine R :=
  continues

theorem refuse (reason : FsError) : Reads (Fs.refuse reason) actor machine P :=
  ⟨.error (.refused reason), rfl, .refused reason⟩

theorem deny (path action : String) : Reads (Fs.deny path action) actor machine P :=
  ⟨.error (.denied path action), rfl, .denied path action⟩

theorem answer (settled : Settled P result) : Reads (Fs.answer result) actor machine P :=
  ⟨result, answer_run, settled⟩

theorem lift {value : α} (found : result = .ok value) (here : P value) :
    Reads (liftM result : Fs α) actor machine P :=
  ⟨.ok value, by rw [lift_run, found]; rfl, .ok here⟩

theorem lookup (linked : machine.volume.Linked) (follow : Bool) (path : String) :
    Reads (Fs.lookup follow path) actor machine
      fun inode => ∃ trail, machine.volume.Route actor.user trail inode :=
  volume (read (answer linked.enclosed_route.lookup))

/-- Looking up reads what the path leads to. -/
theorem lookup_found (linked : machine.volume.Linked) (follow : Bool) (path : String) :
    Reads (Fs.lookup follow path) actor machine
      fun inode => machine.volume.lookup actor follow path = .ok inode := by
  have settled : Settled _ (machine.volume.lookup actor follow path) :=
    linked.enclosed_route.lookup
  exact volume (read (answer settled.found))

theorem lookupParent (linked : machine.volume.Linked) (path : String) :
    Reads (Fs.lookupParent path) actor machine fun found =>
      (∃ trail, machine.volume.Route actor.user trail found.1) ∧ found.1.isDirectory = true ∧
        Path.IsEntryName found.2 := by
  refine volume (read (answer ?_))
  exact linked.enclosed_route.lookupParent

theorem demand {inode : Inode} {access : Access} {path action : String} :
    Reads (Fs.demand inode access path action) actor machine
      fun _ => inode.permits actor.user access = true := by
  refine read ?_
  by_cases allowed : inode.permits actor.user access = true
  · simp only [allowed, ↓reduceIte]
    exact (pure PUnit.unit).imp fun _ _ => trivial
  · simp only [allowed, Bool.false_eq_true, ↓reduceIte]
    exact deny path action

/-- A check that refuses. -/
theorem check {condition : Prop} [Decidable condition] {reason : FsError} {rest : Unit → Fs α}
    (otherwise : ¬ condition → Reads (rest ()) actor machine P) :
    Reads (if condition then Fs.refuse reason >>= rest else rest ()) actor machine P := by
  split
  · exact (refuse (P := fun _ => False) reason).bind fun _ impossible => impossible.elim
  · rename_i passed
    exact otherwise passed

/-- What holds after each of several checks holds of all after them all. -/
theorem forM {xs : List β} {check : β → Fs PUnit}
    (each : ∀ x ∈ xs, Reads (check x) actor machine fun _ => R x) :
    Reads (xs.forM check) actor machine fun _ => ∀ x ∈ xs, R x := by
  induction xs with
  | nil => exact (pure PUnit.unit).imp fun _ _ => by simp
  | cons x rest ih =>
    have others := ih fun y member => each y (List.mem_cons_of_mem _ member)
    refine (each x List.mem_cons_self).bind fun _ first => others.imp fun _ all => ?_
    intro y member
    rcases List.mem_cons.mp member with rfl | further
    · exact first
    · exact all y further

end Reads

namespace Ends

/-- After an operation whose run is known, what follows decides. -/
theorem of_run {next : β → Fs α} {operation : Fs β} {value : β}
    (ran : operation actor machine = (.ok value, after))
    (continues : Ends (next value) actor after before spoils) :
    Ends (operation >>= next) actor machine before spoils := by
  unfold Ends
  rw [run_bind, ran]
  exact continues

/-- Nothing follows a failure. -/
theorem of_failure {next : β → Fs α} {operation : Fs β} {failure : FsFailure}
    (ran : operation actor machine = (.error failure, after))
    (ending : Ending actor.user before spoils (.error failure : Except FsFailure α) after) :
    Ends (operation >>= next) actor machine before spoils := by
  unfold Ends
  rw [run_bind, ran]
  exact ending

theorem volume {next : Volume → Fs α}
    (continues : Ends (next machine.volume) actor machine before spoils) :
    Ends (Fs.volume >>= next) actor machine before spoils :=
  continues

theorem read {next : Actor → Fs α} (continues : Ends (next actor) actor machine before spoils) :
    Ends (MonadReader.read >>= next) actor machine before spoils :=
  continues

theorem get {next : Machine → Fs α} (continues : Ends (next machine) actor machine before spoils) :
    Ends (MonadState.get >>= next) actor machine before spoils :=
  continues

/-- A check that refuses. -/
theorem check {condition : Prop} [Decidable condition] {reason : FsError} {rest : Unit → Fs α}
    (otherwise : ¬ condition → Ends (rest ()) actor before before spoils) :
    Ends (if condition then Fs.refuse reason >>= rest else rest ()) actor before before spoils := by
  split
  · exact (Reads.refuse (P := fun _ => False) reason).ends fun _ impossible => impossible.elim
  · rename_i passed
    exact otherwise passed

theorem refuse (reason : FsError) :
    Ends (Fs.refuse reason : Fs α) actor before before spoils :=
  .refused rfl

theorem note {message : String} {context : List (String × Json)} {next : Unit → Fs α}
    (continues : Ends (next ()) actor
      (machine.report (.of .debug fsSubsystem message context)) before spoils) :
    Ends (Fs.note message context >>= next) actor machine before spoils :=
  continues

theorem pure (value : α) (step : before.Step actor.user machine) :
    Ends (Pure.pure value) actor machine before spoils :=
  Ending.done step

theorem lift {value : α} (found : result = .ok value) (step : before.Step actor.user machine) :
    Ends (liftM result : Fs α) actor machine before spoils := by
  unfold Ends
  rw [lift_run, found]
  exact .done step

end Ends

end Fs

end PocketShell
