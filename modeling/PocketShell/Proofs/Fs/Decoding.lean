import PocketShell.Fs.Layout
import PocketShell.Proofs.Outcomes

/-! Decoding snapshots from data of any form. Whatever is wrong with the data it is refused as a
corrupt snapshot, with two exceptions that are named here: a number that has no representation as
what it is to be, and an entry of a directory that cannot even be looked up, because it is an array
or an object. A machine that is to take over a snapshot keeps its volume however that fails. -/
namespace PocketShell

variable {ε α β : Type} {now : Binary64} {data value : Json} {name reason : String}

/-! ## Numbers without a representation -/

/-- The result is anything but a number that is too large. -/
private def Fits (result : Except Fault α) : Prop :=
  ∀ reason, result ≠ .error (.overflow reason)

private theorem Fits.ok (value : α) : Fits (.ok value) := by
  intro reason impossible
  cases impossible

/-- After what cannot be too large only what follows can be. -/
private theorem Fits.bind_iff {first : Except Fault α} {next : α → Except Fault β}
    (fits : Fits first) : first >>= next = .error (.overflow reason) ↔
      ∃ value, first = .ok value ∧ next value = .error (.overflow reason) := by
  rw [bind_eq_error]
  exact or_iff_right (fits reason)

private theorem Fits.bind {first : Except Fault α} {next : α → Except Fault β}
    (fits : Fits first) (each : ∀ value, Fits (next value)) : Fits (first >>= next) := by
  intro reason failed
  obtain ⟨value, -, failed⟩ := fits.bind_iff.mp failed
  exact each value reason failed

private theorem require_fits (data : Json) (name : String) : Fits (data.require name) := by
  intro reason failed
  unfold Json.require at failed
  split at failed
  · split at failed <;> cases failed
  · cases failed

private theorem typeOfJson_fits (data : Json) : Fits (Record.typeOfJson data) := by
  intro reason failed
  unfold Record.typeOfJson at failed
  split at failed <;> cases failed

private theorem modeOfJson_fits (data : Json) : Fits (Mode.ofJson data) := by
  have classes : ∀ cls name, Fits (Mode.classOfJson data cls name) := by
    intro cls name
    refine (require_fits data name).bind fun bits => (require_fits bits _).bind fun _ => ?_
    exact (require_fits bits _).bind fun _ => (require_fits bits _).bind fun _ => .ok _
  refine (classes _ _).bind fun _ => (classes _ _).bind fun _ => ?_
  exact (classes _ _).bind fun _ => .ok _

private theorem toItems_fits (data : Json) : Fits data.toItems := by
  intro reason failed
  unfold Json.toItems at failed
  split at failed
  · cases failed
  · split at failed <;> cases failed

/-- Only an infinity is too large for a whole number. -/
theorem Json.toInteger_overflow_iff : value.toInteger = .error (.overflow reason) ↔
    (∃ negative, value = .float (.infinity negative)) ∧
      reason = "cannot convert float infinity to integer" := by
  constructor
  · intro failed
    unfold toInteger at failed
    split at failed
    · cases failed
    · cases failed
    · cases failed
    · rename_i negative
      cases failed
      exact ⟨⟨negative, rfl⟩, rfl⟩
    · cases failed
    · rename_i text
      cases read : Text.readInt text with
      | ok i =>
        rw [read] at failed
        cases failed
      | error failure =>
        rw [read] at failed
        cases failed
    · cases failed
  · rintro ⟨⟨negative, rfl⟩, rfl⟩
    rfl

/-- Only a whole number that rounds to an infinity is too large for a number. -/
theorem Json.toNumber_overflow_iff : value.toNumber = .error (.overflow reason) ↔
    (∃ i negative, value = .int i ∧ Binary64.ofInt i = .infinity negative) ∧
      reason = "int too large to convert to float" := by
  constructor
  · intro failed
    unfold toNumber at failed
    split at failed
    · rename_i i
      split at failed
      · rename_i negative far
        cases failed
        exact ⟨⟨i, negative, rfl, far⟩, rfl⟩
      · cases failed
    · cases failed
    · cases failed
    · split at failed <;> cases failed
    · cases failed
  · rintro ⟨⟨i, negative, rfl, far⟩, rfl⟩
    unfold toNumber
    simp only [far]

/-- The numbers of a record are read one after the other. -/
private theorem numbers_overflow_iff {size created modified : Json}
    {next : Int → Binary64 → Binary64 → Except Fault α} (fits : ∀ s c m, Fits (next s c m)) :
    (do
      let s ← size.toInteger
      let c ← created.toNumber
      let m ← modified.toNumber
      next s c m) = .error (.overflow reason) ↔
    size.toInteger = .error (.overflow reason) ∨ ∃ s, size.toInteger = .ok s ∧
      (created.toNumber = .error (.overflow reason) ∨ ∃ c, created.toNumber = .ok c ∧
        modified.toNumber = .error (.overflow reason)) := by
  have last : ∀ s c, (modified.toNumber >>= next s c) = .error (.overflow reason) ↔
      modified.toNumber = .error (.overflow reason) := by
    intro s c
    rw [bind_eq_error]
    refine or_iff_left ?_
    rintro ⟨m, -, failed⟩
    exact fits s c m reason failed
  simp only [bind_eq_error, last]

namespace Record

/-- What a record needs before its numbers can be read: a type, an id, a name, a mode and an
owner. -/
def Headed (data : Json) : Prop :=
  (∃ value type, data.require "type" = .ok value ∧ typeOfJson value = .ok type) ∧
    (∃ id, data.require "id" = .ok id) ∧ (∃ name, data.require "name" = .ok name) ∧
    (∃ value mode, data.require "permissions" = .ok value ∧ Mode.ofJson value = .ok mode) ∧
    ∃ owner, data.require "ownerId" = .ok owner

/-- The first number of a record that cannot be read is too large: an infinite size, or a time
written as a whole number beyond all doubles. -/
inductive Overflows (now : Binary64) (data : Json) : String → Prop
  | size {negative : Bool} (headed : Headed data)
      (infinite : data.memberD "size" (.int 0) = .float (.infinity negative)) :
      Overflows now data "cannot convert float infinity to integer"
  | created {size i : Int} {negative : Bool} (headed : Headed data)
      (sized : (data.memberD "size" (.int 0)).toInteger = .ok size)
      (whole : data.memberD "createdAt" (.float now) = .int i)
      (far : Binary64.ofInt i = .infinity negative) :
      Overflows now data "int too large to convert to float"
  | modified {size i : Int} {created : Binary64} {negative : Bool} (headed : Headed data)
      (sized : (data.memberD "size" (.int 0)).toInteger = .ok size)
      (dated : (data.memberD "createdAt" (.float now)).toNumber = .ok created)
      (whole : data.memberD "modifiedAt" (.float now) = .int i)
      (far : Binary64.ofInt i = .infinity negative) :
      Overflows now data "int too large to convert to float"

/-- A number is too large once all that stands before the numbers has been read. -/
private theorem ofJson_overflow_cases : ofJson now data = .error (.overflow reason) ↔
    Headed data ∧ ((data.memberD "size" (.int 0)).toInteger = .error (.overflow reason) ∨
      ∃ size, (data.memberD "size" (.int 0)).toInteger = .ok size ∧
        ((data.memberD "createdAt" (.float now)).toNumber = .error (.overflow reason) ∨
          ∃ created, (data.memberD "createdAt" (.float now)).toNumber = .ok created ∧
            (data.memberD "modifiedAt" (.float now)).toNumber = .error (.overflow reason))) := by
  unfold ofJson
  simp only [(require_fits _ _).bind_iff, (typeOfJson_fits _).bind_iff,
    (modeOfJson_fits _).bind_iff]
  constructor
  on_goal 1 =>
    rintro ⟨type, hasType, kind, typed, id, hasId, name, hasName, bits, hasBits, mode, moded, owner,
      owned, failed⟩
    refine ⟨⟨⟨type, kind, hasType, typed⟩, ⟨id, hasId⟩, ⟨name, hasName⟩, ⟨bits, mode, hasBits, moded⟩,
      ⟨owner, owned⟩⟩, (numbers_overflow_iff ?_).mp failed⟩
  on_goal 2 =>
    rintro ⟨⟨⟨type, kind, hasType, typed⟩, ⟨id, hasId⟩, ⟨name, hasName⟩, ⟨bits, mode, hasBits, moded⟩,
      ⟨owner, owned⟩⟩, large⟩
    refine ⟨type, hasType, kind, typed, id, hasId, name, hasName, bits, hasBits, mode, moded, owner,
      owned, (numbers_overflow_iff ?_).mpr large⟩
  -- What follows the numbers, by the type of the record, is never too large.
  all_goals
    intro s c m reason failed
    cases kind with
    | directory => exact (toItems_fits _).bind (fun _ => .ok _) reason failed
    | file =>
      dsimp only at failed
      split at failed <;> cases failed
    | symlink =>
      dsimp only at failed
      split at failed <;> cases failed

theorem ofJson_overflow_iff :
    ofJson now data = .error (.overflow reason) ↔ Overflows now data reason := by
  rw [ofJson_overflow_cases]
  constructor
  · rintro ⟨headed, large | ⟨size, sized, large | ⟨created, dated, large⟩⟩⟩
    · obtain ⟨⟨negative, infinite⟩, rfl⟩ := Json.toInteger_overflow_iff.mp large
      exact .size headed infinite
    · obtain ⟨⟨i, negative, whole, far⟩, rfl⟩ := Json.toNumber_overflow_iff.mp large
      exact .created headed sized whole far
    · obtain ⟨⟨i, negative, whole, far⟩, rfl⟩ := Json.toNumber_overflow_iff.mp large
      exact .modified headed sized dated whole far
  · intro overflows
    cases overflows with
    | size headed infinite =>
      exact ⟨headed, .inl (Json.toInteger_overflow_iff.mpr ⟨⟨_, infinite⟩, rfl⟩)⟩
    | created headed sized whole far =>
      have large := Json.toNumber_overflow_iff.mpr ⟨⟨_, _, whole, far⟩, rfl⟩
      exact ⟨headed, .inr ⟨_, sized, .inl large⟩⟩
    | modified headed sized dated whole far =>
      have large := Json.toNumber_overflow_iff.mpr ⟨⟨_, _, whole, far⟩, rfl⟩
      exact ⟨headed, .inr ⟨_, sized, .inr ⟨_, dated, large⟩⟩⟩

end Record

/-! ## Entries that cannot be looked up -/

namespace Snapshot

variable {rootId key : String} {table : List (Record Json)} {reference record : Json}
  {fault : Fault}

/-- An array or an object, which cannot be looked up. -/
def IsContainer : Json → Prop
  | .array _ => True
  | .object _ => True
  | _ => False

theorem referencedId_fault_iff :
    referencedId reference = .error (.fault fault) ↔ IsContainer reference ∧ fault = .badType := by
  cases reference <;> simp [referencedId, IsContainer, eq_comm]

/-- Every other defect of an entry is one of the snapshot's. -/
private theorem checkEntry_fault_iff {directory : String} {listing : Listing} :
    checkEntry rootId table referencedId directory listing reference = .error (.fault fault) ↔
      IsContainer reference ∧ fault = .badType := by
  rw [← referencedId_fault_iff]
  unfold checkEntry
  rw [bind_eq_error]
  refine or_iff_left ?_
  rintro ⟨shown, -, failed⟩
  repeat' split at failed
  all_goals cases failed

/-- Checks the entries of one more directory. -/
def checkDirectory (rootId : String) (table : List (Record Json))
    (parents : List (String × String)) (directory : Record Json) :
    Except SnapshotFailure (List (String × String)) := do
  let listing ← directory.children.foldlM (checkEntry rootId table referencedId directory.id)
    ⟨parents, []⟩
  return listing.parents

/-- The checks get to an entry that is an array or an object, with no defect before it. -/
inductive Blocked (rootId : String) (table : List (Record Json)) : Prop
  | entry {before after : List (Record Json)} {directory : Record Json} {passed rest : List Json}
      {reference : Json} {parents : List (String × String)} {listing : Listing}
      (place : table = before ++ directory :: after)
      (entries : directory.children = passed ++ reference :: rest)
      (directories : before.foldlM (checkDirectory rootId table) [] = .ok parents)
      (others : passed.foldlM (checkEntry rootId table referencedId directory.id) ⟨parents, []⟩ =
        .ok listing)
      (container : IsContainer reference) : Blocked rootId table

private theorem checkEntries_fault_iff :
    checkEntries rootId table referencedId = .error (.fault fault) ↔
      Blocked rootId table ∧ fault = .badType := by
  rw [show checkEntries rootId table referencedId =
    table.foldlM (checkDirectory rootId table) [] from rfl, foldlM_eq_error]
  constructor
  · rintro ⟨before, directory, after, parents, place, directories, failed⟩
    rcases bind_eq_error.mp failed with failed | ⟨listing, -, impossible⟩
    · obtain ⟨passed, reference, rest, listing, entries, others, failed⟩ :=
        foldlM_eq_error.mp failed
      obtain ⟨container, rfl⟩ := checkEntry_fault_iff.mp failed
      exact ⟨.entry place entries directories others container, rfl⟩
    · cases impossible
  · rintro ⟨⟨place, entries, directories, others, container⟩, rfl⟩
    refine ⟨_, _, _, _, place, directories, bind_eq_error.mpr (.inl ?_)⟩
    exact foldlM_eq_error.mpr
      ⟨_, _, _, _, entries, others, checkEntry_fault_iff.mpr ⟨container, rfl⟩⟩

/-- Accepting a decoded table gets stuck at such an entry, if the root is a directory. -/
private theorem validate_fault_iff :
    validate referencedId rootId table = .error (.fault fault) ↔
      (∃ root, table.find? (·.id == rootId) = some root ∧ root.isDirectory = true) ∧
        Blocked rootId table ∧ fault = .badType := by
  rw [← checkEntries_fault_iff]
  unfold validate
  cases found : table.find? (·.id == rootId) with
  | none =>
    constructor
    · intro failed
      cases failed
    · rintro ⟨⟨root, impossible, -⟩, -⟩
      cases impossible
  | some root =>
    by_cases shape : root.isDirectory = true
    · simp only [shape, Bool.not_true, Bool.false_eq_true, ↓reduceIte]
      rw [bind_eq_error]
      constructor
      · rintro (failed | ⟨parents, -, failed⟩)
        · exact ⟨⟨root, rfl, shape⟩, failed⟩
        · split at failed <;> cases failed
      · rintro ⟨-, failed⟩
        exact .inl failed
    · simp only [shape, Bool.not_false, ↓reduceIte]
      constructor
      · intro failed
        cases failed
      · rintro ⟨⟨other, same, directory⟩, -⟩
        cases same
        exact absurd directory shape

/-! ## Data without an answer -/

private theorem recordOfJson_fault_iff :
    recordOfJson now key record = .error (.fault fault) ↔
      ∃ reason, fault = .overflow reason ∧ Record.Overflows now record reason := by
  constructor
  · intro failed
    unfold recordOfJson at failed
    split at failed
    · split at failed
      · split at failed <;> cases failed
      · rename_i reason large
        cases failed
        exact ⟨reason, rfl, Record.ofJson_overflow_iff.mp large⟩
      · cases failed
    · cases failed
  · rintro ⟨reason, rfl, overflows⟩
    have large := Record.ofJson_overflow_iff.mpr overflows
    have object : ∃ members, record = .object members := by
      have headed : Record.Headed record := by cases overflows <;> assumption
      obtain ⟨⟨value, type, present, -⟩, -⟩ := headed
      cases record <;> first | exact ⟨_, rfl⟩ | cases present
    obtain ⟨members, rfl⟩ := object
    unfold recordOfJson
    simp only [large]

/-- Decoding comes to no answer: a record has a number that is too large, and all records before it
can be decoded; or all can be, the root is a directory, and the checks come to an entry that cannot
be looked up. -/
inductive Stuck (now : Binary64) (data : Json) : Fault → Prop
  | overflow {rootId key reason : String} {members records before after : List (String × Json)}
      {record : Json} (object : data = .object members)
      (root : members.lookup "rootId" = some (.string rootId))
      (inodes : members.lookup "inodes" = some (.object records))
      (place : records = before ++ (key, record) :: after)
      (decoded : ∀ pair ∈ before, ∃ inode, recordOfJson now pair.1 pair.2 = .ok inode)
      (large : Record.Overflows now record reason) : Stuck now data (.overflow reason)
  | entry {rootId : String} {members records : List (String × Json)} {table : List (Record Json)}
      {directory : Record Json} (object : data = .object members)
      (root : members.lookup "rootId" = some (.string rootId))
      (inodes : members.lookup "inodes" = some (.object records))
      (decoded : records.mapM (fun (key, record) => recordOfJson now key record) = .ok table)
      (found : table.find? (·.id == rootId) = some directory)
      (shape : directory.isDirectory = true) (blocked : Blocked rootId table) :
      Stuck now data .badType

theorem ofJson_fault_iff : ofJson now data = .error (.fault fault) ↔ Stuck now data fault := by
  constructor
  · intro failed
    unfold ofJson at failed
    split at failed
    · rename_i members
      split at failed
      · rename_i rootId records root inodes
        rcases bind_eq_error.mp failed with failed | ⟨table, decoded, failed⟩
        · obtain ⟨before, pair, after, place, decoded, failed⟩ := mapM_eq_error.mp failed
          obtain ⟨reason, rfl, large⟩ := recordOfJson_fault_iff.mp failed
          exact .overflow rfl root inodes place decoded large
        · obtain ⟨⟨directory, found, shape⟩, blocked, rfl⟩ := validate_fault_iff.mp failed
          exact .entry rfl root inodes decoded found shape blocked
      · cases failed
    · cases failed
  · intro stuck
    cases stuck with
    | overflow object root inodes place decoded large =>
      subst object
      simp only [ofJson, root, inodes]
      refine bind_eq_error.mpr (.inl (mapM_eq_error.mpr ⟨_, _, _, place, decoded, ?_⟩))
      exact recordOfJson_fault_iff.mpr ⟨_, rfl, large⟩
    | entry object root inodes decoded found shape blocked =>
      subst object
      simp only [ofJson, root, inodes]
      refine bind_eq_error.mpr (.inr ⟨_, decoded, ?_⟩)
      exact validate_fault_iff.mpr ⟨⟨_, found, shape⟩, blocked, rfl⟩

end Snapshot

/-! ## Taking over -/

/-- Steps of a machine towards another volume. What was done before one fails stays done. -/
abbrev Takeover := ExceptT SnapshotFailure (StateM Machine)

namespace Takeover

/-- Writes the table and then the root. -/
def adopt (snapshot : Snapshot) : Takeover Unit := do
  modify fun machine => { machine with volume := { machine.volume with inodes := snapshot.inodes } }
  modify fun machine => { machine with volume := { machine.volume with rootId := snapshot.rootId } }

/-- Checks a copy of the snapshot, takes it over and notes that. -/
def load (snapshot : Snapshot) : Takeover Unit := do
  let accepted ← (liftM snapshot.copy.check : Takeover Snapshot)
  adopt accepted
  modify (Machine.report (.of .info fsSubsystem "Loaded snapshot"
    [("root", .string accepted.rootId), ("inodes", .int accepted.inodes.length)]))

/-- Builds a layout; the ids that takes are given out. -/
def build (layout : Layout) : Takeover Snapshot := do
  let (snapshot, machine) := (← get).build layout
  set machine
  return snapshot

/-- Builds and loads a stock layout. -/
def loadNamed (name : String) : Takeover Unit := do
  match Layout.named? name with
  | none => throw (.corrupt (.unknownName name) none)
  | some layout => load (← build layout)

/-- Reads a snapshot and takes it over. -/
def deserialize (text : String) : Takeover Unit := do
  adopt (← liftM (Snapshot.ofText (← get).now text))

end Takeover

/-- What a machine can be told to take over. -/
inductive Replacement
  | named (name : String)
  | snapshot (snapshot : Snapshot)
  | text (text : String)

namespace Replacement

/-- The steps that this takes. -/
def steps : Replacement → Takeover Unit
  | .named name => Takeover.loadNamed name
  | .snapshot given => Takeover.load given
  | .text written => Takeover.deserialize written

/-- The machine that this makes. -/
def outcome : Replacement → Machine → Except SnapshotFailure Machine
  | .named name => Machine.loadNamed name
  | .snapshot given => Machine.load given
  | .text written => Machine.deserialize written

end Replacement

/-- The steps end with the machine that is to be, or fail with the volume as it was. -/
def Takeover.Reaches (steps : Takeover Unit) (machine : Machine) :
    Except SnapshotFailure Machine → Prop
  | .ok after => steps machine = (.ok (), after)
  | .error failure => ∃ kept, steps machine = (.error failure, kept) ∧ kept.volume = machine.volume

namespace Takeover

private theorem load_reaches (snapshot : Snapshot) (machine : Machine) :
    (load snapshot).Reaches machine (machine.load snapshot) := by
  unfold Machine.load load
  cases snapshot.copy.check with
  | error failure => exact ⟨machine, rfl, rfl⟩
  | ok accepted => exact (rfl : _ = _)

private theorem loadNamed_reaches (name : String) (machine : Machine) :
    (loadNamed name).Reaches machine (machine.loadNamed name) := by
  unfold loadNamed Machine.loadNamed
  cases Layout.named? name with
  | none => exact ⟨machine, rfl, rfl⟩
  | some layout =>
    have reaches := load_reaches (machine.build layout).1 (machine.build layout).2
    dsimp only
    cases loaded : (machine.build layout).2.load (machine.build layout).1 with
    | ok after =>
      rw [loaded] at reaches
      exact reaches
    | error failure =>
      rw [loaded] at reaches
      obtain ⟨kept, ran, same⟩ := reaches
      exact ⟨kept, ran, same⟩

private theorem deserialize_reaches (text : String) (machine : Machine) :
    (deserialize text).Reaches machine (machine.deserialize text) := by
  have ran : deserialize text machine =
      ((liftM (Snapshot.ofText machine.now text) : Takeover Snapshot) >>= adopt) machine := rfl
  unfold Machine.deserialize
  cases decoded : Snapshot.ofText machine.now text with
  | error failure =>
    rw [decoded] at ran
    exact ⟨machine, ran, rfl⟩
  | ok snapshot =>
    rw [decoded] at ran
    exact ran

end Takeover

/-- Whatever a machine is told to take over, it becomes what it is to be, or fails and keeps its
volume. -/
theorem Replacement.steps_reach (replacement : Replacement) (machine : Machine) :
    replacement.steps.Reaches machine (replacement.outcome machine) := by
  cases replacement with
  | named name => exact Takeover.loadNamed_reaches name machine
  | snapshot given => exact Takeover.load_reaches given machine
  | text written => exact Takeover.deserialize_reaches written machine

/-- Data with a root directory of some size and with some entries. -/
def dataOfRoot (size : Json) (children : List Json) : Json :=
  .object [("rootId", .string "r"), ("inodes", .object [("r", .object
    [("id", .string "r"), ("type", .string "directory"), ("name", .string "/"),
      ("permissions", Mode.newDirectory.toJson), ("ownerId", .string rootUser), ("size", size),
      ("children", .array children)])])]

end PocketShell
