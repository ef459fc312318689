import PocketShell.Proofs.Fs.Encoding
import PocketShell.Proofs.Fs.Recheck
import PocketShell.Proofs.Fs.Shape

/-! Taking a filesystem back from its snapshot. The snapshot of a volume that is a rooted tree is
accepted and makes the same volume again, as it is or through its text, whatever has become of the
machine since. A snapshot that was read from a text reads back from the text written for it. -/
namespace PocketShell

open Json Volume

namespace Snapshot

variable {volume : Volume} {snapshot : Snapshot} {now : Binary64}

/-! ## Copies -/

private theorem copy_of_sized {inode : Inode}
    (sized : ∀ content, inode.payload = .file content → inode.size = byteSize content) :
    inode.copy = inode := by
  obtain ⟨id, name, mode, owner, group, size, created, modified, payload, parent⟩ := inode
  cases payload with
  | file content =>
    have whole : size = byteSize content := sized content rfl
    rw [whole]
    rfl
  | directory children => rfl
  | symlink target => rfl

theorem copy_ofVolume (linked : volume.Linked) :
    (ofVolume volume).copy = ofVolume volume := by
  have same : volume.inodes.map Record.copy = volume.inodes := by
    conv_rhs => rw [← List.map_id volume.inodes]
    refine List.map_congr_left fun inode member => copy_of_sized fun content file => ?_
    exact linked.sized inode.id inode content (linked.keyed.inode?_of_mem member) file
  rw [copy, ofVolume, same]

/-- The records decoded from what is written for inodes describe these. -/
theorem describes_written : Describes referencedId .string Record.written where
  resolved := fun _ => rfl
  id := fun _ => rfl
  name := fun _ => rfl
  type := fun inode => by
    obtain ⟨id, name, mode, owner, group, size, created, modified, payload, parent⟩ := inode
    cases payload <;> rfl
  children := fun inode => by
    obtain ⟨id, name, mode, owner, group, size, created, modified, payload, parent⟩ := inode
    cases payload <;> rfl
  adopt := fun parents inode => by
    obtain ⟨id, name, mode, owner, group, size, created, modified, payload, parent⟩ := inode
    cases payload <;> rfl

theorem check_ofVolume (linked : volume.Linked) :
    (volume.Rooted ∧ (ofVolume volume).check = .ok (.ofVolume volume)) ∨
    (¬ volume.Rooted ∧ ∃ orphan, (ofVolume volume).check =
      .error (.corrupt .unreachable (some orphan))) := by
  have verdict := validate_linked describes_self linked
  rw [List.map_id'] at verdict
  exact verdict

/-! ## Texts -/

theorem ofText_write {data : Json} (readable : Readable nestingLimit data) :
    ofText now data.write = ofJson now data := by
  rw [ofText, read_write readable]

theorem readable_toJson (keyed : volume.Keyed)
    (storable : ∀ inode ∈ volume.inodes, inode.Storable) :
    Readable nestingLimit (ofVolume volume).toJson := by
  have records : ∀ inode ∈ volume.inodes, Readable 988 (inode.toJson .string) :=
    fun inode member => Record.readable_toJson 985 (storable inode member)
  have ids : (volume.inodes.map fun inode => inode.id).Nodup := keyed
  unfold nestingLimit toJson ofVolume
  simpa [Function.comp_def, ids] using records

/-- The record of an inode is decoded under its key. -/
private theorem recordOfJson_toJson {inode : Inode}
    (sized : ∀ content, inode.payload = .file content → inode.size = byteSize content) :
    recordOfJson now inode.id (inode.toJson .string) = .ok inode.written := by
  have decoded := Record.ofJson_toJson now sized
  have key : inode.written.id = inode.id := rfl
  obtain ⟨members, data⟩ : ∃ members, inode.toJson .string = .object members := ⟨_, rfl⟩
  rw [data] at decoded ⊢
  simp only [recordOfJson, decoded, key, ↓reduceIte]

private theorem recordsOfJson_toJson (linked : volume.Linked) :
    (volume.inodes.map fun inode => (inode.id, inode.toJson .string)).mapM
      (fun pair => recordOfJson now pair.1 pair.2) = .ok (volume.inodes.map Record.written) := by
  rw [List.mapM_map]
  refine mapM_ok_of_forall fun inode member => recordOfJson_toJson fun content file => ?_
  exact linked.sized inode.id inode content (linked.keyed.inode?_of_mem member) file

/-- What is written for a volume is decoded record by record and then checked. -/
theorem ofJson_toJson (linked : volume.Linked) : ofJson now (ofVolume volume).toJson =
    validate referencedId volume.rootId (volume.inodes.map Record.written) := by
  change ((volume.inodes.map fun inode => (inode.id, inode.toJson .string)).mapM
    (fun pair => recordOfJson now pair.1 pair.2)) >>=
      validate referencedId volume.rootId = _
  rw [recordsOfJson_toJson linked]
  rfl

theorem ofText_toText (rooted : volume.Rooted)
    (storable : ∀ inode ∈ volume.inodes, inode.Storable) :
    ofText now (ofVolume volume).toText = .ok (.ofVolume volume) := by
  rw [toText, ofText_write (readable_toJson rooted.linked.keyed storable),
    ofJson_toJson rooted.linked]
  rcases validate_linked describes_written rooted.linked with ⟨-, accepted⟩ | ⟨detached, -⟩
  · exact accepted
  · exact absurd rooted detached

/-! ## Read snapshots -/

private theorem storable_of_recordOfJson {levels : ℕ} {key : String} {data : Json}
    {record : Record Json} (readable : Readable levels data) (clock : now.Proper)
    (ran : recordOfJson now key data = .ok record)
    (short : ∀ content, record.payload = .file content →
      Binary64.digitCount record.size.natAbs ≤ Text.maxDigits) : record.Storable := by
  unfold recordOfJson at ran
  split at ran
  · split at ran
    · rename_i decoded
      split at ran
      · cases ran
        exact Record.ofJson_storable readable clock decoded short
      · cases ran
    · cases ran
    · cases ran
  · cases ran

/-- The inodes of a snapshot that was read can be written, but for a file that is too long for its
size to be. -/
theorem storable_of_ofText {text : String} (clock : now.Proper)
    (ran : ofText now text = .ok snapshot)
    (short : ∀ inode ∈ snapshot.inodes, ∀ content, inode.payload = .file content →
      Binary64.digitCount inode.size.natAbs ≤ Text.maxDigits) :
    ∀ inode ∈ snapshot.inodes, inode.Storable := by
  unfold ofText at ran
  split at ran
  case h_2 => split at ran <;> cases ran
  rename_i data read
  have readable := read_readable read
  unfold ofJson at ran
  split at ran
  case h_2 => cases ran
  rename_i members
  split at ran
  case h_2 => cases ran
  rename_i rootId records _ held
  obtain ⟨table, decoded, ran⟩ := bind_eq_ok.mp ran
  obtain ⟨less, inner⟩ := readable.member held
  cases inner with
  | object once each =>
    obtain ⟨keys, -⟩ := decoded_table decoded
    obtain ⟨_, parents, -, -, -, -, -, rfl⟩ := validate_ok (keys ▸ once) ran
    intro inode member
    obtain ⟨record, listed, rfl⟩ := List.mem_map.mp member
    obtain ⟨pair, given, taken⟩ := exists_of_mapM_ok decoded record listed
    have storable := storable_of_recordOfJson (each pair given) clock taken fun content file =>
      short _ member content (by simp only [adopt, file])
    exact ⟨storable.size, storable.created, storable.modified⟩

/-- A snapshot that was read reads back from its own text. -/
theorem ofText_ofText {text : String} {later : Binary64} (clock : now.Proper)
    (ran : ofText now text = .ok snapshot)
    (short : ∀ inode ∈ snapshot.inodes, ∀ content, inode.payload = .file content →
      Binary64.digitCount inode.size.natAbs ≤ Text.maxDigits) :
    ofText later snapshot.toText = .ok snapshot := by
  have same : ofVolume (snapshot.volume 0) = snapshot := rfl
  rw [← same]
  exact ofText_toText (ofText_rooted 0 ran) (storable_of_ofText clock ran short)

end Snapshot

/-! ## Machines -/

namespace Machine

variable {donor : Machine}

/-- The snapshot of the machine's volume is accepted as it is, and every machine that takes it over,
directly or as text, gets that volume with its own mask. The text is one that can be read if the
numbers in it are. -/
structure Restorable (donor : Machine) : Prop where
  accepted : (Snapshot.ofVolume donor.volume).copy.check = .ok (.ofVolume donor.volume)
  loaded : ∀ machine : Machine, ∃ after, machine.load (.ofVolume donor.volume) = .ok after ∧
    after.volume = { donor.volume with umask := machine.volume.umask }
  decoded : (∀ inode ∈ donor.volume.inodes, inode.Storable) → ∀ machine : Machine,
    ∃ after, machine.deserialize donor.serialize = .ok after ∧
      after.volume = { donor.volume with umask := machine.volume.umask }

theorem Restorable.of_rooted (rooted : donor.volume.Rooted) : donor.Restorable := by
  have copied := Snapshot.copy_ofVolume rooted.linked
  have checked : (Snapshot.ofVolume donor.volume).copy.check = .ok (.ofVolume donor.volume) := by
    rw [copied]
    rcases Snapshot.check_ofVolume rooted.linked with ⟨-, accepted⟩ | ⟨detached, -⟩
    · exact accepted
    · exact absurd rooted detached
  refine ⟨checked, fun machine => ?_, fun storable machine => ?_⟩
  · unfold load
    rw [checked]
    exact ⟨_, rfl, rfl⟩
  · have read : Snapshot.ofText machine.now (Snapshot.ofVolume donor.volume).toText =
        .ok (.ofVolume donor.volume) := Snapshot.ofText_toText rooted storable
    unfold deserialize serialize
    rw [read]
    exact ⟨_, rfl, rfl⟩

/-- A linked volume can be restored exactly if all of it hangs below the root; else its own snapshot is
refused for an inode that is not reached. -/
theorem restorable_iff (linked : donor.volume.Linked) :
    (donor.Restorable ↔ donor.volume.RootedTree) ∧
      (¬ donor.volume.RootedTree → ∃ orphan, (Snapshot.ofVolume donor.volume).copy.check =
        .error (.corrupt .unreachable (some orphan))) := by
  rcases Snapshot.check_ofVolume linked with ⟨rooted, -⟩ | ⟨detached, orphan, refused⟩
  · have restorable := Restorable.of_rooted rooted
    exact ⟨iff_of_true restorable rooted.rootedTree, fun none => absurd rooted.rootedTree none⟩
  · rw [← Snapshot.copy_ofVolume linked] at refused
    refine ⟨iff_of_false (fun restorable => ?_) (fun tree => ?_), fun _ => ⟨orphan, refused⟩⟩
    · rw [restorable.accepted] at refused
      cases refused
    · exact detached (rooted_of_tree linked tree)

end Machine

/-- A directory with a file in it, written in other ways than the program does: a size as text, a
number as a name, no owner to speak of and no times. -/
def looseData : Json :=
  .object [("rootId", .string "r"), ("inodes", .object
    [("r", .object [("type", .string "directory"), ("id", .string "r"), ("name", .string "/"),
      ("permissions", Mode.newDirectory.toJson), ("ownerId", .string rootUser),
      ("size", .string " 1_2 "), ("children", .array [.string "f"])]),
    ("f", .object [("type", .string "file"), ("id", .string "f"), ("name", .int 7),
      ("permissions", Mode.newFile.toJson), ("ownerId", .null), ("createdAt", .bool true),
      ("content", .string "é")])])]

/-- What it is read as. -/
def looseSnapshot : Snapshot :=
  ⟨"r", [⟨"r", "/", Mode.newDirectory, rootUser, rootUser, 12, .zero, .zero, .directory ["f"], none⟩,
    ⟨"f", "7", Mode.newFile, "None", "None", 2, .ofInt 1, .zero, .file "é", some "r"⟩]⟩

private theorem readable_looseData : Readable nestingLimit looseData := by
  have name : Binary64.digitCount (7 : ℤ).natAbs ≤ Text.maxDigits := by decide
  simpa [looseData, nestingLimit] using name

/-- What was loosely written is read and then written the usual way. -/
private theorem ofText_looseData :
    Snapshot.ofText .zero looseData.write = .ok looseSnapshot := by
  rw [Snapshot.ofText_write readable_looseData]
  rfl

/-- The machine whose directory `/a` has been moved below itself. -/
def detachedMachine : Machine :=
  (untraceableMachine.serve ⟨rootUser, "/"⟩ (.mv "/a" "/a/b/c")).2

private theorem detachedMachine_reachable : Reachable Snapshot.Keyed detachedMachine :=
  untraceable_reachable.serve ⟨rootUser, "/"⟩ (.mv "/a" "/a/b/c")

end PocketShell
