import PocketShell.Fs.Snapshot
import PocketShell.Proofs.Fs.Tree
import PocketShell.Proofs.Json.Readable
import PocketShell.Proofs.Outcomes

/-! Which snapshots are accepted. The checks go through the directories once and note who lists
which inode; whatever they let pass is a tree, and the volume that takes it over has its parents set
accordingly. Sizes and distinct keys are not checked but come with how a table is made. -/
namespace PocketShell.Snapshot

variable {ρ : Type} {rootId id directory holder : String} {table : List (Record ρ)}
  {parents : List (String × String)} {idOf : ρ → Except SnapshotFailure (Except String String)}

/-- What the checks have established about the parents noted so far: every inode is noted once, it
is in the table and not the root, its directory is one of those gone through, and names within a
directory differ. -/
structure Noted (rootId : String) (table : List (Record ρ)) (done : List (Record ρ))
    (parents : List (String × String)) : Prop where
  once : (parents.map (·.1)).Nodup
  known : ∀ child holder, (child, holder) ∈ parents → child ≠ rootId ∧
    ∃ record, table.find? (·.id == child) = some record
  holders : ∀ child holder, (child, holder) ∈ parents →
    ∃ record ∈ done, record.id = holder ∧ record.isDirectory = true
  names : ∀ a b holder first second, (a, holder) ∈ parents → (b, holder) ∈ parents →
    table.find? (·.id == a) = some first → table.find? (·.id == b) = some second →
    first.name = second.name → a = b

theorem lookup_eq_none_iff : parents.lookup id = none ↔ id ∉ parents.map (·.1) := by
  rw [List.lookup_eq_none_iff]
  simp only [bne_iff_ne, List.mem_map, not_exists, not_and, ne_eq]
  exact ⟨fun all pair member same => all pair member same.symm,
    fun none pair member same => none pair member same.symm⟩

theorem lookup_eq_some_iff (once : (parents.map (·.1)).Nodup) :
    parents.lookup id = some holder ↔ (id, holder) ∈ parents := by
  induction parents with
  | nil => simp
  | cons pair rest ih =>
    obtain ⟨child, parent⟩ := pair
    rw [List.map_cons, List.nodup_cons] at once
    by_cases here : id = child
    · subst here
      have absent : ∀ other, (id, other) ∉ rest := by
        intro other member
        exact once.1 (List.mem_map.mpr ⟨_, member, rfl⟩)
      simp [absent, eq_comm]
    · have passed : (id == child) = false := by simpa using here
      simp [List.lookup_cons, passed, ih once.2, here]

theorem mem_entriesOf : id ∈ entriesOf parents directory ↔ (id, directory) ∈ parents := by
  simp [entriesOf]

/-- The names of a directory's entries so far. -/
private def Covers (table : List (Record ρ)) (directory : String) (listing : Listing) : Prop :=
  ∀ child record, (child, directory) ∈ listing.parents →
    table.find? (·.id == child) = some record → record.name ∈ listing.names

/-- One more entry under a name that is new to its directory. -/
private theorem Noted.add {done : List (Record ρ)} {record child : Record ρ} {names : List String}
    (noted : Noted rootId table (done ++ [record]) parents)
    (covers : Covers table record.id ⟨parents, names⟩) (shape : record.isDirectory = true)
    (found : table.find? (·.id == id) = some child) (root : id ≠ rootId)
    (unused : id ∉ parents.map (·.1)) (free : child.name ∉ names) :
    Noted rootId table (done ++ [record]) (parents ++ [(id, record.id)]) ∧
      Covers table record.id ⟨parents ++ [(id, record.id)], child.name :: names⟩ := by
  refine ⟨⟨?_, ?_, ?_, ?_⟩, ?_⟩
  · rw [List.map_append]
    refine List.nodup_append.mpr ⟨noted.once, by simp, ?_⟩
    intro a before b new same
    rw [List.map_singleton, List.mem_singleton] at new
    rw [same, new] at before
    exact unused before
  · intro other holder member
    rcases List.mem_append.mp member with before | new
    · exact noted.known other holder before
    · cases List.mem_singleton.mp new
      exact ⟨root, child, found⟩
  · intro other holder member
    rcases List.mem_append.mp member with before | new
    · exact noted.holders other holder before
    · cases List.mem_singleton.mp new
      exact ⟨record, by simp, rfl, shape⟩
  · intro a b holder first second memberA memberB foundA foundB same
    rcases List.mem_append.mp memberA with beforeA | newA
    · rcases List.mem_append.mp memberB with beforeB | newB
      · exact noted.names a b holder first second beforeA beforeB foundA foundB same
      · cases List.mem_singleton.mp newB
        rw [found] at foundB
        cases foundB
        exact absurd (same ▸ covers a first beforeA foundA) free
    · cases List.mem_singleton.mp newA
      rw [found] at foundA
      cases foundA
      rcases List.mem_append.mp memberB with beforeB | newB
      · exact absurd (same ▸ covers b second beforeB foundB) free
      · cases List.mem_singleton.mp newB
        rfl
  · intro other entry member present
    rcases List.mem_append.mp member with before | new
    · exact List.mem_cons_of_mem _ (covers other entry before present)
    · cases List.mem_singleton.mp new
      rw [found] at present
      cases present
      exact List.mem_cons_self

private theorem checkEntry_noted {done : List (Record ρ)} {record : Record ρ} {reference : ρ}
    {listing next : Listing} (noted : Noted rootId table (done ++ [record]) listing.parents)
    (covers : Covers table record.id listing) (shape : record.isDirectory = true)
    (ran : checkEntry rootId table idOf record.id listing reference = .ok next) :
    Noted rootId table (done ++ [record]) next.parents ∧ Covers table record.id next := by
  unfold checkEntry at ran
  obtain ⟨shown, -, ran⟩ := bind_eq_ok.mp ran
  cases shown with
  | error text => cases ran
  | ok id =>
    simp only at ran
    cases found : table.find? (·.id == id) with
    | none =>
      rw [found] at ran
      cases ran
    | some child =>
      rw [found] at ran
      simp only at ran
      by_cases root : id = rootId
      · rw [if_pos root] at ran
        cases ran
      rw [if_neg root] at ran
      by_cases twice : (listing.parents.lookup id).isSome = true
      · rw [if_pos twice] at ran
        cases ran
      rw [if_neg twice] at ran
      by_cases taken : listing.names.contains child.name = true
      · rw [if_pos taken] at ran
        cases ran
      rw [if_neg taken] at ran
      cases ran
      have unused : id ∉ listing.parents.map (·.1) := by
        rw [← lookup_eq_none_iff]
        exact Option.not_isSome_iff_eq_none.mp twice
      exact noted.add covers shape found root unused (by simpa using taken)

/-- An entry only stands in a directory. -/
private theorem isDirectory_of_mem {record : Record ρ} {reference : ρ}
    (listed : reference ∈ record.children) : record.isDirectory = true := by
  cases payload : record.payload with
  | directory entries => simp [Record.isDirectory, Record.type, Payload.type, payload]
  | file content => simp [Record.children, payload] at listed
  | symlink target => simp [Record.children, payload] at listed

/-- The checks establish what they are for. -/
private theorem checkEntries_noted (keyed : (table.map (·.id)).Nodup)
    (ran : checkEntries rootId table idOf = .ok parents) :
    Noted rootId table table parents := by
  refine foldlM_ok (Noted rootId table) ⟨by simp, by simp, by simp, by simp⟩ ?_ ran
  intro done record rest parents next whole noted ran
  obtain ⟨listing, inner, ran⟩ := bind_eq_ok.mp ran
  cases ran
  have more : Noted rootId table (done ++ [record]) parents := by
    refine ⟨noted.once, noted.known, fun child holder member => ?_, noted.names⟩
    obtain ⟨holding, seen, same⟩ := noted.holders child holder member
    exact ⟨holding, List.mem_append_left _ seen, same⟩
  have covers : Covers table record.id ⟨parents, []⟩ := by
    intro child entry member
    obtain ⟨holding, seen, same, -⟩ := noted.holders child record.id member
    rw [whole, List.map_append, List.map_cons, List.nodup_append] at keyed
    exact absurd rfl (keyed.2.2 record.id (same ▸ List.mem_map_of_mem seen) record.id (by simp))
  refine (foldlM_ok (fun _ listing => Noted rootId table (done ++ [record]) listing.parents ∧
    Covers table record.id listing) ⟨more, covers⟩ ?_ inner).1
  rintro seen reference others state next split ⟨noted, covers⟩ ran
  have listed : reference ∈ record.children := by
    rw [split]
    simp
  exact checkEntry_noted noted covers (isDirectory_of_mem listed) ran

/-! ## What is reached -/

theorem reach_sound {steps : Nat} {waiting seen : List String}
    (open_ : ∀ id ∈ waiting, Relation.ReflTransGen (fun a b => (b, a) ∈ parents) rootId id)
    (sound : ∀ id ∈ seen, Relation.ReflTransGen (fun a b => (b, a) ∈ parents) rootId id) :
    ∀ id ∈ reach parents steps waiting seen,
      Relation.ReflTransGen (fun a b => (b, a) ∈ parents) rootId id := by
  induction steps generalizing waiting seen with
  | zero => exact sound
  | succ steps ih =>
    cases waiting with
    | nil => exact sound
    | cons first rest =>
      have fresh : ∀ id ∈ (entriesOf parents first).filter (fun child => !seen.contains child),
          Relation.ReflTransGen (fun a b => (b, a) ∈ parents) rootId id := by
        intro id member
        have listed := mem_entriesOf.mp (List.mem_filter.mp member).1
        exact (open_ first List.mem_cons_self).tail listed
      unfold reach
      refine ih ?_ ?_
      · intro id member
        rcases List.mem_append.mp member with new | before
        · exact fresh id new
        · exact open_ id (List.mem_cons_of_mem first before)
      · intro id member
        rcases List.mem_append.mp member with before | new
        · exact sound id before
        · exact fresh id new

/-! ## The accepted volume -/

/-- What acceptance comes down to. -/
theorem validate_ok {snapshot : Snapshot} (keyed : (table.map (·.id)).Nodup)
    (ran : validate idOf rootId table = .ok snapshot) :
    ∃ root parents, table.find? (·.id == rootId) = some root ∧ root.isDirectory = true ∧
      checkEntries rootId table idOf = .ok parents ∧ Noted rootId table table parents ∧
      (∀ record ∈ table, Relation.ReflTransGen (fun a b => (b, a) ∈ parents) rootId record.id) ∧
      snapshot = ⟨rootId, table.map (adopt parents)⟩ := by
  unfold validate at ran
  cases found : table.find? (·.id == rootId) with
  | none =>
    rw [found] at ran
    cases ran
  | some root =>
    simp only [found] at ran
    by_cases shape : root.isDirectory = true
    · simp only [shape, Bool.not_true, Bool.false_eq_true, ↓reduceIte] at ran
      obtain ⟨parents, checked, ran⟩ := bind_eq_ok.mp ran
      cases orphans : table.find? fun record =>
          !(reach parents (table.length + 1) [rootId] [rootId]).contains record.id with
      | some orphan =>
        rw [orphans] at ran
        cases ran
      | none =>
        rw [orphans] at ran
        cases ran
        refine ⟨root, parents, rfl, shape, checked, checkEntries_noted keyed checked, ?_, rfl⟩
        intro record member
        have reached := List.find?_eq_none.mp orphans record member
        refine reach_sound ?_ ?_ record.id (by simpa using reached)
        · intro id member
          rw [List.mem_singleton.mp member]
        · intro id member
          rw [List.mem_singleton.mp member]
    · simp only [shape, Bool.not_false, ↓reduceIte] at ran
      cases ran

/-- The volume that an accepted table becomes. -/
private def adopted (rootId : String) (table : List (Record ρ)) (parents : List (String × String))
    (umask : Mode) : Volume :=
  ⟨table.map (adopt parents), rootId, umask⟩

section Adopted

variable {umask : Mode}

private theorem inode?_adopted :
    (adopted rootId table parents umask).inode? id =
      (table.find? (·.id == id)).map (adopt parents) := by
  simp only [adopted, Volume.inode?, List.find?_map]
  rfl

private theorem children_adopt {record : Record ρ} (directory : record.isDirectory = true) :
    (adopt parents record).children = entriesOf parents record.id := by
  cases payload : record.payload with
  | directory entries => simp [adopt, Record.children, payload]
  | file content => simp [Record.isDirectory, Record.type, payload, Payload.type] at directory
  | symlink target => simp [Record.isDirectory, Record.type, payload, Payload.type] at directory

private theorem children_adopt_subset {record : Record ρ}
    (listed : id ∈ (adopt parents record).children) : (id, record.id) ∈ parents := by
  cases payload : record.payload with
  | directory entries =>
    exact mem_entriesOf.mp (by simpa [adopt, Record.children, payload] using listed)
  | file content => simp [adopt, Record.children, payload] at listed
  | symlink target => simp [adopt, Record.children, payload] at listed

private theorem type_adopt {record : Record ρ} : (adopt parents record).type = record.type := by
  cases payload : record.payload <;> simp [adopt, Record.type, payload, Payload.type]

private theorem payload_adopt {record : Record ρ} {content : String}
    (file : (adopt parents record).payload = .file content) : record.payload = .file content := by
  cases payload : record.payload <;> simp_all [adopt]

theorem nodup_entriesOf (once : (parents.map (·.1)).Nodup) :
    (entriesOf parents directory).Nodup :=
  List.Nodup.sublist (List.Sublist.map _ List.filter_sublist) once

private theorem nodup_children_adopt (once : (parents.map (·.1)).Nodup) (record : Record ρ) :
    (adopt parents record).children.Nodup := by
  cases payload : record.payload with
  | directory entries =>
    rw [children_adopt (by simp [Record.isDirectory, Record.type, payload, Payload.type])]
    exact nodup_entriesOf once
  | file content => simp [adopt, Record.children, payload]
  | symlink target => simp [adopt, Record.children, payload]

/-- What the volume has under an id comes from the record that has it in the table. -/
private theorem adopted_origin {inode : Inode}
    (present : (adopted rootId table parents umask).inode? id = some inode) :
    ∃ record ∈ table, table.find? (·.id == id) = some record ∧ record.id = id ∧
      inode = adopt parents record := by
  rw [inode?_adopted, Option.map_eq_some_iff] at present
  obtain ⟨record, found, same⟩ := present
  exact ⟨record, List.mem_of_find?_eq_some found, found, by simpa using List.find?_some found,
    same.symm⟩

/-- A record that is reached without a parent is the root. -/
private theorem eq_root_of_lookup_eq_none (once : (parents.map (·.1)).Nodup)
    (reached : Relation.ReflTransGen (fun a b => (b, a) ∈ parents) rootId id)
    (none : parents.lookup id = none) : id = rootId := by
  rcases Relation.ReflTransGen.cases_tail reached with same | ⟨holder, -, listed⟩
  · exact same
  · rw [(lookup_eq_some_iff once).mpr listed] at none
    cases none

variable (keyed : (table.map (·.id)).Nodup) (noted : Noted rootId table table parents)

include keyed noted

private theorem lists_adopted : (adopted rootId table parents umask).Lists holder id ↔
    (id, holder) ∈ parents := by
  unfold Volume.Lists
  constructor
  · rintro ⟨directory, held, listed⟩
    obtain ⟨record, -, -, named, rfl⟩ := adopted_origin held
    exact named ▸ children_adopt_subset listed
  · intro member
    obtain ⟨record, inTable, rfl, shape⟩ := noted.holders id holder member
    have found := Volume.find_of_mem_nodup keyed inTable
    refine ⟨adopt parents record, by rw [inode?_adopted, found]; rfl, ?_⟩
    rw [children_adopt shape]
    exact mem_entriesOf.mpr member

/-- A table that the checks let pass becomes a linked volume. -/
private theorem linked_adopted {root : Record ρ}
    (found : table.find? (·.id == rootId) = some root) (shape : root.isDirectory = true)
    (reached : ∀ record ∈ table,
      Relation.ReflTransGen (fun a b => (b, a) ∈ parents) rootId record.id)
    (sized : ∀ record ∈ table, ∀ content, record.payload = .file content →
      record.size = byteSize content) :
    (adopted rootId table parents umask).Linked := by
  have top : ∀ record ∈ table, parents.lookup record.id = none → record.id = rootId :=
    fun record member => eq_root_of_lookup_eq_none noted.once (reached record member)
  refine ⟨?_, ?_, ?_, ?_, ?_, ?_, ?_⟩
  · unfold Volume.Keyed adopted
    rw [List.map_map]
    exact keyed
  · refine ⟨adopt parents root, ?_, ?_, ?_⟩
    · rw [show (adopted rootId table parents umask).rootId = rootId from rfl, inode?_adopted, found]
      rfl
    · rw [Record.isDirectory, type_adopt]
      exact shape
    · have named : root.id = rootId := by simpa using List.find?_some found
      change parents.lookup root.id = none
      rw [named, lookup_eq_none_iff]
      intro listed
      obtain ⟨⟨_, holder⟩, member, rfl⟩ := List.mem_map.mp listed
      exact (noted.known _ holder member).1 rfl
  · intro holder entry
    rw [lists_adopted keyed noted, ← lookup_eq_some_iff noted.once]
    constructor
    · intro up
      obtain ⟨-, record, present⟩ :=
        noted.known entry holder ((lookup_eq_some_iff noted.once).mp up)
      have named : record.id = entry := by simpa using List.find?_some present
      exact ⟨adopt parents record, by rw [inode?_adopted, present]; rfl,
        (congrArg (List.lookup · parents) named).trans up⟩
    · rintro ⟨inode, present, up⟩
      obtain ⟨record, -, -, named, rfl⟩ := adopted_origin present
      exact named ▸ up
  · intro id inode present none
    obtain ⟨record, member, -, named, rfl⟩ := adopted_origin present
    exact named ▸ top record member none
  · intro id inode present
    obtain ⟨record, -, -, -, rfl⟩ := adopted_origin present
    exact nodup_children_adopt noted.once record
  · intro a b first second foundA foundB up same
    obtain ⟨one, memberA, heldA, namedA, rfl⟩ := adopted_origin foundA
    obtain ⟨two, memberB, heldB, namedB, rfl⟩ := adopted_origin foundB
    change parents.lookup one.id = parents.lookup two.id at up
    cases parent : parents.lookup one.id with
    | none => rw [← namedA, ← namedB, top one memberA parent, top two memberB (up ▸ parent)]
    | some holder =>
      have listedA := (lookup_eq_some_iff noted.once).mp parent
      have listedB := (lookup_eq_some_iff noted.once).mp (up ▸ parent)
      rw [namedA] at listedA
      rw [namedB] at listedB
      exact noted.names a b holder one two listedA listedB heldA heldB same
  · intro id inode content present file
    obtain ⟨record, member, -, -, rfl⟩ := adopted_origin present
    exact sized record member content (payload_adopt file)

end Adopted

/-- The volume that a snapshot makes. -/
def volume (snapshot : Snapshot) (umask : Mode) : Volume :=
  ⟨snapshot.inodes, snapshot.rootId, umask⟩

/-- An accepted table makes a rooted volume. -/
theorem validate_rooted {snapshot : Snapshot} (umask : Mode) (keyed : (table.map (·.id)).Nodup)
    (sized : ∀ record ∈ table, ∀ content, record.payload = .file content →
      record.size = byteSize content)
    (accepted : validate idOf rootId table = .ok snapshot) :
    (snapshot.volume umask).Rooted := by
  obtain ⟨root, parents, found, shape, -, noted, reached, rfl⟩ := validate_ok keyed accepted
  refine ⟨linked_adopted keyed noted found shape reached sized, ?_⟩
  intro id inode present
  change (adopted rootId table parents umask).inode? id = some inode at present
  change (adopted rootId table parents umask).Below rootId id
  obtain ⟨record, member, -, named, -⟩ := adopted_origin present
  refine Relation.ReflTransGen.mono ?_ _ _ (named ▸ reached record member)
  intro holder entry listed
  exact (lists_adopted keyed noted).mpr listed

/-! ## Sources of tables -/

/-- Whatever is decoded as a file has the size of its content. -/
theorem ofJson_sized {now : Binary64} {data : Json} {record : Record Json} {content : String}
    (ran : Record.ofJson now data = .ok record) (file : record.payload = .file content) :
    record.size = byteSize content := by
  unfold Record.ofJson at ran
  simp only [bind, Except.bind] at ran
  repeat' split at ran
  all_goals cases ran
  all_goals cases file
  all_goals rfl

private theorem recordOfJson_ok {now : Binary64} {key : String} {data : Json}
    {record : Record Json} (ran : recordOfJson now key data = .ok record) :
    record.id = key ∧ ∀ content, record.payload = .file content →
      record.size = byteSize content := by
  unfold recordOfJson at ran
  split at ran
  · rename_i members
    cases read : Record.ofJson now (.object members) with
    | error fault =>
      rw [read] at ran
      cases fault <;> cases ran
    | ok decoded =>
      simp only [read] at ran
      split at ran
      · rename_i same
        cases ran
        exact ⟨same, fun content file => ofJson_sized read file⟩
      · cases ran
  · cases ran

theorem decoded_table {now : Binary64} {records : List (String × Json)}
    {table : List (Record Json)}
    (ran : records.mapM (fun (key, record) => recordOfJson now key record) = .ok table) :
    table.map (·.id) = records.map (·.1) ∧ ∀ record ∈ table, ∀ content,
      record.payload = .file content → record.size = byteSize content := by
  induction records generalizing table with
  | nil =>
    cases ran
    exact ⟨rfl, by simp⟩
  | cons pair rest ih =>
    obtain ⟨key, data⟩ := pair
    rw [List.mapM_cons] at ran
    obtain ⟨record, first, ran⟩ := bind_eq_ok.mp ran
    obtain ⟨records, others, ran⟩ := bind_eq_ok.mp ran
    cases ran
    obtain ⟨keys, sized⟩ := ih others
    obtain ⟨key', size⟩ := recordOfJson_ok first
    refine ⟨by rw [List.map_cons, List.map_cons, key', keys], ?_⟩
    intro entry member
    rcases List.mem_cons.mp member with rfl | further
    · exact size
    · exact sized entry further

/-- Whatever is read from a text makes a rooted volume. -/
theorem ofText_rooted {now : Binary64} {text : String} {snapshot : Snapshot} (umask : Mode)
    (ran : ofText now text = .ok snapshot) : (snapshot.volume umask).Rooted := by
  unfold ofText at ran
  cases read : Json.read text with
  | error failure =>
    simp only [read] at ran
    split at ran <;> cases ran
  | ok data =>
    simp only [read] at ran
    have keyed := Json.read_keyed read
    unfold ofJson at ran
    split at ran
    · rename_i members
      split at ran
      · rename_i rootId records _ held
        obtain ⟨table, decoded, ran⟩ := bind_eq_ok.mp ran
        obtain ⟨keys, sized⟩ := decoded_table decoded
        refine validate_rooted umask ?_ sized ran
        rw [keys]
        exact (keyed.member held).once
      · cases ran
    · cases ran

/-! ## Loading -/

/-- Every id of the snapshot stands for one inode. -/
def Keyed (snapshot : Snapshot) : Prop := (snapshot.inodes.map (·.id)).Nodup

theorem copy_spec (inode : Inode) : inode.copy.id = inode.id ∧
    inode.copy.name = inode.name ∧ inode.copy.type = inode.type ∧
    ∀ content, inode.copy.payload = .file content → inode.copy.size = byteSize content := by
  cases payload : inode.payload <;> simp [Record.copy, Record.type, payload]

private theorem ids_copy (snapshot : Snapshot) :
    snapshot.copy.inodes.map (·.id) = snapshot.inodes.map (·.id) := by
  rw [copy, List.map_map]
  apply List.map_congr_left
  intro inode _
  exact (copy_spec inode).1

private theorem load_ok {snapshot : Snapshot} {machine after : Machine}
    (ran : machine.load snapshot = .ok after) :
    ∃ accepted, snapshot.copy.check = .ok accepted ∧ after.nextId = machine.nextId ∧
      after.volume = accepted.volume machine.volume.umask := by
  obtain ⟨accepted, checked, ran⟩ := bind_eq_ok.mp ran
  cases ran
  exact ⟨accepted, checked, rfl, rfl⟩

/-- A machine that loads a snapshot gives out the ids it would have given out. -/
theorem nextId_of_load {snapshot : Snapshot} {machine after : Machine}
    (ran : machine.load snapshot = .ok after) : after.nextId = machine.nextId := by
  obtain ⟨accepted, -, supply, -⟩ := load_ok ran
  exact supply

/-- Whatever is loaded is rooted, whatever sizes its files had. -/
theorem rooted_of_load {snapshot : Snapshot} {machine after : Machine} (keyed : snapshot.Keyed)
    (ran : machine.load snapshot = .ok after) : after.volume.Rooted := by
  obtain ⟨accepted, checked, -, volume⟩ := load_ok ran
  rw [volume]
  refine validate_rooted _ ?_ ?_ checked
  · rw [ids_copy]
    exact keyed
  · intro record member
    obtain ⟨inode, -, rfl⟩ := List.mem_map.mp member
    exact (copy_spec inode).2.2.2

/-- A loaded volume has the root of the snapshot and no inode that the snapshot does not have. -/
theorem kept_of_load {snapshot : Snapshot} {machine after : Machine} (keyed : snapshot.Keyed)
    (ran : machine.load snapshot = .ok after) :
    after.volume.rootId = snapshot.rootId ∧
      ∀ id inode, after.volume.inode? id = some inode →
        ∃ old ∈ snapshot.inodes, old.id = id ∧ old.name = inode.name ∧ old.type = inode.type := by
  obtain ⟨accepted, checked, -, volume⟩ := load_ok ran
  rw [volume]
  obtain ⟨root, parents, -, -, -, -, -, rfl⟩ := validate_ok (by rw [ids_copy]; exact keyed) checked
  refine ⟨rfl, ?_⟩
  intro id inode present
  change (adopted snapshot.rootId snapshot.copy.inodes parents _).inode? id = some inode at present
  obtain ⟨record, held, -, named, rfl⟩ := adopted_origin present
  obtain ⟨old, member, rfl⟩ := List.mem_map.mp held
  obtain ⟨same, name, type, -⟩ := copy_spec old
  exact ⟨old, member, same.symm.trans named, name.symm, type.symm.trans type_adopt.symm⟩

end PocketShell.Snapshot
