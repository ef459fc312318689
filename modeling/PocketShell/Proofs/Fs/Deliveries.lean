import PocketShell.Proofs.Fs.Contents
import PocketShell.Proofs.Fs.Sidestepping

/-! Files that come to a directory. A copy and a move of a file into a directory make an entry of the
file's name that holds what the file held, and leave everything else that is no directory as it was.
A copy may replace what an entry of the name held, but not what the file itself holds; a move never
finds the name taken, and its path leads nowhere as long as only other directories get new entries. -/
namespace PocketShell

open Volume

variable {actor : Actor} {before after : Machine} {volume : Volume}
  {file directory old copy inode parent entry : Inode} {source dest path name id holder : String}
  {recursive : Bool} {now : Binary64} {levels : Nat}

namespace Volume

/-- What is in the table and says so is an entry of its directory. -/
theorem EntryNamed.of_parent (linked : volume.Linked) (found : volume.inode? id = some entry)
    (up : entry.parent = some holder) : volume.EntryNamed holder entry.name entry := by
  obtain ⟨directory, held, listed⟩ := (linked.lists_iff _ _).mpr ⟨entry, found, up⟩
  exact .of_mem linked held listed found

/-- A destination is the administrator's too. -/
theorem Aims.asRoot (aims : volume.Aims actor dest inode parent name) :
    volume.Aims actor.asRoot dest inode parent name := by
  cases aims with
  | into leads shape => exact .into (lookup_asRoot leads) shape
  | beside leads found =>
    refine .beside ?_ (lookupParent_asRoot found)
    rcases leads with nowhere | ⟨other, leads, plain⟩
    · have concedes : Concedes (volume.lookup actor true dest) _ := lookup_concedes
      rw [nowhere] at concedes
      generalize volume.lookup actor.asRoot true dest = result at concedes ⊢
      cases concedes with
      | same => exact .inl rfl
    · exact .inr ⟨other, lookup_asRoot leads, plain⟩

/-- Where all that is no directory is as it was, but for what has the name in the directory, and a
file of the name holds the content. -/
structure Receives (first : Volume) (directory file copy : Inode) (second : Volume) : Prop where
  held : second.inode? copy.id = some copy
  up : copy.parent = some directory.id
  name : copy.name = file.name
  payload : copy.payload = file.payload
  others : ∀ id inode, first.inode? id = some inode → inode.isDirectory = false →
    (inode.parent = some directory.id → inode.name ≠ file.name) → second.inode? id = some inode

end Volume

namespace Fs

/-! ## Copying a file -/

/-- A copy of a file is one new entry. -/
private theorem copyTree_file (directory : parent.isDirectory = true) (shape : file.isFile = true) :
    copyTree (levels + 1) file parent name actor before =
      (.ok (attached actor before parent name file.mode file.size file.payload),
        grafted before parent (attached actor before parent name file.mode file.size file.payload))
      := by
  have payload := payload_of_isFile shape
  have same : copyOf actor before file parent name =
      attached actor before parent name file.mode file.size file.payload := by
    unfold copyOf
    rw [payload]
  have none : file.children = [] := by simp [Record.children, payload]
  rw [copyTree_succ directory, same, none]
  rfl

/-- A copy of something onto itself is refused. -/
private theorem cp_onto_itself (linked : before.volume.Linked)
    (offered : Offered actor before source dest recursive inode parent name)
    (named : before.volume.childNamed? parent name = some inode) :
    cp source dest recursive actor before = (.error (.refused .fileExists), before) := by
  obtain ⟨trail, route⟩ := linked.route_of_lookup offered.leads
  have whole : (inode.isDirectory && !recursive) = false := by
    cases shape : inode.isDirectory with
    | false => rfl
    | true => simp [offered.whole shape]
  unfold cp
  simp only [run_bind, lookup_run, offered.leads, Machine.noting, whole, Bool.false_eq_true,
    ↓reduceIte, demandReadable_run linked route offered.readable, destination_run offered.aims,
    volume_run, named]
  rfl

/-- A copy of a file into a directory, which the file itself is not an entry of. -/
theorem cp_receives (linked : before.volume.Linked) (fresh : before.IdsFresh)
    (ran : cp source dest recursive actor before = (.ok copy, after))
    (leads : before.volume.lookup actor.asRoot true source = .ok file) (shape : file.isFile = true)
    (goes : before.volume.lookup actor.asRoot true dest = .ok directory)
    (holds : directory.isDirectory = true) :
    file.parent ≠ some directory.id ∧ before.volume.Receives directory file copy after.volume ∧
      before.volume.Keeps after.volume ∧ ¬ before.volume.Loses after.volume := by
  obtain ⟨inode, parent, name, offered, copies⟩ := cp_copies linked fresh ran (by simp)
  cases leads.symm.trans (lookup_asRoot offered.leads)
  obtain ⟨rfl, rfl⟩ := offered.aims.asRoot.eq_into goes holds
  obtain ⟨⟨trail, route⟩, -⟩ := offered.aims.route linked
  have held : before.volume.inode? file.id = some file :=
    (linked.route_of_lookup offered.leads).choose_spec.held
  have onto : before.volume.childNamed? parent file.name ≠ some file := by
    intro named
    rw [cp_onto_itself linked offered named] at ran
    cases ran
  have apart : file.parent ≠ some parent.id := by
    intro up
    obtain ⟨_, same, named⟩ := EntryNamed.of_parent linked held up
    cases route.held.symm.trans same
    exact onto named
  refine ⟨apart, ?_⟩
  cases copies with
  | @written existing _ named kind volume =>
    obtain ⟨id, listed, there, same⟩ := childNamed?_mem named
    obtain rfl := id_of_inode? there
    have above := linked.parent_of_lists ⟨parent, route.held, listed⟩ there
    rw [volume]
    refine ⟨⟨inode?_put_self, above, same, ?_, fun id inode found plain other => ?_⟩,
      .put there .setContent, not_loses_put there⟩
    · rw [setContent_payload kind, payload_of_isFile shape]
    · rw [inode?_put, if_neg]
      · exact found
      · rintro rfl
        cases there.symm.trans found
        exact other above same
  | @made first copy between _ vacant ran found volume =>
    have some : before.volume.inodes ≠ [] := List.ne_nil_of_mem (mem_of_inode? held)
    obtain ⟨levels, size⟩ := Nat.exists_eq_succ_of_ne_zero (List.length_pos_iff.mpr some).ne'
    rw [size, copyTree_file holds shape] at ran
    cases ran
    have fits : before.volume.Fits parent
        (attached actor before parent file.name file.mode file.size file.payload) := by
      refine (attached_newcomer ?_ fun content same =>
        linked.sized _ file content held same).fits fresh route.held holds vacant.free
      simp [attached, Record.children, payload_of_isFile shape]
    change after.volume = before.volume.graft _ _ _ at volume
    cases Fits.inode?_child.symm.trans found
    rw [volume]
    refine ⟨⟨Fits.inode?_child, rfl, rfl, rfl, fun id inode found plain _ => ?_⟩, .graft fits,
      not_loses_graft⟩
    refine Fits.inode?_other ?_ found fits
    rintro rfl
    cases route.held.symm.trans found
    rw [holds] at plain
    cases plain

end Fs

/-! ## Moving a file -/

namespace Volume

/-- The path ends in a name that is free in its directory, which is not the one with the id. -/
def Missing (volume : Volume) (actor : Actor) (path elsewhere : String) : Prop :=
  ∃ directory name, volume.lookupParent actor path = .ok (directory, name) ∧
    volume.childNamed? directory name = none ∧ directory.id ≠ elsewhere

/-- What is missing is not found. -/
theorem Missing.not_found {elsewhere : String} (missing : volume.Missing actor path elsewhere) :
    volume.lookup actor false path ≠ .ok inode := by
  obtain ⟨directory, name, parent, free, -⟩ := missing
  intro leads
  obtain ⟨-, named⟩ := (lookup_entry parent).mp leads
  cases free.symm.trans named

namespace Moves

variable {after : Volume} (linked : volume.Linked) (moves : volume.Moves old directory file name)
  (shape : file.isFile = true) (rehung : after = volume.rehang now old directory file name)

include linked moves

/-- A move keeps its file's name only from one directory to another. -/
theorem old_ne (same : name = file.name) : old.id ≠ directory.id := by
  intro here
  obtain ⟨_, held, named⟩ := EntryNamed.of_parent linked moves.hangs.held (here ▸ moves.hangs.up)
  cases moves.held.symm.trans held
  rw [← same, moves.free] at named
  cases named

section Rehung

include rehung

/-- What is no directory stays as it was unless it is moved. -/
theorem others (found : volume.inode? id = some inode) (plain : inode.isDirectory = false)
    (differs : id ≠ file.id) : after.inode? id = some inode := by
  rw [rehung, inode?_rehang, if_neg differs, if_neg, if_neg, found]
  · rintro rfl
    obtain ⟨_, held, listed⟩ := moves.hangs.lists linked
    cases found.symm.trans held
    rw [isDirectory_of_mem_children listed] at plain
    cases plain
  · rintro rfl
    cases moves.held.symm.trans found
    rw [moves.directory] at plain
    cases plain

include shape

/-- A name that nothing but the file had is free in every directory but the one it has come to. -/
private theorem free_again {given : String} (spared : volume.Spared after file parent inode)
    (differs : parent.id ≠ directory.id)
    (only : ∀ child, volume.childNamed? parent given = some child → child = file) :
    after.childNamed? inode given = none := by
  have linkedAfter : after.Linked := rehung ▸ rehang_linked linked moves
  obtain ⟨⟨held, present⟩, -⟩ := spared
  refine childNamed?_eq_none_iff.mpr fun id listed child there same => ?_
  have lists : after.Lists parent.id id := ⟨inode, present, listed⟩
  rw [rehung] at lists
  rcases (lists_rehang linked moves).mp lists with ⟨before, stays⟩ | ⟨here, -⟩
  · obtain ⟨former, found, up⟩ := (linked.lists_iff _ _).mp before
    obtain ⟨_, again, alike⟩ := moves.again linked rehung found stays
    cases there.symm.trans again
    obtain ⟨_, above, named⟩ := EntryNamed.of_parent linked found up
    cases held.symm.trans above
    obtain rfl := only former (by rw [← same, alike.name]; exact named)
    exact stays (id_of_inode? found).symm
  · exact differs here

/-- A path ends in a free name once the file that it led to has come to another directory. -/
theorem missing (kept : name = file.name) (leads : volume.lookup actor false path = .ok file) :
    after.Missing actor path directory.id := by
  have linkedAfter : after.Linked := rehung ▸ rehang_linked linked moves
  have bypasses : volume.Bypasses after file := rehung ▸ moves.bypasses linked shape
  cases cut : Path.splitParent path with
  | mk parentPath given =>
    by_cases ordinary : given ≠ "" ∧ given ≠ "." ∧ given ≠ ".."
    · obtain ⟨parent, above⟩ := lookupParent_of_lookup cut ordinary leads
      obtain ⟨-, named⟩ := (lookup_entry above).mp leads
      obtain ⟨other, again, spared⟩ := bypasses.lookupParent linked linkedAfter above
      obtain ⟨id, listed, found, -⟩ := childNamed?_mem named
      have up := linked.parent_of_lists ⟨parent, spared.1.1, listed⟩ found
      have left : parent.id = old.id := Option.some.inj (up.symm.trans moves.hangs.up)
      have elsewhere : parent.id ≠ directory.id := left ▸ moves.old_ne linked kept
      refine ⟨other, given, again, ?_, by rw [id_of_inode? spared.1.2]; exact elsewhere⟩
      exact moves.free_again linked shape rehung spared elsewhere fun child same =>
        Option.some.inj (same.symm.trans named)
    · have improper : given = "" ∨ given = "." ∨ given = ".." := by
        simpa only [ne_eq, not_and_or, not_not] using ordinary
      have directory := linked.isDirectory_of_lookup cut improper leads
      rw [(shape_of_isFile shape).1] at directory
      cases directory

/-- It stays free while files come to that directory. -/
theorem missing_again (missing : volume.Missing actor path directory.id) :
    after.Missing actor path directory.id := by
  have linkedAfter : after.Linked := rehung ▸ rehang_linked linked moves
  have bypasses : volume.Bypasses after file := rehung ▸ moves.bypasses linked shape
  obtain ⟨parent, given, above, free, elsewhere⟩ := missing
  obtain ⟨other, again, spared⟩ := bypasses.lookupParent linked linkedAfter above
  refine ⟨other, given, again, ?_, by rw [id_of_inode? spared.1.2]; exact elsewhere⟩
  refine moves.free_again linked shape rehung spared elsewhere fun child named => ?_
  cases free.symm.trans named

end Rehung

end Moves

end Volume

end PocketShell
