import PocketShell.Proofs.Fs.Unseen

/-! The files of the system that commands read whoever asks. Where a user can write neither to the
root nor to the directory of these files, and owns neither, what stands there stays as it is. If no
link stands there either, what is read is never a file that is kept from the user. -/
namespace PocketShell

variable {veil : Veil} {machine twin : Machine} {volume before after : Volume} {user name path : String}
  {inode directory old new child : Inode}

/-- The user may not write to the inode and, not owning it, cannot come to. -/
def Shut (user : String) (inode : Inode) : Prop :=
  inode.permits user .write = false ∧ inode.owner ≠ user

instance (user : String) (inode : Inode) : Decidable (Shut user inode) :=
  inferInstanceAs (Decidable (_ ∧ _))

/-- The names of the files that are read whoever asks. -/
def systemNames : List String := ["hostname", "passwd", "group"]

/-- What stands under the names of the system's files is out of the user's hands, no link, and not
the file that is kept from the user. -/
structure Volume.HoldsSystem (volume : Volume) (veil : Veil) : Prop where
  root : ∀ root, volume.inode? volume.rootId = some root → Shut veil.user root
  directory : ∀ root etc, volume.inode? volume.rootId = some root →
    volume.childNamed? root "etc" = some etc → etc.isSymlink = false ∧ Shut veil.user etc
  files : ∀ root etc, volume.inode? volume.rootId = some root →
    volume.childNamed? root "etc" = some etc → ∀ name ∈ systemNames, ∀ file,
    volume.childNamed? etc name = some file → file.isSymlink = false ∧ file.id ≠ veil.secret

namespace Volume

/-! ## What stays -/

/-- A user other than root does not get at an inode that is shut to it. -/
private theorem Alters.shut (alters : before.Alters user old new) (plain : user ≠ rootUser)
    (shut : Shut user old) : new.payload = old.payload ∧ Shut user new := by
  obtain ⟨closed, foreign⟩ := shut
  have mode : new.mode = old.mode := by
    rcases alters.mode with same | root | owner
    · exact same
    · exact absurd root plain
    · exact absurd owner.symm foreign
  have owners : new.owner = old.owner ∧ new.group = old.group := alters.owners.resolve_right plain
  have payload : new.payload = old.payload := by
    rcases alters.content with ⟨same, -⟩ | writes
    · exact same
    · rw [closed] at writes
      cases writes
  refine ⟨payload, ?_, owners.1 ▸ foreign⟩
  rw [← closed]
  simp only [Record.permits, Record.classOf, mode, owners]

/-- The entries of a directory that is shut to the user stand under the names they had. -/
private theorem Accounts.childNamed? (accounts : Accounts user before after)
    (linked : before.Linked) (plain : user ≠ rootUser)
    (held : before.inode? old.id = some old) (kept : after.inode? old.id = some new)
    (shut : Shut user old) (named : after.childNamed? new name = some child) :
    ∃ former, before.childNamed? old name = some former ∧
      before.inode? former.id = some former ∧ after.inode? former.id = some child := by
  obtain ⟨id, listed, found, same⟩ := childNamed?_mem named
  have children : new.children = old.children := by
    simp only [Record.children, ((accounts.altered _ _ _ held kept).shut plain shut).1]
  rw [children] at listed
  have lists : before.Lists old.id id := ⟨old, held, listed⟩
  obtain ⟨former, present, up⟩ := (linked.lists_iff _ _).mp lists
  have name : child.name = former.name := by
    rcases (accounts.altered id former child present found).place with ⟨name, -⟩ | released
    · exact name
    · obtain ⟨holder, stands, -, around, may⟩ := released
      rw [up] at around
      rw [← Option.some.inj around, held] at stands
      cases stands
      have writes := may.writes
      rw [shut.1] at writes
      cases writes
  have before := childNamed?_of_mem linked held listed present
  rw [← name, same] at before
  exact ⟨former, before, inode?_self present, id_of_inode? present ▸ found⟩

/-- Whatever the user does, the system's files stay out of its hands. -/
theorem HoldsSystem.step (holds : before.HoldsSystem veil) (linked : before.Linked)
    (plain : veil.user ≠ rootUser) (edit : Edit veil.user before after) :
    after.HoldsSystem veil := by
  have accounts := edit.accounts linked
  have sameRoot := edit.rootId_eq
  obtain ⟨root, top, -⟩ := linked.root
  have topId := id_of_inode? top
  have rootShut := holds.root root top
  have etcOf : ∀ root' etc', after.inode? after.rootId = some root' →
      after.childNamed? root' "etc" = some etc' →
      ∃ etc, before.childNamed? root "etc" = some etc ∧ before.inode? etc.id = some etc ∧
        after.inode? etc.id = some etc' := by
    intro root' etc' found named
    rw [sameRoot, ← topId] at found
    exact accounts.childNamed? linked plain (inode?_self top) found rootShut named
  constructor
  · intro root' found
    rw [sameRoot] at found
    exact ((accounts.altered _ _ _ top found).shut plain rootShut).2
  · intro root' etc' found named
    obtain ⟨etc, former, held, kept⟩ := etcOf root' etc' found named
    obtain ⟨plainly, shut⟩ := holds.directory root etc top former
    have alters := accounts.altered _ _ _ held kept
    refine ⟨?_, (alters.shut plain shut).2⟩
    rw [← plainly]
    simp only [Record.isSymlink, alters.type]
  · intro root' etc' found named name listed file' entry
    obtain ⟨etc, former, held, kept⟩ := etcOf root' etc' found named
    have shut := (holds.directory root etc top former).2
    obtain ⟨file, stood, present, still⟩ :=
      accounts.childNamed? linked plain held kept shut entry
    obtain ⟨plainly, other⟩ := holds.files root etc top former name listed file stood
    have alters := accounts.altered _ _ _ present still
    refine ⟨?_, ?_⟩
    · rw [← plainly]
      simp only [Record.isSymlink, alters.type]
    · rw [id_of_inode? still]
      exact other

/-! ## What is read -/

/-- One step of root's way down, where it follows no link. -/
private theorem root_descend {go : Bool → Inode → String → Except FsFailure Inode}
    (other : name ≠ "." ∧ name ≠ "..") (rest : List String)
    (straight : ∀ child, volume.childNamed? directory name = some child →
      child.isSymlink = false)
    (leads : volume.descend rootUser path true go (name :: rest) directory = .ok inode) :
    ∃ child, volume.childNamed? directory name = some child ∧
      volume.descend rootUser path true go rest child = .ok inode := by
  unfold descend at leads
  simp only [permits_rootUser, Bool.not_true, Bool.false_eq_true, ↓reduceIte, other] at leads
  split at leads
  · cases leads
  split at leads
  · cases leads
  · rename_i child named
    simp only [straight child named, Bool.false_and, Bool.false_eq_true, ↓reduceIte] at leads
    exact ⟨child, named, leads⟩

/-- The path of a file of the system. -/
private theorem system_path (listed : name ∈ systemNames) :
    Path.isAbsolute ("/etc/" ++ name) = true ∧
      Path.componentsOf ("/etc/" ++ name) = ["etc", name] ∧ name ≠ "." ∧ name ≠ ".." := by
  simp only [systemNames, List.mem_cons, List.not_mem_nil, or_false] at listed
  rcases listed with rfl | rfl | rfl <;>
    exact ⟨by decide +kernel, by decide +kernel, by decide, by decide⟩

/-- Root gets to a file of the system without leaving its directory. -/
theorem HoldsSystem.ne_secret (holds : volume.HoldsSystem veil) (listed : name ∈ systemNames)
    (leads : volume.lookup ⟨rootUser, "/"⟩ true ("/etc/" ++ name) = .ok inode) :
    inode.id ≠ veil.secret := by
  obtain ⟨absolute, components, other⟩ := system_path listed
  have shallow : levelsAt 0 = 20 + 1 := rfl
  rw [lookup_eq, absolute] at leads
  simp only [Bool.true_or, ↓reduceIte, resolve, shallow, Nat.add_one_ne_zero] at leads
  obtain ⟨root, top, leads⟩ := bind_eq_ok.mp leads
  obtain ⟨again, same, leads⟩ := bind_eq_ok.mp leads
  rw [top] at same
  cases same
  rw [components, absolute, if_pos rfl] at leads
  have held := inode?_of_inode top
  obtain ⟨etc, inner, leads⟩ := root_descend ⟨by decide, by decide⟩ _
    (fun etc named => (holds.directory root etc held named).1) leads
  obtain ⟨file, named, leads⟩ := root_descend other _
    (fun file named => (holds.files root etc held inner name listed file named).1) leads
  cases leads
  exact (holds.files root etc held inner name listed inode named).2

end Volume

/-- So whoever asks reads there what is not kept from the user. -/
theorem Fs.readText_system (twins : veil.Twins machine twin)
    (holds : machine.volume.HoldsSystem veil) (listed : name ∈ systemNames) :
    Matched Eq veil.Twins (readText ("/etc/" ++ name) ⟨rootUser, "/"⟩ machine)
      (readText ("/etc/" ++ name) ⟨rootUser, "/"⟩ twin) := by
  have leads := twins.beside.lookup ⟨rootUser, "/"⟩ true ("/etc/" ++ name)
  unfold readText
  rw [run_bind, run_bind, lookup_run, lookup_run]
  cases found : machine.volume.lookup ⟨rootUser, "/"⟩ true ("/etc/" ++ name) with
  | error failure =>
    rw [found] at leads
    generalize twin.volume.lookup ⟨rootUser, "/"⟩ true ("/etc/" ++ name) = second at leads
    cases leads
    exact ⟨.error failure, twins.record rootUser failure⟩
  | ok inode =>
    rw [found] at leads
    generalize twin.volume.lookup ⟨rootUser, "/"⟩ true ("/etc/" ++ name) = second at leads
    cases leads with
    | ok alike =>
      rw [alike.eq_of_ne (holds.ne_secret listed found)]
      dsimp only
      cases inode.payload with
      | directory entries => exact ⟨.error _, twins⟩
      | symlink target => exact ⟨.error _, twins⟩
      | file content =>
        have itself : veil.Alike inode inode := .same
        exact ((demand_alongside (veil.keeps _) itself .read _ "read").bind fun _ _ _ => .pure rfl)
          machine twin twins

end PocketShell
