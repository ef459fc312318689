import PocketShell.Proofs.Fs.Runs

/-! What a user can change. The table before a request of a user's and the table after it are compared
inode by inode: whatever differs, the user had the permission that it takes, on the very inode or on
the directory that held it. This does not depend on how the change came about, through links, by
copying over a file or by removing a whole subtree. -/
namespace PocketShell

open Volume

variable {machine : Machine} {actor : Actor} {request : Request} {before after : Volume}
  {user : String} {failure : FsFailure}

/-- The inode hung in a directory that the user could write to and search and, where that directory
is sticky, one of the two was the user's. -/
def HungFree (user : String) (before : Volume) (entry : Inode) : Prop :=
  ∃ directory, before.inode? directory.id = some directory ∧ entry.id ∈ directory.children ∧
    entry.parent = some directory.id ∧ directory.permits user .write = true ∧
    directory.permits user .execute = true ∧
    (directory.mode.sticky = true → user = entry.owner ∨ user = directory.owner)

/-- Every difference between two volumes is one that the user was permitted to make. -/
structure Permitted (user : String) (before after : Volume) : Prop where
  content : ∀ id old new, before.inode? id = some old → after.inode? id = some new →
    old.isFile = true → new.payload ≠ old.payload ∨ new.size ≠ old.size →
    old.permits user .write = true
  entries : ∀ id old new, before.inode? id = some old → after.inode? id = some new →
    old.isDirectory = true → new.payload ≠ old.payload → old.permits user .write = true
  mode : ∀ id old new, before.inode? id = some old → after.inode? id = some new →
    new.mode ≠ old.mode → user = old.owner
  owners : ∀ id old new, before.inode? id = some old → after.inode? id = some new →
    new.owner = old.owner ∧ new.group = old.group
  removed : ∀ id old, before.inode? id = some old → after.inode? id = none →
    HungFree user before old
  moved : ∀ id old new, before.inode? id = some old → after.inode? id = some new →
    new.name ≠ old.name ∨ new.parent ≠ old.parent → HungFree user before old
  created : ∀ id new, before.inode? id = none → after.inode? id = some new → new.owner = user

/-- Only root is let through without the permissions. -/
private theorem hungFree_of_released {entry : Inode} (plain : user ≠ rootUser)
    (released : before.Released user entry) : HungFree user before entry := by
  obtain ⟨directory, held, listed, up, may⟩ := released
  rcases may with root | ⟨writes, search, sticky⟩
  · exact absurd root plain
  · exact ⟨directory, held, listed, up, writes, search, sticky⟩

/-- What is within the rights of a user other than root is permitted in every part. -/
private theorem permitted_of_accounts (plain : user ≠ rootUser)
    (accounts : Accounts user before after) : Permitted user before after where
  content := by
    intro id old new held found _ differs
    rcases (accounts.altered id old new held found).content with ⟨payload, size⟩ | writes
    · rcases differs with other | other
      · exact absurd payload other
      · exact absurd size other
    · exact writes
  entries := by
    intro id old new held found _ differs
    rcases (accounts.altered id old new held found).content with ⟨payload, -⟩ | writes
    · exact absurd payload differs
    · exact writes
  mode := by
    intro id old new held found differs
    rcases (accounts.altered id old new held found).mode with same | root | owner
    · exact absurd same differs
    · exact absurd root plain
    · exact owner
  owners := by
    intro id old new held found
    rcases (accounts.altered id old new held found).owners with same | root
    · exact same
    · exact absurd root plain
  removed := by
    intro id old held gone
    exact hungFree_of_released plain (accounts.removed id old held gone)
  moved := by
    intro id old new held found differs
    rcases (accounts.altered id old new held found).place with ⟨name, parent⟩ | released
    · rcases differs with other | other
      · exact absurd name other
      · exact absurd parent other
    · exact hungFree_of_released plain released
  created := by
    intro id new fresh found
    exact (accounts.created id new fresh found).1

/-- Whatever a request of a user other than root changes, the user was permitted to change. -/
theorem serve_permitted (reachable : Reachable Snapshot.Keyed machine) (actor : Actor)
    (request : Request) (plain : actor.user ≠ rootUser) :
    Permitted actor.user machine.volume (machine.serve actor request).2.volume := by
  have sound := reachable.sound Snapshot.keyed_closed
  have step := machine.serve_step sound.linked sound.fresh actor request
  exact permitted_of_accounts plain (step.edit.accounts sound.linked)

/-- A user makes a file in a directory that is open to all. -/
theorem permitted_write :
    (sharedMachine.serve ⟨"guest", "/"⟩ (.writeText "/tmp/x" "hi")).2.volume.inodes.length = 3 ∧
      Permitted "guest" sharedMachine.volume
        (sharedMachine.serve ⟨"guest", "/"⟩ (.writeText "/tmp/x" "hi")).2.volume :=
  ⟨rfl, serve_permitted (sharedMachine_reachable _) ⟨"guest", "/"⟩ _ (by decide)⟩

/-! ## Refused requests

What a refused request leaves behind is nothing, be it refused at the first check or at the last,
with the exception of a write that has to make its file first: the file or the new time of a link
then stays although the write is refused. -/

/-- A refused request leaves every inode, the root and the mask as they were exactly if it is not a
write that strands. -/
theorem refused_unchanged_iff (reachable : Reachable Snapshot.Keyed machine) (actor : Actor)
    (request : Request) (refused : (machine.serve actor request).1 = .error failure)
    (refuses : failure.Refuses) :
    (machine.serve actor request).2.volume = machine.volume ↔
      ¬ request.Strands machine actor := by
  have sound := reachable.sound Snapshot.keyed_closed
  constructor
  · intro same strands
    obtain ⟨_, -, -, changed⟩ := machine.serve_stranded sound.fresh strands
    exact changed same
  · intro free
    rcases machine.serve_failed sound.linked sound.fresh refused with
      ⟨-, same⟩ | ⟨-, strands⟩ | ⟨endless, -⟩
    · exact same
    · exact absurd strands free
    · subst endless
      cases refuses

/-- A directory that is there already is not made again, and nothing changes. -/
theorem unchanged_of_taken_name :
    (sharedMachine.serve ⟨"guest", "/"⟩ (.mkdir "/tmp" none)).1 = .error (.refused .fileExists) ∧
      (sharedMachine.serve ⟨"guest", "/"⟩ (.mkdir "/tmp" none)).2.volume =
        sharedMachine.volume := by
  have refused : (sharedMachine.serve ⟨"guest", "/"⟩ (.mkdir "/tmp" none)).1 =
      .error (.refused .fileExists) := rfl
  have refuses : FsFailure.Refuses (.refused .fileExists) := rfl
  refine ⟨refused, ?_⟩
  exact (refused_unchanged_iff (sharedMachine_reachable _) _ _ refused refuses).mpr
    fun strands => strands

/-- Where the mask takes the owner's write permission away, a file that is written to for the first
time is made, and the write to it is refused. -/
theorem stranded_file : Reachable Snapshot.Keyed (sharedMachine.setUmask "222").2 ∧
    ((sharedMachine.setUmask "222").2.serve ⟨"guest", "/"⟩ (.writeText "/tmp/x" "hi")).1 =
      .error (.denied "/tmp/x" "write") ∧
    ((sharedMachine.setUmask "222").2.serve ⟨"guest", "/"⟩ (.writeText "/tmp/x" "hi")).2.volume ≠
      (sharedMachine.setUmask "222").2.volume := by
  refine ⟨(sharedMachine_reachable _).setUmask "222", rfl, fun same => ?_⟩
  have inodes := congrArg (fun volume => volume.inodes.length) same
  exact absurd inodes (by decide +kernel)

end PocketShell
