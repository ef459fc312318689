import PocketShell.Proofs.Fs.Runs

/-! Where paths lead. However a path turns by way of dots, links and the working directory, it only
leads to inodes that the user could also have walked to from the root, directory by directory; the
canonical path of the inode is that walk. -/
namespace PocketShell

variable {volume : Volume} {machine : Machine} {actor : Actor} {inode directory ancestor : Inode}
  {user path : String} {follow : Bool} {trail : List Inode}

namespace Volume

/-- The directories on the chain of parents of an inode. -/
inductive Ancestor (volume : Volume) : Inode → Inode → Prop
  | parent {inode directory : Inode} (up : inode.parent = some directory.id)
      (held : volume.inode? directory.id = some directory) : Ancestor volume inode directory
  | beyond {inode directory ancestor : Inode} (up : inode.parent = some directory.id)
      (held : volume.inode? directory.id = some directory)
      (further : Ancestor volume directory ancestor) : Ancestor volume inode ancestor

/-- A route comes by way of the parent. -/
private theorem Route.via_parent (linked : volume.Linked) (route : volume.Route user trail inode)
    (up : inode.parent = some directory.id)
    (held : volume.inode? directory.id = some directory) :
    ∃ shorter, trail = directory :: shorter ∧ volume.Route user shorter directory := by
  cases route with
  | root found =>
    obtain ⟨root, same, -, none⟩ := linked.root
    rw [found] at same
    cases same
    rw [none] at up
    cases up
  | entry above search listed found =>
    have named := linked.parent_of_lists (above.lists listed) found
    rw [up] at named
    rw [Option.some.inj named, above.held] at held
    cases held
    exact ⟨_, rfl, above⟩

/-- A route enters every directory on the chain of parents. -/
theorem Ancestor.mem_trail (linked : volume.Linked)
    (above : volume.Ancestor inode ancestor) (route : volume.Route user trail inode) :
    ancestor ∈ trail := by
  induction above generalizing trail with
  | parent up held =>
    obtain ⟨shorter, rfl, -⟩ := route.via_parent linked up held
    exact List.mem_cons_self
  | beyond up held further ih =>
    obtain ⟨shorter, rfl, upper⟩ := route.via_parent linked up held
    exact List.mem_cons_of_mem _ (ih upper)

end Volume

/-- Whatever a path leads a user to, the user may search every directory above it, and its own path
leads the user there as well. -/
theorem lookup_confined (reachable : Reachable Snapshot.Plain machine)
    (leads : machine.volume.lookup actor follow path = .ok inode) :
    (∀ ancestor, machine.volume.Ancestor inode ancestor →
      ancestor.permits actor.user .execute = true) ∧
    machine.volume.resolve actor.user false 0 none (machine.volume.pathOf inode.id) =
      .ok inode := by
  have sound := reachable.sound Snapshot.plain_closed
  obtain ⟨trail, route⟩ := sound.linked.route_of_lookup leads
  constructor
  · intro ancestor above
    exact route.search_of_mem (above.mem_trail sound.linked route)
  · exact route.resolve_pathOf sound.linked sound.kept.numbered sound.kept.proper

/-- A path that goes up and down again leads where a plain one does. -/
theorem confined_below_root : ∃ inode,
    sharedMachine.volume.lookup ⟨"guest", "/tmp"⟩ true "../tmp/." = .ok inode ∧
      inode.id = inodeId 1 ∧ (∀ ancestor, sharedMachine.volume.Ancestor inode ancestor →
        ancestor.permits "guest" .execute = true) ∧
      sharedMachine.volume.resolve "guest" false 0 none
        (sharedMachine.volume.pathOf inode.id) = .ok inode := by
  refine ⟨_, rfl, rfl, ?_⟩
  exact lookup_confined (sharedMachine_reachable _) (rfl : sharedMachine.volume.lookup
    ⟨"guest", "/tmp"⟩ true "../tmp/." = _)

end PocketShell
