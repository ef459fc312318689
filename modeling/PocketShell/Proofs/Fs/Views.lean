import Mathlib.Logic.Relation
import PocketShell.Proofs.Fs.Runs

/-! Three ways to see the tree of a volume: the path of an inode, which is read off its parents on
the way up; the way down along the names in a path; and the walk over all entries. They show one
tree: every inode is met once, under the one path that leads to it. -/
namespace PocketShell

open Volume

variable {machine : Machine} {volume : Volume} {inode directory : Inode} {first second id : String}
  {trail : List Inode} {user name : String} {names : List String}

/-- One more name makes the path of an entry. -/
theorem Path.child_toText (components : ∀ name ∈ names, Path.IsComponent name) :
    Path.child (Path.toText ⟨true, names⟩) name = Path.toText ⟨true, names ++ [name]⟩ := by
  cases names with
  | nil => simp [Path.child, Path.toText]
  | cons head rest =>
    have below : Path.toText ⟨true, head :: rest⟩ ≠ "/" := by
      intro top
      have parts := Path.componentsOf_toText components
      rw [top, show Path.componentsOf "/" = [] by decide] at parts
      cases parts
    rw [Path.child, if_neg below]
    simp only [Path.toText, ↓reduceIte]
    rw [String.intercalate_append_of_ne_nil (by simp) (by simp)]
    simp [String.append_assoc]

namespace Volume

/-- The path of an entry is that of its directory and its name. -/
theorem Route.child_pathOf (linked : volume.Linked) (numbered : volume.Numbered)
    (proper : volume.Proper) (above : volume.Route rootUser trail directory)
    (entered : volume.Route rootUser (directory :: trail) inode) :
    Path.child (volume.pathOf directory.id) inode.name = volume.pathOf inode.id := by
  rw [above.pathOf_eq linked numbered, entered.pathOf_eq linked numbered, routeNames,
    List.reverse_cons]
  refine Path.child_toText fun name member => ?_
  exact above.isComponent linked proper name (List.mem_reverse.mp member)

/-- Of two inodes above a third one lies above the other. -/
private theorem below_total (linked : volume.Linked) (under : volume.Below first id)
    (also : volume.Below second id) : volume.Below first second ∨ volume.Below second first := by
  have upward : Relator.RightUnique (Function.swap volume.Lists) :=
    fun _ _ _ listed again => linked.lists_unique listed again
  rcases Relation.ReflTransGen.total_of_right_unique upward
    (Relation.reflTransGen_swap.mpr under) (Relation.reflTransGen_swap.mpr also) with down | down
  · exact .inr (Relation.reflTransGen_swap.mp down)
  · exact .inl (Relation.reflTransGen_swap.mp down)

/-- No entry of a directory lies above it. -/
theorem Route.not_below_entry (linked : volume.Linked)
    (route : volume.Route user trail directory) (listed : id ∈ directory.children) :
    ¬ volume.Below id directory.id := by
  obtain ⟨entry, found, up⟩ := (linked.lists_iff _ _).mp (route.lists listed)
  have entered : volume.Route rootUser (directory :: trail) entry :=
    .entry route.as_root (by simp [Record.permits]) listed found
  rw [← id_of_inode? found]
  exact entered.not_below_parent linked up

/-- What lies below one entry of a directory lies below no other. -/
theorem Route.entry_unique (linked : volume.Linked)
    (route : volume.Route user trail directory) (one : first ∈ directory.children)
    (other : second ∈ directory.children) (under : volume.Below first id)
    (also : volume.Below second id) : first = second := by
  have apart : ∀ {upper lower : String}, upper ∈ directory.children → lower ∈ directory.children →
      volume.Below upper lower → upper = lower := by
    intro upper lower above listed below
    rcases below.cases_tail with same | ⟨holder, down, holds⟩
    · exact same.symm
    · rw [linked.lists_unique holds (route.lists listed)] at down
      exact absurd down (route.not_below_entry linked above)
  rcases below_total linked under also with below | below
  · exact apart one other below
  · exact (apart other one below).symm

/-! ## The walk -/

/-- No row comes after one that lies below it, so rows differ and directories come before what is in
them. -/
def Descends (volume : Volume) (rows : List (String × Inode)) : Prop :=
  rows.Pairwise fun earlier later => ¬ volume.Below later.2.id earlier.2.id

/-- The row shows an inode of the volume under its path. -/
def Shows (volume : Volume) (row : String × Inode) : Prop :=
  volume.inode? row.2.id = some row.2 ∧ row.1 = volume.pathOf row.2.id

/-- By induction on the levels, as the walk goes down; the route bounds them. -/
theorem walkWithin_descends (linked : volume.Linked) (numbered : volume.Numbered)
    (proper : volume.Proper) {levels : Nat} (route : volume.Route rootUser trail inode)
    (room : volume.inodes.length ≤ trail.length + levels) :
    ∃ rows, volume.walkWithin levels (volume.pathOf inode.id) inode = .ok rows ∧
      volume.Descends rows ∧ ∀ row ∈ rows, volume.Shows row ∧ volume.Below inode.id row.2.id := by
  induction levels generalizing trail inode with
  | zero => exact absurd (route.length_lt linked) (by omega)
  | succ levels ih =>
    have each : ∀ id, ∃ rows, id ∈ inode.children →
        (do let child ← volume.inode id
            volume.walkWithin levels (Path.child (volume.pathOf inode.id) child.name) child) =
          .ok rows ∧
        volume.Descends rows ∧ ∀ row ∈ rows, volume.Shows row ∧ volume.Below id row.2.id := by
      intro id
      by_cases listed : id ∈ inode.children
      · obtain ⟨child, found, -⟩ := (linked.lists_iff _ _).mp (route.lists listed)
        have entered : volume.Route rootUser (inode :: trail) child :=
          .entry route (by simp [Record.permits]) listed found
        obtain ⟨rows, ran, descends, shown⟩ :=
          ih entered (by simp only [List.length_cons]; omega)
        rw [← route.child_pathOf linked numbered proper entered] at ran
        rw [id_of_inode? found] at shown
        exact ⟨rows, fun _ => ⟨by rw [inode_of_inode? found]; exact ran, descends, shown⟩⟩
      · exact ⟨[], fun impossible => absurd impossible listed⟩
    choose rowsOf spec using each
    refine ⟨(volume.pathOf inode.id, inode) :: inode.children.flatMap rowsOf, ?_, ?_, ?_⟩
    · simp only [walkWithin]
      rw [mapM_ok_of_forall fun id listed => (spec id listed).1, List.flatMap_def]
      rfl
    · refine List.pairwise_cons.mpr ⟨fun row member => ?_, List.pairwise_flatMap.mpr ⟨?_, ?_⟩⟩
      · obtain ⟨id, listed, inside⟩ := List.mem_flatMap.mp member
        have under := ((spec id listed).2.2 row inside).2
        exact fun above => route.not_below_entry linked listed (under.trans above)
      · exact fun id listed => (spec id listed).2.1
      · refine (linked.once _ _ route.held).imp_of_mem ?_
        intro one other here there differ earlier before later after above
        have under := ((spec one here).2.2 earlier before).2
        have also := ((spec other there).2.2 later after).2.trans above
        exact differ (route.entry_unique linked here there under also)
    · intro row member
      rcases List.mem_cons.mp member with rfl | further
      · exact ⟨⟨route.held, rfl⟩, .refl⟩
      · obtain ⟨id, listed, inside⟩ := List.mem_flatMap.mp further
        obtain ⟨shown, below⟩ := (spec id listed).2.2 row inside
        exact ⟨shown, .head (route.lists listed) below⟩

/-- The walk from the root shows every inode of a rooted volume once. -/
theorem Rooted.walk_shows (rooted : volume.Rooted) (numbered : volume.Numbered)
    (proper : volume.Proper) :
    ∃ root rows, volume.root = .ok root ∧ volume.walk root = .ok rows ∧
      (rows.map Prod.snd).Perm volume.inodes ∧ (∀ row ∈ rows, volume.Shows row) ∧
      volume.Descends rows := by
  obtain ⟨root, top, -⟩ := rooted.linked.root
  obtain ⟨rows, ran, descends, shown⟩ := walkWithin_descends rooted.linked numbered proper
    (.root top) (by simp : volume.inodes.length ≤ [].length + volume.inodes.length)
  have start : volume.Route rootUser [] root := .root top
  obtain ⟨others, again, nodes⟩ := start.walk rooted.linked
  rw [show volume.walk root = .ok rows from ran] at again
  cases again
  have once : (rows.map Prod.snd).Nodup := by
    refine List.pairwise_map.mpr (descends.imp fun apart same => apart ?_)
    rw [same]
    exact .refl
  have whole : ∀ inode, inode ∈ rows.map Prod.snd ↔ inode ∈ volume.inodes := by
    intro inode
    constructor
    · intro member
      obtain ⟨row, inside, rfl⟩ := List.mem_map.mp member
      exact mem_of_inode? (shown row inside).1.1
    · intro member
      have found := rooted.linked.keyed.inode?_of_mem member
      have below := rooted.reached _ _ found
      rw [← id_of_inode? top] at below
      obtain ⟨path, inside⟩ := (nodes inode).mpr ⟨found, below⟩
      exact List.mem_map.mpr ⟨(path, inode), inside, rfl⟩
  have distinct : volume.inodes.Nodup := List.Nodup.of_map _ rooted.linked.keyed
  exact ⟨root, rows, root_of_inode? top, ran, (List.perm_ext_iff_of_nodup once distinct).mpr whole,
    fun row member => (shown row member).1, descends⟩

end Volume

/-- Every inode has an absolute path of its own, and that path leads root to it; the walk from the
root shows every inode once, under its path, and none before a directory that it lies in. -/
theorem views_agree (reachable : Reachable Snapshot.Plain machine) :
    (∀ inode ∈ machine.volume.inodes,
      machine.volume.pathOf inode.id ≠ "" ∧
      Path.isAbsolute (machine.volume.pathOf inode.id) = true ∧
      (∀ other ∈ machine.volume.inodes,
        machine.volume.pathOf other.id = machine.volume.pathOf inode.id → other = inode) ∧
      machine.volume.resolve rootUser false 0 none (machine.volume.pathOf inode.id) = .ok inode) ∧
    ∃ root rows, machine.volume.root = .ok root ∧ machine.volume.walk root = .ok rows ∧
      (rows.map Prod.snd).Perm machine.volume.inodes ∧
      (∀ row ∈ rows, row.1 = machine.volume.pathOf row.2.id) ∧ machine.volume.Descends rows := by
  have sound := reachable.sound Snapshot.plain_closed
  obtain ⟨keyed, numbered, proper⟩ := sound.kept
  have rooted := sound.rooted fun _ plain => plain.numbered.traceable
  have leads : ∀ inode ∈ machine.volume.inodes,
      ∃ trail, machine.volume.Route rootUser trail inode := by
    intro inode member
    have found := rooted.linked.keyed.inode?_of_mem member
    exact route_of_below (rooted.reached _ _ found) found
  constructor
  · intro inode member
    obtain ⟨trail, route⟩ := leads inode member
    have found := route.resolve_pathOf rooted.linked numbered proper
    have absolute : Path.isAbsolute (machine.volume.pathOf inode.id) = true := by
      rw [route.pathOf_eq rooted.linked numbered]
      exact Path.isAbsolute_toText
    refine ⟨?_, absolute, ?_, found⟩
    · intro empty
      rw [empty] at absolute
      exact absurd absolute (by decide)
    · intro other there same
      obtain ⟨way, again⟩ := leads other there
      have reached := again.resolve_pathOf rooted.linked numbered proper
      rw [same, found] at reached
      exact (Except.ok.inj reached).symm
  · obtain ⟨root, rows, top, ran, whole, shown, descends⟩ := rooted.walk_shows numbered proper
    exact ⟨root, rows, top, ran, whole, fun row member => (shown row member).2, descends⟩

/-- A machine on which a user has made a link to the root. -/
def climbingMachine : Machine := (sharedMachine.serve ⟨"guest", "/"⟩ (.ln "/" "/tmp/up")).2

/-- The link has a path of its own, and the walk passes it once. -/
theorem views_of_link : Reachable Snapshot.Plain climbingMachine ∧
    (∀ inode ∈ climbingMachine.volume.inodes,
      climbingMachine.volume.resolve rootUser false 0 none
        (climbingMachine.volume.pathOf inode.id) = .ok inode) ∧
    ∃ root rows, climbingMachine.volume.root = .ok root ∧
      climbingMachine.volume.walk root = .ok rows ∧
      rows.map Prod.fst = ["/", "/tmp", "/tmp/up"] ∧
      (rows.map Prod.snd).Perm climbingMachine.volume.inodes := by
  have reachable : Reachable Snapshot.Plain climbingMachine := (sharedMachine_reachable _).serve _ _
  obtain ⟨each, root, rows, top, ran, whole, -⟩ := views_agree reachable
  refine ⟨reachable, fun inode member => (each inode member).2.2.2, root, rows, top, ran, ?_, whole⟩
  cases top
  cases ran
  rfl

end PocketShell
