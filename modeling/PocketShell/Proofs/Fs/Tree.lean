import Mathlib.Data.List.Nodup
import Mathlib.Data.List.Perm.Subperm
import Mathlib.Logic.Relation
import PocketShell.Proofs.Fs.Table

/-! The shape of a filesystem. Directories list their entries and entries name their directory; a
volume is linked when the two agree. Nothing in that keeps a directory from lying below itself, so
a rooted tree is a linked volume whose inodes are all reached from the root. -/
namespace PocketShell.Volume

variable {volume : Volume} {inode other directory : Inode} {id top holder entry : String}
  {user : String} {trail : List Inode}

/-- An inode with entries is a directory. -/
theorem isDirectory_of_mem_children (listed : entry ∈ directory.children) :
    directory.isDirectory = true := by
  cases payload : directory.payload with
  | directory entries => simp [Record.isDirectory, Record.type, Payload.type, payload]
  | file content => simp [Record.children, payload] at listed
  | symlink target => simp [Record.children, payload] at listed

/-- The directory with one id lists the entry with the other. -/
def Lists (volume : Volume) (holder entry : String) : Prop :=
  ∃ directory, volume.inode? holder = some directory ∧ entry ∈ directory.children

/-- The second id is the first or hangs somewhere below it. -/
def Below (volume : Volume) (top id : String) : Prop :=
  Relation.ReflTransGen volume.Lists top id

/-- Directories list exactly the inodes that name them as their parent, each once and under names
that differ; only the root has no parent. -/
structure Linked (volume : Volume) : Prop where
  keyed : volume.Keyed
  root : ∃ root, volume.inode? volume.rootId = some root ∧ root.isDirectory = true ∧
    root.parent = none
  lists_iff : ∀ holder entry, volume.Lists holder entry ↔
    ∃ inode, volume.inode? entry = some inode ∧ inode.parent = some holder
  orphan : ∀ id inode, volume.inode? id = some inode → inode.parent = none → id = volume.rootId
  once : ∀ id inode, volume.inode? id = some inode → inode.children.Nodup
  names : ∀ a b first second, volume.inode? a = some first → volume.inode? b = some second →
    first.parent = second.parent → first.name = second.name → a = b
  sized : ∀ id inode content, volume.inode? id = some inode → inode.payload = .file content →
    inode.size = byteSize content

/-- A linked volume all of which is reached from the root. -/
structure Rooted (volume : Volume) : Prop where
  linked : volume.Linked
  reached : ∀ id inode, volume.inode? id = some inode → volume.Below volume.rootId id

/-- The root is there, is a directory, has no parent and is listed nowhere; every entry of a
directory exists; every other inode is listed exactly once, by exactly one directory, which is its
parent; names within a directory differ; every inode is reached from the root; and the size of a
file is the number of bytes of its content. -/
structure RootedTree (volume : Volume) : Prop where
  keyed : volume.Keyed
  root_directory : ∃ root ∈ volume.inodes, root.id = volume.rootId ∧ root.isDirectory = true ∧
    root.parent = none
  root_unlisted : ∀ directory ∈ volume.inodes, volume.rootId ∉ directory.children
  entries_exist : ∀ directory ∈ volume.inodes, ∀ entry ∈ directory.children,
    ∃ inode ∈ volume.inodes, inode.id = entry
  listed_once : ∀ inode ∈ volume.inodes, inode.id ≠ volume.rootId →
    ∃ directory ∈ volume.inodes, directory.children.count inode.id = 1 ∧
      inode.parent = some directory.id ∧
      ∀ other ∈ volume.inodes, inode.id ∈ other.children → other = directory
  names_differ : ∀ directory ∈ volume.inodes, ∀ first ∈ volume.inodes, ∀ second ∈ volume.inodes,
    first.id ∈ directory.children → second.id ∈ directory.children →
    first.name = second.name → first = second
  reached : ∀ inode ∈ volume.inodes, volume.Below volume.rootId inode.id
  sizes : ∀ inode ∈ volume.inodes, ∀ content, inode.payload = .file content →
    inode.size = byteSize content

namespace Linked

theorem parent_of_lists (linked : volume.Linked) (listed : volume.Lists holder entry)
    (found : volume.inode? entry = some inode) : inode.parent = some holder := by
  obtain ⟨held, present, parent⟩ := (linked.lists_iff holder entry).mp listed
  rw [present] at found
  cases found
  exact parent

/-- No two directories list one entry. -/
theorem lists_unique (linked : volume.Linked) {first second : String}
    (listed : volume.Lists first entry) (again : volume.Lists second entry) : first = second := by
  obtain ⟨held, present, parent⟩ := (linked.lists_iff first entry).mp listed
  have same := linked.parent_of_lists again present
  rw [parent] at same
  exact Option.some.inj same

theorem root_unlisted (linked : volume.Linked) : ¬ volume.Lists holder volume.rootId := by
  intro listed
  obtain ⟨root, found, -, none⟩ := linked.root
  have parent := linked.parent_of_lists listed found
  rw [none] at parent
  cases parent

/-- Only the root lies above the root. -/
theorem eq_root_of_below (linked : volume.Linked) (below : volume.Below top volume.rootId) :
    top = volume.rootId := by
  cases below.cases_tail with
  | inl same => exact same.symm
  | inr last =>
    obtain ⟨holder, -, listed⟩ := last
    exact absurd listed linked.root_unlisted

/-- What hangs below an inode exists. -/
theorem held_of_below (linked : volume.Linked) (found : volume.inode? top = some inode)
    (below : volume.Below top id) : ∃ lower, volume.inode? id = some lower := by
  rcases below.cases_tail with same | ⟨holder, -, listed⟩
  · exact ⟨inode, same ▸ found⟩
  · obtain ⟨lower, present, -⟩ := (linked.lists_iff _ _).mp listed
    exact ⟨lower, present⟩

/-- Every inode but the root has a directory that lists it. -/
theorem holder_of_ne_root (linked : volume.Linked) (found : volume.inode? id = some inode)
    (differs : id ≠ volume.rootId) :
    ∃ directory, volume.inode? directory.id = some directory ∧
      inode.parent = some directory.id ∧ id ∈ directory.children := by
  cases parent : inode.parent with
  | none => exact absurd (linked.orphan id inode found parent) differs
  | some holder =>
    obtain ⟨directory, held, listed⟩ := (linked.lists_iff holder id).mpr ⟨inode, found, parent⟩
    have named := id_of_inode? held
    exact ⟨directory, inode?_self held, by rw [named], listed⟩

end Linked

/-- What the user reaches from the root by entering directories that may be searched, with the
directories entered, the nearest first. -/
inductive Route (volume : Volume) (user : String) : List Inode → Inode → Prop
  | root {root : Inode} (found : volume.inode? volume.rootId = some root) :
      Route volume user [] root
  | entry {trail : List Inode} {directory inode : Inode} {id : String}
      (above : Route volume user trail directory)
      (search : directory.permits user .execute = true) (listed : id ∈ directory.children)
      (found : volume.inode? id = some inode) : Route volume user (directory :: trail) inode

namespace Route

theorem held (route : volume.Route user trail inode) : volume.inode? inode.id = some inode := by
  cases route with
  | root found => exact inode?_self found
  | entry above search listed found => exact inode?_self found

theorem lists (above : volume.Route user trail directory) (listed : entry ∈ directory.children) :
    volume.Lists directory.id entry :=
  ⟨directory, above.held, listed⟩

/-- Whoever gets somewhere, root gets there too. -/
theorem as_root (route : volume.Route user trail inode) :
    volume.Route rootUser trail inode := by
  induction route with
  | root found => exact .root found
  | entry above search listed found ih =>
    exact .entry ih (by simp [Record.permits]) listed found

theorem below_root (route : volume.Route user trail inode) :
    volume.Below volume.rootId inode.id := by
  induction route with
  | root found =>
    rw [id_of_inode? found]
    exact .refl
  | entry above search listed found ih =>
    rw [id_of_inode? found]
    exact ih.tail (above.lists listed)

/-- The directories entered on a route are on routes themselves, each on a shorter one. -/
theorem of_mem (route : volume.Route user trail inode) (member : other ∈ trail) :
    ∃ shorter, volume.Route user shorter other ∧ shorter.length < trail.length := by
  induction route with
  | root found => cases member
  | entry above search listed found ih =>
    rcases List.mem_cons.mp member with rfl | further
    · exact ⟨_, above, by simp⟩
    · obtain ⟨shorter, route, less⟩ := ih further
      exact ⟨shorter, route, Nat.lt_succ_of_lt less⟩

/-- Every directory entered may be searched. -/
theorem search_of_mem (route : volume.Route user trail inode) (member : other ∈ trail) :
    other.permits user .execute = true := by
  induction route with
  | root found => cases member
  | entry above search listed found ih =>
    rcases List.mem_cons.mp member with rfl | further
    · exact search
    · exact ih further

/-- There is one route to an inode, whoever takes it. -/
theorem unique {someone : String} {way : List Inode} (linked : volume.Linked)
    (route : volume.Route user trail inode) (again : volume.Route someone way inode) :
    trail = way := by
  induction route generalizing way with
  | root found =>
    cases again with
    | root => rfl
    | entry above search listed held =>
      rw [id_of_inode? held |>.symm.trans (id_of_inode? found)] at listed
      exact absurd (above.lists listed) linked.root_unlisted
  | entry above search listed found ih =>
    cases again with
    | root held =>
      rw [id_of_inode? found |>.symm.trans (id_of_inode? held)] at listed
      exact absurd (above.lists listed) linked.root_unlisted
    | entry again search' listed' held =>
      rw [id_of_inode? held |>.symm.trans (id_of_inode? found)] at listed'
      have same := linked.lists_unique (above.lists listed) (again.lists listed')
      have held := above.held
      rw [same, again.held] at held
      cases held
      rw [ih again]

/-- No inode is met twice on the way to another. -/
theorem nodup (linked : volume.Linked) (route : volume.Route user trail inode) :
    ((inode :: trail).map (·.id)).Nodup := by
  induction route with
  | root found => simp
  | @entry trail directory inode id above search listed found ih =>
    rw [List.map_cons, List.nodup_cons]
    refine ⟨?_, ih⟩
    intro met
    obtain ⟨earlier, member, same⟩ := List.mem_map.mp met
    have route : volume.Route user (directory :: trail) inode := .entry above search listed found
    obtain ⟨shorter, reaches, less⟩ := route.of_mem member
    have held := reaches.held
    rw [same, route.held] at held
    cases held
    rw [route.unique linked reaches] at less
    exact Nat.lt_irrefl _ less

/-- A route is shorter than the table. -/
theorem length_lt (linked : volume.Linked) (route : volume.Route user trail inode) :
    trail.length < volume.inodes.length := by
  have within : (inode :: trail).map (·.id) ⊆ volume.inodes.map (·.id) := by
    intro id member
    obtain ⟨met, onRoute, rfl⟩ := List.mem_map.mp member
    rcases List.mem_cons.mp onRoute with rfl | further
    · exact List.mem_map_of_mem (mem_of_inode? route.held)
    · obtain ⟨shorter, reaches, -⟩ := route.of_mem further
      exact List.mem_map_of_mem (mem_of_inode? reaches.held)
  have bound := (List.Nodup.subperm (route.nodup linked) within).length_le
  exact Nat.lt_of_succ_le (by simpa using bound)

/-- Whatever the inode hangs below was met on the way to it. -/
theorem met_of_below (linked : volume.Linked) (route : volume.Route user trail inode)
    (below : volume.Below top inode.id) : ∃ met ∈ inode :: trail, met.id = top := by
  induction route with
  | root found =>
    rw [id_of_inode? found] at below
    exact ⟨_, List.mem_cons_self, (id_of_inode? found).trans (linked.eq_root_of_below below).symm⟩
  | entry above search listed found ih =>
    rcases Relation.ReflTransGen.cases_tail below with same | ⟨holder, upper, lists⟩
    · exact ⟨_, List.mem_cons_self, same⟩
    · rw [id_of_inode? found] at lists
      rw [linked.lists_unique lists (above.lists listed)] at upper
      obtain ⟨met, member, same⟩ := ih upper
      exact ⟨met, List.mem_cons_of_mem _ member, same⟩

end Route

/-- What hangs below the root is on a route. -/
theorem route_of_below (below : volume.Below volume.rootId id)
    (found : volume.inode? id = some inode) : ∃ trail, volume.Route rootUser trail inode := by
  induction below generalizing inode with
  | refl => exact ⟨[], .root found⟩
  | tail _ listed ih =>
    obtain ⟨directory, held, member⟩ := listed
    obtain ⟨trail, above⟩ := ih held
    exact ⟨directory :: trail, .entry above (by simp [Record.permits]) member found⟩

/-- The mask for new modes does not matter to the links. -/
theorem Linked.remask (linked : volume.Linked) (umask : Mode) :
    ({ volume with umask } : Volume).Linked :=
  ⟨linked.keyed, linked.root, linked.lists_iff, linked.orphan, linked.once, linked.names,
    linked.sized⟩

theorem Rooted.remask (rooted : volume.Rooted) (umask : Mode) :
    ({ volume with umask } : Volume).Rooted :=
  ⟨rooted.linked.remask umask, rooted.reached⟩

/-- A linked volume is a rooted tree when all of it hangs below the root. -/
theorem Rooted.rootedTree (rooted : volume.Rooted) : volume.RootedTree where
  keyed := rooted.linked.keyed
  root_directory := by
    obtain ⟨root, found, shape, parent⟩ := rooted.linked.root
    exact ⟨root, mem_of_inode? found, id_of_inode? found, shape, parent⟩
  root_unlisted := by
    intro directory member listed
    exact rooted.linked.root_unlisted ⟨directory, rooted.linked.keyed.inode?_of_mem member, listed⟩
  entries_exist := by
    intro directory member entry listed
    obtain ⟨inode, found, -⟩ := (rooted.linked.lists_iff _ _).mp
      ⟨directory, rooted.linked.keyed.inode?_of_mem member, listed⟩
    exact ⟨inode, mem_of_inode? found, id_of_inode? found⟩
  listed_once := by
    intro inode member differs
    have found := rooted.linked.keyed.inode?_of_mem member
    obtain ⟨directory, held, parent, listed⟩ := rooted.linked.holder_of_ne_root found differs
    refine ⟨directory, mem_of_inode? held,
      List.count_eq_one_of_mem (rooted.linked.once _ _ held) listed, parent, ?_⟩
    intro other present again
    have found := rooted.linked.keyed.inode?_of_mem present
    have same := rooted.linked.lists_unique ⟨other, found, again⟩ ⟨directory, held, listed⟩
    rw [same, held] at found
    exact (Option.some.inj found).symm
  names_differ := by
    intro directory member first here second there listed also same
    have held := rooted.linked.keyed.inode?_of_mem member
    have found := rooted.linked.keyed.inode?_of_mem here
    have present := rooted.linked.keyed.inode?_of_mem there
    have parents : first.parent = second.parent :=
      (rooted.linked.parent_of_lists ⟨directory, held, listed⟩ found).trans
        (rooted.linked.parent_of_lists ⟨directory, held, also⟩ present).symm
    have ids := rooted.linked.names _ _ first second found present parents same
    rw [ids, present] at found
    exact (Option.some.inj found).symm
  reached := fun inode member => rooted.reached _ inode (rooted.linked.keyed.inode?_of_mem member)
  sizes := fun inode member content shape =>
    rooted.linked.sized _ inode content (rooted.linked.keyed.inode?_of_mem member) shape

end PocketShell.Volume
