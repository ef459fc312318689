import PocketShell.Proofs.Fs.Tree
import PocketShell.Proofs.Outcomes

/-! Going up and down in a linked volume. The lineage of an inode is read off its parents and the
walk below it off the entries; both are bounded by the size of the table, which is enough because
a route is shorter than that. The way up stops at an empty id, so it is complete only where no
directory but the root has one. -/
namespace PocketShell.Volume

variable {volume : Volume} {inode other ancestor directory : Inode} {id entry name : String}
  {user path : String} {trail : List Inode}

/-- No directory but the root has the empty id. -/
def Traceable (volume : Volume) : Prop :=
  ∀ id directory, volume.inode? id = some directory → directory.isDirectory = true →
    id ≠ volume.rootId → id ≠ ""

/-- No inode has the empty id. -/
def Numbered (volume : Volume) : Prop :=
  ∀ id inode, volume.inode? id = some inode → id ≠ ""

theorem Numbered.traceable (numbered : volume.Numbered) : volume.Traceable :=
  fun id directory found _ _ => numbered id directory found

theorem above?_of_parent (parent : inode.parent = some directory.id)
    (held : volume.inode? directory.id = some directory) (named : directory.id ≠ "") :
    volume.above? inode = some directory := by
  simp [above?, parent, named, held]

theorem head_mem_climb (limit : Nat) : inode ∈ volume.climb limit inode := by
  cases limit with
  | zero => simp [climb]
  | succ limit =>
    simp only [climb]
    split <;> simp

private theorem climb_of_parent (limit : Nat) (parent : inode.parent = some directory.id)
    (held : volume.inode? directory.id = some directory) (named : directory.id ≠ "") :
    volume.climb (limit + 1) inode = inode :: volume.climb limit directory := by
  simp [climb, above?_of_parent parent held named]

/-- What is entered on a route lies above its end. -/
theorem Route.below_of_mem (route : volume.Route user trail inode)
    (member : ancestor ∈ inode :: trail) : volume.Below ancestor.id inode.id := by
  induction route with
  | root found =>
    rw [List.mem_singleton.mp member]
    exact .refl
  | entry above search listed found ih =>
    rcases List.mem_cons.mp member with rfl | further
    · exact .refl
    · rw [id_of_inode? found]
      exact (ih further).tail (above.lists listed)

/-- The way up meets a directory on the route if every one on the way there has an id. -/
theorem Route.mem_climb {limit : Nat} (linked : volume.Linked)
    (route : volume.Route user trail inode) (room : trail.length ≤ limit)
    (member : ancestor ∈ inode :: trail)
    (named : ∀ directory ∈ trail, volume.Below ancestor.id directory.id → directory.id ≠ "") :
    ancestor ∈ volume.climb limit inode := by
  induction route generalizing limit with
  | root found =>
    rw [List.mem_singleton.mp member]
    exact head_mem_climb limit
  | @entry trail directory inode id above search listed found ih =>
    rcases List.mem_cons.mp member with rfl | further
    · exact head_mem_climb limit
    · cases limit with
      | zero => simp at room
      | succ limit =>
        have parent := linked.parent_of_lists (above.lists listed) found
        rw [climb_of_parent limit parent above.held
          (named _ List.mem_cons_self (above.below_of_mem further))]
        refine List.mem_cons_of_mem _ (ih (by simpa using room) further ?_)
        exact fun other among => named other (List.mem_cons_of_mem _ among)

/-- So the test sees it. -/
theorem Route.isWithin_of_named (linked : volume.Linked) (route : volume.Route user trail inode)
    (below : volume.Below ancestor.id inode.id)
    (named : ∀ directory ∈ trail, volume.Below ancestor.id directory.id → directory.id ≠ "") :
    volume.isWithin inode ancestor = true := by
  obtain ⟨met, member, same⟩ := route.met_of_below linked below
  have climbed := route.mem_climb linked (Nat.le_of_lt (route.length_lt linked)) member
    (same ▸ named)
  exact List.any_eq_true.mpr ⟨met, climbed, by simpa using same⟩

/-- Every directory on a route is one. -/
theorem Route.isDirectory_of_mem (route : volume.Route user trail inode)
    (member : directory ∈ trail) : directory.isDirectory = true := by
  induction route with
  | root found => cases member
  | entry above search listed found ih =>
    rcases List.mem_cons.mp member with rfl | further
    · exact isDirectory_of_mem_children listed
    · exact ih further

/-- In a traceable volume the test sees every directory around an inode, the root too unless its
id is empty. -/
theorem isWithin_of_below (linked : volume.Linked) (traceable : volume.Traceable)
    (route : volume.Route user trail inode) (below : volume.Below ancestor.id inode.id)
    (seen : ancestor.id = volume.rootId → volume.rootId ≠ "") :
    volume.isWithin inode ancestor = true := by
  refine route.isWithin_of_named linked below fun directory member above => ?_
  by_cases atRoot : directory.id = volume.rootId
  · rw [atRoot] at above ⊢
    exact seen (linked.eq_root_of_below above)
  · obtain ⟨_, reached, -⟩ := route.of_mem member
    exact traceable _ _ reached.held (route.isDirectory_of_mem member) atRoot

/-- Where every directory on it has an id, the route is the way up from the inode. -/
theorem Route.climb_eq {limit : Nat} (linked : volume.Linked)
    (route : volume.Route user trail inode) (named : ∀ directory ∈ trail, directory.id ≠ "")
    (room : trail.length ≤ limit) : volume.climb limit inode = inode :: trail := by
  induction route generalizing limit with
  | root found =>
    obtain ⟨root, held, -, parent⟩ := linked.root
    rw [found] at held
    cases held
    cases limit <;> simp [climb, above?, parent]
  | entry above search listed found ih =>
    cases limit with
    | zero => simp at room
    | succ limit =>
      have parent := linked.parent_of_lists (above.lists listed) found
      rw [climb_of_parent limit parent above.held (named _ List.mem_cons_self),
        ih (fun other member => named other (List.mem_cons_of_mem _ member)) (by simpa using room)]

private theorem Route.ne_root (linked : volume.Linked)
    (route : volume.Route user (directory :: trail) inode) : inode.id ≠ volume.rootId := by
  intro atRoot
  cases route with
  | entry above search listed found =>
    have lists := above.lists listed
    rw [← id_of_inode? found, atRoot] at lists
    exact linked.root_unlisted lists

/-- Where a directory on the route has no id, the way up ends below it. -/
private theorem Route.root_not_climbed {limit : Nat} (linked : volume.Linked)
    (route : volume.Route user trail inode) (unnamed : ∃ directory ∈ trail, directory.id = "") :
    ∀ met ∈ volume.climb limit inode, met.id ≠ volume.rootId := by
  induction route generalizing limit with
  | root found => simp at unnamed
  | @entry trail directory inode id above search listed found ih =>
    have inner := Route.ne_root linked (.entry above search listed found)
    have parent := linked.parent_of_lists (above.lists listed) found
    cases limit with
    | zero => simpa [climb] using inner
    | succ limit =>
      by_cases none : directory.id = ""
      · simpa [climb, above?, parent, none] using inner
      · rw [climb_of_parent limit parent above.held none]
        intro met member
        rcases List.mem_cons.mp member with rfl | further
        · exact inner
        · obtain ⟨other, among, empty⟩ := unnamed
          rcases List.mem_cons.mp among with rfl | beyond
          · exact absurd empty none
          · exact ih ⟨other, beyond, empty⟩ met further

/-- The names on a route, the nearest first; the root has none. -/
def routeNames : List Inode → Inode → List String
  | [], _ => []
  | directory :: trail, inode => inode.name :: routeNames trail directory

private theorem Route.takeWhile_names (linked : volume.Linked)
    (route : volume.Route user trail inode) :
    ((inode :: trail).takeWhile (·.id != volume.rootId)).map (·.name) =
      routeNames trail inode := by
  induction route with
  | root found => simp [id_of_inode? found, routeNames]
  | entry above search listed found ih =>
    have differs := Route.ne_root linked (.entry above search listed found)
    rw [List.takeWhile_cons_of_pos (by simpa using differs), List.map_cons, ih, routeNames]

/-- The path of an inode spells the names on its route, if every directory there has an id. -/
theorem Route.pathOf_of_named (linked : volume.Linked) (route : volume.Route user trail inode)
    (named : ∀ directory ∈ trail, directory.id ≠ "") :
    volume.pathOf inode.id = Path.toText ⟨true, (routeNames trail inode).reverse⟩ := by
  obtain ⟨met, member, atRoot⟩ := route.met_of_below linked route.below_root
  have reaches : ((inode :: trail).any (·.id == volume.rootId)) = true :=
    List.any_eq_true.mpr ⟨met, member, by simpa using atRoot⟩
  have lineage : volume.lineage inode = inode :: trail :=
    route.climb_eq linked named (Nat.le_of_lt (route.length_lt linked))
  simp only [pathOf, route.held, lineage, reaches, ↓reduceIte, route.takeWhile_names linked]

/-- Otherwise it has none. -/
theorem Route.pathOf_of_unnamed (linked : volume.Linked) (route : volume.Route user trail inode)
    (unnamed : ∃ directory ∈ trail, directory.id = "") : volume.pathOf inode.id = "" := by
  have misses : ((volume.lineage inode).any (·.id == volume.rootId)) = false := by
    rw [List.any_eq_false]
    intro met member
    simpa using route.root_not_climbed linked unnamed met member
  simp only [pathOf, route.held, misses, Bool.false_eq_true, ↓reduceIte]

theorem Route.pathOf_eq (linked : volume.Linked) (numbered : volume.Numbered)
    (route : volume.Route user trail inode) :
    volume.pathOf inode.id = Path.toText ⟨true, (routeNames trail inode).reverse⟩ := by
  refine route.pathOf_of_named linked fun directory member => ?_
  obtain ⟨_, above, -⟩ := route.of_mem member
  exact numbered _ _ above.held

theorem inode_of_inode? (found : volume.inode? id = some inode) :
    volume.inode id = .ok inode := by
  simp [Volume.inode, found]

theorem inode?_of_inode (found : volume.inode id = .ok inode) :
    volume.inode? id = some inode := by
  unfold Volume.inode at found
  split at found
  · rename_i present
    cases found
    exact present
  · cases found

/-- Nothing is below an inode but itself and what is below its entries. -/
theorem below_iff (found : volume.inode? id = some inode) (target : String) :
    volume.Below id target ↔ target = id ∨ ∃ entry ∈ inode.children, volume.Below entry target := by
  constructor
  · intro below
    rcases Relation.ReflTransGen.cases_head below with same | ⟨entry, ⟨holder, held, listed⟩, rest⟩
    · exact .inl same.symm
    · rw [found] at held
      cases held
      exact .inr ⟨entry, listed, rest⟩
  · rintro (rfl | ⟨entry, listed, rest⟩)
    · exact .refl
    · exact .head ⟨inode, found, listed⟩ rest

theorem walkWithin_spec (linked : volume.Linked) {levels : Nat}
    (route : volume.Route rootUser trail inode)
    (room : volume.inodes.length ≤ trail.length + levels) :
    ∃ rows, volume.walkWithin levels path inode = .ok rows ∧
      ∀ node, (∃ shown, (shown, node) ∈ rows) ↔
        volume.inode? node.id = some node ∧ volume.Below inode.id node.id := by
  induction levels generalizing trail inode path with
  | zero => exact absurd (route.length_lt linked) (by omega)
  | succ levels ih =>
    have each : ∀ id ∈ inode.children, ∃ rows,
        (do let child ← volume.inode id
            volume.walkWithin levels (Path.child path child.name) child) = .ok rows ∧
        ∀ node, (∃ shown, (shown, node) ∈ rows) ↔
          volume.inode? node.id = some node ∧ volume.Below id node.id := by
      intro id listed
      obtain ⟨child, found, -⟩ := (linked.lists_iff _ _).mp ⟨inode, route.held, listed⟩
      have entered : volume.Route rootUser (inode :: trail) child :=
        .entry route (by simp [Record.permits]) listed found
      obtain ⟨rows, ran, nodes⟩ : ∃ rows,
          volume.walkWithin levels (Path.child path child.name) child = .ok rows ∧
          ∀ node, (∃ shown, (shown, node) ∈ rows) ↔
            volume.inode? node.id = some node ∧ volume.Below child.id node.id :=
        ih entered (by simp only [List.length_cons]; omega)
      rw [id_of_inode? found] at nodes
      exact ⟨rows, by rw [inode_of_inode? found]; exact ran, nodes⟩
    obtain ⟨below, ran, members⟩ := mapM_except_ok fun id listed => ⟨_, (each id listed).choose_spec.1⟩
    refine ⟨(path, inode) :: below.flatten, ?_, ?_⟩
    · simp only [walkWithin]
      rw [ran]
      rfl
    · intro node
      have inner : (∃ shown, (shown, node) ∈ below.flatten) ↔
          volume.inode? node.id = some node ∧
            ∃ entry ∈ inode.children, volume.Below entry node.id := by
        simp only [List.mem_flatten, members]
        constructor
        · rintro ⟨shown, rows, ⟨id, listed, ranHere⟩, member⟩
          obtain ⟨same, ranThere, nodes⟩ := each id listed
          rw [ranHere] at ranThere
          cases ranThere
          obtain ⟨held, hangs⟩ := (nodes node).mp ⟨shown, member⟩
          exact ⟨held, id, listed, hangs⟩
        · rintro ⟨held, id, listed, hangs⟩
          obtain ⟨rows, ranHere, nodes⟩ := each id listed
          obtain ⟨shown, member⟩ := (nodes node).mpr ⟨held, hangs⟩
          exact ⟨shown, rows, ⟨id, listed, ranHere⟩, member⟩
      rw [below_iff route.held]
      constructor
      · rintro ⟨shown, member⟩
        rcases List.mem_cons.mp member with same | further
        · cases same
          exact ⟨route.held, .inl rfl⟩
        · obtain ⟨held, hangs⟩ := inner.mp ⟨shown, further⟩
          exact ⟨held, .inr hangs⟩
      · rintro ⟨held, same | hangs⟩
        · rw [same, route.held] at held
          cases held
          exact ⟨path, List.mem_cons_self⟩
        · obtain ⟨shown, member⟩ := inner.mpr ⟨held, hangs⟩
          exact ⟨shown, List.mem_cons_of_mem _ member⟩

/-- The walk from an inode on a route succeeds and shows exactly what hangs below it. -/
theorem Route.walk (linked : volume.Linked) (route : volume.Route user trail inode) :
    ∃ rows, volume.walk inode = .ok rows ∧
      ∀ node, (∃ shown, (shown, node) ∈ rows) ↔
        volume.inode? node.id = some node ∧ volume.Below inode.id node.id :=
  walkWithin_spec linked route.as_root (by omega)

/-- The ids on a walk are those that hang below where it begins. -/
theorem Route.mem_ids_walk {rows : List (String × Inode)} (linked : volume.Linked)
    (route : volume.Route user trail inode)
    (nodes : ∀ node, (∃ shown, (shown, node) ∈ rows) ↔
      volume.inode? node.id = some node ∧ volume.Below inode.id node.id) (id : String) :
    id ∈ rows.map (fun row => row.2.id) ↔ volume.Below inode.id id := by
  constructor
  · intro member
    obtain ⟨row, inRows, rfl⟩ := List.mem_map.mp member
    exact ((nodes row.2).mp ⟨row.1, inRows⟩).2
  · intro below
    obtain ⟨node, found⟩ := linked.held_of_below route.held below
    have named := id_of_inode? found
    obtain ⟨shown, inRows⟩ := (nodes node).mpr ⟨inode?_self found, by rw [named]; exact below⟩
    exact List.mem_map.mpr ⟨(shown, node), inRows, named⟩

end PocketShell.Volume
