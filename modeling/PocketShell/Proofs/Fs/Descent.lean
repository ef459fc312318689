import PocketShell.Proofs.Fs.Confinement

/-! The way down from an inode. The path of what lies below an inode is the path of the inode and the
names on the way down, as long as the way up can be followed; and where it can not, there is no path
at all. -/
namespace PocketShell

/-- The text of a path that goes on from another one. -/
theorem Path.toText_append {first second : List String} (some : first ≠ [])
    (more : second ≠ []) : Path.toText ⟨true, first ++ second⟩ =
      Path.toText ⟨true, first⟩ ++ "/" ++ "/".intercalate second := by
  simp only [Path.toText, ↓reduceIte]
  rw [String.intercalate_append_of_ne_nil some more]
  simp only [String.append_assoc]

theorem Path.append_slash_ne (path rest : String) : "" ≠ path ++ "/" ++ rest := by
  intro same
  have lengths := congrArg String.length same
  rw [String.length_append, String.length_append, show "/".length = 1 from rfl] at lengths
  simp only [String.length_empty] at lengths
  omega

namespace Volume

variable {volume : Volume} {inode lower ancestor directory upper : Inode} {top id user : String}
  {names : List String} {trail : List Inode}

/-- The names on the way down from the inode with an id to another one. -/
inductive Descent (volume : Volume) (top : String) : List String → Inode → Prop
  | here {inode : Inode} (found : volume.inode? top = some inode) : Descent volume top [] inode
  | entry {names : List String} {directory inode : Inode} {id : String}
      (above : Descent volume top names directory) (listed : id ∈ directory.children)
      (found : volume.inode? id = some inode) : Descent volume top (names ++ [inode.name]) inode

namespace Descent

theorem held (descent : volume.Descent top names lower) :
    volume.inode? lower.id = some lower := by
  cases descent with
  | here found => exact inode?_self found
  | entry above listed found => exact inode?_self found

theorem hangs (descent : volume.Descent top names lower) : volume.Below top lower.id := by
  induction descent with
  | here found =>
    rw [id_of_inode? found]
    exact .refl
  | entry above listed found ih =>
    rw [id_of_inode? found]
    exact ih.tail ⟨_, above.held, listed⟩

/-- There is a way down to everything below. -/
theorem of_below (found : volume.inode? top = some inode) (below : volume.Below top id)
    (present : volume.inode? id = some lower) : ∃ names, volume.Descent top names lower := by
  induction below generalizing lower with
  | refl =>
    cases found.symm.trans present
    exact ⟨[], .here found⟩
  | tail _ listed ih =>
    obtain ⟨directory, held, member⟩ := listed
    obtain ⟨names, descent⟩ := ih held
    exact ⟨_, .entry descent member present⟩

/-- With a name on it, it leads from a directory to something in it. -/
theorem strict (descent : volume.Descent top names lower) (some : names ≠ []) :
    Relation.TransGen volume.Lists top lower.id := by
  cases descent with
  | here found => exact absurd rfl some
  | entry above listed found =>
    rw [id_of_inode? found]
    exact Relation.TransGen.tail' above.hangs ⟨_, above.held, listed⟩

/-- A route goes on along the way down. -/
theorem route (above : volume.Route user trail upper)
    (descent : volume.Descent upper.id names lower) :
    ∃ way, volume.Route rootUser (way ++ trail) lower ∧
      (routeNames (way ++ trail) lower).reverse = (routeNames trail upper).reverse ++ names := by
  generalize same : upper.id = top at descent
  induction descent with
  | here found =>
    rw [← same, above.held] at found
    cases found
    exact ⟨[], above.as_root, by simp⟩
  | @entry names directory inode id further listed found ih =>
    obtain ⟨way, reached, spelt⟩ := ih
    refine ⟨directory :: way, .entry reached (by simp [Record.permits]) listed found, ?_⟩
    rw [List.cons_append, routeNames, List.reverse_cons, spelt, List.append_assoc]

end Descent

/-! ## Ancestors -/

/-- What lies above an inode is an ancestor of it. -/
theorem Linked.ancestor_of_lists (linked : volume.Linked)
    (held : volume.inode? ancestor.id = some ancestor) (found : volume.inode? id = some inode)
    (above : Relation.TransGen volume.Lists ancestor.id id) : volume.Ancestor inode ancestor := by
  induction above generalizing inode with
  | single listed => exact .parent (linked.parent_of_lists listed found) held
  | tail _ listed ih =>
    obtain ⟨directory, present, member⟩ := listed
    have up := linked.parent_of_lists ⟨directory, present, member⟩ found
    rw [← id_of_inode? present] at up
    exact .beyond up (inode?_self present) (ih present)

/-- The directories entered on a route are the ancestors of its end. -/
theorem Route.mem_trail_iff (linked : volume.Linked) (route : volume.Route user trail inode) :
    ancestor ∈ trail ↔ volume.Ancestor inode ancestor := by
  refine ⟨fun member => ?_, fun above => above.mem_trail linked route⟩
  induction route with
  | root found => cases member
  | @entry trail directory inode id above search listed found ih =>
    have up := linked.parent_of_lists (above.lists listed) found
    rcases List.mem_cons.mp member with rfl | further
    · exact .parent up above.held
    · exact .beyond up above.held (ih further)

/-! ## Paths -/

theorem of_above? (next : volume.above? inode = some directory) :
    ∃ holder, inode.parent = some holder ∧ volume.inode? holder = some directory := by
  unfold above? at next
  cases up : inode.parent with
  | none => simp [up] at next
  | some holder =>
    simp only [up, Option.ite_none_left_eq_some] at next
    exact ⟨holder, rfl, next.2⟩

/-- The way up only meets what lies above. -/
theorem Linked.below_of_mem_climb {met : Inode} {limit : Nat} (linked : volume.Linked)
    (found : volume.inode? id = some inode) (member : met ∈ volume.climb limit inode) :
    volume.Below met.id id := by
  induction limit generalizing id inode with
  | zero =>
    rw [climb, List.mem_singleton] at member
    rw [member, id_of_inode? found]
    exact .refl
  | succ limit ih =>
    cases next : volume.above? inode with
    | none =>
      simp only [climb, next, List.mem_singleton] at member
      rw [member, id_of_inode? found]
      exact .refl
    | some above =>
      simp only [climb, next, List.mem_cons] at member
      rcases member with rfl | further
      · rw [id_of_inode? found]
        exact .refl
      · obtain ⟨holder, up, held⟩ := of_above? next
        have listed := (linked.lists_iff holder id).mpr ⟨inode, found, up⟩
        exact (ih held further).tail listed

/-- What does not hang below the root has no path. -/
theorem Linked.pathOf_of_unreached (linked : volume.Linked)
    (outside : ¬ volume.Below volume.rootId id) : volume.pathOf id = "" := by
  unfold pathOf
  cases found : volume.inode? id with
  | none => rfl
  | some inode =>
    have misses : ((volume.lineage inode).any (·.id == volume.rootId)) = false := by
      rw [List.any_eq_false]
      intro met member
      have above := linked.below_of_mem_climb found member
      simpa using fun top : met.id = volume.rootId => outside (top ▸ above)
    simp only [misses, Bool.false_eq_true, ↓reduceIte]

/-- Below an inode other than the root the path goes on with the names on the way down exactly if
everything above has an id. -/
theorem Route.pathOf_descent (linked : volume.Linked)
    (above : volume.Route user (directory :: trail) upper)
    (descent : volume.Descent upper.id names lower) (some : names ≠ []) :
    volume.pathOf lower.id = volume.pathOf upper.id ++ "/" ++ "/".intercalate names ↔
      ∀ ancestor, volume.Ancestor lower ancestor → ancestor.id ≠ "" := by
  obtain ⟨way, route, spelt⟩ := descent.route above
  simp only [← route.mem_trail_iff linked]
  constructor
  · intro same
    by_contra unnamed
    push Not at unnamed
    rw [route.pathOf_of_unnamed linked unnamed] at same
    exact Path.append_slash_ne _ _ same
  · intro named
    have upper : ∀ ancestor ∈ directory :: trail, ancestor.id ≠ "" :=
      fun ancestor member => named ancestor (List.mem_append_right way member)
    rw [route.pathOf_of_named linked named, above.pathOf_of_named linked upper, spelt,
      Path.toText_append (by simp [routeNames]) some]

end Volume

end PocketShell
