import PocketShell.Proofs.Fs.Entries

/-! What a removal takes away. An entry is removed exactly if every directory around and below it
lets go of what it lists, and then it is gone with all below it and nothing else is, but that its
directory does not list it any more. -/
namespace PocketShell

open Volume

variable {actor : Actor} {before after machine : Machine} {parent inode entry : Inode}
  {path user : String} {recursive : Bool}

namespace Volume

variable {first second : Volume} {now : Binary64} {gone : List String}

/-- The user may remove the inode: it is not the root, a directory with entries is to go with them,
and each directory that loses an entry lets the user take it out. -/
structure Removable (volume : Volume) (user : String) (recursive : Bool) (inode : Inode) : Prop where
  inner : inode.id ≠ volume.rootId
  emptied : inode.isDirectory = true → inode.children ≠ [] → recursive = true
  around : ∃ parent, volume.inode? parent.id = some parent ∧ inode.parent = some parent.id ∧
    MayUnlink user parent inode
  inside : ∀ holder entry, volume.inode? holder.id = some holder →
    volume.inode? entry.id = some entry → volume.Below inode.id holder.id →
    entry.id ∈ holder.children → MayUnlink user holder entry

/-- The second volume is the first without the inode and all below it: the directory of the inode
has lost it from among its entries, at the time given, and nothing else has changed. -/
structure Removed (first : Volume) (now : Binary64) (parent inode : Inode) (second : Volume) :
    Prop where
  root : second.rootId = first.rootId
  umask : second.umask = first.umask
  held : first.inode? parent.id = some parent
  up : inode.parent = some parent.id
  outside : ¬ first.Below inode.id parent.id
  unlisted : ∃ former latter, parent.children = former ++ inode.id :: latter ∧
    inode.id ∉ former ++ latter ∧
    second.inode? parent.id = some (parent.withChildren now (former ++ latter))
  gone : ∀ id, first.Below inode.id id → second.inode? id = none
  kept : ∀ id, id ≠ parent.id → ¬ first.Below inode.id id → second.inode? id = first.inode? id
  alone : inode.isDirectory = false → ∀ id, first.Below inode.id id → id = inode.id

/-- To cut a subtree off is to remove it. -/
theorem Hangs.removed (hangs : first.Hangs parent inode) (linked : first.Linked)
    (all : ∀ id, id ∈ gone ↔ first.Below inode.id id) :
    first.Removed now parent inode (first.prune now parent inode gone) where
  root := rfl
  umask := rfl
  held := hangs.above
  up := hangs.up
  outside := hangs.outside
  unlisted := by
    obtain ⟨holder, held, listed⟩ := hangs.lists linked
    cases hangs.above.symm.trans held
    have once := linked.once _ _ hangs.above
    obtain ⟨former, latter, -, whole, erased⟩ := List.exists_erase_eq listed
    rw [whole, List.nodup_middle, List.nodup_cons] at once
    exact ⟨former, latter, whole, once.1, by rw [inode?_prune, if_pos rfl, erased]⟩
  gone := by
    intro id below
    have apart : id ≠ parent.id := fun same => hangs.outside (same ▸ below)
    rw [inode?_prune, if_neg apart, if_pos ((all id).mpr below)]
  kept := by
    intro id differs outside
    rw [inode?_prune, if_neg differs, if_neg fun cut => outside ((all id).mp cut)]
  alone := by
    intro leaf id below
    rcases (below_iff hangs.held id).mp below with same | ⟨entry, listed, -⟩
    · exact same
    · rw [isDirectory_of_mem_children listed] at leaf
      cases leaf

/-- A removal brings nothing. -/
theorem Removed.none_of_none {id : String} (removed : first.Removed now parent inode second)
    (none : first.inode? id = none) : second.inode? id = Option.none := by
  by_cases below : first.Below inode.id id
  · exact removed.gone id below
  by_cases here : id = parent.id
  · rw [here, removed.held] at none
    cases none
  · rw [removed.kept id here below]
    exact none

/-- All that a removal leaves looks as it did. -/
theorem Removed.keeps (removed : first.Removed now parent inode second) : first.Keeps second := by
  obtain ⟨former, latter, whole, -, present⟩ := removed.unlisted
  have shape : parent.isDirectory = true :=
    isDirectory_of_mem_children (whole ▸ List.mem_append_right former List.mem_cons_self)
  refine ⟨removed.root, ?_, fun _ id _ _ none => removed.none_of_none none⟩
  intro id before after found still
  by_cases below : first.Below inode.id id
  · rw [removed.gone id below] at still
    cases still
  by_cases here : id = parent.id
  · rw [here] at found still
    cases removed.held.symm.trans found
    cases present.symm.trans still
    exact .withChildren shape
  · rw [removed.kept id here below, found] at still
    cases still
    exact .refl _

end Volume

namespace Fs

/-- A check of an entry that the user may take out passes. -/
theorem demandUnlink_run (may : MayUnlink actor.user parent entry) :
    demandUnlink parent entry actor machine = (.ok (), machine) := by
  unfold demandUnlink
  simp only [run_bind, read_run]
  rcases may with root | ⟨writes, search, sticky⟩
  · simp only [root, ↓reduceIte]
    rfl
  · have owned : (parent.mode.sticky && actor.user != entry.owner &&
        actor.user != parent.owner) = false := by
      cases stuck : parent.mode.sticky with
      | false => rfl
      | true =>
        rcases sticky stuck with same | same <;> simp [same]
    split
    · rfl
    · simp only [owned, writes, search, Bool.not_true, Bool.or_self, Bool.false_eq_true, ↓reduceIte]
      rfl

theorem demandUnlinkAll_run (linked : machine.volume.Linked)
    (held : machine.volume.inode? parent.id = some parent)
    (may : ∀ entry, machine.volume.inode? entry.id = some entry → entry.id ∈ parent.children →
      MayUnlink actor.user parent entry) :
    demandUnlinkAll parent actor machine = (.ok (), machine) := by
  refine forM_run fun id listed => ?_
  obtain ⟨child, found, -⟩ := (linked.lists_iff _ _).mp ⟨parent, held, listed⟩
  have passes := may child (inode?_self found) (id_of_inode? found ▸ listed)
  simp only [run_bind, volume_run, lift_run, inode_of_inode? found]
  exact demandUnlink_run passes

section Rm

variable (linked : before.volume.Linked)
  (leads : before.volume.lookup actor false path = .ok inode)

include linked leads

/-- A removal that is done was allowed, and has taken the whole subtree. -/
theorem rm_ok (ran : rm path recursive actor before = (.ok (), after)) :
    before.volume.Removable actor.user recursive inode ∧
      ∃ parent, before.volume.Removed before.now parent inode after.volume := by
  obtain ⟨trail, route⟩ := linked.route_of_lookup leads
  obtain ⟨rows, walked, nodes⟩ := route.walk linked
  unfold rm at ran
  obtain ⟨found, _, sought, checks⟩ := bind_ok ran
  rw [lookup_run, leads, Machine.noting] at sought
  cases sought
  rw [run_bind, volume_run] at checks
  dsimp only at checks
  obtain ⟨inner, checksMore⟩ := check_ok checks
  obtain ⟨emptied, climbs⟩ := check_ok checksMore
  obtain ⟨parent, _, climbed, frees⟩ := bind_ok climbs
  obtain ⟨rfl, hangs⟩ := (parentOf_reads linked route inner).of_ok climbed
  obtain ⟨_, between, freed, walks⟩ := bind_ok frees
  obtain ⟨rfl, may⟩ := (demandUnlink_reads parent inode).of_ok freed
  obtain ⟨subtree, _, walk, tests⟩ := bind_ok walks
  rw [lift_run, walked] at walk
  cases walk
  obtain ⟨_, _, tested, cuts⟩ := bind_ok tests
  have all : Reads (rows.forM fun row => demandUnlinkAll row.2) actor between fun _ =>
      ∀ row ∈ rows, ∀ id ∈ row.2.children,
        ∃ child, between.volume.inode? id = some child ∧ MayUnlink actor.user row.2 child :=
    Reads.forM fun row member =>
      demandUnlinkAll_reads linked ((nodes row.2).mp ⟨row.1, member⟩).1
  obtain ⟨rfl, inside⟩ := all.of_ok tested
  obtain ⟨holder, held, listed⟩ := hangs.lists linked
  cases hangs.above.symm.trans held
  simp only [run_bind, get_run, Record.removeChild_eq listed] at cuts
  cases cuts
  refine ⟨⟨inner, ?_, ⟨parent, hangs.above, hangs.up, may⟩, ?_⟩,
    parent, hangs.removed linked (route.mem_ids_walk linked nodes)⟩
  · intro _ entries
    simpa [entries] using emptied
  · intro holder entry present found below lists
    obtain ⟨shown, member⟩ := (nodes holder).mpr ⟨present, below⟩
    obtain ⟨child, same, may⟩ := inside (shown, holder) member entry.id lists
    cases found.symm.trans same
    exact may

/-- A removal that is allowed is done. -/
theorem rm_done (removable : before.volume.Removable actor.user recursive inode) :
    ∃ after, rm path recursive actor before = (.ok (), after) := by
  obtain ⟨trail, route⟩ := linked.route_of_lookup leads
  obtain ⟨parent, above, up, may⟩ := removable.around
  obtain ⟨rows, walked, nodes⟩ := route.walk linked
  have found : before.volume.parentOf inode = .ok parent := by
    simp only [parentOf, up]
    exact inode_of_inode? above
  have emptied : (!inode.children.isEmpty && !recursive) = false := by
    cases entries : inode.children with
    | nil => rfl
    | cons entry rest =>
      have shape := isDirectory_of_mem_children (entries ▸ List.mem_cons_self)
      simp [removable.emptied shape (by simp [entries])]
  have checks : (rows.forM fun row => demandUnlinkAll row.2) actor before = (.ok (), before) := by
    refine forM_run fun row member => ?_
    obtain ⟨held, below⟩ := (nodes row.2).mp ⟨row.1, member⟩
    exact demandUnlinkAll_run linked held fun entry present listed =>
      removable.inside row.2 entry held present below listed
  have listed : inode.id ∈ parent.children := by
    obtain ⟨holder, held, listed⟩ := (linked.lists_iff _ _).mpr ⟨inode, route.held, up⟩
    cases above.symm.trans held
    exact listed
  unfold rm
  simp only [run_bind, lookup_run, leads, Machine.noting, volume_run, removable.inner, emptied,
    lift_run, found, demandUnlink_run may, walked, checks, get_run, Record.removeChild_eq listed,
    Bool.false_eq_true, ↓reduceIte]
  exact ⟨_, rfl⟩

end Rm

end Fs

end PocketShell
