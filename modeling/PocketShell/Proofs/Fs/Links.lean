import PocketShell.Proofs.Fs.Resolution

/-! Keeping a volume linked. Every change to the table is one of four: inodes are written with the
links they had, a new inode is hung into a directory, a subtree is cut off, or an entry is hung
elsewhere. For each, this module says which directory lists what afterwards, that the volume stays
linked, and what is still reached. -/
namespace PocketShell

/-- What the links of a volume depend on in one inode. -/
def Record.outline (inode : Inode) : String × Bool × List String × Option String :=
  (inode.name, inode.isDirectory, inode.children, inode.parent)

/-- A directory with other entries. -/
def Record.withChildren (inode : Inode) (now : Binary64) (children : List String) : Inode :=
  { inode with payload := .directory children, modified := now }

namespace Record

variable {inode : Inode} {now : Binary64} {entries : List String}

@[simp] theorem withChildren_id : (inode.withChildren now entries).id = inode.id := rfl

@[simp] theorem withChildren_children : (inode.withChildren now entries).children = entries := rfl

@[simp] theorem withChildren_parent : (inode.withChildren now entries).parent = inode.parent := rfl

@[simp] theorem withChildren_name : (inode.withChildren now entries).name = inode.name := rfl

@[simp] theorem withChildren_isDirectory :
    (inode.withChildren now entries).isDirectory = true := rfl

theorem addChild_eq {id : String} (directory : inode.isDirectory = true) :
    inode.addChild now id = some (inode.withChildren now (inode.children ++ [id])) := by
  cases payload : inode.payload with
  | directory entries => simp [addChild, children, withChildren, payload]
  | file content => simp [isDirectory, type, payload, Payload.type] at directory
  | symlink target => simp [isDirectory, type, payload, Payload.type] at directory

theorem removeChild_eq {id : String} (listed : id ∈ inode.children) :
    inode.removeChild now id = some (inode.withChildren now (inode.children.erase id)) := by
  cases payload : inode.payload with
  | directory entries =>
    have held : id ∈ entries := by simpa [children, payload] using listed
    simp [removeChild, children, withChildren, payload, held]
  | file content => simp [children, payload] at listed
  | symlink target => simp [children, payload] at listed

end Record

namespace Volume

variable {volume after : Volume} {inode child parent target source : Inode}
  {id holder entry name : String} {now : Binary64} {gone : List String}

theorem lists_congr_of_children {first second : Volume}
    (same : ∀ id, (second.inode? id).map Record.children = (first.inode? id).map Record.children) :
    second.Lists holder entry ↔ first.Lists holder entry := by
  have here := same holder
  unfold Lists
  cases found : first.inode? holder <;> cases kept : second.inode? holder <;>
    simp_all

/-! ## Links that stay and links that are new -/

/-- How the links of a second volume come from those of a first: the inodes that stay keep their
directory and their name, and entries are hung into directories under names that are free there. -/
structure Relinks (volume after : Volume) (stays : String → Prop)
    (hung : String → String → String → Prop) : Prop where
  keyed : after.Keyed
  root : after.rootId = volume.rootId
  top : stays volume.rootId
  kept : ∀ id inode, volume.inode? id = some inode → stays id → ∃ still,
    after.inode? id = some still ∧ still.parent = inode.parent ∧
      (inode.isDirectory = true → still.isDirectory = true)
  origin : ∀ id inode, after.inode? id = some inode →
    (∃ holder, inode.parent = some holder ∧ hung id holder inode.name) ∨
      (stays id ∧ ∃ before, volume.inode? id = some before ∧ before.parent = inode.parent ∧
        before.name = inode.name)
  lists_iff : ∀ holder entry, after.Lists holder entry ↔
    (volume.Lists holder entry ∧ stays entry) ∨ ∃ name, hung entry holder name
  present : ∀ entry holder name, hung entry holder name →
    ∃ inode, after.inode? entry = some inode ∧ inode.parent = some holder
  alone : ∀ a b holder name, hung a holder name → hung b holder name → a = b
  free : ∀ entry holder name id inode, hung entry holder name → volume.inode? id = some inode →
    inode.parent = some holder → inode.name ≠ name
  once : ∀ id inode, after.inode? id = some inode → inode.children.Nodup
  sized : ∀ id inode content, after.inode? id = some inode → inode.payload = .file content →
    inode.size = byteSize content

/-- A volume that is linked in this way from a linked one is linked. -/
theorem Relinks.linked {stays : String → Prop} {hung : String → String → String → Prop}
    (relinks : volume.Relinks after stays hung) (linked : volume.Linked) : after.Linked := by
  refine ⟨relinks.keyed, ?_, ?_, ?_, relinks.once, ?_, relinks.sized⟩
  · obtain ⟨root, found, directory, none⟩ := linked.root
    obtain ⟨still, held, same, shape⟩ := relinks.kept _ root found relinks.top
    exact ⟨still, relinks.root ▸ held, shape directory, same.trans none⟩
  · intro holder entry
    rw [relinks.lists_iff, linked.lists_iff]
    constructor
    · rintro (⟨⟨inode, found, up⟩, stays⟩ | ⟨name, hung⟩)
      · obtain ⟨still, held, same, -⟩ := relinks.kept _ inode found stays
        exact ⟨still, held, same.trans up⟩
      · exact relinks.present entry holder name hung
    · rintro ⟨inode, found, up⟩
      rcases relinks.origin _ inode found with ⟨other, above, hung⟩ | ⟨stays, before, held, same, -⟩
      · rw [up] at above
        cases above
        exact .inr ⟨_, hung⟩
      · exact .inl ⟨⟨before, held, same.trans up⟩, stays⟩
  · intro id inode found none
    rcases relinks.origin id inode found with ⟨holder, up, -⟩ | ⟨-, before, held, same, -⟩
    · rw [none] at up
      cases up
    · rw [relinks.root]
      exact linked.orphan id before held (same.trans none)
  · intro a b first second found present parents names
    rcases relinks.origin a first found with ⟨holder, up, hung⟩ | ⟨-, one, heldA, parentA, nameA⟩
    · rcases relinks.origin b second present with ⟨other, also, again⟩ | ⟨-, two, held, up', name⟩
      · rw [parents, also] at up
        cases up
        rw [names] at hung
        exact relinks.alone a b holder second.name hung again
      · exact absurd (name.trans names.symm)
          (relinks.free a holder _ b two hung held (up'.trans (parents.symm.trans up)))
    · rcases relinks.origin b second present with ⟨holder, up, hung⟩ | ⟨-, two, heldB, parentB, nameB⟩
      · exact absurd (nameA.trans names)
          (relinks.free b holder _ a one hung heldA (parentA.trans (parents.trans up)))
      · exact linked.names a b one two heldA heldB
          (parentA.trans (parents.trans parentB.symm)) (nameA.trans (names.trans nameB.symm))

/-! ## Writing inodes with the links they had -/

/-- What is found in one volume is found in another of the same outlines, with its links. -/
private theorem outlined {first second : Volume}
    (same : ∀ id, (second.inode? id).map Record.outline = (first.inode? id).map Record.outline)
    (found : first.inode? id = some inode) :
    ∃ other, second.inode? id = some other ∧ other.name = inode.name ∧
      other.isDirectory = inode.isDirectory ∧ other.children = inode.children ∧
      other.parent = inode.parent := by
  have outline := same id
  rw [found, Option.map_some, Option.map_eq_some_iff] at outline
  obtain ⟨other, held, outline⟩ := outline
  simp only [Record.outline, Prod.mk.injEq] at outline
  exact ⟨other, held, outline⟩

private theorem lists_congr_of_outline
    (same : ∀ id, (after.inode? id).map Record.outline = (volume.inode? id).map Record.outline) :
    after.Lists holder entry ↔ volume.Lists holder entry := by
  apply lists_congr_of_children
  intro id
  have outline := congrArg (Option.map fun parts => parts.2.2.1) (same id)
  simpa [Option.map_map, Function.comp_def, Record.outline] using outline

/-- Links that are written as they were stay what they were. -/
theorem Linked.of_outline (linked : volume.Linked) (keyed : after.Keyed)
    (root : after.rootId = volume.rootId)
    (same : ∀ id, (after.inode? id).map Record.outline = (volume.inode? id).map Record.outline)
    (sized : ∀ id inode content, after.inode? id = some inode → inode.payload = .file content →
      inode.size = byteSize content) : after.Linked := by
  have relinks : volume.Relinks after (fun _ => True) fun _ _ _ => False :=
    { keyed
      root
      top := trivial
      kept := fun id inode found _ => by
        obtain ⟨still, held, -, shape, -, up⟩ := outlined same found
        exact ⟨still, held, up, shape.trans⟩
      origin := fun id inode found => by
        obtain ⟨before, held, named, -, -, up⟩ := outlined (fun id => (same id).symm) found
        exact .inr ⟨trivial, before, held, up, named⟩
      lists_iff := fun holder entry => by
        simpa only [and_true, exists_false, or_false] using lists_congr_of_outline same
      present := fun _ _ _ => False.elim
      alone := fun _ _ _ _ => False.elim
      free := fun _ _ _ _ _ => False.elim
      once := fun id inode found => by
        obtain ⟨before, held, -, -, entries, -⟩ := outlined (fun id => (same id).symm) found
        exact entries ▸ linked.once id before held
      sized }
  exact relinks.linked linked

/-- An inode written over itself with its links. -/
theorem outline_put (held : volume.inode? inode.id = some inode) (same : target.id = inode.id)
    (outline : target.outline = inode.outline) (id : String) :
    ((volume.put target).inode? id).map Record.outline =
      (volume.inode? id).map Record.outline := by
  rw [inode?_put]
  split
  · rename_i here
    rw [here, same, held, Option.map_some, Option.map_some, outline]
  · rfl

theorem Linked.put_outline (linked : volume.Linked)
    (held : volume.inode? inode.id = some inode) (same : target.id = inode.id)
    (outline : target.outline = inode.outline)
    (sized : ∀ content, target.payload = .file content → target.size = byteSize content) :
    (volume.put target).Linked := by
  refine linked.of_outline linked.keyed.put rfl (outline_put held same outline) ?_
  intro id inode content found shape
  rw [inode?_put] at found
  split at found
  · cases found
    exact sized content shape
  · exact linked.sized id inode content found shape

theorem lists_put_outline (held : volume.inode? inode.id = some inode)
    (same : target.id = inode.id) (outline : target.outline = inode.outline) :
    (volume.put target).Lists holder entry ↔ volume.Lists holder entry :=
  lists_congr_of_outline (outline_put held same outline)

/-! ## Hanging a new inode into a directory -/

/-- The volume with a new inode at the end of a directory. -/
def graft (volume : Volume) (now : Binary64) (parent child : Inode) : Volume :=
  (volume.put (parent.withChildren now (parent.children ++ [child.id]))).put child

theorem inode?_graft : (volume.graft now parent child).inode? id =
    if id = child.id then some child
    else if id = parent.id then some (parent.withChildren now (parent.children ++ [child.id]))
    else volume.inode? id := by
  rw [graft, inode?_put, inode?_put]
  rfl

@[simp] theorem rootId_graft : (volume.graft now parent child).rootId = volume.rootId := rfl

/-- A new inode that is written over is as if it had been new so. -/
theorem put_graft (same : inode.id = child.id) :
    (volume.graft now parent child).put inode = volume.graft now parent inode := by
  rw [graft, graft, put_put same, same]

/-- What a new entry of a directory has to be: its id is not taken, it names the directory as its
parent, it has no entries of its own, and its name is free there. -/
structure Fits (volume : Volume) (parent child : Inode) : Prop where
  held : volume.inode? parent.id = some parent
  directory : parent.isDirectory = true
  fresh : volume.inode? child.id = none
  up : child.parent = some parent.id
  leaf : child.children = []
  free : volume.childNamed? parent child.name = none
  sized : ∀ content, child.payload = .file content → child.size = byteSize content

namespace Fits

theorem ids_ne (fits : volume.Fits parent child) : child.id ≠ parent.id := by
  intro same
  have fresh := fits.fresh
  rw [same, fits.held] at fresh
  cases fresh

theorem inode?_parent (fits : volume.Fits parent child) :
    (volume.graft now parent child).inode? parent.id =
      some (parent.withChildren now (parent.children ++ [child.id])) := by
  simp [inode?_graft, Ne.symm fits.ids_ne]

theorem inode?_child : (volume.graft now parent child).inode? child.id = some child := by
  simp [inode?_graft]

theorem inode?_other (differs : id ≠ parent.id) (found : volume.inode? id = some inode)
    (fits : volume.Fits parent child) :
    (volume.graft now parent child).inode? id = some inode := by
  have old : id ≠ child.id := by
    intro same
    rw [same, fits.fresh] at found
    cases found
  simp [inode?_graft, old, differs, found]

theorem lists_iff (fits : volume.Fits parent child) :
    (volume.graft now parent child).Lists holder entry ↔
      volume.Lists holder entry ∨ (holder = parent.id ∧ entry = child.id) := by
  unfold Lists
  rw [inode?_graft]
  by_cases new : holder = child.id
  · subst new
    simp [fits.fresh, fits.leaf, fits.ids_ne]
  · by_cases here : holder = parent.id
    · subst here
      simp [new, fits.held]
    · simp [new, here]

/-- What is found after a graft is the new inode or an old one with its parent and its name. -/
theorem origin (fits : volume.Fits parent child)
    (found : (volume.graft now parent child).inode? id = some inode) :
    (id = child.id ∧ inode = child) ∨
      (id ≠ child.id ∧ ∃ before, volume.inode? id = some before ∧ before.parent = inode.parent ∧
        before.name = inode.name) := by
  rw [inode?_graft] at found
  split at found
  · rename_i new
    exact .inl ⟨new, (Option.some.inj found).symm⟩
  · rename_i old
    split at found
    · rename_i here
      cases found
      exact .inr ⟨old, parent, here ▸ fits.held, rfl, rfl⟩
    · exact .inr ⟨old, inode, found, rfl, rfl⟩

end Fits

/-- An inode whose parent is a directory in which a name is free has another name. -/
theorem Linked.name_ne_of_free (linked : volume.Linked)
    (held : volume.inode? directory.id = some directory)
    (free : volume.childNamed? directory name = none) (found : volume.inode? id = some inode)
    (up : inode.parent = some directory.id) : inode.name ≠ name := by
  obtain ⟨holder, same, listed⟩ := (linked.lists_iff _ _).mpr ⟨inode, found, up⟩
  rw [held] at same
  cases same
  exact childNamed?_eq_none free listed found

/-- An id that is not taken is listed nowhere. -/
theorem Linked.unlisted_of_fresh (linked : volume.Linked) (fresh : volume.inode? id = none) :
    ¬ volume.Lists holder id := by
  intro listed
  obtain ⟨inode, found, -⟩ := (linked.lists_iff _ _).mp listed
  rw [fresh] at found
  cases found

/-- No list of entries comes to name an entry twice by a graft. -/
private theorem graft_once (linked : volume.Linked) (fits : volume.Fits parent child)
    (found : (volume.graft now parent child).inode? id = some inode) : inode.children.Nodup := by
  rw [inode?_graft] at found
  split at found
  · cases found
    simp [fits.leaf]
  split at found
  · cases found
    rw [Record.withChildren_children]
    refine List.nodup_append.mpr ⟨linked.once _ _ fits.held, by simp, ?_⟩
    intro a listed b new same
    rw [List.mem_singleton.mp new] at same
    exact linked.unlisted_of_fresh fits.fresh ⟨parent, fits.held, same ▸ listed⟩
  · exact linked.once id inode found

private theorem graft_sized {content : String} (linked : volume.Linked)
    (fits : volume.Fits parent child)
    (found : (volume.graft now parent child).inode? id = some inode)
    (file : inode.payload = .file content) : inode.size = byteSize content := by
  rw [inode?_graft] at found
  split at found
  · cases found
    exact fits.sized content file
  split at found
  · cases found
    cases file
  · exact linked.sized id inode content found file

/-- The one link that a graft makes is that of the new inode. -/
private theorem graft_relinks (linked : volume.Linked) (fits : volume.Fits parent child) :
    volume.Relinks (volume.graft now parent child) (· ≠ child.id)
      fun entry holder name => entry = child.id ∧ holder = parent.id ∧ name = child.name where
  keyed := linked.keyed.put.put
  root := rfl
  top := by
    intro top
    obtain ⟨root, found, -⟩ := linked.root
    rw [top, fits.fresh] at found
    cases found
  kept := by
    intro id inode found _
    by_cases here : id = parent.id
    · subst here
      rw [fits.held] at found
      cases found
      exact ⟨_, fits.inode?_parent, rfl, fun _ => rfl⟩
    · exact ⟨inode, fits.inode?_other here found, rfl, fun shape => shape⟩
  origin := by
    intro id inode found
    rcases fits.origin found with ⟨rfl, rfl⟩ | old
    · exact .inl ⟨parent.id, fits.up, rfl, rfl, rfl⟩
    · exact .inr old
  lists_iff := by
    intro holder entry
    rw [fits.lists_iff]
    constructor
    · rintro (listed | ⟨rfl, rfl⟩)
      · exact .inl ⟨listed, fun new => linked.unlisted_of_fresh fits.fresh (new ▸ listed)⟩
      · exact .inr ⟨child.name, rfl, rfl, rfl⟩
    · rintro (⟨listed, -⟩ | ⟨name, rfl, rfl, -⟩)
      · exact .inl listed
      · exact .inr ⟨rfl, rfl⟩
  present := by
    rintro entry holder name ⟨rfl, rfl, -⟩
    exact ⟨child, Fits.inode?_child, fits.up⟩
  alone := by
    rintro a b holder name ⟨rfl, -⟩ ⟨rfl, -⟩
    rfl
  free := by
    rintro entry holder name id inode ⟨-, rfl, rfl⟩ found up
    exact linked.name_ne_of_free fits.held fits.free found up
  once := fun _ _ => graft_once linked fits
  sized := fun _ _ _ => graft_sized linked fits

/-- A new leaf keeps the volume linked. -/
theorem Linked.graft (linked : volume.Linked) (fits : volume.Fits parent child) :
    (volume.graft now parent child).Linked :=
  (graft_relinks linked fits).linked linked

/-- What was below something still is after a graft. -/
theorem Fits.below (fits : volume.Fits parent child) {top : String}
    (below : volume.Below top id) : (volume.graft now parent child).Below top id :=
  Relation.ReflTransGen.mono (fun _ _ listed => fits.lists_iff.mpr (.inl listed)) _ _ below

theorem Fits.below_child (fits : volume.Fits parent child) :
    (volume.graft now parent child).Below parent.id child.id :=
  .single (fits.lists_iff.mpr (.inr ⟨rfl, rfl⟩))

/-! ## Cutting an entry off -/

/-- The directory that holds an inode on a route does not hang below it. -/
theorem Route.not_below_parent {user : String} {trail : List Inode} (linked : volume.Linked)
    (route : volume.Route user trail source) (up : source.parent = some parent.id) :
    ¬ volume.Below source.id parent.id := by
  intro below
  cases route with
  | root found =>
    obtain ⟨root, same, -, none⟩ := linked.root
    rw [found] at same
    cases same
    rw [none] at up
    cases up
  | entry above search listed found =>
    have named := linked.parent_of_lists (above.lists listed) found
    rw [up] at named
    rw [Option.some.inj named] at below
    obtain ⟨met, member, same⟩ := above.met_of_below linked below
    have once := Route.nodup linked (.entry above search listed found)
    rw [List.map_cons, List.nodup_cons] at once
    exact once.1 (same ▸ List.mem_map_of_mem member)

/-- An entry and the directory it hangs in, where the directory does not hang below the entry. -/
structure Hangs (volume : Volume) (parent source : Inode) : Prop where
  held : volume.inode? source.id = some source
  above : volume.inode? parent.id = some parent
  up : source.parent = some parent.id
  outside : ¬ volume.Below source.id parent.id

namespace Hangs

theorem ids_ne (hangs : volume.Hangs parent source) : parent.id ≠ source.id := by
  intro same
  exact hangs.outside (same ▸ .refl)

theorem lists (linked : volume.Linked) (hangs : volume.Hangs parent source) :
    volume.Lists parent.id source.id :=
  (linked.lists_iff _ _).mpr ⟨source, hangs.held, hangs.up⟩

theorem ne_root (linked : volume.Linked) (hangs : volume.Hangs parent source) :
    source.id ≠ volume.rootId := by
  intro top
  exact linked.root_unlisted (top ▸ hangs.lists linked)

theorem mem_erase_iff (linked : volume.Linked) (hangs : volume.Hangs parent source) :
    entry ∈ parent.children.erase source.id ↔
      volume.Lists parent.id entry ∧ entry ≠ source.id := by
  rw [(linked.once _ _ hangs.above).mem_erase_iff, and_comm]
  simp [Lists, hangs.above]

end Hangs

/-- The volume without some inodes and without the entry that led to them. -/
def prune (volume : Volume) (now : Binary64) (parent source : Inode) (gone : List String) :
    Volume :=
  (volume.eraseAll gone).put (parent.withChildren now (parent.children.erase source.id))

@[simp] theorem rootId_prune : (volume.prune now parent source gone).rootId = volume.rootId := rfl

theorem inode?_prune : (volume.prune now parent source gone).inode? id =
    if id = parent.id then some (parent.withChildren now (parent.children.erase source.id))
    else if id ∈ gone then none else volume.inode? id := by
  rw [prune, inode?_put, inode?_eraseAll]
  rfl

/-- What is found after the cut was there before, as it is or with the entry still in it. -/
theorem prune_origin (found : (volume.prune now parent source gone).inode? id = some inode) :
    (id = parent.id ∧ inode = parent.withChildren now (parent.children.erase source.id)) ∨
      (id ∉ gone ∧ volume.inode? id = some inode) := by
  rw [inode?_prune] at found
  split at found
  · rename_i here
    exact .inl ⟨here, (Option.some.inj found).symm⟩
  split at found
  · cases found
  · rename_i kept
    exact .inr ⟨kept, found⟩

namespace Hangs

variable (linked : volume.Linked) (hangs : volume.Hangs parent source)
  (all : ∀ id, id ∈ gone ↔ volume.Below source.id id)

include linked hangs all

theorem lists_prune : (volume.prune now parent source gone).Lists holder entry ↔
    volume.Lists holder entry ∧ entry ∉ gone := by
  have inside : ∀ {holder entry}, volume.Lists holder entry → holder ∈ gone → entry ∈ gone := by
    intro holder entry listed cut
    exact (all entry).mpr (((all holder).mp cut).tail listed)
  have outside : parent.id ∉ gone := fun cut => hangs.outside ((all _).mp cut)
  have only : ∀ {entry}, volume.Lists parent.id entry → entry ∈ gone → entry = source.id := by
    intro entry listed cut
    rcases ((all entry).mp cut).cases_tail with same | ⟨above, lower, last⟩
    · exact same
    · exact absurd (linked.lists_unique last listed ▸ lower) hangs.outside
  have top : source.id ∈ gone := (all _).mpr .refl
  by_cases here : holder = parent.id
  · subst here
    have view : (volume.prune now parent source gone).Lists parent.id entry ↔
        entry ∈ parent.children.erase source.id := by
      simp [Lists, inode?_prune]
    rw [view, hangs.mem_erase_iff linked]
    constructor
    · rintro ⟨listed, differs⟩
      exact ⟨listed, fun cut => differs (only listed cut)⟩
    · rintro ⟨listed, kept⟩
      exact ⟨listed, fun same => kept (same ▸ top)⟩
  · unfold Lists
    rw [inode?_prune, if_neg here]
    by_cases cut : holder ∈ gone
    · rw [if_pos cut]
      constructor
      · rintro ⟨_, found, _⟩
        cases found
      · rintro ⟨listed, kept⟩
        exact absurd (inside listed cut) kept
    · rw [if_neg cut]
      constructor
      · intro listed
        refine ⟨listed, fun cutEntry => ?_⟩
        rcases ((all entry).mp cutEntry).cases_tail with same | ⟨above, lower, last⟩
        · exact here (linked.lists_unique listed (same ▸ hangs.lists linked))
        · exact cut ((all holder).mpr (linked.lists_unique last listed ▸ lower))
      · exact And.left

/-- A cut makes no link. -/
private theorem prune_relinks : volume.Relinks (volume.prune now parent source gone) (· ∉ gone)
    fun _ _ _ => False where
  keyed := linked.keyed.eraseAll.put
  root := rfl
  top := fun cut => hangs.ne_root linked (linked.eq_root_of_below ((all _).mp cut))
  kept := by
    intro id inode found stays
    by_cases here : id = parent.id
    · subst here
      rw [hangs.above] at found
      cases found
      exact ⟨parent.withChildren now (parent.children.erase source.id),
        by rw [inode?_prune, if_pos rfl], rfl, fun _ => rfl⟩
    · exact ⟨inode, by rw [inode?_prune, if_neg here, if_neg stays]; exact found, rfl,
        fun shape => shape⟩
  origin := by
    intro id inode found
    rcases prune_origin found with ⟨rfl, rfl⟩ | ⟨kept, before⟩
    · exact .inr ⟨fun cut => hangs.outside ((all _).mp cut), parent, hangs.above, rfl, rfl⟩
    · exact .inr ⟨kept, inode, before, rfl, rfl⟩
  lists_iff := by
    intro holder entry
    simpa only [exists_false, or_false] using lists_prune linked hangs all
  present := fun _ _ _ => False.elim
  alone := fun _ _ _ _ => False.elim
  free := fun _ _ _ _ _ => False.elim
  once := by
    intro id inode found
    rcases prune_origin found with ⟨-, rfl⟩ | ⟨-, before⟩
    · exact (linked.once _ _ hangs.above).erase _
    · exact linked.once id inode before
  sized := by
    intro id inode content found file
    rcases prune_origin found with ⟨-, rfl⟩ | ⟨-, before⟩
    · cases file
    · exact linked.sized id inode content before file

/-- Cutting a whole subtree off keeps the rest linked. -/
theorem prune_linked : (volume.prune now parent source gone).Linked :=
  (prune_relinks linked hangs all).linked linked

/-- What was reached and is not cut off is still reached. -/
theorem prune_below (below : volume.Below volume.rootId id) (stays : id ∉ gone) :
    (volume.prune now parent source gone).Below volume.rootId id := by
  induction below with
  | refl => exact .refl
  | tail _ listed ih =>
    have upper := fun cut => stays ((all _).mpr (((all _).mp cut).tail listed))
    exact (ih upper).tail ((lists_prune linked hangs all).mpr ⟨listed, stays⟩)

end Hangs

/-! ## Hanging an entry elsewhere -/

/-- The volume with an entry taken from one directory to the end of another, under a new name. -/
def rehang (volume : Volume) (now : Binary64) (parent target source : Inode) (name : String) :
    Volume :=
  ((volume.put (parent.withChildren now (parent.children.erase source.id))).put
    (target.withChildren now (target.children.erase source.id ++ [source.id]))).put
    { source with name, parent := some target.id, modified := now }

@[simp] theorem rootId_rehang :
    (volume.rehang now parent target source name).rootId = volume.rootId := rfl

theorem inode?_rehang : (volume.rehang now parent target source name).inode? id =
    if id = source.id then some { source with name, parent := some target.id, modified := now }
    else if id = target.id then
      some (target.withChildren now (target.children.erase source.id ++ [source.id]))
    else if id = parent.id then some (parent.withChildren now (parent.children.erase source.id))
    else volume.inode? id := by
  rw [rehang, inode?_put, inode?_put, inode?_put]
  rfl

/-- An entry and a directory it can be moved to: one that is not the entry itself and in which the
name is free. -/
structure Moves (volume : Volume) (parent target source : Inode) (name : String) : Prop where
  hangs : volume.Hangs parent source
  held : volume.inode? target.id = some target
  directory : target.isDirectory = true
  differs : target.id ≠ source.id
  free : volume.childNamed? target name = none

namespace Moves

variable (linked : volume.Linked) (moves : volume.Moves parent target source name)

include linked moves

theorem lists_rehang : (volume.rehang now parent target source name).Lists holder entry ↔
    (volume.Lists holder entry ∧ entry ≠ source.id) ∨
      (holder = target.id ∧ entry = source.id) := by
  have only : ∀ {holder}, volume.Lists holder source.id → holder = parent.id :=
    fun listed => linked.lists_unique listed (moves.hangs.lists linked)
  unfold Lists
  rw [inode?_rehang]
  by_cases moved : holder = source.id
  · subst moved
    have apart : entry ∈ source.children → entry ≠ source.id := by
      rintro listed rfl
      exact moves.hangs.ids_ne (only ⟨source, moves.hangs.held, listed⟩).symm
    simpa [moves.hangs.held, Ne.symm moves.differs, Record.children] using apart
  · rw [if_neg moved]
    by_cases here : holder = target.id
    · subst here
      simp only [↓reduceIte, moves.held, Option.some.injEq, exists_eq_left', true_and,
        Record.withChildren_children, List.mem_append, List.mem_singleton,
        (linked.once _ _ moves.held).mem_erase_iff]
      rw [and_comm]
    · rw [if_neg here]
      by_cases left : holder = parent.id
      · subst left
        simp only [↓reduceIte, moves.hangs.above, Option.some.injEq, exists_eq_left', here,
          false_and, or_false, Record.withChildren_children,
          (linked.once _ _ moves.hangs.above).mem_erase_iff]
        rw [and_comm]
      · simp only [left, here, ↓reduceIte, false_and, or_false]
        constructor
        · intro listed
          refine ⟨listed, ?_⟩
          rintro rfl
          exact left (only listed)
        · exact And.left

omit linked in
/-- What is found after a move is the moved entry or an old inode with its parent and its name. -/
theorem rehang_origin (found : (volume.rehang now parent target source name).inode? id = some inode) :
    (id = source.id ∧ inode.parent = some target.id ∧ inode.name = name) ∨
      (id ≠ source.id ∧ ∃ before, volume.inode? id = some before ∧ before.parent = inode.parent ∧
        before.name = inode.name) := by
  rw [inode?_rehang] at found
  split at found
  · rename_i moved
    cases found
    exact .inl ⟨moved, rfl, rfl⟩
  rename_i stays
  refine .inr ⟨stays, ?_⟩
  split at found
  · rename_i here
    cases found
    exact ⟨target, here ▸ moves.held, rfl, rfl⟩
  split at found
  · rename_i left
    cases found
    exact ⟨parent, left ▸ moves.hangs.above, rfl, rfl⟩
  · exact ⟨inode, found, rfl, rfl⟩

omit linked in
/-- A move leaves the ids as they are. -/
theorem inode?_rehang_eq_none_iff :
    (volume.rehang now parent target source name).inode? id = none ↔ volume.inode? id = none := by
  rw [inode?_rehang]
  split
  · rename_i here
    simp [here, moves.hangs.held]
  split
  · rename_i here
    simp [here, moves.held]
  split
  · rename_i here
    simp [here, moves.hangs.above]
  · rfl

theorem rehang_once (found : (volume.rehang now parent target source name).inode? id = some inode) :
    inode.children.Nodup := by
  rw [inode?_rehang] at found
  split at found
  · cases found
    exact linked.once _ source moves.hangs.held
  split at found
  · cases found
    rw [Record.withChildren_children]
    have once := linked.once _ _ moves.held
    refine List.nodup_append.mpr ⟨once.erase _, by simp, ?_⟩
    intro entry listed moved same apart
    rw [apart, List.mem_singleton.mp same] at listed
    exact once.not_mem_erase listed
  split at found
  · cases found
    exact (linked.once _ _ moves.hangs.above).erase _
  · exact linked.once id inode found

theorem rehang_sized {content : String}
    (found : (volume.rehang now parent target source name).inode? id = some inode)
    (file : inode.payload = .file content) : inode.size = byteSize content := by
  rw [inode?_rehang] at found
  split at found
  · cases found
    exact linked.sized _ source content moves.hangs.held file
  split at found
  · cases found
    cases file
  split at found
  · cases found
    cases file
  · exact linked.sized id inode content found file

/-- The one link that a move makes is that of the moved entry. -/
private theorem rehang_relinks : volume.Relinks (volume.rehang now parent target source name)
    (· ≠ source.id)
    fun entry holder given => entry = source.id ∧ holder = target.id ∧ given = name where
  keyed := linked.keyed.put.put.put
  root := rfl
  top := Ne.symm (moves.hangs.ne_root linked)
  kept := by
    intro id inode found stays
    rw [inode?_rehang, if_neg stays]
    split
    · rename_i here
      rw [here, moves.held] at found
      cases found
      exact ⟨_, rfl, rfl, fun _ => rfl⟩
    split
    · rename_i left
      rw [left, moves.hangs.above] at found
      cases found
      exact ⟨_, rfl, rfl, fun _ => rfl⟩
    · exact ⟨inode, found, rfl, fun shape => shape⟩
  origin := by
    intro id inode found
    rcases rehang_origin moves found with ⟨moved, up, named⟩ | old
    · exact .inl ⟨target.id, up, moved, rfl, named⟩
    · exact .inr old
  lists_iff := by
    intro holder entry
    rw [lists_rehang linked moves]
    constructor
    · rintro (stays | ⟨rfl, rfl⟩)
      · exact .inl stays
      · exact .inr ⟨name, rfl, rfl, rfl⟩
    · rintro (stays | ⟨given, rfl, rfl, -⟩)
      · exact .inl stays
      · exact .inr ⟨rfl, rfl⟩
  present := by
    rintro entry holder given ⟨rfl, rfl, -⟩
    exact ⟨_, by rw [inode?_rehang, if_pos rfl], rfl⟩
  alone := by
    rintro a b holder given ⟨rfl, -⟩ ⟨rfl, -⟩
    rfl
  free := by
    rintro entry holder given id inode ⟨-, rfl, rfl⟩ found up
    exact linked.name_ne_of_free moves.held moves.free found up
  once := fun _ _ => rehang_once linked moves
  sized := fun _ _ _ => rehang_sized linked moves

/-- Moving an entry keeps the volume linked. -/
theorem rehang_linked : (volume.rehang now parent target source name).Linked :=
  (rehang_relinks linked moves).linked linked

/-- What does not hang below the moved entry stays where it is. -/
theorem rehang_below_of_outside {top : String} (below : volume.Below top id)
    (outside : ¬ volume.Below source.id id) :
    (volume.rehang now parent target source name).Below top id := by
  induction below with
  | refl => exact .refl
  | tail _ listed ih =>
    have upper : ¬ volume.Below source.id _ := fun inside => outside (inside.tail listed)
    refine (ih upper).tail ((lists_rehang linked moves).mpr (.inl ⟨listed, ?_⟩))
    rintro rfl
    exact outside .refl

/-- What hangs below the moved entry moves with it, and keeps its place there. -/
theorem rehang_below_inside {top : String} (inside : volume.Below source.id top)
    (below : volume.Below top id) :
    (volume.rehang now parent target source name).Below top id := by
  induction below with
  | refl => exact .refl
  | tail upper listed ih =>
    refine ih.tail ((lists_rehang linked moves).mpr (.inl ⟨listed, ?_⟩))
    rintro rfl
    have same := linked.lists_unique listed (moves.hangs.lists linked)
    exact moves.hangs.outside (same ▸ inside.trans upper)

/-- What was reached still is, unless the entry is moved below itself. -/
theorem rehang_below (below : volume.Below volume.rootId id)
    (reached : volume.Below volume.rootId target.id)
    (outside : ¬ volume.Below source.id target.id) :
    (volume.rehang now parent target source name).Below volume.rootId id := by
  by_cases inside : volume.Below source.id id
  · have there : (volume.rehang now parent target source name).Below volume.rootId target.id :=
      rehang_below_of_outside linked moves reached outside
    have hung : (volume.rehang now parent target source name).Lists target.id source.id :=
      (lists_rehang linked moves).mpr (.inr ⟨rfl, rfl⟩)
    exact (there.tail hung).trans (rehang_below_inside linked moves .refl inside)
  · exact rehang_below_of_outside linked moves below inside

/-- An entry that is moved below itself is not reached any more, and nor is what hangs below it. -/
theorem not_below_of_rehang (inside : volume.Below source.id target.id)
    (below : (volume.rehang now parent target source name).Below volume.rootId id) :
    ¬ volume.Below source.id id := by
  induction below with
  | refl =>
    intro above
    exact moves.hangs.ne_root linked (linked.eq_root_of_below above)
  | tail _ listed ih =>
    intro further
    rcases (lists_rehang linked moves).mp listed with ⟨before, differs⟩ | ⟨here, -⟩
    · rcases Relation.ReflTransGen.cases_tail further with same | ⟨holder, upper, also⟩
      · exact differs same
      · exact ih (linked.lists_unique also before ▸ upper)
    · exact ih (here ▸ inside)

end Moves

/-- In a rooted volume no directory lies below one of its entries. -/
theorem Rooted.not_below (rooted : volume.Rooted) (listed : volume.Lists holder entry) :
    ¬ volume.Below entry holder := by
  obtain ⟨inode, found, up⟩ := (rooted.linked.lists_iff _ _).mp listed
  obtain ⟨directory, held, -⟩ := listed
  obtain ⟨trail, route⟩ := route_of_below (rooted.reached _ _ found) found
  rw [← id_of_inode? held] at up ⊢
  rw [← id_of_inode? found]
  exact route.not_below_parent rooted.linked up

end Volume

end PocketShell
