import PocketShell.Fs.Layout
import PocketShell.Proofs.Fs.Names

/-! Fresh filesystems. A layout is planted entry by entry into the directory whose path it names, and
where no two entries have the same place each of them grows the tree by one leaf. The paths of what
is there already do not change by that, which is what keeps the places apart. -/
namespace PocketShell

open Volume

variable {volume after : Volume} {inode parent child : Inode} {id holder : String}
  {user : String} {trail : List Inode}

namespace Volume

/-- An inode of a volume is still there after an entry was grafted, with its name and all its
entries. -/
theorem Fits.kept (fits : volume.Fits parent child) (now : Binary64)
    (found : volume.inode? id = some inode) :
    ∃ still, (volume.graft now parent child).inode? id = some still ∧ still.name = inode.name ∧
      ∀ entry ∈ inode.children, entry ∈ still.children := by
  by_cases here : id = parent.id
  · subst here
    rw [fits.held] at found
    cases found
    refine ⟨_, fits.inode?_parent, rfl, fun entry listed => ?_⟩
    exact List.mem_append_left _ listed
  · exact ⟨inode, fits.inode?_other here found, rfl, fun entry listed => listed⟩

private theorem Fits.route (fits : volume.Fits parent child) (now : Binary64)
    (route : volume.Route user trail inode) :
    ∃ way still, (volume.graft now parent child).Route rootUser way still ∧ still.id = inode.id ∧
      routeNames way still = routeNames trail inode := by
  induction route with
  | root found =>
    obtain ⟨still, present, -⟩ := fits.kept now found
    exact ⟨[], still, .root present, (id_of_inode? present).trans (id_of_inode? found).symm, rfl⟩
  | @entry trail directory inode id above search listed found ih =>
    obtain ⟨way, there, route, same, names⟩ := ih
    obtain ⟨again, held, -, more⟩ := fits.kept now above.held
    rw [← same, route.held] at held
    cases held
    obtain ⟨still, present, name, -⟩ := fits.kept now found
    refine ⟨there :: way, still, .entry route (by simp [Record.permits]) (more id listed) present,
      (id_of_inode? present).trans (id_of_inode? found).symm, ?_⟩
    rw [routeNames, routeNames, names, name]

/-- A graft changes no path. -/
theorem Fits.pathOf_eq (fits : volume.Fits parent child) (now : Binary64) (rooted : volume.Rooted)
    (numbered : volume.Numbered) (named : child.id ≠ "") (found : volume.inode? id = some inode) :
    (volume.graft now parent child).pathOf id = volume.pathOf id := by
  have linked : (volume.graft now parent child).Linked := rooted.linked.graft fits
  have numbers : (volume.graft now parent child).Numbered := by
    intro id inode found
    rcases fits.origin found with ⟨rfl, -⟩ | ⟨-, before, held, -⟩
    · exact named
    · exact numbered id before held
  obtain ⟨trail, route⟩ := route_of_below (rooted.reached id inode found) found
  obtain ⟨way, still, grown, same, names⟩ := fits.route now route
  have here := route.pathOf_eq rooted.linked numbered
  have there := grown.pathOf_eq linked numbers
  rw [same, names, ← here] at there
  rw [← id_of_inode? found]
  exact there

end Volume

namespace Layout

/-- The places of the entries: the directory of each and its name there. -/
def places (layout : Layout) : List (String × String) :=
  layout.map fun entry => Path.splitParent entry.path

/-- No two entries have one place, and all have proper names. -/
structure WellFormed (layout : Layout) : Prop where
  names : ∀ place ∈ layout.places, Path.IsEntryName place.2
  once : layout.places.Nodup

private theorem inodeOf_name {entry : LayoutEntry} {now : Binary64} :
    (inodeOf entry now id holder).name = (Path.splitParent entry.path).2 := by
  simp only [inodeOf]

private theorem inodeOf_leaf {entry : LayoutEntry} {now : Binary64} :
    (inodeOf entry now id holder).children = [] := by
  cases content : entry.content <;> simp [inodeOf, Record.children, content]

private theorem inodeOf_sized {entry : LayoutEntry} {now : Binary64} (content : String)
    (file : (inodeOf entry now id holder).payload = .file content) :
    (inodeOf entry now id holder).size = byteSize content := by
  cases written : entry.content with
  | none => simp [inodeOf, written] at file
  | some text =>
    simp only [inodeOf, written, Payload.file.injEq] at file
    simp [inodeOf, written, file]

/-- An entry is grafted into the directory with the path that it names, if there is one. -/
private theorem plant_cases (now : Binary64) (volume : Volume) (entry : LayoutEntry)
    (id : String) :
    plant now volume entry id = volume ∨
      ∃ parent ∈ volume.inodes, volume.pathOf parent.id = (Path.splitParent entry.path).1 ∧
        parent.isDirectory = true ∧
        plant now volume entry id = volume.graft now parent (inodeOf entry now id parent.id) := by
  cases found : volume.inodes.find? fun inode =>
      volume.pathOf inode.id == (Path.splitParent entry.path).1 with
  | none =>
    left
    simp only [plant, found]
  | some parent =>
    cases payload : parent.payload with
    | directory entries =>
      have directory : parent.isDirectory = true := by
        simp [Record.isDirectory, Record.type, Payload.type, payload]
      refine .inr ⟨parent, List.mem_of_find?_eq_some found, by simpa using List.find?_some found,
        directory, ?_⟩
      simp only [plant, found, Record.addChild_eq directory]
      rfl
    | file content =>
      left
      simp only [plant, found, Record.addChild, payload]
    | symlink target =>
      left
      simp only [plant, found, Record.addChild, payload]

/-- What a layout has become so far: a tree of properly named inodes, each with one of the ids that
have been given out and in the place of an entry. -/
structure Planted (next : Nat) (places : List (String × String)) (volume : Volume) : Prop where
  rooted : volume.Rooted
  proper : volume.Proper
  given : ∀ id inode, volume.inode? id = some inode → ∃ n, n < next ∧ id = inodeId n
  placed : ∀ holder entry child, volume.Lists holder entry →
    volume.inode? entry = some child → (volume.pathOf holder, child.name) ∈ places

namespace Planted

variable {first next : Nat} {done : List (String × String)} {now : Binary64}

theorem numbered (planted : Planted next done volume) : volume.Numbered := by
  intro id inode found
  obtain ⟨n, -, rfl⟩ := planted.given id inode found
  exact inodeId_ne_empty n

theorem fresh (planted : Planted next done volume) {n : Nat} (ahead : next ≤ n) :
    volume.inode? (inodeId n) = none := by
  by_contra taken
  obtain ⟨inode, found⟩ := Option.ne_none_iff_exists'.mp taken
  obtain ⟨m, given, same⟩ := planted.given _ _ found
  rw [inodeId_injective same] at ahead
  exact absurd given (Nat.not_lt.mpr ahead)

/-- An entry without effect uses up its id and its place. -/
private theorem skip (planted : Planted next done volume) (place : String × String) :
    Planted (next + 1) (done ++ [place]) volume where
  rooted := planted.rooted
  proper := planted.proper
  given := by
    intro id inode found
    obtain ⟨n, given, same⟩ := planted.given id inode found
    exact ⟨n, Nat.lt_succ_of_lt given, same⟩
  placed := fun holder entry child listed found =>
    List.mem_append_left _ (planted.placed holder entry child listed found)

private theorem graft (planted : Planted next done volume) (fits : volume.Fits parent child)
    (named : Path.IsEntryName child.name) (number : child.id = inodeId next) :
    Planted (next + 1) (done ++ [(volume.pathOf parent.id, child.name)])
      (volume.graft now parent child) where
  rooted := by
    have growth : Growth child.owner volume parent (volume.graft now parent child) :=
      .graft .unchanged fits (.inl rfl) rfl (.inl named)
    exact ⟨growth.linked planted.rooted.linked, growth.reached planted.rooted.reached⟩
  proper := by
    intro id inode found inner
    rcases fits.origin found with ⟨-, rfl⟩ | ⟨-, old, held, -, same⟩
    · exact named
    · exact same ▸ planted.proper id old held inner
  given := by
    intro id inode found
    rcases fits.origin found with ⟨rfl, -⟩ | ⟨-, old, held, -, -⟩
    · exact ⟨next, Nat.lt_succ_self next, number⟩
    · obtain ⟨n, given, same⟩ := planted.given id old held
      exact ⟨n, Nat.lt_succ_of_lt given, same⟩
  placed := by
    have stays : ∀ {id inode}, volume.inode? id = some inode →
        (volume.graft now parent child).pathOf id = volume.pathOf id :=
      fun found => fits.pathOf_eq now planted.rooted planted.numbered
        (number ▸ inodeId_ne_empty next) found
    intro holder entry new listed found
    rcases fits.lists_iff.mp listed with before | ⟨rfl, rfl⟩
    · have ⟨directory, above, _⟩ := before
      obtain ⟨old, held, -⟩ := (planted.rooted.linked.lists_iff _ _).mp before
      rcases fits.origin found with ⟨rfl, -⟩ | ⟨-, same, present, -, name⟩
      · rw [fits.fresh] at held
        cases held
      · rw [stays above, ← name]
        exact List.mem_append_left _ (planted.placed holder entry same before present)
    · rw [Fits.inode?_child] at found
      cases found
      rw [stays fits.held]
      exact List.mem_append_right _ List.mem_cons_self

/-- One more entry of a layout, in a place of its own. -/
theorem plant (planted : Planted next done volume) {entry : LayoutEntry}
    (named : Path.IsEntryName (Path.splitParent entry.path).2)
    (free : Path.splitParent entry.path ∉ done) :
    Planted (next + 1) (done ++ [Path.splitParent entry.path])
      (Layout.plant now volume entry (inodeId next)) := by
  rcases plant_cases now volume entry (inodeId next) with same | ⟨parent, member, shown, shape, same⟩
  · rw [same]
    exact planted.skip _
  · have held := planted.rooted.linked.keyed.inode?_of_mem member
    have place : Path.splitParent entry.path =
        (volume.pathOf parent.id, (inodeOf entry now (inodeId next) parent.id).name) := by
      rw [inodeOf_name, shown]
    have fits : volume.Fits parent (inodeOf entry now (inodeId next) parent.id) := by
      refine ⟨held, shape, planted.fresh (Nat.le_refl next), rfl, inodeOf_leaf, ?_, inodeOf_sized⟩
      refine childNamed?_eq_none_iff.mpr fun id listed child present name => free ?_
      rw [place, ← name]
      exact planted.placed parent.id id child ⟨parent, held, listed⟩ present
    rw [same, place]
    refine planted.graft fits ?_ rfl
    rw [inodeOf_name]
    exact named

end Planted

/-- A root alone is a tree. -/
private theorem planted_root (now : Binary64) (first : Nat) :
    Planted (first + 1) [] ⟨[freshRoot now (inodeId first)], inodeId first, 0⟩ := by
  have only : ∀ {id inode},
      (⟨[freshRoot now (inodeId first)], inodeId first, 0⟩ : Volume).inode? id = some inode →
        id = inodeId first ∧ inode = freshRoot now (inodeId first) := by
    intro id inode found
    have same := List.mem_singleton.mp (mem_of_inode? found)
    refine ⟨?_, same⟩
    rw [← id_of_inode? found, same]
    rfl
  have bare : ∀ {holder entry},
      ¬ (⟨[freshRoot now (inodeId first)], inodeId first, 0⟩ : Volume).Lists holder entry := by
    rintro holder entry ⟨directory, held, listed⟩
    rw [(only held).2] at listed
    cases listed
  refine ⟨⟨⟨?_, ?_, ?_, ?_, ?_, ?_, ?_⟩, ?_⟩, ?_, ?_, ?_⟩
  · exact List.nodup_singleton _
  · exact ⟨freshRoot now (inodeId first), by simp [inode?, freshRoot], rfl, rfl⟩
  · intro holder entry
    refine ⟨fun listed => absurd listed bare, ?_⟩
    rintro ⟨inode, found, up⟩
    rw [(only found).2] at up
    cases up
  · intro id inode found _
    exact (only found).1
  · intro id inode found
    rw [(only found).2]
    exact List.nodup_nil
  · intro a b first second found present _ _
    exact (only found).1.trans (only present).1.symm
  · intro id inode content found file
    rw [(only found).2] at file
    cases file
  · intro id inode found
    rw [(only found).1]
    exact .refl
  · intro id inode found inner
    exact absurd (only found).1 inner
  · intro id inode found
    exact ⟨first, Nat.lt_succ_self first, (only found).1⟩
  · intro holder entry child listed
    exact absurd listed bare

/-- The entries of a layout, planted one after another. -/
private theorem planted_foldl {now : Binary64} {next : Nat} {done : List (String × String)}
    {entries : Layout} (planted : Planted next done volume)
    (names : ∀ place ∈ entries.places, Path.IsEntryName place.2)
    (once : (done ++ entries.places).Nodup) :
    Planted (next + entries.length) (done ++ entries.places)
      ((entries.zipIdx next).foldl
        (fun volume (entry, n) => plant now volume entry (inodeId n)) volume) := by
  induction entries generalizing next done volume with
  | nil => simpa [places] using planted
  | cons entry rest ih =>
    have free : Path.splitParent entry.path ∉ done := by
      intro taken
      rw [places, List.map_cons, List.nodup_append] at once
      exact once.2.2 _ taken _ List.mem_cons_self rfl
    have more : Planted _ _ (plant now volume entry (inodeId next)) :=
      planted.plant (names _ List.mem_cons_self) free
    have all := ih more (fun place member => names place (List.mem_cons_of_mem _ member))
      (by simpa [places] using once)
    rw [List.zipIdx_cons, List.foldl_cons, List.length_cons, ← Nat.add_assoc, Nat.add_right_comm]
    simpa [places] using all

/-- A well-formed layout is planted as a whole. -/
theorem build_planted {layout : Layout} (wellFormed : layout.WellFormed) (now : Binary64)
    (first : Nat) : ∃ volume, layout.build now first = .ofVolume volume ∧
      Planted (first + 1 + layout.length) layout.places volume :=
  ⟨_, rfl, planted_foldl (planted_root now first) wellFormed.names wellFormed.once⟩

/-! ## The stock layouts -/

/-- A layout that a filesystem can be made from: the empty one or one with a name. -/
inductive Stock : Layout → Prop
  | empty : Stock []
  | named {name : String} {layout : Layout} (known : named? name = some layout) : Stock layout

private theorem places_standard : places standard = [
    ("/", "bin"), ("/", "etc"), ("/etc", "hostname"), ("/etc", "passwd"), ("/etc", "group"),
    ("/", "home"), ("/home", "guest"), ("/", "root"), ("/", "tmp"), ("/", "var"), ("/var", "log"),
    ("/var/log", "syslog"), ("/", "proc"), ("/", "usr"), ("/usr", "bin"), ("/usr", "local")] := by
  decide +kernel

private theorem places_cluster : places cluster = [
    ("/", "home"), ("/home", "guest"), ("/home/guest", "work"), ("/home/guest", "data"),
    ("/", "shared"), ("/", "etc")] := by
  decide +kernel

theorem Stock.wellFormed {layout : Layout} (stock : Stock layout) : layout.WellFormed := by
  cases stock with
  | empty => exact ⟨by simp [places], by simp [places]⟩
  | named known =>
    unfold named? at known
    split at known
    · cases known
      constructor
      · rw [places_standard]
        decide
      · rw [places_standard]
        decide
    · cases known
      constructor
      · rw [places_cluster]
        decide
      · rw [places_cluster]
        decide
    · cases known

end Layout

end PocketShell
