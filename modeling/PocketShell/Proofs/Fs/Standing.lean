import PocketShell.Proofs.Fs.Requests

/-! Writes leave directories where they are. A write fills a file, makes one or sets a time; every
inode that there was is there afterwards under its id and its name, of its type and open to the same
users, and a directory has lost no entry. So whoever could take a route can take it after the write,
and it spells the same path. -/
namespace PocketShell

open Volume

variable {actor : Actor} {before after machine : Machine} {path : String}

/-- The second inode is the first with its times, its content or more entries changed. -/
structure Record.Stands (inode other : Inode) : Prop where
  name : other.name = inode.name
  type : other.type = inode.type
  permits : ∀ user access, other.permits user access = inode.permits user access
  children : inode.children ⊆ other.children

namespace Record.Stands

variable {inode : Inode} {now : Binary64}

theorem refl (inode : Inode) : inode.Stands inode := ⟨rfl, rfl, fun _ _ => rfl, List.Subset.refl _⟩

theorem trans {other last : Inode} (first : inode.Stands other) (second : other.Stands last) :
    inode.Stands last where
  name := second.name.trans first.name
  type := second.type.trans first.type
  permits := fun user access => (second.permits user access).trans (first.permits user access)
  children := List.Subset.trans first.children second.children

theorem touch : inode.Stands (inode.touch now) := ⟨rfl, rfl, fun _ _ => rfl, List.Subset.refl _⟩

theorem setContent {content : String} : inode.Stands (inode.setContent now content) := by
  have header : (inode.setContent now content).type = inode.type ∧
      (inode.setContent now content).children = inode.children := by
    unfold Record.setContent Record.type Record.children
    cases inode.payload <;> exact ⟨rfl, rfl⟩
  exact ⟨rfl, header.1, fun _ _ => rfl, header.2 ▸ List.Subset.refl _⟩

theorem withChildren (directory : inode.isDirectory = true) (id : String) :
    inode.Stands (inode.withChildren now (inode.children ++ [id])) := by
  have type : inode.type = .directory := by simpa [Record.isDirectory] using directory
  exact ⟨rfl, type.symm, fun _ _ => rfl, List.subset_append_left _ _⟩

end Record.Stands

namespace Volume

variable {first second third : Volume} {inode other : Inode} {user : String} {trail : List Inode}

/-- Every inode of the first volume still stands in the second. -/
structure StandsIn (first second : Volume) : Prop where
  root : second.rootId = first.rootId
  held : ∀ id inode, first.inode? id = some inode →
    ∃ other, second.inode? id = some other ∧ inode.Stands other

namespace StandsIn

theorem refl (volume : Volume) : volume.StandsIn volume :=
  ⟨rfl, fun _ inode found => ⟨inode, found, .refl inode⟩⟩

theorem trans (former : first.StandsIn second) (later : second.StandsIn third) :
    first.StandsIn third where
  root := later.root.trans former.root
  held := by
    intro id inode found
    obtain ⟨other, between, stands⟩ := former.held id inode found
    obtain ⟨last, there, again⟩ := later.held id other between
    exact ⟨last, there, stands.trans again⟩

theorem put (held : first.inode? other.id = some inode) (stands : inode.Stands other) :
    first.StandsIn (first.put other) := by
  refine ⟨rfl, fun id old found => ?_⟩
  rw [inode?_put]
  split
  · rename_i here
    rw [here, held] at found
    cases found
    exact ⟨other, rfl, stands⟩
  · exact ⟨old, found, .refl old⟩

theorem graft {parent child : Inode} {now : Binary64} (fits : first.Fits parent child) :
    first.StandsIn (first.graft now parent child) := by
  refine ⟨rfl, fun id old found => ?_⟩
  by_cases here : id = parent.id
  · rw [here, fits.held] at found
    cases found
    exact ⟨_, here ▸ fits.inode?_parent, .withChildren fits.directory _⟩
  · exact ⟨old, fits.inode?_other here found, .refl old⟩

/-- A route is still there, by the same names. -/
theorem route (stands : first.StandsIn second) (taken : first.Route user trail inode) :
    ∃ way there, second.Route user way there ∧ there.id = inode.id ∧ inode.Stands there ∧
      routeNames way there = routeNames trail inode := by
  induction taken with
  | @root root found =>
    obtain ⟨there, held, still⟩ := stands.held _ root found
    refine ⟨[], there, .root (stands.root ▸ held), ?_, still, rfl⟩
    rw [id_of_inode? held, id_of_inode? found]
  | @entry trail directory inode id above search listed found ih =>
    obtain ⟨way, holder, reached, -, kept, names⟩ := ih
    obtain ⟨there, held, still⟩ := stands.held _ inode found
    have enters := (kept.permits user .execute).trans search
    refine ⟨holder :: way, there, .entry reached enters (kept.children listed) held, ?_, still, ?_⟩
    · rw [id_of_inode? held, id_of_inode? found]
    · rw [routeNames, routeNames, still.name, names]

/-- So the path of what can be reached stays the same. -/
theorem pathOf (stands : first.StandsIn second) (linked : first.Linked) (numbered : first.Numbered)
    (linkedAfter : second.Linked) (numberedAfter : second.Numbered)
    (taken : first.Route user trail inode) : second.pathOf inode.id = first.pathOf inode.id := by
  obtain ⟨way, there, reached, same, -, names⟩ := stands.route taken
  rw [← same, reached.pathOf_eq linkedAfter numberedAfter, names, same,
    taken.pathOf_eq linked numbered]

end StandsIn

end Volume

namespace Fs

/-- The file to write to is there, and nothing else is lost. -/
private theorem findOrCreate_stands {result : Except FsFailure Inode}
    (linked : before.volume.Linked) (fresh : before.IdsFresh)
    (ran : findOrCreate path actor before = (result, after)) :
    before.volume.StandsIn after.volume ∧
      ∀ inode, result = .ok inode → after.volume.inode? inode.id = some inode := by
  have created : Created actor before path _ _ := findOrCreate_created linked path
  rw [ran] at created
  cases created with
  | @refused failure refuses =>
    refine ⟨?_, fun _ impossible => nomatch impossible⟩
    change before.volume.StandsIn (before.record actor.user failure).volume
    rw [Machine.record_volume]
    exact .refl _
  | found leads =>
    refine ⟨.refl _, ?_⟩
    rintro inode ⟨⟩
    obtain ⟨trail, route⟩ := linked.route_of_lookup leads
    exact route.held
  | touched nowhere bare parent named =>
    obtain ⟨id, -, found, -⟩ := childNamed?_mem named
    refine ⟨.put (id_of_inode? found ▸ found : before.volume.inode? _ = _) .touch, ?_⟩
    rintro inode ⟨⟩
    exact inode?_put_self
  | @made directory name after nowhere bare parent free writes volume supply =>
    obtain ⟨⟨trail, route⟩, shape, -⟩ := linked.route_of_lookupParent parent
    have newcomer : Newcomer actor.user before directory (newFile actor before directory name) :=
      ⟨rfl, rfl, rfl, rfl, by intro text same; cases same; rfl⟩
    have fits := newcomer.fits fresh route.held shape free
    rw [volume]
    refine ⟨.graft fits, ?_⟩
    rintro inode ⟨⟩
    exact Fits.inode?_child

/-- Whether it is refused or done, a write leaves every inode standing. -/
theorem rewrite_stands (linked : before.volume.Linked) (fresh : before.IdsFresh) (path : String)
    (rule : Inode → String) :
    before.volume.StandsIn (rewrite path rule actor before).2.volume := by
  unfold rewrite openForWrite
  simp only [run_bind]
  cases ran : findOrCreate path actor before with
  | mk result machine =>
    obtain ⟨stands, held⟩ := findOrCreate_stands linked fresh ran
    cases result with
    | error failure => exact stands
    | ok inode =>
      obtain ⟨result, checked, -⟩ : ∃ result, demandFile path inode actor machine = _ ∧ _ :=
        demandFile_reads path inode
      simp only [checked]
      cases result with
      | error failure => exact (congrArg _ Machine.record_volume).mpr stands
      | ok done => exact stands.trans (.put (held inode rfl) .setContent)

end Fs

/-- A request to write leaves every inode standing. -/
theorem Machine.serve_writeText_stands (linked : before.volume.Linked) (fresh : before.IdsFresh)
    (actor : Actor) (path content : String) :
    before.volume.StandsIn (before.serve actor (.writeText path content)).2.volume := by
  have stands : before.volume.StandsIn (Fs.writeText path content actor before).2.volume :=
    Fs.rewrite_stands linked fresh path _
  have same : (before.serve actor (.writeText path content)).2 =
      (Fs.writeText path content actor before).2 := by
    change ((Request.Value.inode <$> Fs.writeText path content : Fs _) actor before).2 = _
    rw [Fs.map_run]
    generalize Fs.writeText path content actor before = outcome
    obtain ⟨result, after⟩ := outcome
    cases result <;> rfl
  rw [same]
  exact stands

end PocketShell
