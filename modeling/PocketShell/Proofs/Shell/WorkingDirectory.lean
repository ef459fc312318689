import PocketShell.Fs.Query
import PocketShell.Proofs.Fs.Entries
import PocketShell.Proofs.Fs.Splitting
import PocketShell.Proofs.Shell.Moving

/-! Working directories. A path is looked up from the working directory by resolving that first and
walking on from there; it leads where the path behind the working directory leads. The two can differ
only where the working directory is reached by links, and then only in that the path as a whole runs
out of them. The directories that `cd` tells are not reached so. -/
namespace PocketShell

open Volume

variable {machine : Machine} {volume : Volume} {actor : Actor} {inode directory : Inode}
  {trail : List Inode} {user path : String} {passed : List String}

namespace Volume

/-- The places along the path of an inode are those on its route. -/
private theorem Route.of_prefix (route : volume.Route user trail inode)
    (first : passed <+: (routeNames trail inode).reverse) (some : passed ≠ []) :
    ∃ shorter met, volume.Route user shorter met ∧ passed = (routeNames shorter met).reverse ∧
      (met = inode ∨ met ∈ trail) := by
  induction route with
  | root found =>
    rw [routeNames, List.reverse_nil, List.prefix_nil] at first
    exact absurd first some
  | @entry trail directory inode id above search listed found ih =>
    rw [routeNames, List.reverse_cons, List.prefix_concat_iff] at first
    rcases first with whole | before
    · refine ⟨_, inode, .entry above search listed found, ?_, .inl rfl⟩
      rw [whole, routeNames, List.reverse_cons]
    · obtain ⟨shorter, met, reached, names, place⟩ := ih before
      exact ⟨shorter, met, reached, names, .inr (List.mem_cons.mpr place)⟩

/-- Root gets wherever a user gets. -/
private theorem resolve_asRoot {follow : Bool} {names : List String}
    (leads : volume.resolve user follow 0 none (Path.toText ⟨true, names⟩) = .ok inode) :
    volume.resolve rootUser follow 0 none (Path.toText ⟨true, names⟩) = .ok inode := by
  have direct : ∀ someone, volume.lookup ⟨someone, "/"⟩ follow (Path.toText ⟨true, names⟩) =
      volume.resolve someone follow 0 none (Path.toText ⟨true, names⟩) := by
    intro someone
    rw [lookup_eq, Path.isAbsolute_toText]
    rfl
  rw [← direct] at leads ⊢
  exact lookup_asRoot leads

/-- No component of the path of a directory is a link, if its names can be spelt; where the path is
empty, it has no components. -/
theorem Route.unlinked (linked : volume.Linked) (route : volume.Route user trail directory)
    (shape : directory.isDirectory = true)
    (proper : ∀ name ∈ routeNames trail directory, Path.IsEntryName name) (someone : String) :
    volume.Unlinked someone (volume.pathOf directory.id) := by
  intro passed inode first some leads
  by_cases named : ∀ above ∈ trail, above.id ≠ ""
  · have components : ∀ name ∈ (routeNames trail directory).reverse, Path.IsComponent name :=
      fun name member => (proper name (List.mem_reverse.mp member)).1
    rw [route.pathOf_of_named linked named, Path.componentsOf_toText components] at first
    have properHere : ∀ name ∈ passed, Path.IsEntryName name :=
      fun name member => proper name (List.mem_reverse.mp (first.subset member))
    obtain ⟨shorter, met, reached, rfl, place⟩ := route.of_prefix first some
    obtain ⟨root, top, -⟩ := linked.root
    have back : volume.resolve rootUser false 0 none
        (Path.toText ⟨true, (routeNames shorter met).reverse⟩) = .ok met := by
      have walked : volume.descend rootUser
          (Path.toText ⟨true, (routeNames shorter met).reverse⟩) false
          (volume.resolveWithin rootUser linkDepth) ((routeNames shorter met).reverse ++ []) root =
          .ok met :=
        reached.as_root.descend linked top
          (fun name member => properHere name (List.mem_reverse.mpr member)) (.inr ⟨rfl, rfl⟩)
      rw [List.append_nil] at walked
      rw [resolve_of_root (root_of_inode? top), Path.componentsOf_toText
        fun name member => (properHere name member).1]
      exact walked
    cases (resolve_asRoot leads).symm.trans back
    have type : inode.type = .directory := by
      rcases place with rfl | member
      · simpa [Record.isDirectory] using shape
      · simpa [Record.isDirectory] using route.isDirectory_of_mem member
    simp [Record.isSymlink, type]
  · have unnamed : ∃ above ∈ trail, above.id = "" := by simpa using named
    rw [route.pathOf_of_unnamed linked unnamed, show Path.componentsOf "" = [] by decide,
      List.prefix_nil] at first
    exact absurd first some

/-- Two searches of which the second comes to what the first does have one answer. -/
private theorem Carries.ask_eq {lax : Prop} {first second : Except FsFailure Inode}
    {search other : Fs Inode} {searched found : Machine} (carries : Carries lax first second)
    (goes : search actor machine = (first, searched))
    (comes : other actor machine = (second, found))
    (spared : lax → (machine.ask actor search).1 ≠ .ok (.error .symlinkLoop)) :
    (machine.ask actor other).1 = (machine.ask actor search).1 := by
  unfold Machine.ask Machine.perform at spared ⊢
  rw [goes] at spared ⊢
  rw [comes]
  cases carries with
  | loop may => exact absurd rfl (spared may)
  | found => rfl
  | failed same =>
    dsimp only
    rw [same]

end Volume

/-- A relative path is looked up with the answer that the path behind the working directory has, unless
that runs out of links; and with that answer in any case if no component of the working directory is
a link, as with what `cd` tells. -/
theorem relative_lookup_agrees (reachable : Reachable Snapshot.Keyed machine) (actor : Actor)
    (follow : Bool) (path : String) (absolute : Path.isAbsolute actor.cwd = true)
    (relative : Path.isAbsolute path = false)
    (some : Path.componentsOf path ≠ []) :
    ((machine.ask actor (Fs.resolve follow 0 none (actor.cwd ++ "/" ++ path))).1 ≠
        .ok (.error .symlinkLoop) →
      (machine.ask actor (Fs.lookup follow path)).1 =
        (machine.ask actor (Fs.resolve follow 0 none (actor.cwd ++ "/" ++ path))).1) ∧
    (machine.volume.Unlinked actor.user actor.cwd →
      (machine.ask actor (Fs.lookup follow path)).1 =
        (machine.ask actor (Fs.resolve follow 0 none (actor.cwd ++ "/" ++ path))).1) ∧
    ∀ caller args here outcome after, here.machine = machine →
      Command.cd args caller here = (.ok outcome, after) → outcome.code = 0 →
      ∀ someone, after.machine.volume.Unlinked someone outcome.output := by
  have linked := (reachable.sound Snapshot.keyed_closed).linked
  have goes : Fs.resolve follow 0 none (actor.cwd ++ "/" ++ path) actor machine = (_, _) :=
    Fs.answer_run
  have comes : Fs.lookup follow path actor machine =
      (machine.volume.lookup actor follow path, _) := Fs.lookup_run
  refine ⟨fun spared => ?_, fun unlinked => ?_, ?_⟩
  · have carries : Carries True _ (machine.volume.lookup actor follow path) :=
      lookup_carries linked absolute relative some (.inl trivial)
    exact carries.ask_eq goes comes fun _ => spared
  · have carries : Carries False _ (machine.volume.lookup actor follow path) :=
      lookup_carries linked absolute relative some (.inr unlinked)
    exact carries.ask_eq goes comes False.elim
  · rintro caller args here outcome after rfl ran succeeds
    obtain ⟨rfl, leads⟩ := Shell.leads_of_cd ran succeeds
    cases leads with
    | mk argument leads shape enters named =>
      obtain ⟨trail, route, proper⟩ := linked.named_of_lookup leads
      exact named ▸ route.unlinked linked shape proper

/-- From behind a link to the directory above, a path that comes back through the link is looked up as
it is behind the working directory; and so is one from the root. -/
theorem looked_up_behind_link : Reachable Snapshot.Keyed linkedMachine ∧
    (linkedMachine.ask ⟨"guest", "/tmp/up"⟩ (Fs.lookup false "tmp/up")).1 =
      (linkedMachine.ask ⟨"guest", "/tmp/up"⟩ (Fs.resolve false 0 none "/tmp/up/tmp/up")).1 ∧
    (linkedMachine.ask ⟨"guest", "/"⟩ (Fs.lookup true "tmp/up")).1 =
      (linkedMachine.ask ⟨"guest", "/"⟩ (Fs.resolve true 0 none "//tmp/up")).1 := by
  have reachable : Reachable Snapshot.Keyed linkedMachine :=
    (sharedMachine_reachable _).serve _ _
  have some : Path.componentsOf "tmp/up" ≠ [] := by decide
  refine ⟨reachable, ?_, ?_⟩
  · have spared : ((linkedMachine.ask ⟨"guest", "/tmp/up"⟩
        (Fs.resolve false 0 none "/tmp/up/tmp/up")).1.toOption.bind (·.toOption)).isSome = true := by
      decide +kernel
    refine (relative_lookup_agrees reachable ⟨"guest", "/tmp/up"⟩ false "tmp/up" (by decide)
      (by decide) some).1 fun loops => ?_
    rw [show "/tmp/up" ++ "/" ++ "tmp/up" = "/tmp/up/tmp/up" from rfl] at loops
    rw [loops] at spared
    cases spared
  · refine (relative_lookup_agrees reachable ⟨"guest", "/"⟩ true "tmp/up" (by decide)
      (by decide) some).2.1 fun passed inode first some => ?_
    rw [show Path.componentsOf "/" = [] by decide, List.prefix_nil] at first
    exact absurd first some

end PocketShell
