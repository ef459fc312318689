import PocketShell.Proofs.Fs.Copying

/-! Copying and moving. Both look for a directory and a name first and refuse to put a directory
into itself; the test for that follows the lineage, so it is only as good as the lineage is. Where
it is complete a copy always comes to an end. -/
namespace PocketShell

open Volume

variable {actor : Actor} {before after machine : Machine} {volume : Volume}
  {inode parent target source : Inode} {user path name : String} {now : Binary64}
  {trail : List Inode}

namespace Volume

/-- Where a destination puts an inode: into the directory that it leads to, under the inode's own
name, or where it says, if it leads to no directory. -/
inductive Aims (volume : Volume) (actor : Actor) (dest : String) (inode : Inode) :
    Inode → String → Prop
  | into {directory : Inode} (leads : volume.lookup actor true dest = .ok directory)
      (shape : directory.isDirectory = true) : Aims volume actor dest inode directory inode.name
  | beside {parent : Inode} {name : String}
      (leads : volume.lookup actor true dest = .error (.refused .notFound) ∨
        ∃ other, volume.lookup actor true dest = .ok other ∧ other.isDirectory = false)
      (found : volume.lookupParent actor dest = .ok (parent, name)) :
      Aims volume actor dest inode parent name

namespace Aims

variable {dest : String} {directory : Inode}

/-- It is put into a directory that the actor has reached. -/
theorem route (aims : volume.Aims actor dest inode parent name) (linked : volume.Linked) :
    (∃ trail, volume.Route actor.user trail parent) ∧ parent.isDirectory = true := by
  cases aims with
  | into leads shape => exact ⟨linked.route_of_lookup leads, shape⟩
  | beside leads found =>
    obtain ⟨route, shape, -⟩ := linked.route_of_lookupParent found
    exact ⟨route, shape⟩

/-- The name is one that an entry can get. -/
theorem named (aims : volume.Aims actor dest inode parent name) (linked : volume.Linked) :
    Path.IsEntryName name ∨ name = inode.name := by
  cases aims with
  | into leads shape => exact .inr rfl
  | beside leads found =>
    obtain ⟨-, -, proper⟩ := linked.route_of_lookupParent found
    exact .inl proper

/-- A directory that is there takes the inode under its own name. -/
theorem eq_into (aims : volume.Aims actor dest inode parent name)
    (leads : volume.lookup actor true dest = .ok directory)
    (shape : directory.isDirectory = true) : parent = directory ∧ name = inode.name := by
  cases aims with
  | into again => exact ⟨Except.ok.inj (again.symm.trans leads), rfl⟩
  | beside other =>
    rcases other with nowhere | ⟨file, again, plain⟩
    · cases leads.symm.trans nowhere
    · cases leads.symm.trans again
      rw [shape] at plain
      cases plain

end Aims

/-- The user may read an inode and all below it, and search the directories there. -/
def Readable (volume : Volume) (user : String) (inode : Inode) : Prop :=
  ∀ node, volume.inode? node.id = some node → volume.Below inode.id node.id →
    node.permits user .read = true ∧
      (node.isDirectory = true → node.permits user .execute = true)

end Volume

namespace Fs

variable {spoils : FsFailure → Machine → Prop}

theorem destination_reads (linked : machine.volume.Linked) (path : String) (source : Inode) :
    Reads (destination path source) actor machine fun found =>
      machine.volume.Aims actor path source found.1 found.2 := by
  have parent : (machine.volume.lookup actor true path = .error (.refused .notFound) ∨
      ∃ other, machine.volume.lookup actor true path = .ok other ∧ other.isDirectory = false) →
      Reads (Fs.lookupParent path) actor machine fun found =>
        machine.volume.Aims actor path source found.1 found.2 := by
    intro beside
    have settled : Settled _ (machine.volume.lookupParent actor path) :=
      linked.enclosed_route.lookupParent
    have sought : Reads (Fs.lookupParent path) actor machine _ :=
      Reads.volume (Reads.read (Reads.answer settled.found))
    exact sought.imp fun found same => .beside beside same
  refine Reads.volume (Reads.read ?_)
  have settled : Settled _ (machine.volume.lookup actor true path) := linked.enclosed_route.lookup
  cases leads : machine.volume.lookup actor true path with
  | ok existing =>
    rw [leads] at parent
    by_cases directory : existing.isDirectory = true
    · simp only [directory, ↓reduceIte]
      exact (Reads.pure _).imp fun _ same => same ▸ .into leads directory
    · simp only [directory, Bool.false_eq_true, ↓reduceIte]
      exact parent (.inr ⟨existing, rfl, by simpa using directory⟩)
  | error failure =>
    rw [leads] at settled parent
    cases settled with
    | error refuses =>
      split
      · rename_i impossible
        cases impossible
      · rename_i same
        exact parent (.inl same)
      · rename_i other same
        cases same
        exact ⟨.error failure, rfl, .error refuses⟩

/-- Where nothing stands in the way, the destination is what it aims at. -/
theorem destination_run {dest : String} (aims : machine.volume.Aims actor dest inode parent name) :
    destination dest inode actor machine = (.ok (parent, name), machine) := by
  have above : ∀ {found}, machine.volume.lookupParent actor dest = .ok found →
      lookupParent dest actor machine = (.ok found, machine) := by
    intro found same
    rw [lookupParent_run, same]
    rfl
  unfold destination
  simp only [run_bind, volume_run, read_run]
  cases aims with
  | into leads shape =>
    simp only [leads, shape, ↓reduceIte]
    rfl
  | beside leads found =>
    rcases leads with nowhere | ⟨other, leads, plain⟩
    · simp only [nowhere]
      exact above found
    · simp only [leads, plain, Bool.false_eq_true, ↓reduceIte]
      exact above found

/-- Past the check the inode is known to be readable. -/
theorem demandReadable_reads (linked : machine.volume.Linked)
    (route : machine.volume.Route user trail inode) (path : String) :
    Reads (demandReadable path inode) actor machine fun _ =>
      machine.volume.Readable actor.user inode := by
  obtain ⟨rows, ran, nodes⟩ := route.walk linked
  have walks : Reads (liftM (machine.volume.walk inode)) actor machine (· = rows) :=
    Reads.lift ran rfl
  refine Reads.volume (walks.bind fun value same => ?_)
  have checks : Reads (value.forM fun row => do
      demand row.2 .read path "read"
      if row.2.isDirectory then demand row.2 .execute path "read") actor machine
      fun _ => ∀ row ∈ value, row.2.permits actor.user .read = true ∧
        (row.2.isDirectory = true → row.2.permits actor.user .execute = true) := by
    refine Reads.forM fun row _ => Reads.demand.bind fun _ allowed => ?_
    by_cases directory : row.2.isDirectory = true
    · simp only [directory, ↓reduceIte]
      exact Reads.demand.imp fun _ search => ⟨allowed, fun _ => search⟩
    · simp only [directory, Bool.false_eq_true, ↓reduceIte]
      exact (Reads.pure _).imp fun _ _ => ⟨allowed, False.elim⟩
  refine checks.imp fun _ readable node held below => ?_
  obtain ⟨shown, member⟩ := (nodes node).mpr ⟨held, below⟩
  exact readable _ (same ▸ member)

/-- What is readable passes the check. -/
theorem demandReadable_run (linked : machine.volume.Linked)
    (route : machine.volume.Route user trail inode)
    (readable : machine.volume.Readable actor.user inode) (path : String) :
    demandReadable path inode actor machine = (.ok (), machine) := by
  obtain ⟨rows, ran, nodes⟩ := route.walk linked
  unfold demandReadable
  simp only [run_bind, volume_run, lift_run, ran]
  refine forM_run fun row member => ?_
  obtain ⟨held, below⟩ := (nodes row.2).mp ⟨row.1, member⟩
  obtain ⟨allowed, search⟩ := readable row.2 held below
  simp only [run_bind, demand_run, if_pos allowed]
  split
  · rename_i directory
    rw [demand_run, if_pos (search directory)]
  · rfl

/-- The name that a destination gives is one that an entry can get. -/
theorem nameFor_destination {dest : String} (linked : volume.Linked)
    (found : volume.inode? source.id = some source)
    (aims : volume.Aims actor dest source parent name)
    (apart : source.isDirectory = true → volume.isWithin parent source = false) :
    volume.NameFor actor.user name := by
  obtain ⟨⟨trail, route⟩, -⟩ := aims.route linked
  rcases aims.named linked with proper | same
  · exact .inl proper
  · exact .inr ⟨source, found, same.symm, .inr ⟨trail, parent, route, apart⟩⟩

/-! ## Copying -/

/-- The copy of a tree into a free name. -/
private theorem copyTree_ends (linked : before.volume.Linked) (fresh : before.IdsFresh)
    {dest : String} (source : before.volume.Route user trail inode)
    (aims : before.volume.Aims actor dest inode parent name)
    (free : before.volume.childNamed? parent name = none)
    (writes : parent.permits actor.user .write = true)
    (apart : inode.isDirectory = true → before.volume.isWithin parent inode = false)
    {next : Inode → Fs Inode}
    (continues : ∀ copy made after, before.Step actor.user after →
      after.volume.inode? copy.id = some made → Ends (next copy) actor after before spoils)
    (spoilt : (before.volume.Traceable → before.volume.rootId = "") →
      ∀ after, spoils .endless after) :
    Ends (copyTree before.volume.inodes.length inode parent name >>= next) actor before before
      spoils := by
  have nameFor := nameFor_destination linked source.held aims apart
  obtain ⟨⟨way, route⟩, directory⟩ := aims.route linked
  have begins : CopyStart actor.user before parent inode parent name before :=
    ⟨⟨.unchanged, .refl⟩, source.held, route.held, directory, free, .inl rfl, nameFor⟩
  obtain ⟨ends, settles⟩ :=
    copyTree_end linked route.held directory before.volume.inodes.length fresh begins
  cases ran : copyTree before.volume.inodes.length inode parent name actor before with
  | mk result after =>
    rw [ran] at ends settles
    have step := ends.grown.step route directory writes
    cases result with
    | ok copy =>
      obtain ⟨-, -, made, present, -⟩ := ends.copied copy rfl
      exact .of_run ran (continues copy made after step present)
    | error failure =>
      cases ends.failed failure rfl
      refine .of_failure ran (.spoilt step (spoilt (fun traceable => ?_) after))
      by_contra rootNamed
      have outside :=
        outside_of_apart linked traceable route source.held directory apart fun _ => rootNamed
      obtain ⟨copy, impossible⟩ := settles ⟨trail, source.as_root, by omega, outside⟩
      cases impossible

theorem apart_of_passed
    (passed : ¬ (source.isDirectory && volume.isWithin parent source) = true)
    (directory : source.isDirectory = true) : volume.isWithin parent source = false := by
  simpa [directory] using passed

theorem cp_ends (linked : before.volume.Linked) (fresh : before.IdsFresh) (source dest : String)
    (recursive : Bool) :
    Ends (cp source dest recursive) actor before before fun failure _ =>
      failure = .endless ∧ (before.volume.Traceable → before.volume.rootId = "") := by
  refine (Reads.lookup linked true source).ends fun inode ⟨trail, found⟩ => ?_
  refine Ends.check fun _ => ?_
  refine (demandReadable_reads linked found source).ends fun _ _ => ?_
  refine (destination_reads linked dest inode).ends fun (parent, name) aims => ?_
  refine Ends.volume ?_
  simp only at aims ⊢
  cases free : before.volume.childNamed? parent name with
  | some existing =>
    obtain ⟨id, -, held, -⟩ := childNamed?_mem free
    refine Ends.check fun _ => ?_
    by_cases files : (inode.isFile && existing.isFile) = true
    · simp only [files, ↓reduceIte]
      have file : existing.isFile = true := by
        rw [Bool.and_eq_true] at files
        exact files.2
      refine Reads.demand.ends fun _ writes => Ends.get ?_
      exact .done (.amend (inode?_self held) (.setContent file writes) rfl rfl)
    · simp only [files, Bool.false_eq_true, ↓reduceIte]
      exact Ends.check fun _ => .refuse .fileExists
  | none =>
    refine Reads.demand.ends fun _ writes => Ends.volume (Ends.check fun passed => ?_)
    refine copyTree_ends linked fresh found aims free writes
      (apart_of_passed passed) ?_ ?_
    · intro copy made after step present
      exact .note (.volume (.lift (inode_of_inode? present) step.report))
    · intro rootless after
      exact ⟨rfl, rootless⟩

/-! ## Moving -/

/-- The directory at the destination, once the entry has left where it was, takes the entry. -/
theorem rehang_eq (now : Binary64) (linked : volume.Linked)
    (moves : volume.Moves parent target source name) :
    ∃ there, (volume.put (parent.withChildren now (parent.children.erase source.id))).inode?
        target.id = some there ∧ there.isDirectory = true ∧
      there.withChildren now (there.children ++ [source.id]) =
        target.withChildren now (target.children.erase source.id ++ [source.id]) := by
  by_cases same : target.id = parent.id
  · have here := moves.held
    rw [same, moves.hangs.above] at here
    cases here
    exact ⟨_, inode?_put_self, rfl, rfl⟩
  · refine ⟨target, ?_, moves.directory, ?_⟩
    · rw [inode?_put]
      exact (if_neg same).trans moves.held
    · have unlisted : source.id ∉ target.children := by
        intro listed
        exact same (linked.lists_unique ⟨target, moves.held, listed⟩ (moves.hangs.lists linked))
      rw [List.erase_of_not_mem unlisted]

private theorem step_of_rehang (moves : before.volume.Moves parent target source name)
    (edit : Volume.Edit user before.volume
      (before.volume.rehang now parent target source name))
    (volume : after.volume = before.volume.rehang now parent target source name)
    (supply : after.nextId = before.nextId) : before.Step user after where
  edit := volume ▸ edit
  supplied := by
    refine .of_kept (fun id unused => ?_) supply
    rw [volume, inode?_rehang]
    split
    · rename_i here
      rw [here, moves.hangs.held] at unused
      cases unused
    split
    · rename_i here
      rw [here, moves.held] at unused
      cases unused
    split
    · rename_i here
      rw [here, moves.hangs.above] at unused
      cases unused
    · exact unused

theorem mv_ends (linked : before.volume.Linked) (source dest : String) :
    Ends (mv source dest) actor before before spoils := by
  refine (Reads.lookup linked false source).ends fun inode ⟨trail, found⟩ => ?_
  refine Ends.volume (Ends.check fun inner => ?_)
  refine (destination_reads linked dest inode).ends fun (parent, name) aims => ?_
  refine Ends.volume (Ends.check fun taken => Ends.check fun passed => ?_)
  simp only at aims taken passed ⊢
  refine (parentOf_reads linked found inner).ends fun old hangs => ?_
  refine (demandUnlink_reads old inode).ends fun _ may => ?_
  refine Reads.demand.ends fun _ writes => Ends.get ?_
  have apart := apart_of_passed passed
  have free : before.volume.childNamed? parent name = none := by simpa using taken
  have nameFor := nameFor_destination linked found.held aims apart
  obtain ⟨⟨way, route⟩, directory⟩ := aims.route linked
  have moves : before.volume.Moves old parent inode name :=
    ⟨hangs, route.held, directory, ids_ne_of_apart route.held found.held directory apart, free⟩
  obtain ⟨holder, held, listed⟩ := hangs.lists linked
  rw [hangs.above] at held
  cases held
  obtain ⟨there, present, shape, filled⟩ := rehang_eq before.now linked moves
  rw [Record.removeChild_eq listed]
  refine Ends.of_run put_run (Ends.volume ?_)
  refine Ends.of_run (lift_run.trans (congrArg (·, _) (inode_of_inode? present))) ?_
  rw [Record.addChild_eq shape, filled]
  have edit : Volume.Edit actor.user before.volume
      (before.volume.rehang before.now old parent inode name) :=
    .rehang moves route (released_of_hangs linked hangs may) writes nameFor apart
  exact Ends.of_run put_run (.of_run put_run (.note (.pure _ (.report (step_of_rehang moves edit rfl rfl)))))

end Fs

end PocketShell
