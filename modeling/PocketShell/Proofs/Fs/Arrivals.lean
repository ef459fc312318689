import PocketShell.Proofs.Fs.Entries

/-! Where copies and moves arrive. What they ask for before they change anything is said here once,
and with it what one that is done has done. Both put the inode into a directory under its own name;
but a move takes the entry that its path names, and a copy what that entry leads to, so that a link
gives them different names. -/
namespace PocketShell

open Volume

variable {actor : Actor} {before after machine : Machine} {volume : Volume}
  {inode parent directory entry moved : Inode} {source dest name holder : String}
  {recursive : Bool} {outcome : Except FsFailure Inode}

namespace Fs

/-! ## Moving -/

/-- A move that is done: the entry that the path names has gone from its directory to the one that
the destination aims at, where the name was free. -/
structure Relocates (actor : Actor) (before : Machine) (source dest : String)
    (old target inode : Inode) (name : String) (after : Machine) : Prop where
  leads : before.volume.lookup actor false source = .ok inode
  aims : before.volume.Aims actor dest inode target name
  moves : before.volume.Moves old target inode name
  apart : inode.isDirectory = true → before.volume.isWithin target inode = false
  volume : after.volume = before.volume.rehang before.now old target inode name

theorem mv_ok (linked : before.volume.Linked)
    (ran : mv source dest actor before = (.ok moved, after)) :
    ∃ old target inode name, Relocates actor before source dest old target inode name after ∧
      moved = { inode with name, parent := some target.id, modified := before.now } := by
  unfold mv at ran
  have goes : ∀ failure : FsFailure, Except.ok moved = .error failure →
      ¬ failure.Refuses := nofun
  obtain ⟨inode, leads, more⟩ := (Reads.lookup_found linked false source).passed ran goes
  obtain ⟨trail, route⟩ := linked.route_of_lookup leads
  rw [run_bind, volume_run] at more
  obtain ⟨inner, more⟩ := check_ok more
  obtain ⟨⟨target, name⟩, aims, more⟩ := (destination_reads linked dest inode).passed more goes
  dsimp only at aims more
  rw [run_bind, volume_run] at more
  obtain ⟨taken, more⟩ := check_ok more
  obtain ⟨passed, more⟩ := check_ok more
  obtain ⟨old, hangs, more⟩ := (parentOf_reads linked route inner).passed more goes
  obtain ⟨_, -, more⟩ := (demandUnlink_reads old inode).passed more goes
  obtain ⟨_, -, puts⟩ := Reads.demand.passed more goes
  clear more ran
  have apart := apart_of_passed passed
  have free : before.volume.childNamed? target name = none := by simpa using taken
  obtain ⟨⟨way, reached⟩, directory⟩ := aims.route linked
  have moves : before.volume.Moves old target inode name :=
    ⟨hangs, reached.held, directory,
      ids_ne_of_apart reached.held route.held directory apart, free⟩
  obtain ⟨above, held, listed⟩ := hangs.lists linked
  cases hangs.above.symm.trans held
  obtain ⟨there, present, shape, filled⟩ := rehang_eq before.now linked moves
  simp only [run_bind, get_run, Record.removeChild_eq listed, put_run, volume_run, lift_run,
    inode_of_inode? present, Record.addChild_eq shape, filled, note_run, pure_run] at puts
  cases puts
  exact ⟨old, target, inode, name, ⟨leads, aims, moves, apart, rfl⟩, rfl⟩

/-! ## Copying -/

/-- What is copied, and where to: it may be read with all below it, and is no directory unless the
copy is recursive. -/
structure Offered (actor : Actor) (before : Machine) (source dest : String) (recursive : Bool)
    (inode parent : Inode) (name : String) : Prop where
  leads : before.volume.lookup actor true source = .ok inode
  whole : inode.isDirectory = true → recursive = true
  readable : before.volume.Readable actor.user inode
  aims : before.volume.Aims actor dest inode parent name

/-- The copy gets a name that is free in a directory which may be written to, and which by the test
does not lie in what is copied. -/
structure Vacates (actor : Actor) (before : Machine) (inode parent : Inode) (name : String) :
    Prop where
  free : before.volume.childNamed? parent name = none
  writes : parent.permits actor.user .write = true
  apart : inode.isDirectory = true → before.volume.isWithin parent inode = false

/-- From there the copy of the tree can begin. -/
theorem Vacates.begins (vacant : Vacates actor before inode parent name)
    (linked : before.volume.Linked) (held : before.volume.inode? inode.id = some inode)
    (aims : before.volume.Aims actor dest inode parent name) :
    CopyStart actor.user before parent inode parent name before := by
  obtain ⟨⟨trail, route⟩, directory⟩ := aims.route linked
  exact ⟨⟨.unchanged, .refl⟩, held, route.held, directory, vacant.free, .inl rfl,
    nameFor_destination linked held aims vacant.apart⟩

/-- How a copy that is not refused comes out. -/
inductive Copies (actor : Actor) (before : Machine) (inode parent : Inode) (name : String) :
    Except FsFailure Inode → Machine → Prop
  /-- The content of a file that is there is replaced. -/
  | written {existing : Inode} {after : Machine}
      (named : before.volume.childNamed? parent name = some existing)
      (file : existing.isFile = true)
      (volume : after.volume = before.volume.put (existing.setContent before.now inode.content)) :
      Copies actor before inode parent name
        (.ok (existing.setContent before.now inode.content)) after
  /-- A tree is copied to a name that was free. -/
  | made {first copy : Inode} {between after : Machine}
      (vacant : Vacates actor before inode parent name)
      (ran : copyTree before.volume.inodes.length inode parent name actor before =
        (.ok first, between))
      (found : between.volume.inode? first.id = some copy)
      (volume : after.volume = between.volume) :
      Copies actor before inode parent name (.ok copy) after
  /-- The copy of a tree fails. -/
  | broken {failure : FsFailure} {after : Machine} (vacant : Vacates actor before inode parent name)
      (ran : copyTree before.volume.inodes.length inode parent name actor before =
        (.error failure, after)) :
      Copies actor before inode parent name (.error failure) after

theorem cp_copies (linked : before.volume.Linked) (fresh : before.IdsFresh)
    (ran : cp source dest recursive actor before = (outcome, after))
    (goes : ∀ failure, outcome = .error failure → ¬ failure.Refuses) :
    ∃ inode parent name, Offered actor before source dest recursive inode parent name ∧
      Copies actor before inode parent name outcome after := by
  unfold cp at ran
  obtain ⟨inode, leads, more⟩ := (Reads.lookup_found linked true source).passed ran goes
  obtain ⟨trail, route⟩ := linked.route_of_lookup leads
  obtain ⟨kept, more⟩ := check_passed more goes
  obtain ⟨_, readable, more⟩ := (demandReadable_reads linked route source).passed more goes
  obtain ⟨⟨parent, name⟩, aims, more⟩ := (destination_reads linked dest inode).passed more goes
  clear ran
  dsimp only at aims more
  rw [run_bind, volume_run] at more
  have whole : inode.isDirectory = true → recursive = true := by
    intro directory
    simpa [directory] using kept
  refine ⟨inode, parent, name, ⟨leads, whole, readable, aims⟩, ?_⟩
  cases named : before.volume.childNamed? parent name with
  | some existing =>
    simp only [named] at more
    obtain ⟨-, more⟩ := check_passed more goes
    by_cases files : (inode.isFile && existing.isFile) = true
    · simp only [files, ↓reduceIte] at more
      obtain ⟨_, -, more⟩ := Reads.demand.passed more goes
      simp only [run_bind, get_run, put_run, pure_run] at more
      cases more
      rw [Bool.and_eq_true] at files
      exact .written named files.2 rfl
    · simp only [files, Bool.false_eq_true, ↓reduceIte] at more
      obtain ⟨-, more⟩ := check_passed more goes
      cases more
      exact absurd rfl (goes _ rfl)
  | none =>
    simp only [named] at more
    obtain ⟨_, writes, more⟩ := Reads.demand.passed more goes
    rw [run_bind, volume_run] at more
    obtain ⟨passed, more⟩ := check_passed more goes
    have vacant : Vacates actor before inode parent name :=
      ⟨named, writes, apart_of_passed passed⟩
    rw [run_bind] at more
    cases grows : copyTree before.volume.inodes.length inode parent name actor before with
    | mk result between =>
      simp only [grows] at more
      cases result with
      | error failure =>
        cases more
        exact .broken vacant grows
      | ok first =>
        obtain ⟨⟨_, reached⟩, directory⟩ := aims.route linked
        obtain ⟨ends, -⟩ := copyTree_end linked reached.held directory
          before.volume.inodes.length fresh (vacant.begins linked route.held aims)
        rw [grows] at ends
        obtain ⟨-, -, copy, found, -⟩ := ends.copied first rfl
        have present : ∀ entry, (between.report entry).volume.inode first.id = .ok copy :=
          fun _ => inode_of_inode? found
        simp only [run_bind, note_run, volume_run, lift_run, present] at more
        cases more
        exact .made vacant grows found rfl

/-- Where nothing stands in the way, a copy fails as the copy of the tree does. -/
theorem cp_broken (linked : before.volume.Linked)
    (offered : Offered actor before source dest recursive inode parent name)
    (vacant : Vacates actor before inode parent name) {failure : FsFailure}
    (ran : copyTree before.volume.inodes.length inode parent name actor before =
      (.error failure, after)) :
    cp source dest recursive actor before = (.error failure, after) := by
  obtain ⟨trail, route⟩ := linked.route_of_lookup offered.leads
  have whole : (inode.isDirectory && !recursive) = false := by
    cases shape : inode.isDirectory with
    | false => rfl
    | true => simp [offered.whole shape]
  have apart : (inode.isDirectory && before.volume.isWithin parent inode) = false := by
    cases shape : inode.isDirectory with
    | false => rfl
    | true => simp [vacant.apart shape]
  unfold cp
  simp only [run_bind, lookup_run, offered.leads, Machine.noting, whole, Bool.false_eq_true,
    ↓reduceIte, demandReadable_run linked route offered.readable, destination_run offered.aims,
    volume_run, vacant.free, demand_run, vacant.writes, apart, ran]

end Fs

/-! ## The name of what arrives -/

namespace Volume

/-- The inode is the entry called so of the directory with the id. -/
def EntryNamed (volume : Volume) (holder name : String) (entry : Inode) : Prop :=
  ∃ directory, volume.inode? holder = some directory ∧
    volume.childNamed? directory name = some entry

/-- In a linked volume what a directory lists is the entry called by its name. -/
theorem EntryNamed.of_mem {id : String} (linked : volume.Linked)
    (held : volume.inode? holder = some directory) (listed : id ∈ directory.children)
    (found : volume.inode? id = some entry) :
    volume.EntryNamed holder entry.name entry :=
  ⟨directory, held, childNamed?_of_mem linked (inode?_self held) listed found⟩

theorem EntryNamed.name_eq (named : volume.EntryNamed holder name entry) : entry.name = name := by
  obtain ⟨directory, -, found⟩ := named
  obtain ⟨-, -, -, same⟩ := childNamed?_mem found
  exact same

/-- What a path leads to without following its end has the last name of the path. -/
theorem name_of_lookup (last : (Path.componentsOf source).getLast? = some name) (dot : name ≠ ".")
    (up : name ≠ "..") (leads : volume.lookup actor false source = .ok inode) :
    inode.name = name := by
  obtain ⟨parentPath, cut⟩ := Path.splitParent_of_getLast? last
  have some : name ≠ "" := (Path.isComponent_of_mem (List.mem_of_getLast? last)).1
  obtain ⟨directory, parent⟩ := lookupParent_of_lookup cut ⟨some, dot, up⟩ leads
  obtain ⟨-, named⟩ := (lookup_entry parent).mp leads
  obtain ⟨-, -, -, same⟩ := childNamed?_mem named
  exact same

end Volume

namespace Fs

/-- What has been moved is the entry that the destination aims at. -/
theorem Relocates.arrives {old target : Inode} (linkedAfter : after.volume.Linked)
    (relocates : Relocates actor before source dest old target inode name after) :
    after.volume.EntryNamed target.id name
      { inode with name, parent := some target.id, modified := before.now } := by
  have taken : after.volume.inode? target.id = some (target.withChildren before.now
      (target.children.erase inode.id ++ [inode.id])) := by
    rw [relocates.volume, inode?_rehang, if_neg relocates.moves.differs, if_pos rfl]
  have moved : after.volume.inode? inode.id =
      some { inode with name, parent := some target.id, modified := before.now } := by
    rw [relocates.volume, inode?_rehang, if_pos rfl]
  exact .of_mem linkedAfter taken (by simp) moved

/-- So is what has been copied. -/
theorem Copies.arrives {copy : Inode} (linked : before.volume.Linked) (fresh : before.IdsFresh)
    (linkedAfter : after.volume.Linked)
    (offered : Offered actor before source dest recursive inode parent name)
    (copies : Copies actor before inode parent name (.ok copy) after) :
    after.volume.EntryNamed parent.id name copy := by
  obtain ⟨trail, route⟩ := linked.route_of_lookup offered.leads
  obtain ⟨⟨_, reached⟩, directory⟩ := offered.aims.route linked
  cases copies with
  | @written existing _ named file volume =>
    obtain ⟨id, listed, held, rfl⟩ := childNamed?_mem named
    obtain rfl := id_of_inode? held
    have apart : parent.id ≠ existing.id := by
      intro same
      rw [← same, reached.held] at held
      cases held
      have kind : parent.type = .directory := by simpa [Record.isDirectory] using directory
      simp [Record.isFile, kind] at file
    have stays : after.volume.inode? parent.id = some parent := by
      rw [volume, inode?_put]
      exact (if_neg apart).trans reached.held
    have written : after.volume.inode? existing.id =
        some (existing.setContent before.now inode.content) := by
      rw [volume]
      exact inode?_put_self
    exact .of_mem linkedAfter stays listed written
  | @made first _ between _ vacant ran found volume =>
    obtain ⟨ends, -⟩ := copyTree_end linked reached.held directory
      before.volume.inodes.length fresh (vacant.begins linked route.held offered.aims)
    rw [ran] at ends
    obtain ⟨-, time, copy, present, rfl, filled⟩ := ends.copied first rfl
    cases found.symm.trans present
    rw [volume] at linkedAfter ⊢
    exact .of_mem linkedAfter filled (by simp) found

end Fs

/-- A move into a directory makes what it moves the entry called by the last name of its path. A
copy makes it the entry called by the name of what the path leads to, which is the last name unless
the path ends in a link to something of another name. -/
theorem arrives_under_name (reachable : Reachable Snapshot.Keyed machine)
    (last : (Path.componentsOf source).getLast? = some name) (dot : name ≠ ".") (up : name ≠ "..")
    (leads : (machine.serve actor (.stat dest)).1 = .ok (.inode directory))
    (shape : directory.isDirectory = true) :
    (∀ moved, (machine.serve actor (.mv source dest)).1 = .ok (.inode moved) →
      (machine.serve actor (.mv source dest)).2.volume.EntryNamed directory.id name moved) ∧
    ∀ recursive copy, (machine.serve actor (.cp source dest recursive)).1 = .ok (.inode copy) →
      ∃ inode, (machine.serve actor (.stat source)).1 = .ok (.inode inode) ∧
        (machine.serve actor (.cp source dest recursive)).2.volume.EntryNamed directory.id
          inode.name copy ∧
        ((machine.serve actor (.cp source dest recursive)).2.volume.EntryNamed directory.id
          name copy ↔ inode.name = name) ∧
        ∀ entry, (machine.serve actor (.lstat source)).1 = .ok (.inode entry) →
          entry.isSymlink = false → inode.name = name := by
  obtain ⟨linked, fresh, -, -⟩ := reachable.sound Snapshot.keyed_closed
  rw [Machine.serve_stat] at leads
  constructor
  · intro moved served
    have linkedAfter := ((reachable.serve actor (.mv source dest)).sound
      Snapshot.keyed_closed).linked
    obtain ⟨_, ran, ⟨⟩⟩ := Machine.serve_ok
      (rfl : (Request.mv source dest).run = .inode <$> Fs.mv source dest) served
    obtain ⟨old, target, inode, given, relocates, rfl⟩ := Fs.mv_ok linked ran
    obtain ⟨rfl, rfl⟩ := relocates.aims.eq_into leads shape
    rw [← name_of_lookup last dot up relocates.leads]
    exact relocates.arrives linkedAfter
  · intro recursive copy served
    have linkedAfter := ((reachable.serve actor (.cp source dest recursive)).sound
      Snapshot.keyed_closed).linked
    obtain ⟨_, ran, ⟨⟩⟩ := Machine.serve_ok
      (rfl : (Request.cp source dest recursive).run = .inode <$> Fs.cp source dest recursive) served
    obtain ⟨inode, parent, given, offered, copies⟩ := Fs.cp_copies linked fresh ran nofun
    obtain ⟨rfl, rfl⟩ := offered.aims.eq_into leads shape
    have entry := copies.arrives linked fresh linkedAfter offered
    refine ⟨inode, Machine.serve_stat.mpr offered.leads, entry, ⟨?_, ?_⟩, ?_⟩
    · intro named
      exact entry.name_eq.symm.trans named.name_eq
    · rintro rfl
      exact entry
    · intro link found plain
      have direct := Machine.serve_lstat.mp found
      cases offered.leads.symm.trans (lookup_follow plain direct)
      exact name_of_lookup last dot up direct

/-- A machine on which a user has made a file, a link to it and a directory. -/
def forkedMachine : Machine :=
  let touched := (sharedMachine.serve ⟨"guest", "/"⟩ (.touch "/tmp/f")).2
  let joined := (touched.serve ⟨"guest", "/"⟩ (.ln "f" "/tmp/l")).2
  (joined.serve ⟨"guest", "/"⟩ (.mkdir "/tmp/d" none)).2

theorem forkedMachine_reachable : Reachable Snapshot.Keyed forkedMachine :=
  (((sharedMachine_reachable _).serve _ _).serve _ _).serve _ _

set_option maxRecDepth 4000 in
/-- The link itself can be moved into the directory, and is the entry `l` there. -/
theorem link_arrives : Reachable Snapshot.Keyed forkedMachine ∧ ∃ directory moved,
    (forkedMachine.serve ⟨"guest", "/tmp"⟩ (.stat "d")).1 = .ok (.inode directory) ∧
    (forkedMachine.serve ⟨"guest", "/tmp"⟩ (.mv "l" "d")).1 = .ok (.inode moved) ∧
    (forkedMachine.serve ⟨"guest", "/tmp"⟩ (.mv "l" "d")).2.volume.EntryNamed directory.id "l"
      moved := by
  have last : (Path.componentsOf "l").getLast? = some "l" := by decide
  have served : (Request.inode? (forkedMachine.serve ⟨"guest", "/tmp"⟩ (.mv "l" "d")).1).isSome =
      true := by decide +kernel
  obtain ⟨moved, answered⟩ := Option.isSome_iff_exists.mp served
  have ran := Request.answer_of_inode? answered
  refine ⟨forkedMachine_reachable, _, moved, rfl, ran, ?_⟩
  exact (arrives_under_name forkedMachine_reachable last (by decide) (by decide) rfl rfl).1 _ ran

set_option maxRecDepth 4000 in
/-- A copy of what the link leads to is not the entry `l` of the directory, but is called `f`. -/
theorem copy_renamed_by_link : Reachable Snapshot.Keyed forkedMachine ∧ ∃ directory copy,
    (Path.componentsOf "/tmp/l").getLast? = some "l" ∧
    (forkedMachine.serve ⟨"guest", "/"⟩ (.stat "/tmp/d")).1 = .ok (.inode directory) ∧
    directory.isDirectory = true ∧
    (forkedMachine.serve ⟨"guest", "/"⟩ (.cp "/tmp/l" "/tmp/d" false)).1 = .ok (.inode copy) ∧
    copy.name = "f" ∧
    ¬ (forkedMachine.serve ⟨"guest", "/"⟩ (.cp "/tmp/l" "/tmp/d" false)).2.volume.EntryNamed
      directory.id "l" copy := by
  have served : (Request.inode? (forkedMachine.serve ⟨"guest", "/"⟩
      (.cp "/tmp/l" "/tmp/d" false)).1).any (·.name == "f") = true := by decide +kernel
  obtain ⟨copy, answered, same⟩ := (Option.any_eq_true _ _).mp served
  have name : copy.name = "f" := by simpa using same
  refine ⟨forkedMachine_reachable, _, copy, by decide, rfl, rfl, Request.answer_of_inode? answered,
    name, fun named => ?_⟩
  exact absurd (name.symm.trans named.name_eq) (by decide)

end PocketShell
