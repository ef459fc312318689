import PocketShell.Proofs.Fs.LastName
import PocketShell.Proofs.Fs.Operations

/-! Writing to files. A write looks for the file first and makes it if there is none; only then does
it check that the file may be written to. Where that check fails on what was just made or touched,
the write is refused and leaves a trace. The two situations in which this happens are named here,
and outside them a refused write leaves everything as it was. -/
namespace PocketShell

open Volume

variable {actor : Actor} {before after machine : Machine} {directory inode child : Inode}
  {path name content : String}

/-- A write to the path is refused after it has left a trace. The path leads nowhere, and its last
name either stands for a link, whose time is then set, or is free where the user may make a file,
which is then made with a mode that keeps the user from writing to it. -/
inductive Stranded (before : Machine) (actor : Actor) (path : String) : Prop
  | link {directory link : Inode} {name : String}
      (nowhere : before.volume.lookup actor true path = .error (.refused .notFound))
      (bare : Path.endsInSlash path = false)
      (parent : before.volume.lookupParent actor path = .ok (directory, name))
      (named : before.volume.childNamed? directory name = some link)
      (stale : link.modified ≠ before.now)
  | masked {directory : Inode} {name : String}
      (nowhere : before.volume.lookup actor true path = .error (.refused .notFound))
      (bare : Path.endsInSlash path = false)
      (parent : before.volume.lookupParent actor path = .ok (directory, name))
      (free : before.volume.childNamed? directory name = none)
      (writes : directory.permits actor.user .write = true)
      (user : actor.user ≠ rootUser)
      (masked : (Mode.newFile.less before.volume.umask).grants .owner .write = false)

namespace Fs

variable {spoils : FsFailure → Machine → Prop}

/-- The empty file that a touch of a free name makes. -/
def newFile (actor : Actor) (before : Machine) (directory : Inode) (name : String) : Inode :=
  attached actor before directory name (Mode.newFile.less before.volume.umask) 0 (.file "")

theorem newFile_permits : (newFile actor before directory name).permits actor.user .write =
    (decide (actor.user = rootUser) ||
      (Mode.newFile.less before.volume.umask).grants .owner .write) := by
  simp [newFile, attached, Record.permits, Record.classOf]

/-- How looking for a file to write to ends, and making it if there is none. -/
inductive Created (actor : Actor) (before : Machine) (path : String) :
    Except FsFailure Inode → Machine → Prop
  | found {inode : Inode} (leads : before.volume.lookup actor true path = .ok inode) :
      Created actor before path (.ok inode) before
  | touched {directory link : Inode} {name : String}
      (nowhere : before.volume.lookup actor true path = .error (.refused .notFound))
      (bare : Path.endsInSlash path = false)
      (parent : before.volume.lookupParent actor path = .ok (directory, name))
      (named : before.volume.childNamed? directory name = some link) :
      Created actor before path (.ok (link.touch before.now))
        { before with volume := before.volume.put (link.touch before.now) }
  | made {directory : Inode} {name : String} {after : Machine}
      (nowhere : before.volume.lookup actor true path = .error (.refused .notFound))
      (bare : Path.endsInSlash path = false)
      (parent : before.volume.lookupParent actor path = .ok (directory, name))
      (free : before.volume.childNamed? directory name = none)
      (writes : directory.permits actor.user .write = true)
      (volume : after.volume =
        before.volume.graft before.now directory (newFile actor before directory name))
      (supply : after.nextId = before.nextId + 1) :
      Created actor before path (.ok (newFile actor before directory name)) after
  | refused {failure : FsFailure} (refuses : failure.Refuses) :
      Created actor before path (.error failure) (before.record actor.user failure)

section NewFile

variable (nowhere : before.volume.lookup actor true path = .error (.refused .notFound))
  (bare : Path.endsInSlash path = false)
  (parent : before.volume.lookupParent actor path = .ok (directory, name))

include nowhere bare parent

private theorem findOrCreate_touched
    (named : before.volume.childNamed? directory name = some inode) :
    findOrCreate path actor before = (.ok (inode.touch before.now),
      { before with volume := before.volume.put (inode.touch before.now) }) := by
  simp only [findOrCreate, touch, run_bind, volume_run, read_run, lookupParent_run, nowhere, bare,
    parent, Machine.noting, named, Bool.false_eq_true, ↓reduceIte]
  rfl

theorem findOrCreate_made
    (free : before.volume.childNamed? directory name = none)
    (writes : directory.permits actor.user .write = true) :
    ∃ after, findOrCreate path actor before = (.ok (newFile actor before directory name), after) ∧
      after.volume =
        before.volume.graft before.now directory (newFile actor before directory name) ∧
      after.nextId = before.nextId + 1 := by
  obtain ⟨-, -, -, -, -, -, shape⟩ := lookupParent_ok parent
  simp only [findOrCreate, touch, demand, run_bind, volume_run, read_run, lookupParent_run,
    Machine.noting, pure_run, note_run, attach_run shape, nowhere, bare, parent, free, writes,
    Bool.false_eq_true, ↓reduceIte]
  exact ⟨_, rfl, rfl, rfl⟩

end NewFile

theorem findOrCreate_created (linked : before.volume.Linked) (path : String) :
    Created actor before path (findOrCreate path actor before).1
      (findOrCreate path actor before).2 := by
  have settled : Settled _ (before.volume.lookup actor true path) :=
    linked.enclosed_held.lookup
  cases leads : before.volume.lookup actor true path with
  | ok inode =>
    simp only [findOrCreate, run_bind, volume_run, read_run, leads]
    exact .found leads
  | error failure =>
    rw [leads] at settled
    cases settled with
    | error refuses =>
      by_cases nowhere : failure = .refused .notFound
      · subst nowhere
        by_cases slash : Path.endsInSlash path = true
        · simp only [findOrCreate, run_bind, volume_run, read_run, leads, slash, ↓reduceIte]
          exact .refused rfl
        have bare : Path.endsInSlash path = false := by simpa using slash
        cases parent : before.volume.lookupParent actor path with
        | error failure =>
          have settled : Settled _ (before.volume.lookupParent actor path) :=
            linked.enclosed_held.lookupParent
          rw [parent] at settled
          cases settled with
          | error refuses =>
            simp only [findOrCreate, touch, run_bind, volume_run, read_run, lookupParent_run,
              leads, bare, parent, Bool.false_eq_true, ↓reduceIte]
            exact .refused refuses
        | ok found =>
          obtain ⟨directory, name⟩ := found
          cases named : before.volume.childNamed? directory name with
          | some existing =>
            rw [findOrCreate_touched leads bare parent named]
            exact .touched leads bare parent named
          | none =>
            by_cases writes : directory.permits actor.user .write = true
            · obtain ⟨after, ran, volume, supply⟩ :=
                findOrCreate_made leads bare parent named writes
              rw [ran]
              exact .made leads bare parent named writes volume supply
            · simp only [findOrCreate, touch, demand, run_bind, volume_run, read_run,
                lookupParent_run, Machine.noting, leads, bare, parent, named, writes,
                Bool.false_eq_true, ↓reduceIte]
              exact .refused rfl
      · unfold findOrCreate
        simp only [run_bind, volume_run, read_run, leads]
        cases failure with
        | refused reason =>
          cases reason <;> first | exact absurd rfl nowhere | exact .refused refuses
        | denied shown action => exact .refused refuses
        | missing id => exact .refused refuses
        | childless => exact .refused refuses
        | endless => exact .refused refuses

theorem demandFile_reads (path : String) (inode : Inode) :
    Reads (demandFile path inode) actor machine
      fun _ => inode.isFile = true ∧ inode.permits actor.user .write = true := by
  unfold demandFile
  refine Reads.check fun directory => Reads.check fun _ => Reads.check fun link => ?_
  refine Reads.demand.imp fun _ writes => ⟨?_, writes⟩
  cases payload : inode.payload with
  | file text => simp [Record.isFile, Record.type, payload, Payload.type]
  | directory entries => simp [Record.isDirectory, Record.type, payload, Payload.type] at directory
  | symlink target => simp [Record.isSymlink, Record.type, payload, Payload.type] at link

/-- A new file is refused only for want of permission. -/
theorem demandFile_newFile (bare : Path.endsInSlash path = false) :
    demandFile path (newFile actor before directory name) actor machine =
      if (newFile actor before directory name).permits actor.user .write then (.ok (), machine)
        else (.error (.denied path "write"), machine.record actor.user (.denied path "write")) := by
  have directory' : (newFile actor before directory name).isDirectory = false := rfl
  have link : (newFile actor before directory name).isSymlink = false := rfl
  unfold demandFile demand
  simp only [directory', link, bare, Bool.false_eq_true, ↓reduceIte, run_bind, read_run]
  by_cases writes : (newFile actor before directory name).permits actor.user .write = true
  · simp only [writes, ↓reduceIte]
    rfl
  · simp only [writes, Bool.false_eq_true, ↓reduceIte]
    rfl

/-- A write is refused or done; what it leaves where it is refused too late is a step as well. -/
theorem rewrite_ends (linked : before.volume.Linked) (fresh : before.IdsFresh) (path : String)
    (rule : Inode → String) :
    Ends (rewrite path rule) actor before before
      fun failure _ => failure.Refuses ∧ Stranded before actor path := by
  have created : Created actor before path _ _ := findOrCreate_created linked path
  unfold rewrite openForWrite
  simp only [bind_assoc, pure_bind]
  cases ran : findOrCreate path actor before with
  | mk result after =>
    rw [ran] at created
    cases created with
    | refused refuses => exact .of_failure ran (.refused refuses)
    | @found inode leads =>
      obtain ⟨trail, route⟩ := linked.route_of_lookup leads
      refine .of_run ran ((demandFile_reads path inode).ends fun _ ⟨file, writes⟩ => ?_)
      exact .get (.done (.amend route.held (.setContent file writes) rfl rfl))
    | @touched directory link name nowhere bare parent named =>
      obtain ⟨id, -, found, -⟩ := childNamed?_mem named
      have held := inode?_self found
      have symlink := isSymlink_of_notFound parent named nowhere
      refine .of_run ran ((demandFile_reads path (link.touch before.now)).ends_after ?_ ?_)
      · intro failure refuses
        by_cases stale : link.modified = before.now
        · have same : link.touch before.now = link := by rw [← stale]; rfl
          rw [same, linked.keyed.put_self held]
          exact .refused refuses
        · exact .spoilt (.amend held .touch Machine.record_volume Machine.record_nextId)
            ⟨refuses, .link nowhere bare parent named stale⟩
      · rintro _ ⟨file, -⟩
        change link.isFile = true at file
        simp only [Record.isFile, Record.isSymlink, decide_eq_true_eq] at file symlink
        rw [symlink] at file
        cases file
    | @made directory name after nowhere bare parent free writes volume supply =>
      obtain ⟨route, shape, proper⟩ := linked.route_of_lookupParent parent
      have vacant : before.volume.Vacant actor.user directory name :=
        ⟨route, shape, .inl proper, free, writes⟩
      have checked : demandFile path (newFile actor before directory name) actor after = _ :=
        demandFile_newFile bare
      by_cases allowed : (newFile actor before directory name).permits actor.user .write = true
      · rw [if_pos allowed] at checked
        have newcomer : Newcomer actor.user before directory
            ((newFile actor before directory name).setContent after.now
              (rule (newFile actor before directory name))) :=
          ⟨rfl, rfl, rfl, rfl, by intro text same; cases same; rfl⟩
        have grown : after.volume.put ((newFile actor before directory name).setContent after.now
              (rule (newFile actor before directory name))) =
            before.volume.graft before.now directory ((newFile actor before directory name).setContent
              after.now (rule (newFile actor before directory name))) :=
          (congrArg (Volume.put _) volume).trans (put_graft rfl)
        exact .of_run ran (.of_run checked (.get (.done (vacant.step fresh newcomer grown supply))))
      · rw [if_neg allowed] at checked
        have newcomer : Newcomer actor.user before directory (newFile actor before directory name) :=
          ⟨rfl, rfl, rfl, rfl, by intro text same; cases same; rfl⟩
        rw [newFile_permits, Bool.not_eq_true, Bool.or_eq_false_iff, decide_eq_false_iff_not]
          at allowed
        exact .of_run ran (.of_failure checked (.spoilt (vacant.step fresh newcomer volume supply)
          ⟨rfl, .masked nowhere bare parent free writes allowed.1 allowed.2⟩))

/-- A link is not written to. -/
private theorem demandFile_symlink (bare : Path.endsInSlash path = false)
    (symlink : inode.isSymlink = true) :
    demandFile path inode actor machine = (.error (.refused .isASymlink), machine) := by
  have kind : inode.type = .symlink := by simpa [Record.isSymlink] using symlink
  have shape : inode.isDirectory = false := by simp [Record.isDirectory, kind]
  unfold demandFile
  simp only [shape, bare, symlink, Bool.false_eq_true, ↓reduceIte]
  rfl

/-- In a stranded situation the write is refused and the volume is not what it was. -/
theorem rewrite_stranded (fresh : before.IdsFresh)
    (stranded : Stranded before actor path) (rule : Inode → String) :
    ∃ failure after, rewrite path rule actor before = (.error failure, after) ∧
      failure.Refuses ∧ after.volume ≠ before.volume := by
  unfold rewrite openForWrite
  simp only [bind_assoc, pure_bind]
  cases stranded with
  | @link directory link name nowhere bare parent named stale =>
    obtain ⟨id, -, found, -⟩ := childNamed?_mem named
    have symlink := isSymlink_of_notFound parent named nowhere
    have checked : ∀ machine, demandFile path (link.touch before.now) actor machine =
        (.error (.refused .isASymlink), machine) :=
      fun machine => demandFile_symlink bare symlink
    refine ⟨.refused .isASymlink,
      { before with volume := before.volume.put (link.touch before.now) }, ?_, rfl, ?_⟩
    · simp only [run_bind, findOrCreate_touched nowhere bare parent named, checked]
    · intro same
      change before.volume.put (link.touch before.now) = before.volume at same
      have kept : (before.volume.put (link.touch before.now)).inode? link.id = some link := by
        rw [same]
        exact inode?_self found
      have touched : (before.volume.put (link.touch before.now)).inode? link.id =
          some (link.touch before.now) := inode?_put_self
      rw [touched] at kept
      exact stale (congrArg Record.modified (Option.some.inj kept)).symm
  | @masked directory name nowhere bare parent free writes user masked =>
    obtain ⟨after, ran, volume, -⟩ := findOrCreate_made nowhere bare parent free writes
    have shut : ¬ (newFile actor before directory name).permits actor.user .write = true := by
      simp [newFile_permits, user, masked]
    have checked : demandFile path (newFile actor before directory name) actor after = _ :=
      demandFile_newFile bare
    rw [if_neg shut] at checked
    refine ⟨.denied path "write", after.record actor.user (.denied path "write"), ?_, rfl, ?_⟩
    · simp only [run_bind, ran, checked]
    · intro same
      rw [Machine.record_volume] at same
      have unused : after.volume.inode? (newFile actor before directory name).id = none := by
        rw [same]
        exact fresh _ (Nat.le_refl _)
      rw [volume, Fits.inode?_child] at unused
      cases unused

end Fs

end PocketShell
