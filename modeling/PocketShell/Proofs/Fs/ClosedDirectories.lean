import PocketShell.Proofs.Fs.Runs

/-! Entries of a directory that the user may not search. Every request that looks the entry up is
refused, whether or not it is there, and changes nothing; so is one that would copy or move to it. A
request that only looks the directory up asks for no more than the permission to write: entries can
be made there all the same, and the time of an entry can be set without any permission. -/
namespace PocketShell

open Volume

variable {machine : Machine} {actor : Actor} {directory : Inode} {path name : String}
  {request : Request}

/-- The request is about the entry at the path, be it as the source or as the destination. -/
def Request.Names (path : String) : Request → Prop
  | .stat named | .lstat named | .listChildren named | .readText named | .mkdir named _
  | .touch named | .ln _ named | .writeText named _ | .appendText named _ | .rm named _
  | .chmod named _ | .chown named _ _ => named = path
  | .resolve _ _ _ _ => False
  | .cp source dest _ => source = path ∨ dest = path
  | .mv source dest => source = path ∨ dest = path

/-- What a user may do to an entry without searching its directory: make it where its name is free
and the directory can be written to, and set the time of one that is there. -/
def Request.Slips (volume : Volume) (user : String) (directory : Inode) (name : String) :
    Request → Prop
  | .mkdir _ mode => volume.childNamed? directory name = none ∧
      directory.permits user .write = true ∧ mode.all fun text => (Mode.parse? true text).isSome
  | .ln _ _ => volume.childNamed? directory name = none ∧ directory.permits user .write = true
  | .touch _ => volume.childNamed? directory name ≠ none ∨ directory.permits user .write = true
  | _ => False

/-- Looking the entry up is refused at the directory. -/
theorem Volume.lookup_closed {volume : Volume} (follow : Bool)
    (found : volume.lookupParent actor path = .ok (directory, name))
    (closed : directory.permits actor.user .execute = false) :
    ∃ shown, volume.lookup actor follow path = .error (.denied shown "execute") := by
  obtain ⟨-, -, -, -, -, -, shape⟩ := lookupParent_ok found
  obtain ⟨levels, shown, same⟩ := lookup_of_lookupParent follow found
  refine ⟨shown, same.trans ?_⟩
  simp only [descend, shape, closed, Bool.not_true, Bool.false_eq_true, Bool.not_false,
    ↓reduceIte]

namespace Fs

variable {α β : Type} {operation : Fs α}

/-- The operation is refused and changes nothing. -/
private abbrev Refused (operation : Fs α) (actor : Actor) (machine : Machine) : Prop :=
  Reads operation actor machine fun _ => False

private theorem Refused.bind {next : α → Fs β} (refused : Refused operation actor machine) :
    Refused (operation >>= next) actor machine :=
  Reads.bind refused fun _ impossible => impossible.elim

private theorem Refused.run (refused : Refused operation actor machine) :
    ∃ failure, operation actor machine = (.error failure, machine.record actor.user failure) ∧
      failure.Refuses := by
  obtain ⟨result, ran, settled⟩ := refused
  cases settled with
  | ok impossible => exact impossible.elim
  | @error failure refuses => exact ⟨failure, ran, refuses⟩

private theorem Refused.map {f : α → β} (refused : Refused operation actor machine) :
    Refused (f <$> operation) actor machine := by
  rw [map_eq_pure_bind]
  exact refused.bind

section Closed

variable (found : machine.volume.lookupParent actor path = .ok (directory, name))
  (closed : directory.permits actor.user .execute = false)

include found closed

private theorem lookup_refused (follow : Bool) : Refused (lookup follow path) actor machine := by
  refine Reads.volume (Reads.read (Reads.answer ?_))
  obtain ⟨shown, denied⟩ := Volume.lookup_closed follow found closed
  rw [denied]
  exact .denied shown "execute"

private theorem destination_refused (source : Inode) :
    Refused (destination path source) actor machine := by
  refine Reads.volume (Reads.read ?_)
  obtain ⟨shown, denied⟩ := Volume.lookup_closed true found closed
  rw [denied]
  exact Reads.deny shown "execute"

private theorem rewrite_refused (rule : Inode → String) :
    Refused (rewrite path rule) actor machine := by
  have sought : Refused (findOrCreate path) actor machine := by
    refine Reads.volume (Reads.read ?_)
    obtain ⟨shown, denied⟩ := Volume.lookup_closed true found closed
    rw [denied]
    exact Reads.deny shown "execute"
  exact (Refused.bind sought).bind

/-- The destination of a copy is looked up once the source has been. -/
private theorem cp_refused (linked : machine.volume.Linked) {source dest : String}
    (recursive : Bool) (names : source = path ∨ dest = path) :
    Refused (cp source dest recursive) actor machine := by
  rcases names with rfl | rfl
  · exact (lookup_refused found closed true).bind
  · refine (Reads.lookup linked true source).bind fun inode ⟨trail, route⟩ => ?_
    refine Reads.check fun _ => (demandReadable_reads linked route source).bind fun _ _ => ?_
    exact (destination_refused found closed inode).bind

private theorem mv_refused (linked : machine.volume.Linked) {source dest : String}
    (names : source = path ∨ dest = path) : Refused (mv source dest) actor machine := by
  rcases names with rfl | rfl
  · exact (lookup_refused found closed false).bind
  · refine (Reads.lookup linked false source).bind fun inode _ => ?_
    refine Reads.volume (Reads.check fun _ => ?_)
    exact (destination_refused found closed inode).bind

end Closed

/-- Who may not search a directory is not root, and only root may give an entry away. -/
private theorem chown_refused (closed : directory.permits actor.user .execute = false)
    (path owner : String) (group : Option String) :
    Refused (chown path owner group) actor machine := by
  have plain : (actor.user != rootUser) = true := by
    rw [bne_iff_ne]
    intro root
    simp [root, Record.permits] at closed
  refine Reads.read ?_
  simp only [plain, ↓reduceIte]
  exact Refused.bind (Reads.deny path "chown")

section Makers

variable (found : machine.volume.lookupParent actor path = .ok (directory, name))

include found

/-- A name is claimed exactly if it is free where the user may write. -/
private theorem claimName_run (free : machine.volume.childNamed? directory name = none)
    (writes : directory.permits actor.user .write = true) :
    claimName path actor machine = (.ok (directory, name), machine) := by
  simp only [claimName, demand, run_bind, lookupParent_run, volume_run, read_run, found,
    Machine.noting, free, writes, Option.isSome_none, Bool.false_eq_true, ↓reduceIte]
  rfl

private theorem claimName_refused (taken : ¬ (machine.volume.childNamed? directory name = none ∧
    directory.permits actor.user .write = true)) :
    Refused (claimName path) actor machine := by
  have parent : Reads (lookupParent path) actor machine (· = (directory, name)) :=
    ⟨.ok (directory, name), by rw [lookupParent_run, found], .ok rfl⟩
  refine parent.bind fun value same => ?_
  subst same
  refine Reads.volume (Reads.check fun free => ?_)
  refine Reads.demand.bind fun _ writes => ?_
  exact absurd ⟨by simpa using free, writes⟩ taken

private theorem mkdir_refused {mode : Option String}
    (stopped : ¬ (machine.volume.childNamed? directory name = none ∧
      directory.permits actor.user .write = true ∧
      mode.all fun text => (Mode.parse? true text).isSome)) :
    Refused (mkdir path mode) actor machine := by
  by_cases claimed : machine.volume.childNamed? directory name = none ∧
      directory.permits actor.user .write = true
  · obtain ⟨free, writes⟩ := claimed
    have invalid : ¬ mode.all fun text => (Mode.parse? true text).isSome := by
      intro valid
      exact stopped ⟨free, writes, valid⟩
    have claims : Reads (claimName path) actor machine fun _ => True :=
      ⟨.ok (directory, name), claimName_run found free writes, .ok trivial⟩
    have modes : Refused (directoryMode mode) actor machine := by
      cases mode with
      | none => exact absurd rfl invalid
      | some text =>
        have unparsed : Mode.parse? true text = none := by simpa using invalid
        simp only [directoryMode, unparsed]
        exact Reads.refuse .invalidMode
    exact claims.bind fun _ _ => modes.bind
  · exact (claimName_refused found claimed).bind

private theorem touch_refused (free : machine.volume.childNamed? directory name = none)
    (writes : directory.permits actor.user .write = false) :
    Refused (touch path) actor machine := by
  have parent : Reads (lookupParent path) actor machine (· = (directory, name)) :=
    ⟨.ok (directory, name), by rw [lookupParent_run, found], .ok rfl⟩
  refine parent.bind fun value same => ?_
  subst same
  refine Reads.volume ?_
  simp only [free]
  refine Reads.demand.bind fun _ impossible => ?_
  rw [writes] at impossible
  cases impossible

private theorem mkdir_made (free : machine.volume.childNamed? directory name = none)
    (writes : directory.permits actor.user .write = true) {mode : Option String}
    (valid : mode.all fun text => (Mode.parse? true text).isSome) :
    ∃ inode, (mkdir path mode actor machine).1 = .ok inode := by
  obtain ⟨-, -, -, -, -, -, shape⟩ := lookupParent_ok found
  have modes : ∃ bits, directoryMode mode actor machine = (.ok bits, machine) := by
    cases mode with
    | none => exact ⟨_, rfl⟩
    | some text =>
      obtain ⟨bits, parsed⟩ := Option.isSome_iff_exists.mp valid
      simp only [directoryMode, parsed]
      exact ⟨bits, rfl⟩
  obtain ⟨bits, chosen⟩ := modes
  simp only [mkdir, run_bind, claimName_run found free writes, chosen, attach_run shape, note_run,
    pure_run]
  exact ⟨_, rfl⟩

private theorem ln_made (free : machine.volume.childNamed? directory name = none)
    (writes : directory.permits actor.user .write = true) (target : String) :
    ∃ inode, (ln target path actor machine).1 = .ok inode := by
  obtain ⟨-, -, -, -, -, -, shape⟩ := lookupParent_ok found
  simp only [ln, run_bind, claimName_run found free writes, attach_run shape, note_run, pure_run]
  exact ⟨_, rfl⟩

private theorem touch_made (may : machine.volume.childNamed? directory name ≠ none ∨
    directory.permits actor.user .write = true) :
    ∃ inode, (touch path actor machine).1 = .ok inode := by
  obtain ⟨-, -, -, -, -, -, shape⟩ := lookupParent_ok found
  cases named : machine.volume.childNamed? directory name with
  | some existing =>
    simp only [touch, run_bind, lookupParent_run, volume_run, found, Machine.noting, named,
      get_run, put_run, pure_run]
    exact ⟨_, rfl⟩
  | none =>
    have writes := may.resolve_left (absurd named)
    simp only [touch, demand, run_bind, lookupParent_run, volume_run, read_run, found,
      Machine.noting, named, writes, ↓reduceIte, attach_run shape, note_run, pure_run]
    exact ⟨_, rfl⟩

end Makers

end Fs

namespace Request

variable (found : machine.volume.lookupParent actor path = .ok (directory, name))

include found

private theorem run_refused (linked : machine.volume.Linked)
    (closed : directory.permits actor.user .execute = false) (names : request.Names path)
    (stopped : ¬ request.Slips machine.volume actor.user directory name) :
    Fs.Refused request.run actor machine := by
  cases request with
  | stat named => exact (names ▸ Fs.lookup_refused found closed true).map
  | lstat named => exact (names ▸ Fs.lookup_refused found closed false).map
  | resolve follow depth start named => exact names.elim
  | listChildren named => exact (names ▸ (Fs.lookup_refused found closed true).bind).map
  | readText named => exact (names ▸ (Fs.lookup_refused found closed true).bind).map
  | mkdir named mode =>
    subst names
    exact (Fs.mkdir_refused found stopped).map
  | touch named =>
    subst names
    simp only [Slips, ne_eq, not_or, not_not, Bool.not_eq_true] at stopped
    exact (Fs.touch_refused found stopped.1 stopped.2).map
  | ln target named =>
    subst names
    exact (Fs.claimName_refused found stopped).bind.map
  | writeText named content => exact (names ▸ Fs.rewrite_refused found closed _).map
  | appendText named content => exact (names ▸ Fs.rewrite_refused found closed _).map
  | rm named recursive => exact (names ▸ (Fs.lookup_refused found closed false).bind).map
  | chmod named mode => exact (names ▸ (Fs.lookup_refused found closed true).bind).map
  | chown named owner group => exact (Fs.chown_refused closed named owner group).map
  | cp source dest recursive => exact (Fs.cp_refused found closed linked recursive names).map
  | mv source dest => exact (Fs.mv_refused found closed linked names).map

private theorem run_slips (names : request.Names path)
    (slips : request.Slips machine.volume actor.user directory name) :
    ∃ value, (request.run actor machine).1 = .ok value := by
  have made : ∀ {operation : Fs Inode}, (∃ inode, (operation actor machine).1 = .ok inode) →
      ∃ value, ((Value.inode <$> operation : Fs Value) actor machine).1 = .ok value := by
    rintro operation ⟨inode, same⟩
    refine ⟨.inode inode, ?_⟩
    rw [Fs.map_run]
    generalize operation actor machine = outcome at same
    obtain ⟨result, after⟩ := outcome
    cases same
    rfl
  cases request with
  | mkdir named mode =>
    obtain ⟨free, writes, valid⟩ := slips
    exact made (names ▸ Fs.mkdir_made found free writes valid)
  | touch named => exact made (names ▸ Fs.touch_made found slips)
  | ln target named =>
    obtain ⟨free, writes⟩ := slips
    exact made (names ▸ Fs.ln_made found free writes target)
  | _ => exact slips.elim

end Request

/-- A request about an entry is refused without a change exactly if it is none of those that a
directory lets through to those who may not search it. -/
theorem closed_directory_refuses_iff (reachable : Reachable Snapshot.Keyed machine)
    {parentPath : String} (cut : Path.splitParent path = (parentPath, name))
    (ordinary : name ≠ "" ∧ name ≠ "." ∧ name ≠ "..")
    (leads : machine.volume.lookup actor true parentPath = .ok directory)
    (shape : directory.isDirectory = true)
    (closed : directory.permits actor.user .execute = false) (names : request.Names path) :
    (∃ failure, (machine.serve actor request).1 = .error failure ∧ failure.Refuses ∧
      (machine.serve actor request).2.volume = machine.volume) ↔
      ¬ request.Slips machine.volume actor.user directory name := by
  have linked := (reachable.sound Snapshot.keyed_closed).linked
  have found : machine.volume.lookupParent actor path = .ok (directory, name) := by
    obtain ⟨some, dot, up⟩ := ordinary
    rw [lookupParent_eq]
    simp only [cut, some, dot, up, decide_false, Bool.or_self, Bool.false_eq_true, ↓reduceIte,
      leads]
    exact if_pos shape
  unfold Machine.serve Machine.perform
  constructor
  · rintro ⟨failure, failed, -, -⟩ slips
    obtain ⟨value, ran⟩ := request.run_slips found names slips
    rw [ran] at failed
    cases failed
  · intro stopped
    obtain ⟨failure, ran, refuses⟩ := (request.run_refused found linked closed names stopped).run
    rw [ran]
    exact ⟨failure, rfl, refuses, Machine.record_volume⟩

/-- A machine on which a user has made a directory that the user may not search. -/
def closedMachine : Machine :=
  (sharedMachine.serve ⟨"guest", "/"⟩ (.mkdir "/tmp/d" (some "600"))).2

/-- An entry of the directory cannot be looked up. -/
theorem unsearched_entry : ∃ directory,
    closedMachine.volume.lookup ⟨"guest", "/"⟩ true "/tmp/d" = .ok directory ∧
      directory.permits "guest" .execute = false ∧
      ∃ failure, (closedMachine.serve ⟨"guest", "/"⟩ (.lstat "/tmp/d/x")).1 = .error failure ∧
        failure.Refuses ∧
        (closedMachine.serve ⟨"guest", "/"⟩ (.lstat "/tmp/d/x")).2.volume =
          closedMachine.volume := by
  refine ⟨_, rfl, rfl, ?_⟩
  have reachable : Reachable Snapshot.Keyed closedMachine := (sharedMachine_reachable _).serve _ _
  have cut : Path.splitParent "/tmp/d/x" = ("/tmp/d", "x") := rfl
  have names : (Request.lstat "/tmp/d/x").Names "/tmp/d/x" := rfl
  exact (closed_directory_refuses_iff reachable cut (by decide) rfl rfl rfl names).mpr id

/-- An entry of the directory can be made. -/
theorem touched_in_closed_directory : ∃ directory,
    Reachable Snapshot.Keyed closedMachine ∧
      Path.splitParent "/tmp/d/x" = ("/tmp/d", "x") ∧
      closedMachine.volume.lookup ⟨"guest", "/"⟩ true "/tmp/d" = .ok directory ∧
      directory.isDirectory = true ∧ directory.permits "guest" .execute = false ∧
      (∃ inode, (closedMachine.serve ⟨"guest", "/"⟩ (.touch "/tmp/d/x")).1 =
        .ok (.inode inode)) ∧
      (closedMachine.serve ⟨"guest", "/"⟩ (.touch "/tmp/d/x")).2.volume ≠
        closedMachine.volume := by
  refine ⟨_, (sharedMachine_reachable _).serve _ _, rfl, rfl, rfl, rfl, ⟨_, rfl⟩, ?_⟩
  intro same
  have inodes := congrArg (fun volume => volume.inodes.length) same
  exact absurd inodes (by decide +kernel)

end PocketShell
