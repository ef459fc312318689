import PocketShell.Proofs.Fs.Retracing
import PocketShell.Proofs.Fs.Runs
import PocketShell.Proofs.Fs.TwoRuns

/-! Making an entry and finding it. What makes an entry looks its directory up, what finds it looks
the whole path up; both name the same entry, however the path is spelt. So a name that is found
cannot be claimed, and what has been made is found where it was asked for. -/
namespace PocketShell

open Volume

variable {actor : Actor} {before after machine : Machine} {directory inode old : Inode}
  {path name : String} {request : Request}

namespace Fs

/-- The inode is a new entry of a directory, put there under the name that the path ends in. -/
structure Enters (actor : Actor) (before : Machine) (path : String) (directory inode : Inode)
    (after : Machine) : Prop where
  parent : before.volume.lookupParent actor path = .ok (directory, inode.name)
  free : before.volume.childNamed? directory inode.name = none
  writes : directory.permits actor.user .write = true
  newcomer : Newcomer actor.user before directory inode
  volume : after.volume = before.volume.graft before.now directory inode

/-- An entry is put into a directory where the path says, or one that is there is touched. -/
inductive Touches (actor : Actor) (before : Machine) (path : String) : Inode → Machine → Prop
  | enters {directory inode : Inode} {after : Machine}
      (enters : Enters actor before path directory inode after) :
      Touches actor before path inode after
  | there {directory old : Inode} {after : Machine}
      (parent : before.volume.lookupParent actor path = .ok (directory, old.name))
      (named : before.volume.childNamed? directory old.name = some old)
      (volume : after.volume = before.volume.put (old.touch before.now)) :
      Touches actor before path (old.touch before.now) after

theorem lookupParent_found {found : Inode × String}
    (ran : lookupParent path actor before = (.ok found, after)) :
    after = before ∧ before.volume.lookupParent actor path = .ok found := by
  rw [lookupParent_run] at ran
  cases parent : before.volume.lookupParent actor path with
  | error failure =>
    rw [parent] at ran
    cases ran
  | ok found =>
    rw [parent] at ran
    cases ran
    exact ⟨rfl, rfl⟩

/-- A name that has been claimed is free in a directory that can be written to. -/
theorem claimName_ok (ran : claimName path actor before = (.ok (directory, name), after)) :
    after = before ∧ before.volume.lookupParent actor path = .ok (directory, name) ∧
      before.volume.childNamed? directory name = none ∧
      directory.permits actor.user .write = true := by
  unfold claimName at ran
  obtain ⟨⟨above, last⟩, _, sought, claims⟩ := bind_ok ran
  obtain ⟨rfl, parent⟩ := lookupParent_found sought
  dsimp only at claims
  rw [run_bind, volume_run] at claims
  obtain ⟨free, demands⟩ := check_ok claims
  obtain ⟨_, _, demanded, ends⟩ := bind_ok demands
  obtain ⟨rfl, writes⟩ := Reads.demand.of_ok demanded
  cases ends
  exact ⟨rfl, parent, by simpa using free, writes⟩

/-- What is attached under a claimed name enters. -/
private theorem enters_of_claim {mode : Mode} {size : Int} {payload : Payload String}
    (parent : before.volume.lookupParent actor path = .ok (directory, name))
    (free : before.volume.childNamed? directory name = none)
    (writes : directory.permits actor.user .write = true)
    (leaf : (attached actor before directory name mode size payload).children = [])
    (sized : ∀ content, payload = .file content → size = byteSize content)
    (volume : after.volume = before.volume.graft before.now directory
      (attached actor before directory name mode size payload)) :
    Enters actor before path directory (attached actor before directory name mode size payload)
      after :=
  ⟨parent, free, writes, attached_newcomer leaf sized, volume⟩

theorem mkdir_enters {mode : Option String}
    (ran : mkdir path mode actor before = (.ok inode, after)) :
    ∃ directory, Enters actor before path directory inode after ∧ inode.isDirectory = true := by
  unfold mkdir at ran
  obtain ⟨⟨directory, name⟩, between, claimed, makes⟩ := bind_ok ran
  obtain ⟨rfl, parent, free, writes⟩ := claimName_ok claimed
  obtain ⟨-, -, -, -, -, -, shape⟩ := lookupParent_ok parent
  obtain ⟨bits, _, chosen, attaches⟩ := bind_ok makes
  have chooses : Reads (directoryMode mode) actor between fun _ => True := by
    cases mode with
    | none => exact Reads.volume ((Reads.pure _).imp fun _ _ => trivial)
    | some text =>
      cases parsed : Mode.parse? true text with
      | none =>
        simp only [directoryMode, parsed]
        exact Reads.refuse .invalidMode
      | some mode =>
        simp only [directoryMode, parsed]
        exact (Reads.pure mode).imp fun _ _ => trivial
  obtain ⟨rfl, -⟩ := chooses.of_ok chosen
  simp only [run_bind, attach_run shape, note_run, pure_run] at attaches
  cases attaches
  exact ⟨directory, enters_of_claim parent free writes rfl (by simp) rfl, rfl⟩

theorem ln_enters {target : String} (ran : ln target path actor before = (.ok inode, after)) :
    ∃ directory, Enters actor before path directory inode after := by
  unfold ln at ran
  obtain ⟨⟨directory, name⟩, between, claimed, makes⟩ := bind_ok ran
  obtain ⟨rfl, parent, free, writes⟩ := claimName_ok claimed
  obtain ⟨-, -, -, -, -, -, shape⟩ := lookupParent_ok parent
  simp only [run_bind, attach_run shape, note_run, pure_run] at makes
  cases makes
  exact ⟨directory, enters_of_claim parent free writes rfl (by simp) rfl⟩

theorem touch_touches (ran : touch path actor before = (.ok inode, after)) :
    Touches actor before path inode after := by
  unfold touch at ran
  obtain ⟨⟨directory, name⟩, between, sought, rest⟩ := bind_ok ran
  obtain ⟨rfl, parent⟩ := lookupParent_found sought
  obtain ⟨-, -, -, -, -, -, shape⟩ := lookupParent_ok parent
  dsimp only at rest
  rw [run_bind, volume_run] at rest
  cases named : between.volume.childNamed? directory name with
  | some existing =>
    simp only [named, run_bind, get_run, put_run, pure_run] at rest
    cases rest
    obtain ⟨-, -, -, rfl⟩ := childNamed?_mem named
    exact .there parent named rfl
  | none =>
    simp only [named] at rest
    obtain ⟨_, _, demanded, makes⟩ := bind_ok rest
    obtain ⟨rfl, writes⟩ := Reads.demand.of_ok demanded
    simp only [run_bind, volume_run, attach_run shape, note_run, pure_run] at makes
    cases makes
    have sized : ∀ content, Payload.file (ρ := String) "" = .file content →
        0 = byteSize content := by
      intro content same
      cases same
      rfl
    exact .enters (enters_of_claim parent named writes rfl sized rfl)

namespace Enters

variable (enters : Enters actor before path directory inode after)
  (linked : before.volume.Linked) (fresh : before.IdsFresh)

include enters linked fresh

theorem fits : before.volume.Fits directory inode := by
  obtain ⟨⟨trail, route⟩, shape, -⟩ := linked.route_of_lookupParent enters.parent
  exact enters.newcomer.fits fresh route.held shape enters.free

theorem linked_after : after.volume.Linked := by
  rw [enters.volume]
  exact linked.graft (enters.fits linked fresh)

/-- Root finds a new entry at the path that it was made at. -/
theorem lookup : after.volume.lookup actor.asRoot false path = .ok inode := by
  have fits := enters.fits linked fresh
  have linkedAfter := enters.linked_after linked fresh
  rw [enters.volume] at linkedAfter ⊢
  obtain ⟨holder, parent, present⟩ := (Keeps.graft fits).lookupParent linked linkedAfter
    not_loses_graft (lookupParent_asRoot enters.parent)
  rw [fits.inode?_parent] at present
  cases present
  refine (lookup_entry parent).mpr ⟨permits_rootUser _ _, ?_⟩
  exact childNamed?_of_mem linkedAfter fits.inode?_parent (by simp) Fits.inode?_child

end Enters

/-- Root finds what has been touched at the path that was given. -/
theorem Touches.lookup (touches : Touches actor before path inode after)
    (linked : before.volume.Linked) (fresh : before.IdsFresh) :
    after.volume.lookup actor.asRoot false path = .ok inode := by
  cases touches with
  | enters enters => exact enters.lookup linked fresh
  | @there directory old after parent named volume =>
    have led : before.volume.lookup actor.asRoot false path = .ok old :=
      (lookup_entry (lookupParent_asRoot parent)).mpr ⟨permits_rootUser _ _, named⟩
    obtain ⟨id, -, found, -⟩ := childNamed?_mem named
    have held : before.volume.inode? (old.touch before.now).id = some old := inode?_self found
    have linkedAfter : (before.volume.put (old.touch before.now)).Linked :=
      linked.put_outline (inode?_self found) rfl rfl
        fun content file => linked.sized _ old content held file
    obtain ⟨again, leads, present⟩ :=
      (Keeps.put held .touch).lookup linked linkedAfter (not_loses_put held) led
    have touched : (before.volume.put (old.touch before.now)).inode? old.id =
        some (old.touch before.now) := inode?_put_self
    rw [touched] at present
    rw [volume, leads, Option.some.inj present]

/-- A name under which something is found cannot be claimed. -/
theorem claimName_taken (taken : before.volume.lookup actor false path = .ok inode) :
    claimName path actor before = (.error (.refused .fileExists), before) := by
  cases parent : before.volume.lookupParent actor path with
  | ok found =>
    obtain ⟨directory, name⟩ := found
    obtain ⟨-, named⟩ := (lookup_entry parent).mp taken
    simp only [claimName, run_bind, lookupParent_run, volume_run, parent, Machine.noting, named,
      Option.isSome_some, ↓reduceIte]
    rfl
  | error failure =>
    have same : failure = .refused .fileExists := by
      cases cut : Path.splitParent path with
      | mk parentPath name =>
        by_cases ordinary : name ≠ "" ∧ name ≠ "." ∧ name ≠ ".."
        · obtain ⟨directory, found⟩ := lookupParent_of_lookup cut ordinary taken
          rw [parent] at found
          cases found
        · have improper : (name = "" || name = "." || name = "..") = true := by
            by_contra proper
            simp only [Bool.or_eq_true, decide_eq_true_eq, not_or, and_assoc] at proper
            exact ordinary proper
          simp only [lookupParent_eq, cut, improper, ↓reduceIte] at parent
          cases parent
          rfl
    simp only [claimName, run_bind, lookupParent_run, parent, same]
    rfl

end Fs

namespace Request

/-- The request claims the name at a path for a new entry. -/
def Claims (path : String) : Request → Prop
  | .mkdir named _ | .ln _ named => named = path
  | _ => False

/-- The request makes an entry at a path, or touches the one that is there. -/
def Makes (path : String) : Request → Prop
  | .mkdir named _ | .ln _ named | .touch named => named = path
  | _ => False

private theorem Claims.refused (claims : request.Claims path)
    (taken : machine.volume.lookup actor false path = .ok inode) :
    (machine.serve actor request).1 = .error (.refused .fileExists) := by
  have stops : ∀ {operation : Fs Inode} {next : Inode × String → Fs Inode},
      request.run = Value.inode <$> operation → operation = Fs.claimName path >>= next →
      (machine.serve actor request).1 = .error (.refused .fileExists) := by
    intro operation next asked same
    rw [Machine.serve_eq asked, same, Fs.run_bind, Fs.claimName_taken taken]
  cases request with
  | mkdir named mode =>
    obtain rfl : named = path := claims
    exact stops rfl rfl
  | ln target named =>
    obtain rfl : named = path := claims
    exact stops rfl rfl
  | _ => exact claims.elim

private theorem Makes.touches (makes : request.Makes path)
    (made : (machine.serve actor request).1 = .ok (.inode inode)) :
    Fs.Touches actor machine path inode (machine.serve actor request).2 := by
  have ran : ∀ {operation : Fs Inode}, request.run = Value.inode <$> operation →
      operation actor machine = (.ok inode, (machine.serve actor request).2) := by
    intro operation asked
    obtain ⟨given, ran, ⟨⟩⟩ := Machine.serve_ok asked made
    exact ran
  cases request with
  | mkdir named mode =>
    obtain rfl : named = path := makes
    obtain ⟨directory, enters, -⟩ := Fs.mkdir_enters (ran rfl)
    exact .enters enters
  | ln target named =>
    obtain rfl : named = path := makes
    obtain ⟨directory, enters⟩ := Fs.ln_enters (ran rfl)
    exact .enters enters
  | touch named =>
    obtain rfl : named = path := makes
    exact Fs.touch_touches (ran rfl)
  | _ => exact makes.elim

end Request

/-- What is found at a path without following its last name is the answer to `lstat`. -/
theorem Machine.serve_lstat : (machine.serve actor (.lstat path)).1 = .ok (.inode inode) ↔
    machine.volume.lookup actor false path = .ok inode := by
  have asked : (Request.lstat path).run = .inode <$> Fs.lookup false path := rfl
  rw [serve_eq asked, Fs.lookup_run]
  cases machine.volume.lookup actor false path with
  | ok found => simp
  | error failure => simp

/-- What is found when its last name is followed is the answer to `stat`. -/
theorem Machine.serve_stat : (machine.serve actor (.stat path)).1 = .ok (.inode inode) ↔
    machine.volume.lookup actor true path = .ok inode := by
  have asked : (Request.stat path).run = .inode <$> Fs.lookup true path := rfl
  rw [serve_eq asked, Fs.lookup_run]
  cases machine.volume.lookup actor true path with
  | ok found => simp
  | error failure => simp

/-- An entry is found at a path exactly if it is the entry of its directory that the path names,
and may be searched for there; where one is found none can be made, and what is made is found,
all by the same path. -/
theorem made_where_found (reachable : Reachable Snapshot.Keyed machine) (actor : Actor)
    (path : String) :
    (∀ name entry, (Path.componentsOf path).getLast? = some name → name ≠ "." → name ≠ ".." →
      ((machine.serve actor (.lstat path)).1 = .ok (.inode entry) ↔
        ∃ directory, machine.volume.lookupParent actor path = .ok (directory, name) ∧
          directory.permits actor.user .execute = true ∧ entry.id ∈ directory.children ∧
          machine.volume.inode? entry.id = some entry ∧ entry.name = name)) ∧
    (∀ entry request, (machine.serve actor (.lstat path)).1 = .ok (.inode entry) →
      request.Claims path → (machine.serve actor request).1 = .error (.refused .fileExists)) ∧
    ∀ request inode, request.Makes path →
      (machine.serve actor request).1 = .ok (.inode inode) →
      ((machine.serve actor request).2.serve actor.asRoot (.lstat path)).1 =
        .ok (.inode inode) := by
  have linked := (reachable.sound Snapshot.keyed_closed).linked
  have fresh := (reachable.sound Snapshot.keyed_closed).fresh
  refine ⟨fun name entry last dot up => ?_, fun entry request found claims => ?_,
    fun request inode makes made => ?_⟩
  · rw [Machine.serve_lstat]
    obtain ⟨parentPath, cut⟩ := Path.splitParent_of_getLast? last
    have some : name ≠ "" := (Path.isComponent_of_mem (List.mem_of_getLast? last)).1
    constructor
    · intro leads
      obtain ⟨directory, parent⟩ := lookupParent_of_lookup cut ⟨some, dot, up⟩ leads
      obtain ⟨search, named⟩ := (lookup_entry parent).mp leads
      obtain ⟨id, listed, found, same⟩ := childNamed?_mem named
      exact ⟨directory, parent, search, id_of_inode? found ▸ listed, inode?_self found, same⟩
    · rintro ⟨directory, parent, search, listed, found, rfl⟩
      obtain ⟨⟨trail, route⟩, -⟩ := linked.route_of_lookupParent parent
      exact (lookup_entry parent).mpr
        ⟨search, childNamed?_of_mem linked route.held listed found⟩
  · exact claims.refused (Machine.serve_lstat.mp found)
  · exact Machine.serve_lstat.mpr ((makes.touches made).lookup linked fresh)

/-- A machine on which a user has made a link to the directory above. -/
def linkedMachine : Machine := (sharedMachine.serve ⟨"guest", "/"⟩ (.ln ".." "/tmp/up")).2

/-- A directory made through the link, from a working directory behind it, is found. -/
theorem found_behind_link : Reachable Snapshot.Keyed linkedMachine ∧
    ∃ inode, (Request.mkdir "./tmp//d/" none).Makes "./tmp//d/" ∧
      (linkedMachine.serve ⟨"guest", "/tmp/up"⟩ (.mkdir "./tmp//d/" none)).1 =
        .ok (.inode inode) ∧
      ((linkedMachine.serve ⟨"guest", "/tmp/up"⟩ (.mkdir "./tmp//d/" none)).2.serve
        ⟨"root", "/tmp/up"⟩ (.lstat "./tmp//d/")).1 = .ok (.inode inode) := by
  have reachable : Reachable Snapshot.Keyed linkedMachine := (sharedMachine_reachable _).serve _ _
  refine ⟨reachable, _, rfl, rfl, ?_⟩
  exact (made_where_found reachable ⟨"guest", "/tmp/up"⟩ "./tmp//d/").2.2 _ _ rfl rfl

end PocketShell
