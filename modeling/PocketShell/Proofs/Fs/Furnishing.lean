import PocketShell.Proofs.Fs.Removal

/-! Making a directory, filling it and removing it. As long as new inodes come only below the new
directory nothing else changes, so to remove the directory with all below it is to undo it all; what
stays is the time at which the directory around it has changed. -/
namespace PocketShell

open Volume

variable {actor remover : Actor} {machine filled : Machine} {directory inode parent child : Inode}
  {path way top : String} {recursive : Bool}

namespace Volume

variable {first second volume origin after : Volume} {gate old : Inode} {id user : String}
  {now : Binary64}

/-- The inode with the id has come between the volumes. -/
def Gains (first second : Volume) (id : String) : Prop :=
  first.inode? id = none ∧ second.inode? id ≠ none

/-- The change is below one inode: what was not there before or was below it is below it now, or
gone, and everything else is as it was. -/
structure Within (first : Volume) (top : String) (second : Volume) : Prop where
  outside : ∀ id, first.inode? id ≠ none → ¬ first.Below top id →
    second.inode? id = first.inode? id
  inside : ∀ id, second.inode? id ≠ none → first.inode? id = none ∨ first.Below top id →
    second.Below top id

/-- Way down from an old inode one meets only old ones, or the directory that has grown. -/
private theorem Growth.below_before (growth : Growth user origin gate after) (linked : origin.Linked)
    (held : origin.inode? gate.id = some gate) (shape : gate.isDirectory = true)
    (there : origin.inode? top = some old) (below : after.Below top id) :
    origin.Below top id ∨ origin.Below top gate.id := by
  induction below with
  | refl => exact .inl .refl
  | @tail holder entry _ listed ih =>
    rcases ih with upper | found
    · obtain ⟨directory, present⟩ := linked.held_of_below there upper
      cases before : origin.inode? entry with
      | none =>
        have same := growth.eq_gate_of_lists linked listed (by simp [present]) before
        exact .inr (same ▸ upper)
      | some inode =>
        obtain ⟨still, found, -⟩ := ((growth.linked linked).lists_iff _ _).mp listed
        exact .inl (upper.tail (growth.lists_before linked held shape listed before found).1)
    · exact .inr found

/-- Only a directory that grows brings new inodes, and if these are below an old one so is the
directory. -/
theorem Edit.within_of_gains (edit : Edit user first second) (linked : first.Linked)
    (there : first.inode? top = some old) (gains : first.Gains second id)
    (only : ∀ id, first.Gains second id → second.Below top id) : first.Within top second := by
  cases edit with
  | keep => exact absurd gains.1 gains.2
  | amend held amends =>
    exact absurd ((inode?_put_eq_none_iff (amends.id ▸ held)).mpr gains.1) gains.2
  | prune route hangs all released =>
    exact absurd ((hangs.removed linked all).none_of_none gains.1) gains.2
  | rehang moves route released writes named apart =>
    exact absurd (moves.inode?_rehang_eq_none_iff.mpr gains.1) gains.2
  | @grow trail gate _ route shape writes growth =>
    have grown : first.Below top gate.id := by
      rcases growth.below_before linked route.held shape there (only id gains) with old | found
      · obtain ⟨inode, held⟩ := linked.held_of_below there old
        rw [gains.1] at held
        cases held
      · exact found
    refine ⟨fun id held outside => ?_, fun id present => ?_⟩
    · obtain ⟨inode, found⟩ := Option.ne_none_iff_exists'.mp held
      have elsewhere : id ≠ gate.id := by
        rintro rfl
        exact outside grown
      rw [found, growth.kept elsewhere found]
    · rintro (new | below)
      · exact only id ⟨new, present⟩
      · exact growth.below_after below

end Volume

/-- Requests one after another, each of which makes something, and only below the inode with the
id, or changes at most what is below it. Time may pass between them. -/
inductive Furnishes (top : String) (first : Machine) : Machine → Prop
  | start : Furnishes top first first
  | creates {machine : Machine} (before : Furnishes top first machine) (actor : Actor)
      (request : Request)
      (some : ∃ id, machine.volume.Gains (machine.serve actor request).2.volume id)
      (only : ∀ id, machine.volume.Gains (machine.serve actor request).2.volume id →
        (machine.serve actor request).2.volume.Below top id) :
      Furnishes top first (machine.serve actor request).2
  | changes {machine : Machine} (before : Furnishes top first machine) (actor : Actor)
      (request : Request)
      (within : machine.volume.Within top (machine.serve actor request).2.volume) :
      Furnishes top first (machine.serve actor request).2
  | elapse {machine : Machine} (before : Furnishes top first machine) (now : Binary64) (log : Log)
      {nextId : Nat} (later : machine.nextId ≤ nextId) :
      Furnishes top first { machine with now, log, nextId }

namespace Volume

variable {first second volume origin made : Volume} {id : String} {now : Binary64}

/-- The volume after a new entry has been hung into the original one and filled: all that was there
is as the new entry has left it, and all else is below that entry. -/
structure Furnished (origin made : Volume) (top : String) (volume : Volume) : Prop where
  linked : volume.Linked
  root : volume.rootId = origin.rootId
  kept : ∀ id, origin.inode? id ≠ none → volume.inode? id = made.inode? id
  new : ∀ id, origin.inode? id = none → volume.inode? id ≠ none → volume.Below top id

/-- A directory with the entries that it had before has changed in nothing but its time. -/
private theorem withChildren_restored {later : Binary64} {entries : List String}
    (shape : directory.isDirectory = true) :
    (directory.withChildren now entries).withChildren later directory.children =
      directory.touch later := by
  cases payload : directory.payload with
  | directory former => simp [Record.withChildren, Record.touch, Record.children, payload]
  | _ => simp [Record.isDirectory, Record.type, payload, Payload.type] at shape

namespace Furnished

variable (fits : origin.Fits directory child)
  (furnished : Furnished origin (origin.graft now directory child) child.id volume)

include fits

/-- To begin with only the new entry is below itself. -/
theorem start (linked : origin.Linked) :
    Furnished origin (origin.graft now directory child) child.id
      (origin.graft now directory child) where
  linked := linked.graft fits
  root := rfl
  kept := fun _ _ => rfl
  new := by
    intro id none present
    rw [inode?_graft] at present
    split at present
    · rename_i same
      exact same ▸ .refl
    split at present
    · rename_i here
      rw [here, fits.held] at none
      cases none
    · exact absurd none present

include furnished

/-- Nothing that was there before the new entry hangs below it. -/
theorem new_of_below (linked : origin.Linked) (below : volume.Below child.id id) :
    origin.inode? id = none := by
  induction below with
  | refl => exact fits.fresh
  | @tail holder entry _ listed ih =>
    by_contra there
    obtain ⟨inode, found, up⟩ := (furnished.linked.lists_iff _ _).mp listed
    rw [furnished.kept entry there] at found
    rcases fits.origin found with ⟨same, -⟩ | ⟨-, before, held, parent, -⟩
    · exact there (same ▸ fits.fresh)
    · obtain ⟨directory, present, -⟩ :=
        (linked.lists_iff _ _).mpr ⟨before, held, parent.trans up⟩
      rw [ih] at present
      cases present

/-- The directory lists the new entry as long as it is being filled. -/
theorem holder : volume.inode? directory.id =
    some (directory.withChildren now (directory.children ++ [child.id])) := by
  rw [furnished.kept directory.id (by simp [fits.held]), fits.inode?_parent]

theorem within (linked : origin.Linked) (linkedAfter : second.Linked)
    (root : second.rootId = volume.rootId) (within : volume.Within child.id second) :
    Furnished origin (origin.graft now directory child) child.id second where
  linked := linkedAfter
  root := root.trans furnished.root
  kept := by
    intro id there
    have outside : ¬ volume.Below child.id id :=
      fun below => there (furnished.new_of_below fits linked below)
    have present : volume.inode? id ≠ none := by
      rw [furnished.kept id there]
      exact fun none => not_loses_graft ⟨id, there, none⟩
    rw [within.outside id present outside, furnished.kept id there]
  new := by
    intro id none present
    refine within.inside id present ?_
    by_cases before : volume.inode? id = Option.none
    · exact .inl before
    · exact .inr (furnished.new id none before)

/-- When the new entry is removed everything is as it was, but for the time of its directory. -/
theorem restored {later : Binary64} (linked : origin.Linked) (same : inode.id = child.id)
    (found : volume.inode? inode.id = some inode)
    (removed : volume.Removed later parent inode second)
    (id : String) : second.inode? id =
      if id = directory.id then some (directory.touch later) else origin.inode? id := by
  have listed : volume.Lists directory.id inode.id :=
    ⟨_, furnished.holder fits, by simp [same]⟩
  have up := furnished.linked.parent_of_lists listed found
  obtain ⟨former, latter, whole, unlisted, present⟩ := removed.unlisted
  have ids : parent.id = directory.id := Option.some.inj (removed.up.symm.trans up)
  have held := removed.held
  have kept := removed.kept
  rw [ids, furnished.holder fits] at held
  cases held
  have entries : former ++ latter = directory.children := by
    have cut : former ++ inode.id :: latter = directory.children ++ child.id :: [] := whole.symm
    rw [List.mem_append, not_or] at unlisted
    obtain ⟨rfl, -, rfl⟩ := (List.append_cons_inj_of_notMem (same ▸ unlisted.1)
      (same ▸ unlisted.2)).mp cut
    simp
  split
  · rename_i here
    rw [here]
    refine present.trans (congrArg _ ?_)
    rw [entries]
    exact withChildren_restored fits.directory
  rename_i elsewhere
  by_cases below : volume.Below child.id id
  · rw [removed.gone id (same ▸ below), furnished.new_of_below fits linked below]
  rw [kept id elsewhere (same ▸ below)]
  by_cases there : origin.inode? id = none
  · by_contra differs
    exact below (furnished.new id there (there ▸ differs))
  · have old : id ≠ child.id := fun new => there (new ▸ fits.fresh)
    rw [furnished.kept id there, inode?_graft, if_neg old, if_neg elsewhere]

end Furnished

end Volume

/-- However a new entry is filled, all that was there before is as the entry has left it. -/
theorem Furnishes.furnished {first : Machine} {origin : Volume} {now : Binary64}
    (furnishes : Furnishes child.id first filled) (linked : origin.Linked)
    (fits : origin.Fits directory child) (reachable : Reachable Snapshot.Keyed first)
    (made : first.volume = origin.graft now directory child) :
    Reachable Snapshot.Keyed filled ∧
      Furnished origin (origin.graft now directory child) child.id filled.volume := by
  induction furnishes with
  | start => exact ⟨reachable, made ▸ .start fits linked⟩
  | @creates machine before actor request some only ih =>
    obtain ⟨reachable, furnished⟩ := ih
    have sound := reachable.sound Snapshot.keyed_closed
    have step := machine.serve_step sound.linked sound.fresh actor request
    obtain ⟨id, gains⟩ := some
    obtain ⟨entry, there, -⟩ := (furnished.linked.lists_iff _ _).mp
      ⟨_, furnished.holder fits, List.mem_append_right directory.children List.mem_cons_self⟩
    have within := step.edit.within_of_gains sound.linked there gains only
    exact ⟨reachable.serve actor request, furnished.within fits linked
      (step.edit.linked sound.linked) step.edit.rootId_eq within⟩
  | @changes machine before actor request within ih =>
    obtain ⟨reachable, furnished⟩ := ih
    have sound := reachable.sound Snapshot.keyed_closed
    have step := machine.serve_step sound.linked sound.fresh actor request
    exact ⟨reachable.serve actor request, furnished.within fits linked
      (step.edit.linked sound.linked) step.edit.rootId_eq within⟩
  | elapse before now log later ih => exact ⟨ih.1.elapse now log later, ih.2⟩

namespace Machine

/-- A removal is served as its operation runs. -/
private theorem serve_rm : (machine.serve actor (.rm path recursive)).1 = .ok .done ↔
    Fs.rm path recursive actor machine =
      (.ok (), (machine.serve actor (.rm path recursive)).2) := by
  have asked : (Request.rm path recursive).run = (fun _ => .done) <$> Fs.rm path recursive := rfl
  constructor
  · intro served
    obtain ⟨given, ran, -⟩ := serve_ok asked served
    exact ran
  · intro ran
    rw [serve_eq asked, ran]

/-- A path that leads nowhere is not found, whether or not its last name is followed. -/
private theorem serve_nowhere (nowhere : ∀ follow, machine.volume.lookup actor follow path =
    .error (.refused .notFound)) :
    (machine.serve actor (.stat path)).1 = .error (.refused .notFound) ∧
      (machine.serve actor (.lstat path)).1 = .error (.refused .notFound) := by
  have asked : ∀ {request follow}, request.run = .inode <$> Fs.lookup follow path →
      (machine.serve actor request).1 = .error (.refused .notFound) := by
    intro request follow asked
    rw [serve_eq asked, Fs.lookup_run, nowhere follow]
  exact ⟨asked rfl, asked rfl⟩

end Machine

/-- An entry is removed exactly if it may be, and what is gone then is the entry with all below it,
so that the path leads nowhere; and to make a directory, fill it and remove it leaves the table as
it was, but for the time of the directory around. -/
theorem removed_exactly (reachable : Reachable Snapshot.Keyed machine) (actor : Actor)
    (path : String) :
    (∀ inode recursive, (machine.serve actor (.lstat path)).1 = .ok (.inode inode) →
      ((machine.serve actor (.rm path recursive)).1 = .ok .done ↔
        machine.volume.Removable actor.user recursive inode) ∧
      ((machine.serve actor (.rm path recursive)).1 = .ok .done →
        (∃ parent, machine.volume.Removed machine.now parent inode
          (machine.serve actor (.rm path recursive)).2.volume) ∧
        ((machine.serve actor (.rm path recursive)).2.serve actor.asRoot (.stat path)).1 =
          .error (.refused .notFound) ∧
        ((machine.serve actor (.rm path recursive)).2.serve actor.asRoot (.lstat path)).1 =
          .error (.refused .notFound))) ∧
    ∀ mode made filled remover way inode recursive,
      (machine.serve actor (.mkdir path mode)).1 = .ok (.inode made) →
      Furnishes made.id (machine.serve actor (.mkdir path mode)).2 filled →
      (filled.serve remover (.lstat way)).1 = .ok (.inode inode) → inode.id = made.id →
      (filled.serve remover (.rm way recursive)).1 = .ok .done →
      ∃ directory, machine.volume.inode? directory.id = some directory ∧
        made.parent = some directory.id ∧
        (filled.serve remover (.rm way recursive)).2.volume.rootId = machine.volume.rootId ∧
        ∀ id, (filled.serve remover (.rm way recursive)).2.volume.inode? id =
          if id = directory.id then some (directory.touch filled.now)
          else machine.volume.inode? id := by
  have sound := reachable.sound Snapshot.keyed_closed
  constructor
  · intro inode recursive found
    have leads := Machine.serve_lstat.mp found
    rw [Machine.serve_rm]
    refine ⟨⟨fun ran => (Fs.rm_ok sound.linked leads ran).1, fun removable => ?_⟩, fun ran => ?_⟩
    · obtain ⟨after, ran⟩ := Fs.rm_done sound.linked leads removable
      have asked : (Request.rm path recursive).run =
          (fun _ => .done) <$> Fs.rm path recursive := rfl
      rw [Machine.serve_eq asked, ran]
    · obtain ⟨parent, removed⟩ := (Fs.rm_ok sound.linked leads ran).2
      have linkedAfter := ((reachable.serve actor (.rm path recursive)).sound
        Snapshot.keyed_closed).linked
      refine ⟨⟨parent, removed⟩, Machine.serve_nowhere fun follow => ?_⟩
      exact removed.keeps.lookup_gone sound.linked linkedAfter (lookup_asRoot leads)
        (removed.gone _ .refl)
  · intro mode made filled remover way inode recursive created furnishes found same ran
    obtain ⟨_, makes, ⟨⟩⟩ := Machine.serve_ok
      (rfl : (Request.mkdir path mode).run = .inode <$> Fs.mkdir path mode) created
    obtain ⟨directory, enters, -⟩ := Fs.mkdir_enters makes
    have fits := enters.fits sound.linked sound.fresh
    obtain ⟨reachableFilled, furnished⟩ := furnishes.furnished sound.linked fits
      (reachable.serve actor (.mkdir path mode)) enters.volume
    have soundFilled := reachableFilled.sound Snapshot.keyed_closed
    have leads := Machine.serve_lstat.mp found
    obtain ⟨trail, route⟩ := soundFilled.linked.route_of_lookup leads
    obtain ⟨parent, removed⟩ := (Fs.rm_ok soundFilled.linked leads (Machine.serve_rm.mp ran)).2
    exact ⟨directory, fits.held, fits.up, removed.root.trans furnished.root,
      furnished.restored fits sound.linked same route.held removed⟩

/-- A machine on which a user has made a directory. -/
def furnishedMachine : Machine := (sharedMachine.serve ⟨"guest", "/"⟩ (.mkdir "/tmp/d" none)).2

/-- The machine with a link to the root in that directory. -/
def loopedMachine : Machine := (furnishedMachine.serve ⟨"guest", "/"⟩ (.ln "/" "/tmp/d/up")).2

/-- To remove the directory is not to follow the link, and brings the table back. -/
theorem restored_without_link : Reachable Snapshot.Keyed sharedMachine ∧
    ∃ made inode directory,
      (sharedMachine.serve ⟨"guest", "/"⟩ (.mkdir "/tmp/d" none)).1 = .ok (.inode made) ∧
      Furnishes made.id furnishedMachine loopedMachine ∧
      (loopedMachine.serve ⟨"guest", "/tmp"⟩ (.lstat "d")).1 = .ok (.inode inode) ∧
      (loopedMachine.serve ⟨"guest", "/tmp"⟩ (.rm "d" true)).1 = .ok .done ∧
      sharedMachine.volume.inode? directory.id = some directory ∧
      ∀ id, (loopedMachine.serve ⟨"guest", "/tmp"⟩ (.rm "d" true)).2.volume.inode? id =
        if id = directory.id then some (directory.touch loopedMachine.now)
        else sharedMachine.volume.inode? id := by
  have reachable : Reachable Snapshot.Keyed sharedMachine := sharedMachine_reachable _
  have sound := (reachable.serve ⟨"guest", "/"⟩ (.mkdir "/tmp/d" none)).sound Snapshot.keyed_closed
  have supplied := (furnishedMachine.serve_step sound.linked sound.fresh ⟨"guest", "/"⟩
    (.ln "/" "/tmp/d/up")).supplied
  have filled : Furnishes (inodeId 2) furnishedMachine loopedMachine := by
    refine .creates .start ⟨"guest", "/"⟩ (.ln "/" "/tmp/d/up") ⟨inodeId 3, rfl, by decide⟩ ?_
    rintro id ⟨unused, taken⟩
    obtain ⟨n, later, given, rfl⟩ := supplied.given id unused taken
    have third : n = 3 := Nat.le_antisymm (Nat.lt_succ_iff.mp given) later
    exact third ▸ .single ⟨_, rfl, List.mem_singleton.mpr rfl⟩
  obtain ⟨directory, held, -, -, restored⟩ := (removed_exactly reachable ⟨"guest", "/"⟩
    "/tmp/d").2 none _ loopedMachine ⟨"guest", "/tmp"⟩ "d" _ true rfl filled rfl rfl rfl
  exact ⟨reachable, _, _, directory, rfl, filled, rfl, rfl, held, restored⟩

end PocketShell
