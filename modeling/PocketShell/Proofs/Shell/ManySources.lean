import PocketShell.Proofs.Fs.Deliveries
import PocketShell.Proofs.Shell.Passing

/-! Several files that are copied or moved into one directory. The destination is looked up again for
each, so what the ones before have done there decides where the next one goes. A move refuses every
name that is taken; hence, if all succeed, the files are all in the directory. A copy writes over a
file of its name, also over one that the same command has put there; but never over a source. -/
namespace PocketShell.Command

open Shell Volume

variable {caller : Caller Command} {workspace after : Workspace} {sources args : List String}
  {source goal : String} {recursive follow : Bool} {file other directory : Inode}
  {stdin : Option String} {outcome : Outcome}

/-- The path leads the administrator to the file, behind a link at its end if that is followed. -/
def FileAt (workspace : Workspace) (follow : Bool) (path : String) (file : Inode) : Prop :=
  workspace.machine.volume.lookup ⟨rootUser, workspace.cwd⟩ follow (workspace.pathOf path) =
    .ok file ∧ file.isFile = true

/-- The path leads the administrator to the directory. -/
def DirectoryAt (workspace : Workspace) (path : String) (directory : Inode) : Prop :=
  workspace.machine.volume.lookup ⟨rootUser, workspace.cwd⟩ true (workspace.pathOf path) =
    .ok directory ∧ directory.isDirectory = true

theorem FileAt.unique (leads : FileAt workspace follow source file)
    (again : FileAt workspace follow source other) : file = other :=
  Except.ok.inj (leads.1.symm.trans again.1)

theorem FileAt.held (leads : FileAt workspace follow source file)
    (linked : workspace.machine.volume.Linked) :
    workspace.machine.volume.inode? file.id = some file := by
  obtain ⟨trail, route⟩ := linked.route_of_lookup leads.1
  exact route.held

theorem FileAt.plain (leads : FileAt workspace follow source file) : file.isDirectory = false :=
  (shape_of_isFile leads.2).1

theorem DirectoryAt.held (leads : DirectoryAt workspace source directory)
    (linked : workspace.machine.volume.Linked) :
    workspace.machine.volume.inode? directory.id = some directory := by
  obtain ⟨trail, route⟩ := linked.route_of_lookup leads.1
  exact route.held

section Keeps

variable {machine : Machine} (keeps : workspace.machine.volume.Keeps machine.volume)
  (stays : ¬ workspace.machine.volume.Loses machine.volume)
  (linked : workspace.machine.volume.Linked) (linkedAfter : machine.volume.Linked)

include keeps stays linked linkedAfter

private theorem FileAt.again (leads : FileAt workspace follow source file) :
    ∃ found, FileAt { workspace with machine } follow source found ∧
      machine.volume.inode? file.id = some found ∧ file.Alike found := by
  obtain ⟨found, again, present⟩ := keeps.lookup linked linkedAfter stays leads.1
  have alike := keeps.alike _ _ _ (leads.held linked) present
  refine ⟨found, ⟨again, ?_⟩, present, alike⟩
  rw [Record.isFile, alike.type]
  exact leads.2

private theorem DirectoryAt.again (goes : DirectoryAt workspace goal directory) :
    ∃ found, DirectoryAt { workspace with machine } goal found ∧ found.id = directory.id := by
  obtain ⟨found, again, present⟩ := keeps.lookup linked linkedAfter stays goes.1
  have alike := keeps.alike _ _ _ (goes.held linked) present
  exact ⟨found, ⟨again, alike.isDirectory.trans goes.2⟩, id_of_inode? present⟩

end Keeps

private theorem sourcesAndGoal_eq {command : String} (some : sources ≠ []) :
    sourcesAndGoal command (sources ++ [goal]) = .ok (sources, goal) := by
  unfold sourcesAndGoal
  rw [List.reverse_concat]
  cases turned : sources.reverse with
  | nil => exact absurd (List.reverse_eq_nil_iff.mp turned) some
  | cons last others =>
    change Except.ok ((last :: others).reverse, goal) = _
    rw [← turned, List.reverse_reverse]

/-- What is done for one source. -/
private def transferring (operation : String → Fs Inode) (wording : String → FsError → String)
    (source : String) : Run Command (Except String Unit) := do
  let result ← Run.fs (operation (← Run.path source))
  return (explain (wording source) result).map fun _ => ()

private theorem transferring_ok {operation : String → Fs Inode} {wording : String → FsError → String}
    (ran : transferring operation wording source caller workspace = (.ok (.ok ()), after)) :
    ∃ inode, Run.fs (operation (workspace.pathOf source)) caller workspace =
      (.ok (.ok inode), after) := by
  unfold transferring at ran
  rw [Run.path_bind_run] at ran
  obtain ⟨result, between, ran, ends⟩ := Task.bind_eq_ok.mp ran
  cases result with
  | error reason => cases ends
  | ok inode =>
    cases ends
    exact ⟨inode, ran⟩

private theorem cp_eq (operands : (splitFlags args).operands = sources ++ [goal])
    (some : sources ≠ []) : ∃ wording, cp args caller workspace =
      each (transferring (Fs.cp · (workspace.pathOf goal) (isRecursive (splitFlags args))) wording)
        sources caller workspace := by
  unfold cp
  dsimp only
  rw [operands, sourcesAndGoal_eq some]
  exact ⟨_, Run.path_bind_run⟩

private theorem mv_eq (operands : (splitFlags args).operands = sources ++ [goal])
    (some : sources ≠ []) : ∃ wording, mv args caller workspace =
      each (transferring (Fs.mv · (workspace.pathOf goal)) wording) sources caller workspace := by
  unfold mv
  rw [operands, sourcesAndGoal_eq some]
  exact ⟨_, Run.path_bind_run⟩

/-! ## Copies -/

section Copies

variable {wording : String → FsError → String}

/-- What copies into a directory come to: no source is an entry of the directory, nothing has changed
that is no directory but what had the name of a source there, and the last copy of a name is there. -/
private structure Copied (workspace : Workspace) (sources : List String) (goal : String)
    (directory : Inode) (machine : Machine) : Prop where
  there : ∃ still, DirectoryAt { workspace with machine } goal still ∧ still.id = directory.id
  outside : ∀ source ∈ sources, ∀ file, FileAt workspace true source file →
    file.parent ≠ some directory.id
  others : ∀ id inode, workspace.machine.volume.inode? id = some inode →
    inode.isDirectory = false → (inode.parent = some directory.id → ∀ source ∈ sources, ∀ file,
      FileAt workspace true source file → inode.name ≠ file.name) →
    machine.volume.inode? id = some inode
  latest : ∀ front source back, sources = front ++ source :: back → ∀ file,
    FileAt workspace true source file → (∀ later ∈ back, ∀ other,
      FileAt workspace true later other → other.name ≠ file.name) →
    ∃ copy, machine.volume.inode? copy.id = some copy ∧ copy.parent = some directory.id ∧
      copy.name = file.name ∧ copy.payload = file.payload

/-- By induction on the sources. What is copied now is no entry of the directory, and what is copied
later is not either, so no copy is made over it and it is found again as it was. -/
private theorem copied_of_passes (reachable : Reachable Snapshot.Keyed workspace.machine)
    (passes : Passes (transferring (Fs.cp · (workspace.pathOf goal) recursive) wording) caller sources
      workspace after)
    (lead : ∀ source ∈ sources, ∃ file, FileAt workspace true source file)
    (goes : DirectoryAt workspace goal directory) :
    ∃ machine, after = { workspace with machine } ∧ Reachable Snapshot.Keyed machine ∧
      Copied workspace sources goal directory machine := by
  generalize target : workspace.pathOf goal = dest at passes
  induction passes generalizing directory with
  | @done workspace =>
    exact ⟨_, rfl, reachable, ⟨directory, goes, rfl⟩, by simp, fun _ _ found _ _ => found, by simp⟩
  | @next workspace between after source rest ran passes ih =>
    obtain ⟨copy, ran⟩ := transferring_ok ran
    obtain ⟨machine, copies, rfl, reached⟩ := Run.fs_reaches reachable
      (rfl : (Request.cp _ dest recursive).run = .inode <$> _) ran
    obtain ⟨linked, fresh, -, -⟩ := reachable.sound Snapshot.keyed_closed
    have linkedAfter := (reached.sound Snapshot.keyed_closed).linked
    obtain ⟨file, leads⟩ := lead source List.mem_cons_self
    subst target
    obtain ⟨apart, receives, keeps, stays⟩ :=
      Fs.cp_receives linked fresh copies leads.1 leads.2 goes.1 goes.2
    obtain ⟨still, goesAgain, same⟩ := goes.again keeps stays linked linkedAfter
    have leadAgain : ∀ later ∈ rest, ∃ found, FileAt { workspace with machine } true later found :=
      fun later member => by
        obtain ⟨other, leads⟩ := lead later (List.mem_cons_of_mem _ member)
        obtain ⟨found, again, -⟩ := leads.again keeps stays linked linkedAfter
        exact ⟨found, again⟩
    obtain ⟨last, rfl, reachable, copied⟩ := ih reached leadAgain goesAgain rfl
    have unchanged : ∀ later ∈ rest, ∀ other, FileAt workspace true later other →
        other.parent ≠ some directory.id ∧ FileAt { workspace with machine } true later other := by
      intro later member other leads
      obtain ⟨found, again, present, alike⟩ := leads.again keeps stays linked linkedAfter
      have elsewhere : other.parent ≠ some directory.id := by
        rw [← same, ← alike.parent]
        exact copied.outside later member found again
      have kept := receives.others _ _ (leads.held linked) leads.plain
        fun up => absurd up elsewhere
      cases present.symm.trans kept
      exact ⟨elsewhere, again⟩
    have before : ∀ later ∈ rest, ∀ other, FileAt { workspace with machine } true later other →
        FileAt workspace true later other := by
      intro later member other leads
      obtain ⟨first, led⟩ := lead later (List.mem_cons_of_mem _ member)
      exact (unchanged later member first led).2.unique leads ▸ led
    refine ⟨last, rfl, reachable, ?_, ?_, ?_, ?_⟩
    · obtain ⟨finally_, there, known⟩ := copied.there
      exact ⟨finally_, there, known.trans same⟩
    · refine List.forall_mem_cons.mpr ⟨fun other again => leads.unique again ▸ apart, ?_⟩
      exact fun later member other leads => (unchanged later member other leads).1
    · intro id inode found plain differs
      refine copied.others id inode ?_ plain fun up later member other led => ?_
      · exact receives.others id inode found plain fun up =>
          differs up source List.mem_cons_self file leads
      · exact differs (same ▸ up) later (List.mem_cons_of_mem _ member) other
          (before later member other led)
    · intro front chosen back split other led lastOne
      cases front with
      | nil =>
        obtain ⟨rfl, rfl⟩ := List.cons_eq_cons.mp split
        cases leads.unique led
        refine ⟨copy, copied.others _ _ receives.held ?_ fun _ later member other led => ?_,
          receives.up, receives.name, receives.payload⟩
        · rw [Record.isDirectory, Record.type, receives.payload]
          exact leads.plain
        · rw [receives.name]
          exact (lastOne later member other (before later member other led)).symm
      | cons first front =>
        obtain ⟨rfl, rfl⟩ := List.cons_eq_cons.mp split
        rw [← same]
        refine copied.latest front chosen back rfl other (unchanged chosen (by simp) other led).2 ?_
        exact fun later member other led =>
          lastOne later member other (before later (by simp [member]) other led)

end Copies

/-! ## Moves -/

section Moves

variable {wording : String → FsError → String}

/-- The file that a source led to has come into the directory. Every path that led to another file
leads there still; one that led to this file is missing, and what was missing is missing still. -/
private structure MovesOne (workspace : Workspace) (source goal : String) (directory file : Inode)
    (machine : Machine) : Prop where
  leads : FileAt workspace false source file
  apart : file.parent ≠ some directory.id
  there : ∃ still, DirectoryAt { workspace with machine } goal still ∧ still.id = directory.id
  arrived : ∃ moved, machine.volume.inode? moved.id = some moved ∧
    moved.parent = some directory.id ∧ moved.name = file.name ∧ moved.id = file.id ∧
    moved.payload = file.payload
  others : ∀ id inode, workspace.machine.volume.inode? id = some inode →
    inode.isDirectory = false → id ≠ file.id → machine.volume.inode? id = some inode
  again : ∀ path other, FileAt workspace false path other → other.id ≠ file.id →
    FileAt { workspace with machine } false path other
  left : ∀ path, FileAt workspace false path file →
    machine.volume.Missing ⟨rootUser, workspace.cwd⟩ (workspace.pathOf path) directory.id
  missing : ∀ path, workspace.machine.volume.Missing ⟨rootUser, workspace.cwd⟩
      (workspace.pathOf path) directory.id →
    machine.volume.Missing ⟨rootUser, workspace.cwd⟩ (workspace.pathOf path) directory.id

private theorem movesOne (linked : workspace.machine.volume.Linked) {machine : Machine}
    {moved : Inode} (linkedAfter : machine.volume.Linked)
    (moves : Fs.mv (workspace.pathOf source) (workspace.pathOf goal)
      ⟨caller.user, workspace.cwd⟩ workspace.machine = (.ok moved, machine))
    (lead : (∃ file, FileAt workspace false source file) ∨
      workspace.machine.volume.Missing ⟨rootUser, workspace.cwd⟩ (workspace.pathOf source)
        directory.id)
    (goes : DirectoryAt workspace goal directory) :
    ∃ file, MovesOne workspace source goal directory file machine := by
  obtain ⟨old, holder, file, name, relocates, rfl⟩ := Fs.mv_ok linked moves
  obtain ⟨rfl, rfl⟩ := relocates.aims.asRoot.eq_into goes.1 goes.2
  have found := lookup_asRoot relocates.leads
  have present : ¬ workspace.machine.volume.Missing ⟨rootUser, workspace.cwd⟩
      (workspace.pathOf source) holder.id := fun missing => missing.not_found found
  obtain ⟨_, leads⟩ := lead.resolve_right present
  cases leads.1.symm.trans found
  have bypasses : workspace.machine.volume.Bypasses machine.volume file :=
    relocates.volume ▸ relocates.moves.bypasses linked leads.2
  have others : ∀ id inode, workspace.machine.volume.inode? id = some inode →
      inode.isDirectory = false → id ≠ file.id → machine.volume.inode? id = some inode :=
    fun _ _ => relocates.moves.others linked relocates.volume
  refine ⟨file, leads, fun up => ?_, ?_, ?_, others, fun path other led differs => ?_,
    fun path led => relocates.moves.missing linked leads.2 relocates.volume rfl led.1,
    fun path => relocates.moves.missing_again linked leads.2 relocates.volume⟩
  · exact relocates.moves.old_ne linked rfl
      (Option.some.inj (relocates.moves.hangs.up.symm.trans up))
  · obtain ⟨still, again, ⟨held, there⟩, -⟩ :=
      bypasses.lookup linked linkedAfter goes.1 relocates.moves.differs
    obtain ⟨_, same, alike⟩ := bypasses.alike _ _ held relocates.moves.differs
    cases there.symm.trans same
    exact ⟨still, ⟨again, alike.isDirectory.trans goes.2⟩, id_of_inode? there⟩
  · refine ⟨{ file with
      name := file.name, parent := some holder.id, modified := workspace.machine.now }, ?_, rfl, rfl,
      rfl, rfl⟩
    rw [relocates.volume]
    exact inode?_rehang.trans (if_pos rfl)
  · obtain ⟨found, leadsAgain, ⟨held, there⟩, -⟩ :=
      bypasses.lookup linked linkedAfter led.1 differs
    cases there.symm.trans (others _ _ held led.plain differs)
    exact ⟨leadsAgain, led.2⟩

/-- What moves into a directory come to: no source was missing, what is in the directory and is none
stays, and the files are there. -/
private structure Moved (workspace : Workspace) (sources : List String) (goal : String)
    (directory : Inode) (machine : Machine) : Prop where
  there : ∃ still, DirectoryAt { workspace with machine } goal still ∧ still.id = directory.id
  named : ∀ source ∈ sources, ¬ workspace.machine.volume.Missing ⟨rootUser, workspace.cwd⟩
    (workspace.pathOf source) directory.id
  others : ∀ id inode, workspace.machine.volume.inode? id = some inode →
    inode.isDirectory = false → inode.parent = some directory.id →
    machine.volume.inode? id = some inode
  arrived : ∀ source ∈ sources, ∀ file, FileAt workspace false source file →
    ∃ moved, machine.volume.inode? moved.id = some moved ∧ moved.parent = some directory.id ∧
      moved.name = file.name ∧ moved.id = file.id ∧ moved.payload = file.payload

/-- By induction on the sources. A source that led to a file which has been moved before is missing
ever after, so no file is moved twice. -/
private theorem moved_of_passes (reachable : Reachable Snapshot.Keyed workspace.machine)
    (passes : Passes (transferring (Fs.mv · (workspace.pathOf goal)) wording) caller sources
      workspace after)
    (lead : ∀ source ∈ sources, (∃ file, FileAt workspace false source file) ∨
      workspace.machine.volume.Missing ⟨rootUser, workspace.cwd⟩ (workspace.pathOf source)
        directory.id)
    (goes : DirectoryAt workspace goal directory) :
    ∃ machine, after = { workspace with machine } ∧ Reachable Snapshot.Keyed machine ∧
      Moved workspace sources goal directory machine := by
  generalize target : workspace.pathOf goal = dest at passes
  induction passes generalizing directory with
  | @done workspace =>
    exact ⟨_, rfl, reachable, ⟨directory, goes, rfl⟩, by simp, fun _ _ found _ _ => found, by simp⟩
  | @next workspace between after source rest ran passes ih =>
    subst target
    obtain ⟨moved, ran⟩ := transferring_ok ran
    obtain ⟨machine, moves, rfl, reached⟩ := Run.fs_reaches reachable
      (rfl : (Request.mv _ _).run = .inode <$> _) ran
    have linked := (reachable.sound Snapshot.keyed_closed).linked
    have linkedAfter := (reached.sound Snapshot.keyed_closed).linked
    obtain ⟨file, one⟩ :=
      movesOne linked linkedAfter moves (lead source List.mem_cons_self) goes
    obtain ⟨still, goesAgain, same⟩ := one.there
    have onward : ∀ path other, FileAt workspace false path other →
        FileAt { workspace with machine } false path other ∨
          machine.volume.Missing ⟨rootUser, workspace.cwd⟩ (workspace.pathOf path) still.id := by
      intro path other leads
      by_cases here : other.id = file.id
      · have held := leads.held linked
        rw [here, one.leads.held linked] at held
        cases held
        exact .inr (same ▸ one.left path leads)
      · exact .inl (one.again path other leads here)
    have leadAgain : ∀ later ∈ rest, (∃ file, FileAt { workspace with machine } false later file) ∨
        machine.volume.Missing ⟨rootUser, workspace.cwd⟩ (workspace.pathOf later) still.id := by
      intro later member
      rcases lead later (List.mem_cons_of_mem _ member) with ⟨other, leads⟩ | missing
      · exact (onward later other leads).imp_left fun leads => ⟨other, leads⟩
      · exact .inr (same ▸ one.missing later missing)
    obtain ⟨last, rfl, reachable, moved⟩ := ih reached leadAgain goesAgain rfl
    refine ⟨last, rfl, reachable, ?_, ?_, ?_, ?_⟩
    · obtain ⟨finally_, there, known⟩ := moved.there
      exact ⟨finally_, there, known.trans same⟩
    · refine List.forall_mem_cons.mpr ⟨fun missing => missing.not_found one.leads.1, ?_⟩
      intro later member missing
      exact moved.named later member (same ▸ one.missing later missing)
    · intro id inode found plain up
      refine moved.others id inode (one.others id inode found plain ?_) plain (same ▸ up)
      rintro rfl
      cases found.symm.trans (one.leads.held linked)
      exact one.apart up
    · refine List.forall_mem_cons.mpr ⟨fun other leads => ?_, fun later member other leads => ?_⟩
      · cases one.leads.unique leads
        obtain ⟨entry, held, up, name, id, payload⟩ := one.arrived
        refine ⟨entry, moved.others _ _ held ?_ (same ▸ up), up, name, id, payload⟩
        rw [Record.isDirectory, Record.type, payload]
        exact one.leads.plain
      · rw [← same]
        rcases onward later other leads with again | missing
        · exact moved.arrived later member other again
        · exact absurd missing (moved.named later member)

/-- Where a second move succeeds after that of a file, they go into a directory: otherwise the first
one has taken the name, and the second finds it taken. -/
private theorem directory_of_second {second : String} {between : Workspace}
    (reachable : Reachable Snapshot.Keyed workspace.machine)
    (leads : FileAt workspace false source file)
    (ran : transferring (Fs.mv · (workspace.pathOf goal)) wording source caller workspace =
      (.ok (.ok ()), between))
    (next : transferring (Fs.mv · (workspace.pathOf goal)) wording second caller between =
      (.ok (.ok ()), after)) :
    ∃ directory, DirectoryAt workspace goal directory := by
  obtain ⟨moved, ran⟩ := transferring_ok ran
  obtain ⟨machine, moves, rfl, reached⟩ := Run.fs_reaches reachable
    (rfl : (Request.mv _ _).run = .inode <$> _) ran
  obtain ⟨_, ran⟩ := transferring_ok next
  obtain ⟨_, follows, -⟩ := Run.fs_ok.mp ran
  have linked := (reachable.sound Snapshot.keyed_closed).linked
  have linkedAfter := (reached.sound Snapshot.keyed_closed).linked
  obtain ⟨old, target, inode, name, relocates, rfl⟩ := Fs.mv_ok linked moves
  obtain ⟨_, holder, _, given, further, -⟩ := Fs.mv_ok linkedAfter follows
  cases leads.1.symm.trans (lookup_asRoot relocates.leads)
  cases relocates.aims.asRoot with
  | into goes shape => exact ⟨_, goes, shape⟩
  | beside _ above =>
    exfalso
    have bypasses : workspace.machine.volume.Bypasses machine.volume file :=
      relocates.volume ▸ relocates.moves.bypasses linked leads.2
    obtain ⟨still, again, spared⟩ := bypasses.lookupParent linked linkedAfter above
    obtain ⟨_, held, taken⟩ := relocates.arrives linkedAfter
    cases spared.1.2.symm.trans held
    cases further.aims.asRoot with
    | into goes shape =>
      have plain := shape_of_isFile leads.2
      have direct := (lookup_entry again).mpr ⟨permits_rootUser _ _, taken⟩
      cases goes.symm.trans (lookup_follow (by exact plain.2) direct)
      exact absurd shape (Bool.eq_false_iff.mp plain.1)
    | beside _ other =>
      cases again.symm.trans other
      cases taken.symm.trans further.moves.free

end Moves

/-! ## All sources -/

/-- Where several files are moved and all goes well, they are in the directory that the destination
leads to. Where they are copied into a directory, this is where it leads still, no source has
changed, and of every name that a source has the entry there holds what the last such source held. -/
theorem several_arrive (reachable : Reachable Snapshot.Keyed workspace.machine)
    (operands : (splitFlags args).operands = sources ++ [goal]) (several : 2 ≤ sources.length)
    (succeeded : outcome.code = 0) :
    (run (.builtin .cp) args stdin caller workspace = (.ok outcome, after) →
      (∀ source ∈ sources, ∃ file, FileAt workspace true source file) →
      ∀ directory, DirectoryAt workspace goal directory →
      (∃ still, DirectoryAt after goal still ∧ still.id = directory.id) ∧
      (∀ source ∈ sources, ∀ file, FileAt workspace true source file →
        after.machine.volume.inode? file.id = some file) ∧
      (∀ front source back, sources = front ++ source :: back → ∀ file,
        FileAt workspace true source file →
        (∀ later ∈ back, ∀ other, FileAt workspace true later other → other.name ≠ file.name) →
        ∃ copy, after.machine.volume.EntryNamed directory.id file.name copy ∧
          copy.payload = file.payload)) ∧
    (run (.builtin .mv) args stdin caller workspace = (.ok outcome, after) →
      (∀ source ∈ sources, ∃ file, FileAt workspace false source file) →
      ∃ directory, DirectoryAt after goal directory ∧
        ∀ source ∈ sources, ∀ file, FileAt workspace false source file →
          ∃ moved, after.machine.volume.EntryNamed directory.id file.name moved ∧
            moved.id = file.id ∧ moved.payload = file.payload) := by
  have some : sources ≠ [] := by
    rintro rfl
    cases several
  constructor
  · intro ran lead directory goes
    change cp args caller workspace = _ at ran
    obtain ⟨wording, same⟩ := cp_eq operands some
    rw [same] at ran
    obtain ⟨-, passes⟩ := each_passes_iff.mp ⟨ran, succeeded⟩
    obtain ⟨machine, rfl, reached, copied⟩ := copied_of_passes reachable passes lead goes
    have linked := (reachable.sound Snapshot.keyed_closed).linked
    have linkedAfter := (reached.sound Snapshot.keyed_closed).linked
    refine ⟨copied.there, fun source member file leads => ?_, ?_⟩
    · exact copied.others _ _ (leads.held linked) leads.plain fun up =>
        absurd up (copied.outside source member file leads)
    · intro front source back split file leads last
      obtain ⟨copy, held, up, name, payload⟩ := copied.latest front source back split file leads last
      exact ⟨copy, name ▸ .of_parent linkedAfter held up, payload⟩
  · intro ran lead
    change mv args caller workspace = _ at ran
    obtain ⟨wording, same⟩ := mv_eq operands some
    rw [same] at ran
    obtain ⟨-, passes⟩ := each_passes_iff.mp ⟨ran, succeeded⟩
    obtain ⟨directory, goes⟩ : ∃ directory, DirectoryAt workspace goal directory := by
      match sources, several, passes with
      | first :: second :: _, _, .next ran (.next next _) =>
        obtain ⟨file, leads⟩ := lead first List.mem_cons_self
        exact directory_of_second reachable leads ran next
    obtain ⟨machine, rfl, reached, moved⟩ :=
      moved_of_passes reachable passes (fun source member => .inl (lead source member)) goes
    have linkedAfter := (reached.sound Snapshot.keyed_closed).linked
    obtain ⟨still, there, known⟩ := moved.there
    refine ⟨still, there, fun source member file leads => ?_⟩
    obtain ⟨entry, held, up, name, id, payload⟩ := moved.arrived source member file leads
    exact ⟨entry, known ▸ name ▸ .of_parent linkedAfter held up, id, payload⟩

private def carrier : Caller Command := ⟨"guest", none, "host"⟩

/-- Two files of the guest's, a third that is called like the first, and a directory. -/
private def ladenMachine : Machine :=
  let first := (sharedMachine.serve ⟨"guest", "/"⟩ (.writeText "/tmp/a" "x")).2
  let second := (first.serve ⟨"guest", "/"⟩ (.writeText "/tmp/b" "y")).2
  let apart := (second.serve ⟨"guest", "/"⟩ (.mkdir "/tmp/e" none)).2
  let third := (apart.serve ⟨"guest", "/"⟩ (.writeText "/tmp/e/a" "z")).2
  (third.serve ⟨"guest", "/"⟩ (.mkdir "/tmp/d" none)).2

private theorem ladenMachine_reachable : Reachable Snapshot.Keyed ladenMachine :=
  (((((sharedMachine_reachable _).serve _ _).serve _ _).serve _ _).serve _ _).serve _ _

private def laden : Workspace := plainWorkspace ladenMachine

private theorem laden_reachable : Reachable Snapshot.Keyed laden.machine := by
  have same : ∀ machine, (plainWorkspace machine).machine = machine := fun _ => rfl
  rw [laden, same]
  exact ladenMachine_reachable

private theorem fileAt_of_any {path : String} {p : Inode → Bool} (found :
      (workspace.machine.volume.lookup ⟨rootUser, workspace.cwd⟩ follow
        (workspace.pathOf path)).toOption.any (fun file => file.isFile && p file) = true) :
    ∃ file, FileAt workspace follow path file ∧ p file = true := by
  obtain ⟨file, leads, both⟩ := (Option.any_eq_true _ _).mp found
  rw [Bool.and_eq_true] at both
  exact ⟨file, ⟨toOption_eq_some.mp leads, both.1⟩, both.2⟩

private theorem directoryAt_of_any {path : String} {p : Inode → Bool} (found :
      (workspace.machine.volume.lookup ⟨rootUser, workspace.cwd⟩ true
        (workspace.pathOf path)).toOption.any (fun inode => inode.isDirectory && p inode) = true) :
    ∃ directory, DirectoryAt workspace path directory ∧ p directory = true := by
  obtain ⟨directory, leads, both⟩ := (Option.any_eq_true _ _).mp found
  rw [Bool.and_eq_true] at both
  exact ⟨directory, ⟨toOption_eq_some.mp leads, both.1⟩, both.2⟩

/-- Two files are copied into a directory, or moved there. -/
theorem two_files_arrive : ∃ directory copied moved,
    Reachable Snapshot.Keyed laden.machine ∧
    DirectoryAt laden "/tmp/d" directory ∧
    run (.builtin .cp) ["/tmp/a", "/tmp/b", "/tmp/d"] none carrier laden = (.ok .silent, copied) ∧
    (∀ source ∈ ["/tmp/a", "/tmp/b"], ∃ file copy, FileAt laden true source file ∧
      copied.machine.volume.EntryNamed directory.id file.name copy ∧
      copy.payload = file.payload) ∧
    run (.builtin .mv) ["/tmp/a", "/tmp/b", "/tmp/d"] none carrier laden = (.ok .silent, moved) ∧
    ∃ reached, DirectoryAt moved "/tmp/d" reached ∧
      ∀ source ∈ ["/tmp/a", "/tmp/b"], ∃ file entry, FileAt laden false source file ∧
        moved.machine.volume.EntryNamed reached.id file.name entry ∧ entry.id = file.id ∧
        entry.payload = file.payload := by
  have operands : (splitFlags ["/tmp/a", "/tmp/b", "/tmp/d"]).operands =
      ["/tmp/a", "/tmp/b"] ++ ["/tmp/d"] := by decide
  have copies : (run (.builtin .cp) ["/tmp/a", "/tmp/b", "/tmp/d"] none carrier laden).1 =
      .ok .silent := toOption_eq_some.mp (by decide +kernel)
  have moves : (run (.builtin .mv) ["/tmp/a", "/tmp/b", "/tmp/d"] none carrier laden).1 =
      .ok .silent := toOption_eq_some.mp (by decide +kernel)
  obtain ⟨directory, goes, -⟩ : ∃ directory, DirectoryAt laden "/tmp/d" directory ∧ true = true :=
    directoryAt_of_any (by decide +kernel)
  have followed : ∀ follow, (∃ a, FileAt laden follow "/tmp/a" a ∧ (a.name == "a") = true) ∧
      ∃ b, FileAt laden follow "/tmp/b" b ∧ (b.name == "b") = true := by
    intro follow
    cases follow <;> exact ⟨fileAt_of_any (by decide +kernel), fileAt_of_any (by decide +kernel)⟩
  obtain ⟨⟨a, leadsA, nameA⟩, b, leadsB, nameB⟩ := followed true
  obtain ⟨⟨a', leadsA', -⟩, b', leadsB', -⟩ := followed false
  obtain ⟨-, -, latest⟩ := (several_arrive laden_reachable operands (by decide) rfl).1
    (ending_eq copies) (by simpa using ⟨⟨a, leadsA⟩, b, leadsB⟩) directory goes
  obtain ⟨reached, there, arrived⟩ :=
    (several_arrive laden_reachable operands (by decide) rfl).2 (ending_eq moves)
      (by simpa using ⟨⟨a', leadsA'⟩, b', leadsB'⟩)
  have copiedA := latest [] "/tmp/a" ["/tmp/b"] rfl a leadsA (by
    rintro _ member other leads
    obtain rfl := List.mem_singleton.mp member
    rw [leads.unique leadsB, beq_iff_eq.mp nameA, beq_iff_eq.mp nameB]
    decide)
  have copiedB := latest ["/tmp/a"] "/tmp/b" [] rfl b leadsB (by simp)
  refine ⟨directory, _, _, laden_reachable, goes, ending_eq copies, ?_, ending_eq moves,
    reached, there, ?_⟩
  · simp only [List.forall_mem_cons]
    exact ⟨⟨a, _, leadsA, copiedA.choose_spec⟩, ⟨b, _, leadsB, copiedB.choose_spec⟩, by simp⟩
  · have first := arrived "/tmp/a" (by simp) a' leadsA'
    have second := arrived "/tmp/b" (by simp) b' leadsB'
    simp only [List.forall_mem_cons]
    exact ⟨⟨a', _, leadsA', first.choose_spec⟩, ⟨b', _, leadsB', second.choose_spec⟩, by simp⟩

/-- Where the destination leads nowhere, the second file is copied over the first copy, which is no
directory. In a directory too a file is copied over the copy of another one of its name. -/
theorem copied_over_each_other : ∃ beside into,
    Reachable Snapshot.Keyed laden.machine ∧
    (∀ source ∈ ["/tmp/a", "/tmp/b", "/tmp/e/a"], ∃ file, FileAt laden false source file) ∧
    run (.builtin .cp) ["/tmp/a", "/tmp/b", "/tmp/n"] none carrier laden = (.ok .silent, beside) ∧
    (¬ ∃ directory, DirectoryAt beside "/tmp/n" directory) ∧
    run (.builtin .cp) ["/tmp/a", "/tmp/e/a", "/tmp/d"] none carrier laden = (.ok .silent, into) ∧
    (∃ file, FileAt laden false "/tmp/a" file ∧ file.content = "x") ∧
    ∃ directory, DirectoryAt into "/tmp/d" directory ∧
      ∀ name entry, into.machine.volume.EntryNamed directory.id name entry →
        entry.content ≠ "x" := by
  let beside := run (.builtin .cp) ["/tmp/a", "/tmp/b", "/tmp/n"] none carrier laden
  let into := run (.builtin .cp) ["/tmp/a", "/tmp/e/a", "/tmp/d"] none carrier laden
  have first : beside.1 = .ok .silent := toOption_eq_some.mp (by decide +kernel)
  have second : into.1 = .ok .silent := toOption_eq_some.mp (by decide +kernel)
  have lead : ∀ source ∈ ["/tmp/a", "/tmp/b", "/tmp/e/a"], (laden.machine.volume.lookup
      ⟨rootUser, laden.cwd⟩ false (laden.pathOf source)).toOption.any
        (fun file => file.isFile && true) = true := by decide +kernel
  obtain ⟨file, leads, -⟩ : ∃ file, FileAt beside.2 true "/tmp/n" file ∧ true = true :=
    fileAt_of_any (by decide +kernel)
  obtain ⟨a, leadsA, content⟩ : ∃ a, FileAt laden false "/tmp/a" a ∧ (a.content == "x") = true :=
    fileAt_of_any (by decide +kernel)
  obtain ⟨directory, goes, entries⟩ : ∃ directory, DirectoryAt into.2 "/tmp/d" directory ∧
      ((into.2.machine.volume.inode? directory.id).all fun held => held.children.all fun id =>
        (into.2.machine.volume.inode? id).all fun entry => entry.content != "x") = true :=
    directoryAt_of_any (by decide +kernel)
  refine ⟨beside.2, into.2, laden_reachable, fun source member => ?_, ending_eq first, ?_,
    ending_eq second, ⟨a, leadsA, beq_iff_eq.mp content⟩, directory, goes, ?_⟩
  · obtain ⟨file, leads, -⟩ := fileAt_of_any (lead source member)
    exact ⟨file, leads⟩
  · rintro ⟨directory, goes, shape⟩
    cases leads.1.symm.trans goes
    rw [leads.plain] at shape
    cases shape
  · rintro name entry ⟨_, held, named⟩
    obtain ⟨id, listed, found, -⟩ := childNamed?_mem named
    rw [held, Option.all_some, List.all_eq_true] at entries
    have other := entries id listed
    rw [found, Option.all_some, bne_iff_ne] at other
    exact other

end PocketShell.Command
