import PocketShell.Proofs.Fs.Onward
import PocketShell.Proofs.Outcomes
import PocketShell.Proofs.Shell.Passing

/-! Directories that are made with their parents. The loop looks up one beginning of the path after
the other while it makes what is missing. What it has passed stays a directory, since nothing that is
there is lost or moved by making more; so in the end the whole path leads to a directory, and to go
over it again changes nothing. -/
namespace PocketShell

variable {first second third : Volume} {parent child old new other : Inode} {now : Binary64}

/-- The inode as it is, or with more entries behind those of a directory. -/
def Lengthened (old new : Inode) : Prop :=
  new = old ∨ old.isDirectory = true ∧
    ∃ time entries, new = old.withChildren time (old.children ++ entries)

/-- All that is there stays, but for entries that come into directories, and only directories are
new. -/
structure Volume.Furthers (first second : Volume) : Prop where
  root : second.rootId = first.rootId
  umask : second.umask = first.umask
  kept : ∀ id old, first.inode? id = some old →
    ∃ new, second.inode? id = some new ∧ Lengthened old new
  made : ∀ id new, first.inode? id = none → second.inode? id = some new → new.isDirectory = true

namespace Lengthened

theorem refl (inode : Inode) : Lengthened inode inode := .inl rfl

theorem alike (lengthened : Lengthened old new) : old.Alike new := by
  obtain rfl | ⟨directory, time, entries, rfl⟩ := lengthened
  · exact .refl _
  · exact .withChildren directory

theorem isDirectory (lengthened : Lengthened old new) : new.isDirectory = old.isDirectory :=
  lengthened.alike.isDirectory

theorem trans (lengthened : Lengthened old new) (further : Lengthened new other) :
    Lengthened old other := by
  obtain rfl | ⟨directory, time, entries, rfl⟩ := lengthened
  · exact further
  obtain rfl | ⟨-, later, more, rfl⟩ := further
  · exact .inr ⟨directory, time, entries, rfl⟩
  · refine .inr ⟨directory, later, entries ++ more, ?_⟩
    rw [Record.withChildren_children, List.append_assoc]
    rfl

end Lengthened

namespace Volume.Furthers

theorem refl (volume : Volume) : volume.Furthers volume where
  root := rfl
  umask := rfl
  kept := fun _ old found => ⟨old, found, .refl old⟩
  made := fun _ _ missing found => by
    rw [missing] at found
    cases found

theorem trans (furthers : first.Furthers second) (more : second.Furthers third) :
    first.Furthers third where
  root := more.root.trans furthers.root
  umask := more.umask.trans furthers.umask
  kept := by
    intro id old found
    obtain ⟨new, there, lengthened⟩ := furthers.kept id old found
    obtain ⟨last, stays, further⟩ := more.kept id new there
    exact ⟨last, stays, lengthened.trans further⟩
  made := by
    intro id new missing found
    cases between : second.inode? id with
    | none => exact more.made id new between found
    | some middle =>
      obtain ⟨last, stays, lengthened⟩ := more.kept id middle between
      rw [stays] at found
      cases found
      rw [lengthened.isDirectory]
      exact furthers.made id middle missing between

theorem graft (fits : first.Fits parent child) (directory : child.isDirectory = true) :
    first.Furthers (first.graft now parent child) where
  root := rfl
  umask := rfl
  kept := by
    intro id old found
    by_cases here : id = parent.id
    · subst here
      rw [fits.held] at found
      cases found
      exact ⟨_, fits.inode?_parent, .inr ⟨fits.directory, now, [child.id], rfl⟩⟩
    · exact ⟨old, fits.inode?_other here found, .refl old⟩
  made := by
    intro id new missing found
    obtain ⟨-, rfl⟩ | ⟨-, old, held, -⟩ := fits.origin found
    · exact directory
    · rw [missing] at held
      cases held

theorem not_loses (furthers : first.Furthers second) : ¬ first.Loses second := by
  rintro ⟨id, there, gone⟩
  obtain ⟨inode, found⟩ := Option.ne_none_iff_exists'.mp there
  obtain ⟨new, stays, -⟩ := furthers.kept id inode found
  rw [gone] at stays
  cases stays

theorem keeps (furthers : first.Furthers second) : first.Keeps second where
  root := furthers.root
  alike := by
    intro id inode other found there
    obtain ⟨new, stays, lengthened⟩ := furthers.kept id inode found
    rw [stays] at there
    cases there
    exact lengthened.alike
  oneWay := fun lost _ there gone => absurd ⟨lost, there, gone⟩ furthers.not_loses

end Volume.Furthers

/-- For the administrator the path leads to a directory. -/
def Volume.Paved (volume : Volume) (cwd path : String) : Prop :=
  ∃ directory, volume.lookup ⟨rootUser, cwd⟩ true path = .ok directory ∧
    directory.isDirectory = true

theorem Volume.Paved.stays {cwd path : String} (paved : first.Paved cwd path)
    (furthers : first.Furthers second) (linked : first.Linked) (linkedAfter : second.Linked) :
    second.Paved cwd path := by
  obtain ⟨directory, leads, shape⟩ := paved
  obtain ⟨after, again, found⟩ :=
    furthers.keeps.lookup linked linkedAfter furthers.not_loses leads
  obtain ⟨trail, route⟩ := linked.route_of_lookup leads
  exact ⟨after, again, (furthers.keeps.alike _ _ _ route.held found).isDirectory.trans shape⟩

namespace Command

open Shell

variable {caller : Caller Command} {workspace after : Workspace} {args : List String}
  {stdin : Option String} {outcome : Outcome} {wording : FsError → String}
  {made component path : String} {components : List String}

/-- The beginning of the path that ends in the next component. -/
def onto (made component : String) : String :=
  if made.isEmpty then component else Path.join [made, component]

/-- All beginnings of the path in their order. -/
def beginnings (made : String) : List String → List String
  | [] => []
  | component :: rest => onto made component :: beginnings (onto made component) rest

/-- The longest beginning is the whole path, in as far as searches tell. -/
theorem beginnings_last (proper : ∀ c ∈ components, Path.IsComponent c) (some : components ≠ []) :
    ∃ last ∈ beginnings made components,
      Path.componentsOf last = Path.componentsOf made ++ components ∧
      Path.isAbsolute last = Path.isAbsolute made := by
  induction components generalizing made with
  | nil => exact absurd rfl some
  | cons component rest ih =>
    obtain ⟨first, others⟩ := List.forall_mem_cons.mp proper
    have onward : Path.componentsOf (onto made component) =
          Path.componentsOf made ++ [component] ∧
        Path.isAbsolute (onto made component) = Path.isAbsolute made := by
      unfold onto
      by_cases start : made = ""
      · subst start
        exact ⟨Path.componentsOf_single first, Path.isAbsolute_of_isComponent first⟩
      · rw [if_neg (by simpa using start)]
        exact ⟨Path.componentsOf_append first, Path.isAbsolute_append_component first start⟩
    by_cases last : rest = []
    · subst last
      exact ⟨_, List.mem_cons_self, onward⟩
    · obtain ⟨further, member, longer, same⟩ := @ih (onto made component) others last
      refine ⟨further, List.mem_cons_of_mem _ member, ?_, same.trans onward.2⟩
      rw [longer, onward.1, List.append_assoc, List.singleton_append]

/-- A directory that is made leaves all that was there. -/
private theorem mkdir_paves (reachable : Reachable Snapshot.Keyed workspace.machine)
    {inode : Inode} (ran : Run.fs (Fs.mkdir path none) caller workspace = (.ok (.ok inode), after)) :
    ∃ machine, after = { workspace with machine } ∧ Reachable Snapshot.Keyed machine ∧
      workspace.machine.volume.Furthers machine.volume ∧
      machine.volume.Paved workspace.cwd path := by
  obtain ⟨machine, makes, rfl, reached⟩ := Run.fs_reaches reachable
    (rfl : (Request.mkdir path none).run = .inode <$> _) ran
  obtain ⟨directory, enters, shape⟩ := Fs.mkdir_enters makes
  have sound := reachable.sound Snapshot.keyed_closed
  refine ⟨machine, rfl, reached, ?_, inode, ?_, shape⟩
  · rw [enters.volume]
    exact .graft (enters.fits sound.linked sound.fresh) shape
  · have plain : inode.isSymlink = false := by
      unfold Record.isDirectory at shape
      unfold Record.isSymlink
      rw [of_decide_eq_true shape]
      rfl
    exact Volume.lookup_follow plain (enters.lookup sound.linked sound.fresh)

/-- Where an operation that fails ends it all, the operation has succeeded. -/
private theorem bind_fs_ok {α : Type} {operation : Fs α}
    {next : Except FsError α → Run Command (Except String Unit)}
    (refuses : ∀ reason, next (.error reason) = pure (.error (wording reason)))
    (ran : (Run.fs operation >>= next) caller workspace = (.ok (.ok ()), after)) :
    ∃ value between, Run.fs operation caller workspace = (.ok (.ok value), between) ∧
      next (.ok value) caller between = (.ok (.ok ()), after) := by
  obtain ⟨result, between, ran, goes⟩ := Task.bind_eq_ok.mp ran
  cases result with
  | error reason =>
    rw [refuses] at goes
    cases goes
  | ok value => exact ⟨value, between, ran, goes⟩

/-- One more beginning is passed: it leads to a directory already, or the directory is made. -/
theorem makeParents_cons (reachable : Reachable Snapshot.Keyed workspace.machine)
    {rest : List String}
    (ran : makeParents wording made (component :: rest) caller workspace =
      (.ok (.ok ()), after)) :
    ∃ machine, Reachable Snapshot.Keyed machine ∧
      workspace.machine.volume.Furthers machine.volume ∧
      machine.volume.Paved workspace.cwd (onto made component) ∧
      makeParents wording (onto made component) rest caller { workspace with machine } =
        (.ok (.ok ()), after) := by
  unfold makeParents at ran
  change (Run.fs (Fs.stat (onto made component)) >>= _) caller workspace = _ at ran
  obtain ⟨result, between, looked, goes⟩ := Task.bind_eq_ok.mp ran
  by_cases present : ∃ directory, result = .ok directory ∧ directory.isDirectory = true
  · obtain ⟨directory, rfl, shape⟩ := present
    obtain ⟨leads, rfl⟩ := Run.lookup_ok.mp looked
    simp only [shape, if_true] at goes
    exact ⟨_, reachable, .refl _, ⟨directory, Volume.lookup_asRoot leads, shape⟩, goes⟩
  · have left : between = workspace.step (.serve ⟨caller.user, workspace.cwd⟩
        (.stat (onto made component))) := by
      rw [← Run.fs_left (rfl : (Request.stat (onto made component)).run = .inode <$> _), looked]
    have makes : ∃ inode later, Run.fs (Fs.mkdir (onto made component) none) caller between =
        (.ok (.ok inode), later) ∧ makeParents wording (onto made component) rest caller later =
          (.ok (.ok ()), after) := by
      cases result with
      | error reason => exact bind_fs_ok (fun _ => rfl) goes
      | ok inode =>
        have shape : inode.isDirectory = false :=
          Bool.eq_false_iff.mpr fun shape => present ⟨inode, rfl, shape⟩
        simp only [shape, Bool.false_eq_true, if_false] at goes
        exact bind_fs_ok (fun _ => rfl) goes
    obtain ⟨inode, later, makes, goes⟩ := makes
    subst left
    obtain ⟨machine, rfl, reached, furthers, paved⟩ := mkdir_paves (reachable.serve _ _) makes
    have same : (workspace.machine.serve ⟨caller.user, workspace.cwd⟩
        (.stat (onto made component))).2.volume = workspace.machine.volume := by
      rw [Machine.serve_eq (rfl : (Request.stat _).run = .inode <$> Fs.stat _), Fs.stat,
        Fs.lookup_run]
      generalize workspace.machine.volume.lookup _ true _ = found
      cases found <;> exact Machine.noting_volume
    exact ⟨machine, reached, same ▸ furthers, paved, goes⟩

/-- By induction on the components: what has been passed stays paved while the rest is made. -/
theorem makeParents_ok (reachable : Reachable Snapshot.Keyed workspace.machine)
    (ran : makeParents wording made components caller workspace = (.ok (.ok ()), after)) :
    ∃ machine, after = { workspace with machine } ∧ Reachable Snapshot.Keyed machine ∧
      workspace.machine.volume.Furthers machine.volume ∧
      ∀ beginning ∈ beginnings made components,
        machine.volume.Paved workspace.cwd beginning := by
  induction components generalizing made workspace with
  | nil =>
    cases ran
    exact ⟨_, rfl, reachable, .refl _, nofun⟩
  | cons component rest ih =>
    obtain ⟨between, reached, furthers, paved, goes⟩ := makeParents_cons reachable ran
    obtain ⟨machine, rfl, last, more, others⟩ := ih reached goes
    refine ⟨machine, rfl, last, furthers.trans more, List.forall_mem_cons.mpr ⟨?_, others⟩⟩
    exact paved.stays more (reached.sound Snapshot.keyed_closed).linked
      (last.sound Snapshot.keyed_closed).linked

/-- What is paved is passed as it is. -/
theorem makeParents_paved (paved : ∀ beginning ∈ beginnings made components,
      workspace.machine.volume.Paved workspace.cwd beginning)
    (root : caller.user = rootUser) :
    makeParents wording made components caller workspace = (.ok (.ok ()), workspace) := by
  induction components generalizing made with
  | nil => rfl
  | cons component rest ih =>
    obtain ⟨⟨directory, leads, shape⟩, others⟩ := List.forall_mem_cons.mp paved
    have looked : Run.fs (Fs.stat (onto made component)) caller workspace =
        (.ok (.ok directory), workspace) := Run.lookup_ok.mpr ⟨root ▸ leads, rfl⟩
    unfold makeParents
    change (Run.fs (Fs.stat (onto made component)) >>= _) caller workspace = _
    rw [Task.bind_run, looked]
    simp only [shape, if_true]
    exact ih others

/-! ## All operands -/

/-- The beginnings that are passed on the way to where a path leads. -/
def waypoints (target : String) : List String :=
  beginnings (if Path.isAbsolute target then "/" else "") (Path.componentsOf target)

/-- The last waypoint is where the path leads. -/
theorem paved_of_waypoints {volume : Volume} {cwd target : String} (linked : volume.Linked)
    (some : target ≠ "") (paved : ∀ beginning ∈ waypoints target, volume.Paved cwd beginning) :
    volume.Paved cwd target := by
  by_cases bare : Path.componentsOf target = []
  · obtain ⟨root, found, shape, -⟩ := linked.root
    exact ⟨root, Volume.lookup_root (Volume.root_of_inode? found)
      (Path.isAbsolute_of_nil bare some) bare, shape⟩
  · obtain ⟨last, member, components, absolute⟩ : ∃ last ∈ waypoints target, _ ∧ _ :=
      beginnings_last (fun _ => Path.isComponent_of_mem) bare
    obtain ⟨directory, leads, shape⟩ := paved last member
    have start : Path.componentsOf (if Path.isAbsolute target then "/" else "") = [] ∧
        Path.isAbsolute (if Path.isAbsolute target then "/" else "") = Path.isAbsolute target := by
      split <;> rename_i from_ <;> simp [from_] <;> decide
    refine ⟨directory, (Volume.lookup_echoes ?_ ?_).ok_iff.mpr leads, shape⟩
    · exact absolute.trans start.2
    · rw [components, start.1, List.nil_append]

/-- What is done for one operand. -/
private def paving (path : String) : Run Command (Except String Unit) := do
  let target ← Run.path path
  makeParents (fun reason => s!"mkdir: cannot create directory '{path}': {reason.message}")
    (if Path.isAbsolute target then "/" else "") (Path.componentsOf target)

private theorem paving_run : paving path caller workspace =
    makeParents (fun reason => s!"mkdir: cannot create directory '{path}': {reason.message}")
      (if Path.isAbsolute (workspace.pathOf path) then "/" else "")
      (Path.componentsOf (workspace.pathOf path)) caller workspace := by
  unfold paving
  rw [Run.path_bind_run]

private theorem mkdir_eq (parents : (splitFlags args).has 'p' = true)
    (some : (splitFlags args).operands ≠ []) :
    mkdir args = each paving (splitFlags args).operands := by
  unfold mkdir
  dsimp only
  rw [if_neg (by simpa using some), parents]
  rfl

private theorem paved_of_passes {paths : List String}
    (reachable : Reachable Snapshot.Keyed workspace.machine)
    (passes : Passes paving caller paths workspace after) :
    ∃ machine, after = { workspace with machine } ∧ Reachable Snapshot.Keyed machine ∧
      workspace.machine.volume.Furthers machine.volume ∧
      ∀ path ∈ paths, ∀ beginning ∈ waypoints (workspace.pathOf path),
        machine.volume.Paved workspace.cwd beginning := by
  induction passes with
  | done => exact ⟨_, rfl, reachable, .refl _, nofun⟩
  | next ran passes ih =>
    rw [paving_run] at ran
    obtain ⟨between, rfl, reached, furthers, paved⟩ := makeParents_ok reachable ran
    obtain ⟨machine, rfl, last, more, others⟩ := ih reached
    refine ⟨machine, rfl, last, furthers.trans more, List.forall_mem_cons.mpr ⟨?_, others⟩⟩
    intro beginning member
    exact (paved beginning member).stays more (reached.sound Snapshot.keyed_closed).linked
      (last.sound Snapshot.keyed_closed).linked

private theorem passes_of_paved {paths : List String} (root : caller.user = rootUser)
    (paved : ∀ path ∈ paths, ∀ beginning ∈ waypoints (workspace.pathOf path),
      workspace.machine.volume.Paved workspace.cwd beginning) :
    Passes paving caller paths workspace workspace := by
  induction paths with
  | nil => exact .done
  | cons path rest ih =>
    obtain ⟨first, others⟩ := List.forall_mem_cons.mp paved
    refine .next ?_ (ih others)
    rw [paving_run]
    exact makeParents_paved first root

/-- Where `mkdir -p` succeeds, every operand that names a path leads the administrator to a
directory. Everything that was there is as it was, but for the entries that directories have got
and the time of that; what is new are directories. To do the same again as the administrator
changes nothing at all. -/
theorem mkdir_parents (reachable : Reachable Snapshot.Keyed workspace.machine)
    (parents : (splitFlags args).has 'p' = true)
    (ran : run (.builtin .mkdir) args stdin caller workspace = (.ok outcome, after))
    (succeeded : outcome.code = 0) :
    (∀ path ∈ (splitFlags args).operands, workspace.pathOf path ≠ "" → ∃ directory,
      (after.machine.serve ⟨rootUser, workspace.cwd⟩ (.stat (workspace.pathOf path))).1 =
        .ok (.inode directory) ∧ directory.isDirectory = true) ∧
    workspace.machine.volume.Furthers after.machine.volume ∧
    run (.builtin .mkdir) args stdin { caller with user := rootUser } after =
      (.ok .silent, after) := by
  change mkdir args caller workspace = _ at ran
  change _ ∧ _ ∧ mkdir args _ after = _
  have some : (splitFlags args).operands ≠ [] := by
    intro none
    unfold mkdir at ran
    rw [none] at ran
    cases ran
    cases succeeded
  rw [mkdir_eq parents some] at ran ⊢
  obtain ⟨-, passes⟩ := each_passes_iff.mp ⟨ran, succeeded⟩
  obtain ⟨machine, rfl, reached, furthers, paved⟩ := paved_of_passes reachable passes
  have linked := (reached.sound Snapshot.keyed_closed).linked
  refine ⟨fun path member named => ?_, furthers, ?_⟩
  · obtain ⟨directory, leads, shape⟩ := paved_of_waypoints linked named (paved path member)
    exact ⟨directory, Machine.serve_stat.mpr leads, shape⟩
  · exact (each_passes_iff.mpr ⟨rfl, passes_of_paved rfl paved⟩).1

private def settler : Caller Command := ⟨"guest", none, "host"⟩

/-- In a directory with a link that leads up out of it. -/
private def settled : Workspace :=
  { plainWorkspace linkedMachine with cwd := "/tmp", env := [("HOME", "/tmp/h")] }

/-- The way leads through the link, and up again out of a directory that is made for it. -/
theorem parents_behind_link : ∃ after,
    Reachable Snapshot.Keyed settled.machine ∧
    run (.builtin .mkdir) ["-p", "up/tmp/a/../b", "~/c"] none settler settled =
      (.ok .silent, after) ∧
    after.machine.volume.inodes.length = settled.machine.volume.inodes.length + 4 ∧
    (∃ directory, (after.machine.serve ⟨rootUser, settled.cwd⟩ (.stat "up/tmp/a/../b")).1 =
      .ok (.inode directory) ∧ directory.isDirectory = true) ∧
    (∃ directory, (after.machine.serve ⟨rootUser, settled.cwd⟩ (.stat "/tmp/h/c")).1 =
      .ok (.inode directory) ∧ directory.isDirectory = true) ∧
    run (.builtin .mkdir) ["-p", "up/tmp/a/../b", "~/c"] none { settler with user := rootUser }
      after = (.ok .silent, after) := by
  have reachable : Reachable Snapshot.Keyed settled.machine :=
    (sharedMachine_reachable _).serve _ _
  have answered : (run (.builtin .mkdir) ["-p", "up/tmp/a/../b", "~/c"] none settler settled).1 =
      .ok .silent := toOption_eq_some.mp (by decide +kernel)
  have ran := ending_eq answered
  have operands : (splitFlags ["-p", "up/tmp/a/../b", "~/c"]).operands =
      ["up/tmp/a/../b", "~/c"] := by decide
  obtain ⟨leads, -, again⟩ := mkdir_parents reachable (by decide) ran rfl
  rw [operands] at leads
  have first : settled.pathOf "up/tmp/a/../b" = "up/tmp/a/../b" := by decide +kernel
  have second : settled.pathOf "~/c" = "/tmp/h/c" := by decide +kernel
  have one := leads _ List.mem_cons_self (by rw [first]; decide)
  have other := leads _ (List.mem_cons_of_mem _ List.mem_cons_self) (by rw [second]; decide)
  rw [first] at one
  rw [second] at other
  exact ⟨_, reachable, ran, by decide +kernel, one, other, again⟩

end Command

end PocketShell
