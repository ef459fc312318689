import PocketShell.Proofs.Fs.Onward
import PocketShell.Proofs.Fs.Views
import PocketShell.Proofs.Pattern.Globs
import PocketShell.Proofs.Shell.Effects
import PocketShell.Proofs.Shell.Passing

/-! Searching a tree. What a search visits is told by rows: the path that is shown, and the inode.
The rows come in the order of the walk; each path leads the user to its inode; and the tests only
pick rows. -/
namespace PocketShell.Command

open Shell Volume

variable {volume : Volume} {actor : Actor} {user path start : String} {inode child : Inode}
  {rows : List (String × Inode)} {trail : List Inode} {levels : Nat}

namespace Find

/-- The user may look into the directory. -/
def opens (user : String) (inode : Inode) : Bool :=
  inode.isDirectory && (inode.permits user .read && inode.permits user .execute)

/-- The path under which an entry of what stands under a path is shown. -/
def pathBelow (path : String) (child : Inode) : String :=
  Path.dropSlashes path ++ "/" ++ child.name

/-- The rows of an inode that is shown under a path: the inode comes first, and behind it, if the
user may look into it, all rows of its first entry, then those of the next one, and so on. -/
inductive Lists (volume : Volume) (user : String) : String → Inode → List (String × Inode) → Prop
  | alone {path : String} {inode : Inode} (shut : opens user inode = false) :
      Lists volume user path inode [(path, inode)]
  | entries {path : String} {inode : Inode} (free : opens user inode = true)
      (rows : Inode → List (String × Inode))
      (each : ∀ child ∈ inode.children.filterMap volume.inode?,
        Lists volume user (pathBelow path child) child (rows child)) :
      Lists volume user path inode
        ((path, inode) :: (inode.children.filterMap volume.inode?).flatMap rows)

/-- The name by which a path ends; the root has its slash. -/
def lastName (path : String) : String := (Path.componentsOf path).getLast?.getD "/"

/-- The glob stands for the name. -/
def fits (glob name : String) : Bool :=
  match Pattern.Glob.compile glob with
  | .ok pattern => Pattern.Glob.accepts pattern name
  | .error _ => false

/-- The row passes the tests: the glob stands for its last name, and it has the type. -/
def Query.selects (query : Query) (row : String × Inode) : Bool :=
  query.name.all (fits · (lastName row.1)) &&
    query.type.all fun letter => typeOf? letter = some row.2.type

theorem lastName_below (component : Path.IsComponent child.name) :
    lastName (pathBelow path child) = child.name := by
  rw [lastName, pathBelow, Path.componentsOf_append_slash component, List.getLast?_concat]
  rfl

/-- A search starts under the last name of its path. -/
theorem startName_eq (path : String) : startName path = lastName path := by
  have shape : Path.basename path = if (Path.dropSlashes path).isEmpty then
      if Path.isAbsolute path then "/" else "" else (Path.splitParent path).2 := by
    unfold Path.basename Path.splitParent
    dsimp only
    split
    · rfl
    · split <;> rfl
  unfold startName lastName
  dsimp only
  rw [shape]
  cases last : (Path.componentsOf path).getLast? with
  | none =>
    have bare : (Path.splitParent path).2 = "" := by
      by_contra some
      obtain ⟨-, ⟨-, -, single⟩ | ⟨longer, -⟩⟩ := Path.splitParent_spec Prod.mk.eta.symm some
      · simp [single] at last
      · simp [longer] at last
    rw [bare]
    split
    · split <;> rfl
    · rfl
  | some name =>
    obtain ⟨parent, cut⟩ := Path.splitParent_of_getLast? last
    have component := Path.isComponent_of_mem (List.mem_of_getLast? last)
    have held : (Path.dropSlashes path).isEmpty = false := by
      by_contra bare
      rw [Path.splitParent, if_pos (by simpa using bare)] at cut
      exact component.1 (congrArg Prod.snd cut).symm
    rw [held, cut]
    exact if_neg (by simpa using component.1)

/-! ## What a search visits -/

/-- What is told of a row. -/
private def reports (user : String) (filter : Filter) (row : String × Inode) : List Report :=
  (if filter.passes (lastName row.1) row.2 then [.found row.1] else []) ++
    if row.2.isDirectory && !opens user row.2 then [.closed row.1] else []

theorem Lists.first (lists : Lists volume user path inode rows) :
    ∃ rest, rows = (path, inode) :: rest := by
  cases lists with
  | alone => exact ⟨_, rfl⟩
  | entries => exact ⟨_, rfl⟩

/-- An entry of a directory is at its place below it, and has a name that a path can spell. -/
theorem entry_below (linked : volume.Linked) (proper : volume.Proper)
    (route : volume.Route rootUser trail inode)
    (member : child ∈ inode.children.filterMap volume.inode?) :
    volume.Route rootUser (inode :: trail) child ∧ child.id ∈ inode.children ∧
      Path.IsEntryName child.name := by
  obtain ⟨id, listed, found⟩ := List.mem_filterMap.mp member
  have same := id_of_inode? found
  subst same
  refine ⟨.entry route (by simp [Record.permits]) listed found, listed, proper _ _ found ?_⟩
  intro top
  exact linked.root_unlisted (top ▸ route.lists listed)

/-- By induction on the levels, as the search goes down; the route bounds them. -/
theorem exists_lists (linked : volume.Linked) (proper : volume.Proper)
    (route : volume.Route rootUser trail inode)
    (room : volume.inodes.length ≤ trail.length + levels) :
    ∃ rows, Lists volume user path inode rows ∧ ∀ filter,
      visit volume user filter levels path (lastName path) inode =
        rows.flatMap (reports user filter) := by
  induction levels generalizing trail inode path with
  | zero => exact absurd (route.length_lt linked) (by omega)
  | succ levels ih =>
    cases free : opens user inode with
    | false =>
      refine ⟨_, .alone free, fun filter => ?_⟩
      rw [visit, List.flatMap_singleton, reports, free]
      unfold opens at free
      cases directory : inode.isDirectory with
      | false => simp
      | true =>
        rw [directory, Bool.true_and, Bool.and_eq_false_iff] at free
        rcases free with shut | shut <;> simp [shut]
    | true =>
      have each : ∀ child, ∃ rows, child ∈ inode.children.filterMap volume.inode? →
          Lists volume user (pathBelow path child) child rows ∧ ∀ filter,
            visit volume user filter levels (pathBelow path child) child.name child =
              rows.flatMap (reports user filter) := by
        intro child
        by_cases member : child ∈ inode.children.filterMap volume.inode?
        · obtain ⟨entered, -, named⟩ := entry_below linked proper route member
          obtain ⟨rows, lists, visits⟩ := @ih (pathBelow path child) child (inode :: trail) entered
            (by simp only [List.length_cons]; omega)
          rw [lastName_below named.1] at visits
          exact ⟨rows, fun _ => ⟨lists, visits⟩⟩
        · exact ⟨[], fun impossible => absurd impossible member⟩
      choose rowsOf spec using each
      refine ⟨_, .entries free rowsOf fun child member => (spec child member).1, fun filter => ?_⟩
      rw [visit, List.flatMap_cons, reports, free, List.flatMap_assoc]
      simp only [opens, Bool.and_eq_true] at free
      obtain ⟨directory, read, search⟩ := free
      simp only [directory, read, search, Bool.not_true, Bool.or_false, Bool.and_false,
        Bool.false_eq_true, ↓reduceIte, List.append_nil, List.append_cancel_left_eq]
      exact List.flatMap_congr fun child member => (spec child member).2 filter

/-! ## The paths -/

/-- The path of an entry begins as that of its directory, and goes on by its name. -/
private theorem pathBelow_parts (some : path ≠ "") (component : Path.IsComponent child.name) :
    Path.isAbsolute (pathBelow path child) = Path.isAbsolute path ∧
      Path.componentsOf (pathBelow path child) = Path.componentsOf path ++ [child.name] := by
  unfold pathBelow
  refine ⟨?_, by rw [Path.componentsOf_append_slash component, Path.componentsOf_dropSlashes]⟩
  by_cases bare : Path.dropSlashes path = ""
  · have nothing : Path.componentsOf path = [] := by
      rw [← Path.componentsOf_dropSlashes, bare]
      rfl
    rw [Path.isAbsolute_of_nil nothing some, bare]
    simp [Path.isAbsolute]
  · rw [Path.isAbsolute_append_slash bare, Path.isAbsolute_dropSlashes bare]

/-- By induction on the rows. Where the search goes on the path leads to a directory, and one more
name leads to an entry of it; what is no directory is the last of its rows. -/
theorem Lists.lookup (linked : volume.Linked) (proper : volume.Proper)
    (lists : Lists volume actor.user path inode rows) (route : volume.Route rootUser trail inode)
    (some : path ≠ "")
    (leads : opens actor.user inode = true → volume.lookup actor true path = .ok inode) :
    ∀ row ∈ rows.tail, volume.lookup actor false row.1 = .ok row.2 := by
  induction lists generalizing trail with
  | alone => simp
  | @entries path inode free rowsOf each ih =>
    intro row member
    obtain ⟨child, listed, inside⟩ := List.mem_flatMap.mp member
    obtain ⟨entered, place, named⟩ := entry_below linked proper route listed
    obtain ⟨absolute, components⟩ := pathBelow_parts some named.1
    have shape := free
    simp only [opens, Bool.and_eq_true] at shape
    have entry : volume.lookup actor false (pathBelow path child) = .ok child :=
      (lookup_entry (lookupParent_onward (leads free) some shape.1 named absolute components)).mpr
        ⟨shape.2.2, childNamed?_of_mem linked route.held place entered.held⟩
    obtain ⟨rest, first⟩ := (each child listed).first
    rw [first] at inside
    rcases List.mem_cons.mp inside with rfl | further
    · exact entry
    · refine ih child listed entered (by simp [pathBelow])
        (fun goes => lookup_follow ?_ entry) row ?_
      · simp only [opens, Bool.and_eq_true, Record.isDirectory, decide_eq_true_eq] at goes
        simp [Record.isSymlink, goes.1]
      · rw [first]
        exact further

/-! ## The walk -/

/-- The entries that are listed are picked from those that are walked. -/
private theorem sublist_entries {ids : List String} {rowsOf : Inode → List (String × Inode)}
    {walkedOf : String → List (String × Inode)} {whole : Prop}
    (each : ∀ id ∈ ids, ∃ child, volume.inode? id = some child ∧
      ((rowsOf child).map Prod.snd).Sublist ((walkedOf id).map Prod.snd) ∧
      (whole → (rowsOf child).map Prod.snd = (walkedOf id).map Prod.snd)) :
    (((ids.filterMap volume.inode?).flatMap rowsOf).map Prod.snd).Sublist
        ((ids.flatMap walkedOf).map Prod.snd) ∧
      (whole → ((ids.filterMap volume.inode?).flatMap rowsOf).map Prod.snd =
        (ids.flatMap walkedOf).map Prod.snd) := by
  induction ids with
  | nil => simp
  | cons id rest ih =>
    obtain ⟨child, found, picked, same⟩ := each id List.mem_cons_self
    obtain ⟨others, alike⟩ := ih fun id member => each id (List.mem_cons_of_mem _ member)
    rw [List.filterMap_cons, found]
    simp only [List.flatMap_cons, List.map_append]
    exact ⟨picked.append others, fun all => by rw [same all, alike all]⟩

/-- A walk begins with its inode, and ends there if that has no entries. -/
private theorem walkWithin_first {shown : String} {walked : List (String × Inode)}
    (ran : volume.walkWithin levels shown inode = .ok walked) : ∃ rest,
      walked = (shown, inode) :: rest ∧ (inode.children = [] → rest = []) := by
  cases levels with
  | zero =>
    cases ran
    exact ⟨[], rfl, fun _ => rfl⟩
  | succ levels =>
    obtain ⟨below, each, same⟩ := bind_eq_ok.mp ran
    cases same
    refine ⟨below.flatten, rfl, fun none => ?_⟩
    rw [none] at each
    cases each
    rfl

/-- By induction on the rows, as the walk goes the same way. -/
theorem Lists.walk (linked : volume.Linked) (proper : volume.Proper)
    (lists : Lists volume user path inode rows) (route : volume.Route rootUser trail inode)
    (room : volume.inodes.length ≤ trail.length + levels) (shown : String) :
    ∃ walked, volume.walkWithin levels shown inode = .ok walked ∧
      (rows.map Prod.snd).Sublist (walked.map Prod.snd) ∧
      (user = rootUser → rows.map Prod.snd = walked.map Prod.snd) := by
  induction lists generalizing trail levels shown with
  | @alone path inode shut =>
    obtain ⟨walked, ran, -⟩ := walkWithin_spec linked route room
    obtain ⟨rest, rfl, ends⟩ := walkWithin_first ran
    refine ⟨_, ran, by simp, ?_⟩
    rintro rfl
    have plain : inode.children = [] := by
      refine List.eq_nil_iff_forall_not_mem.mpr fun id listed => ?_
      simp [opens, Record.permits, isDirectory_of_mem_children listed] at shut
    rw [ends plain]
    rfl
  | @entries path inode free rowsOf each ih =>
    obtain ⟨levels, rfl⟩ : ∃ fewer, levels = fewer + 1 := by
      have := route.length_lt linked
      exact ⟨levels - 1, by omega⟩
    have below : ∀ id, ∃ walked, id ∈ inode.children →
        (do let child ← volume.inode id
            volume.walkWithin levels (Path.child shown child.name) child) = .ok walked ∧
        ∃ child, volume.inode? id = some child ∧
          ((rowsOf child).map Prod.snd).Sublist (walked.map Prod.snd) ∧
          (user = rootUser → (rowsOf child).map Prod.snd = walked.map Prod.snd) := by
      intro id
      by_cases listed : id ∈ inode.children
      · obtain ⟨child, found, -⟩ := (linked.lists_iff _ _).mp (route.lists listed)
        have member := List.mem_filterMap.mpr ⟨id, listed, found⟩
        obtain ⟨walked, ran, picked⟩ := ih child member (entry_below linked proper route member).1
          (by simp only [List.length_cons]; omega :
            volume.inodes.length ≤ (inode :: trail).length + levels) (Path.child shown child.name)
        exact ⟨walked, fun _ => ⟨by rw [inode_of_inode? found]; exact ran, child, found, picked⟩⟩
      · exact ⟨[], fun impossible => absurd impossible listed⟩
    choose walkedOf spec using below
    obtain ⟨picked, same⟩ := sublist_entries fun id listed => (spec id listed).2
    refine ⟨(shown, inode) :: inode.children.flatMap walkedOf, ?_, picked.cons_cons _,
      fun all => by rw [List.map_cons, List.map_cons, same all]⟩
    simp only [walkWithin]
    rw [mapM_ok_of_forall fun id listed => (spec id listed).1, List.flatMap_def]
    rfl

/-- Every inode has one row. -/
theorem Lists.once (linked : volume.Linked) (numbered : volume.Numbered) (proper : volume.Proper)
    (lists : Lists volume user path inode rows) (route : volume.Route rootUser trail inode) :
    ∃ walked, volume.walk inode = .ok walked ∧
      (rows.map Prod.snd).Sublist (walked.map Prod.snd) ∧
      (user = rootUser → rows.map Prod.snd = walked.map Prod.snd) ∧
      (rows.map (·.2.id)).Nodup := by
  have room : volume.inodes.length ≤ trail.length + volume.inodes.length := Nat.le_add_left _ _
  obtain ⟨walked, ran, picked, same⟩ :=
    lists.walk linked proper route room (volume.pathOf inode.id)
  obtain ⟨_, again, descends, -⟩ := walkWithin_descends linked numbered proper route room
  cases ran.symm.trans again
  have once : (walked.map (·.2.id)).Nodup :=
    List.pairwise_map.mpr (descends.imp fun apart same => apart (by rw [same]; exact .refl))
  refine ⟨walked, ran, picked, same, ?_⟩
  have ids := picked.map (·.id)
  rw [List.map_map, List.map_map] at ids
  exact once.sublist ids

/-! ## The tests -/

variable {query : Query} {filter : Filter}

private theorem exists_filter (query : Query) : ∃ filter, query.filter = .ok filter := by
  unfold Query.filter
  dsimp only
  split
  · exact ⟨_, rfl⟩
  · obtain ⟨pattern, reads⟩ := Pattern.Glob.compile_ok ‹String›
    rw [reads]
    exact ⟨_, rfl⟩

/-- The filter of a query passes what the query selects. -/
private theorem passes_eq (reads : query.filter = .ok filter)
    (known : ∀ letter ∈ query.type, (typeOf? letter).isSome = true) (row : String × Inode) :
    filter.passes (lastName row.1) row.2 = query.selects row := by
  have type : (query.type.bind typeOf?).all (· = row.2.type) =
      query.type.all fun letter => typeOf? letter = some row.2.type := by
    cases given : query.type with
    | none => rfl
    | some letter =>
      obtain ⟨type, means⟩ := Option.isSome_iff_exists.mp (known letter given)
      simp [means]
  unfold Query.selects
  rw [← type]
  unfold Query.filter at reads
  dsimp only at reads
  split at reads
  · rename_i none
    cases reads
    rw [none]
    rfl
  · rename_i glob some
    rw [some]
    split at reads
    · rename_i pattern compiled
      cases reads
      simp [Filter.passes, fits, compiled]
    · cases reads
    · cases reads

section Reports

variable (passes : ∀ row, filter.passes (lastName row.1) row.2 = query.selects row)

include passes

private theorem filterMap_found {pick : Report → Option String}
    (found : ∀ path, pick (.found path) = some path) (closed : ∀ path, pick (.closed path) = none) :
    (rows.flatMap (reports user filter)).filterMap pick =
      (rows.filter query.selects).map Prod.fst := by
  induction rows with
  | nil => rfl
  | cons row rest ih =>
    rw [List.flatMap_cons, List.filterMap_append, ih, List.filter_cons, reports, passes row]
    split <;> split <;> simp [found, closed]

private theorem filterMap_closed {pick : Report → Option String} (message : String → String)
    (found : ∀ path, pick (.found path) = none)
    (closed : ∀ path, pick (.closed path) = some (message path)) :
    (rows.flatMap (reports user filter)).filterMap pick =
      (rows.filter fun row => row.2.isDirectory && !opens user row.2).map
        fun row => message row.1 := by
  induction rows with
  | nil => rfl
  | cons row rest ih =>
    rw [List.flatMap_cons, List.filterMap_append, ih, List.filter_cons, reports, passes row]
    split <;> split <;> simp_all

end Reports

end Find

variable {caller : Caller Command} {workspace : Workspace} {stdin : Option String}

private theorem pathOf_plain (literal : start.startsWith "~" = false) :
    workspace.pathOf start = start := by
  have other : start.toList.head? ≠ some '~' := by
    intro first
    obtain ⟨rest, shape⟩ := List.head?_eq_some_iff.mp first
    have starts : start.startsWith "~" = true :=
      String.startsWith_string_iff.mpr ⟨rest, by rw [shape]; rfl⟩
    rw [literal] at starts
    cases starts
  unfold Workspace.pathOf Path.expandHome
  split
  · simp_all
  · simp_all
  · rfl

/-- A search lists the tree under its start: each path leads the user to the inode it is shown for,
no inode comes twice, root sees the whole walk, and the tests pick paths from the same list. -/
theorem tree_listed (reachable : Reachable Snapshot.Plain workspace.machine)
    (inhabited : start ≠ "") (operand : start.startsWith "-" = false)
    (literal : start.startsWith "~" = false)
    (found : (workspace.machine.serve ⟨caller.user, workspace.cwd⟩ (.stat start)).1 =
      .ok (.inode inode)) :
    ∃ rows walked,
      Find.Lists workspace.machine.volume caller.user start inode rows ∧
      rows.head? = some (start, inode) ∧
      (∀ row ∈ rows.tail, (workspace.machine.serve ⟨caller.user, workspace.cwd⟩ (.lstat row.1)).1 =
        .ok (.inode row.2)) ∧
      (rows.map (·.2.id)).Nodup ∧
      workspace.machine.volume.walk inode = .ok walked ∧
      (rows.map Prod.snd).Sublist (walked.map Prod.snd) ∧
      (caller.user = rootUser → rows.map Prod.snd = walked.map Prod.snd) ∧
      ∀ tests query, Find.Query.read ⟨none, none⟩ tests = .ok query →
        (∀ letter ∈ query.type, (Find.typeOf? letter).isSome = true) →
        run (.builtin .find) (start :: tests) stdin caller workspace =
          (.ok (.withErrors (Text.unlines ((rows.filter query.selects).map Prod.fst))
            ((rows.filter fun row => row.2.isDirectory && !Find.opens caller.user row.2).map
              fun row => s!"find: '{row.1}': Permission denied") 1), workspace) := by
  have sound := reachable.sound Snapshot.plain_closed
  obtain ⟨keyed, numbered, proper⟩ := sound.kept
  have leads := Machine.serve_stat.mp found
  obtain ⟨trail, route⟩ := sound.linked.route_of_lookup leads
  obtain ⟨rows, lists, visits⟩ := Find.exists_lists sound.linked proper route.as_root
    (Nat.le_add_left _ _)
  obtain ⟨walked, walks, picked, whole, once⟩ :=
    lists.once sound.linked numbered proper route.as_root
  obtain ⟨rest, first⟩ := lists.first
  refine ⟨rows, walked, lists, by rw [first]; rfl, fun row member => ?_, once, walks, picked,
    whole, ?_⟩
  · exact Machine.serve_lstat.mpr
      (lists.lookup sound.linked proper route.as_root inhabited (fun _ => leads) row member)
  · intro tests query reads known
    obtain ⟨filter, filtered⟩ := Find.exists_filter query
    have passes := Find.passes_eq filtered known
    have opened : Find.startOf (start :: tests) = (start, tests) := if_neg (by simp [operand])
    have valid : (query.type.filter fun letter => (Find.typeOf? letter).isNone) = none := by
      cases given : query.type with
      | none => rfl
      | some letter => simp [Option.filter, Option.isSome_iff_ne_none.mp (known letter given)]
    have asked : Run.fs (Fs.stat (workspace.pathOf start)) caller workspace =
        (.ok (.ok inode), workspace) := by
      rw [pathOf_plain literal]
      exact Run.lookup_ok.mpr ⟨leads, rfl⟩
    change find (start :: tests) caller workspace = _
    unfold find
    rw [opened]
    dsimp only
    rw [reads]
    dsimp only
    rw [valid]
    dsimp only
    rw [Run.path_bind_run]
    refine Task.bind_eq_ok.mpr ⟨_, _, asked, Task.bind_eq_ok.mpr ⟨filter, workspace, ?_, ?_⟩⟩
    · rw [filtered]
      rfl
    · rw [Task.get_bind_run, Run.user_bind_run, Find.startName_eq, visits filter]
      change (Except.ok (Outcome.withErrors (Text.unlines (List.filterMap _ _))
        (List.filterMap _ _) 1), workspace) = _
      rw [Find.filterMap_found passes,
        Find.filterMap_closed passes fun path => s!"find: '{path}': Permission denied"]
      all_goals exact fun _ => rfl

private def seeker : Caller Command := ⟨"guest", none, "host"⟩

/-- A link to the root, and beside it a directory that its owner may not look into. -/
private def lockedMachine : Machine :=
  (climbingMachine.serve ⟨"guest", "/"⟩ (.mkdir "/tmp/d" (some "0000"))).2

private theorem lockedMachine_reachable : Reachable Snapshot.Plain lockedMachine :=
  ((sharedMachine_reachable _).serve _ _).serve _ _

private def locked : Workspace := plainWorkspace lockedMachine

private theorem locked_reachable : Reachable Snapshot.Plain locked.machine := by
  have same : ∀ machine, (plainWorkspace machine).machine = machine := fun _ => rfl
  rw [locked, same]
  exact lockedMachine_reachable

/-- A search behind a link to the root finds that link again, and stops there. -/
theorem tree_listed_behind_link :
    Reachable Snapshot.Plain locked.machine ∧ "/tmp/up//" ≠ "" ∧
    "/tmp/up//".startsWith "-" = false ∧ "/tmp/up//".startsWith "~" = false ∧
    ∃ inode rows walked,
      (locked.machine.serve ⟨"guest", "/"⟩ (.stat "/tmp/up//")).1 = .ok (.inode inode) ∧
      Find.Lists locked.machine.volume "guest" "/tmp/up//" inode rows ∧
      (∀ row ∈ rows.tail,
        (locked.machine.serve ⟨"guest", "/"⟩ (.lstat row.1)).1 = .ok (.inode row.2)) ∧
      (rows.map (·.2.id)).Nodup ∧ locked.machine.volume.walk inode = .ok walked ∧
      (rows.map Prod.snd).Sublist (walked.map Prod.snd) ∧
      Text.unlines (rows.map Prod.fst) =
        "/tmp/up//\n/tmp/up/tmp\n/tmp/up/tmp/up\n/tmp/up/tmp/d" ∧
      run (.builtin .find) ["/tmp/up//", "-name", "u*", "-type", "l"] none seeker locked =
        (.ok ⟨"/tmp/up/tmp/up", some "find: '/tmp/up/tmp/d': Permission denied", 1⟩, locked) := by
  have whole : (run (.builtin .find) ["/tmp/up//"] none seeker locked).1 =
      .ok ⟨"/tmp/up//\n/tmp/up/tmp\n/tmp/up/tmp/up\n/tmp/up/tmp/d",
        some "find: '/tmp/up/tmp/d': Permission denied", 1⟩ :=
    toOption_eq_some.mp (by decide +kernel)
  have picked : (run (.builtin .find) ["/tmp/up//", "-name", "u*", "-type", "l"] none seeker
      locked).1 = .ok ⟨"/tmp/up/tmp/up", some "find: '/tmp/up/tmp/d': Permission denied", 1⟩ :=
    toOption_eq_some.mp (by decide +kernel)
  have found : (locked.machine.volume.lookup ⟨seeker.user, locked.cwd⟩ true
      "/tmp/up//").toOption.isSome = true := by decide +kernel
  obtain ⟨inode, found⟩ := Option.isSome_iff_exists.mp found
  have served := Machine.serve_stat.mpr (toOption_eq_some.mp found)
  have operand : "/tmp/up//".startsWith "-" = false := by decide +kernel
  have literal : "/tmp/up//".startsWith "~" = false := by decide +kernel
  obtain ⟨rows, walked, lists, -, onward, once, walks, part, -, ran⟩ :=
    @tree_listed _ inode seeker locked none locked_reachable (by decide) operand literal served
  have output : ∀ text errors, (Outcome.withErrors text errors 1).output = text := by
    intro text errors
    unfold Outcome.withErrors
    split <;> rfl
  have every : rows.filter (Find.Query.selects ⟨none, none⟩) = rows :=
    List.filter_eq_self.mpr fun _ _ => rfl
  have all := congrArg Prod.fst (ran [] ⟨none, none⟩ rfl (by simp))
  rw [whole, every] at all
  have shown := congrArg Outcome.output (Except.ok.inj all)
  rw [output] at shown
  have links := ran ["-name", "u*", "-type", "l"] ⟨some "u*", some "l"⟩ rfl (by decide)
  refine ⟨locked_reachable, by decide, operand, literal, inode, rows, walked, served, lists, onward,
    once, walks, part, shown.symm, ?_⟩
  rw [ending_eq picked, links]

end PocketShell.Command
