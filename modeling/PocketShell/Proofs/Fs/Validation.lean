import PocketShell.Proofs.Fs.Recheck

/-! What validation decides. A table of inodes, each under its own id, is accepted exactly if it is
a tree below the root; any other is refused as corrupt. What is accepted is the table as it was, but
for the parents, which are set from the lists of the directories whatever they were before. -/
namespace PocketShell.Snapshot

open Volume

variable {snapshot accepted : Snapshot} {rootId directory : String} {table : List Inode}
  {parents : List (String × String)}

/-- The second id is listed by the inode with the first one. -/
def Lists (snapshot : Snapshot) (holder entry : String) : Prop :=
  ∃ directory ∈ snapshot.inodes, directory.id = holder ∧ entry ∈ directory.children

/-- The table is a tree: its root is there and a directory, every entry exists and is not the root,
no inode is listed twice, in one directory or in two, siblings have distinct names, and every inode
is reached from the root. -/
structure TreeShaped (snapshot : Snapshot) : Prop where
  root : ∃ root ∈ snapshot.inodes, root.id = snapshot.rootId ∧ root.isDirectory = true
  entries : ∀ directory ∈ snapshot.inodes, ∀ entry ∈ directory.children,
    entry ≠ snapshot.rootId ∧ ∃ inode ∈ snapshot.inodes, inode.id = entry
  once : (snapshot.inodes.flatMap (·.children)).Nodup
  names : ∀ directory ∈ snapshot.inodes, ∀ first ∈ snapshot.inodes, ∀ second ∈ snapshot.inodes,
    first.id ∈ directory.children → second.id ∈ directory.children →
    first.name = second.name → first = second
  reached : ∀ inode ∈ snapshot.inodes,
    Relation.ReflTransGen snapshot.Lists snapshot.rootId inode.id

/-- The accepted table is the given one, and in it the root has no parent and every other inode has
the one directory that lists it. -/
structure Parented (snapshot accepted : Snapshot) : Prop where
  rootId : accepted.rootId = snapshot.rootId
  kept : accepted.inodes.map ({ · with parent := none }) =
    snapshot.inodes.map ({ · with parent := none })
  root : ∀ inode ∈ accepted.inodes, inode.id = snapshot.rootId → inode.parent = none
  inner : ∀ inode ∈ accepted.inodes, inode.id ≠ snapshot.rootId →
    ∃ directory ∈ snapshot.inodes, inode.id ∈ directory.children ∧
      inode.parent = some directory.id ∧
      ∀ other ∈ snapshot.inodes, inode.id ∈ other.children → other = directory

/-! ## What the checks note -/

private theorem parents_of_checkEntry {listing next : Listing} {entry : String}
    (ran : checkEntry rootId table (fun id => .ok (.ok id)) directory listing entry = .ok next) :
    next.parents = listing.parents ++ [(entry, directory)] := by
  obtain ⟨shown, resolved, ran⟩ := bind_eq_ok.mp ran
  cases resolved
  dsimp only at ran
  split at ran
  · cases ran
  split at ran
  · cases ran
  split at ran
  · cases ran
  split at ran
  · cases ran
  · cases ran
    rfl

/-- Checks that come to an end have noted all that the directories list. -/
private theorem eq_listings_of_checkEntries
    (ran : checkEntries rootId table (fun id => .ok (.ok id)) = .ok parents) :
    parents = listings table := by
  refine foldlM_ok (fun done parents => parents = listings done) rfl ?_ ran
  intro done inode _ parents next _ noted ran
  obtain ⟨listing, inner, ran⟩ := bind_eq_ok.mp ran
  cases ran
  have entries : listing.parents = parents ++ inode.children.map (·, inode.id) := by
    refine foldlM_ok (fun seen listing => listing.parents = parents ++ seen.map (·, inode.id))
      (by simp) ?_ inner
    intro seen entry _ listing next _ noted ran
    rw [parents_of_checkEntry ran, noted]
    simp
  rw [entries, noted]
  simp [listings]

private theorem lists_iff_mem_listings {holder entry : String} :
    snapshot.Lists holder entry ↔ (entry, holder) ∈ listings snapshot.inodes :=
  mem_listings.symm

/-- Whatever passes the checks is a tree. -/
private theorem TreeShaped.of_check (keyed : snapshot.Keyed)
    (ran : snapshot.check = .ok accepted) : snapshot.TreeShaped := by
  obtain ⟨root, parents, found, shape, checked, noted, reached, -⟩ := validate_ok keyed ran
  have whole : parents = listings snapshot.inodes := eq_listings_of_checkEntries checked
  have listed : ∀ inode ∈ snapshot.inodes, ∀ entry ∈ inode.children, (entry, inode.id) ∈ parents := by
    intro inode member entry entry_mem
    rw [whole]
    exact mem_listings.mpr ⟨inode, member, rfl, entry_mem⟩
  constructor
  · exact ⟨root, List.mem_of_find?_eq_some found, by simpa using List.find?_some found, shape⟩
  · intro inode member entry entry_mem
    obtain ⟨inner, record, present⟩ := noted.known entry inode.id (listed inode member entry entry_mem)
    exact ⟨inner, record, List.mem_of_find?_eq_some present, by simpa using List.find?_some present⟩
  · rw [← keys_listings, ← whole]
    exact noted.once
  · intro inode member first here second there first_mem second_mem same
    have foundFirst := find_of_mem_nodup keyed here
    have foundSecond := find_of_mem_nodup keyed there
    have ids : first.id = second.id := noted.names first.id second.id inode.id first second
      (listed inode member _ first_mem) (listed inode member _ second_mem) foundFirst foundSecond same
    rw [ids, foundSecond] at foundFirst
    exact (Option.some.inj foundFirst).symm
  · intro inode member
    refine Relation.ReflTransGen.mono (fun holder entry noted => ?_) _ _ (reached inode member)
    rw [lists_iff_mem_listings, ← whole]
    exact noted

/-! ## Trees are accepted -/

private theorem TreeShaped.orderly (tree : snapshot.TreeShaped) (keyed : snapshot.Keyed) :
    Orderly (snapshot.volume 0) where
  once := tree.once
  known := by
    intro inode member entry listed
    obtain ⟨inner, child, present, rfl⟩ := tree.entries inode member entry listed
    exact ⟨inner, child, find_of_mem_nodup keyed present⟩
  differ := by
    intro inode member a first_mem b second_mem first second foundFirst foundSecond same
    have here := id_of_inode? foundFirst
    have there := id_of_inode? foundSecond
    subst here there
    rw [tree.names inode member first (mem_of_inode? foundFirst) second (mem_of_inode? foundSecond)
      first_mem second_mem same]

/-- A tree is accepted with the parents that its directories list. -/
private theorem TreeShaped.check_eq (tree : snapshot.TreeShaped) (keyed : snapshot.Keyed) :
    snapshot.check =
      .ok ⟨snapshot.rootId, snapshot.inodes.map (adopt (listings snapshot.inodes))⟩ := by
  have orderly := tree.orderly keyed
  have unique : (snapshot.volume 0).Keyed := keyed
  obtain ⟨root, member, named, shape⟩ := tree.root
  have found : (snapshot.volume 0).inode? snapshot.rootId = some root :=
    named ▸ find_of_mem_nodup keyed member
  have checked : checkEntries snapshot.rootId snapshot.inodes (fun id => .ok (.ok id)) =
      .ok (listings snapshot.inodes) := by
    have whole := checkEntries_eq describes_self orderly
    rwa [List.map_id'] at whole
  have reached : snapshot.inodes.find? (fun inode => !(reach (listings snapshot.inodes)
      (snapshot.inodes.length + 1) [snapshot.rootId] [snapshot.rootId]).contains inode.id) = none := by
    refine List.find?_eq_none.mpr fun inode member => ?_
    have below : (snapshot.volume 0).Below snapshot.rootId inode.id := by
      refine Relation.ReflTransGen.mono (fun holder entry lists => ?_) _ _ (tree.reached inode member)
      exact (mem_listings_iff unique).mp (lists_iff_mem_listings.mp lists)
    have seen : inode.id ∈ reach (listings snapshot.inodes) (snapshot.inodes.length + 1)
        [snapshot.rootId] [snapshot.rootId] := (mem_reach_listings unique orderly found).mpr below
    simpa using seen
  change snapshot.inodes.find? (·.id == snapshot.rootId) = some root at found
  simp only [check, validate, found, shape, checked, reached, bind, Except.bind, Bool.not_true,
    Bool.false_eq_true, ↓reduceIte]
  rfl

/-- Taking over the lists of its directories leaves a table as it was, parents aside. -/
private theorem adopt_listings_eq {inode : Inode} (keyed : snapshot.Keyed)
    (member : inode ∈ snapshot.inodes) : adopt (listings snapshot.inodes) inode =
      { inode with parent := (listings snapshot.inodes).lookup inode.id } := by
  have entries := entriesOf_listings keyed member
  obtain ⟨id, name, mode, owner, group, size, created, modified, payload, parent⟩ := inode
  unfold adopt
  rw [entries]
  cases payload <;> rfl

private theorem TreeShaped.parented (tree : snapshot.TreeShaped) (keyed : snapshot.Keyed) :
    snapshot.Parented
      ⟨snapshot.rootId, snapshot.inodes.map (adopt (listings snapshot.inodes))⟩ := by
  have once := nodup_keys_listings (tree.orderly keyed)
  change ((listings snapshot.inodes).map (·.1)).Nodup at once
  have origin : ∀ inode ∈ snapshot.inodes.map (adopt (listings snapshot.inodes)),
      ∃ old ∈ snapshot.inodes, inode.id = old.id ∧
        inode.parent = (listings snapshot.inodes).lookup old.id := by
    intro inode member
    obtain ⟨old, held, rfl⟩ := List.mem_map.mp member
    exact ⟨old, held, rfl, rfl⟩
  refine ⟨rfl, ?_, ?_, ?_⟩
  · rw [List.map_map]
    refine List.map_congr_left fun inode member => ?_
    rw [Function.comp_apply, adopt_listings_eq keyed member]
  · intro inode member top
    obtain ⟨old, held, named, parent⟩ := origin inode member
    rw [parent, ← named, top, lookup_eq_none_iff, keys_listings]
    intro listed
    obtain ⟨directory, inside, entry⟩ := List.mem_flatMap.mp listed
    exact (tree.entries directory inside _ entry).1 rfl
  · intro inode member inner
    obtain ⟨old, held, named, parent⟩ := origin inode member
    rw [named] at inner ⊢
    rcases Relation.ReflTransGen.cases_tail (tree.reached old held) with top | ⟨holder, -, lists⟩
    · exact absurd top inner
    obtain ⟨directory, inside, rfl, entry⟩ := lists
    have noted : (listings snapshot.inodes).lookup old.id = some directory.id :=
      (lookup_eq_some_iff once).mpr (mem_listings.mpr ⟨directory, inside, rfl, entry⟩)
    refine ⟨directory, inside, entry, parent.trans noted, fun other present again => ?_⟩
    have same := (lookup_eq_some_iff once).mpr (mem_listings.mpr ⟨other, present, rfl, again⟩)
    rw [noted, Option.some.injEq] at same
    have found := find_of_mem_nodup keyed present
    rw [← same, find_of_mem_nodup keyed inside] at found
    exact (Option.some.inj found).symm

/-! ## The verdict -/

private theorem corrupt_of_checkEntries {failure : SnapshotFailure}
    (failed : checkEntries rootId table (fun id => .ok (.ok id)) = .error failure) :
    ∃ cause inode, failure = .corrupt cause inode := by
  obtain ⟨_, inode, _, parents, _, _, failed⟩ := foldlM_eq_error.mp failed
  rcases bind_eq_error.mp failed with inner | ⟨_, _, impossible⟩
  · obtain ⟨_, entry, _, listing, _, _, failed⟩ := foldlM_eq_error.mp inner
    rcases bind_eq_error.mp failed with unresolved | ⟨shown, resolved, failed⟩
    · cases unresolved
    · cases resolved
      dsimp only at failed
      repeat' split at failed
      all_goals cases failed
      all_goals exact ⟨_, _, rfl⟩
  · cases impossible

/-- Whatever is wrong with a table, it is refused as corrupt. -/
private theorem corrupt_of_check {failure : SnapshotFailure}
    (failed : snapshot.check = .error failure) : ∃ cause inode, failure = .corrupt cause inode := by
  unfold check validate at failed
  split at failed
  · cases failed
    exact ⟨_, _, rfl⟩
  split at failed
  · cases failed
    exact ⟨_, _, rfl⟩
  rcases bind_eq_error.mp failed with entries | ⟨parents, -, failed⟩
  · exact corrupt_of_checkEntries entries
  · dsimp only at failed
    split at failed
    · cases failed
      exact ⟨_, _, rfl⟩
    · cases failed

/-- A table of inodes under their own ids is refused, always as a corrupt snapshot, exactly if it is
no tree below the root; and if it is one it is accepted with the parents set. -/
theorem check_decides (snapshot : Snapshot) (keyed : snapshot.Keyed) :
    ((∃ cause inode, snapshot.check = .error (.corrupt cause inode)) ↔ ¬ snapshot.TreeShaped) ∧
      (snapshot.TreeShaped → ∃ accepted, snapshot.check = .ok accepted ∧
        snapshot.Parented accepted) := by
  refine ⟨⟨?_, ?_⟩, fun tree => ⟨_, tree.check_eq keyed, tree.parented keyed⟩⟩
  · rintro ⟨cause, inode, refused⟩ tree
    rw [tree.check_eq keyed] at refused
    cases refused
  · intro shapeless
    cases ran : snapshot.check with
    | ok accepted => exact absurd (.of_check keyed ran) shapeless
    | error failure =>
      obtain ⟨cause, inode, rfl⟩ := corrupt_of_check ran
      exact ⟨cause, inode, rfl⟩

private def plainDirectory (id : String) (children : List String) (parent : Option String) :
    Inode :=
  { id, name := id, mode := Mode.newDirectory, owner := rootUser, group := rootUser, size := 0,
    created := .zero, modified := .zero, payload := .directory children, parent }

/-- A nested directory, the inodes of which give each other as parents. -/
def misparented : Snapshot :=
  ⟨"r", [plainDirectory "r" ["a"] (some "b"), plainDirectory "a" ["b"] (some "b"),
    plainDirectory "b" [] none]⟩

/-- Two directories that list each other, beside the root. -/
def looped : Snapshot :=
  ⟨"r", [plainDirectory "r" [] none, plainDirectory "a" ["b"] (some "b"),
    plainDirectory "b" ["a"] (some "a")]⟩

/-- The nested directory is a tree and accepted with its true parents, the loop is none. -/
theorem decided_tree_and_loop : misparented.Keyed ∧ misparented.TreeShaped ∧
    (∃ accepted, misparented.check = .ok accepted ∧ misparented.Parented accepted ∧
      accepted.inodes.map (·.parent) = [none, some "r", some "a"]) ∧
    looped.Keyed ∧ ¬ looped.TreeShaped := by
  have keyed : misparented.Keyed := by
    unfold Keyed
    decide
  have detached : looped.Keyed := by
    unfold Keyed
    decide
  have tree : misparented.TreeShaped := by
    by_contra shapeless
    obtain ⟨cause, inode, refused⟩ := (check_decides misparented keyed).1.mpr shapeless
    cases refused
  obtain ⟨accepted, ran, parented⟩ := (check_decides misparented keyed).2 tree
  refine ⟨keyed, tree, ⟨accepted, ran, parented, ?_⟩, detached, ?_⟩
  · cases ran
    rfl
  · exact (check_decides looped detached).1.mp ⟨.unreachable, some "a", rfl⟩

end PocketShell.Snapshot
