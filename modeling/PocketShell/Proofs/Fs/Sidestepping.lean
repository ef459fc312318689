import PocketShell.Proofs.Fs.Relocation

/-! Walking past a file that has been moved. No walk goes on behind a file, so a path passes one only
at its end. Hence a path that led to anything else leads there again, and a path that led to the file
leads nowhere, with the directory of its last name still there. -/
namespace PocketShell.Volume

variable {first second volume after : Volume} {leaf inode other child directory : Inode}
  {old target : Inode} {user name given id path : String} {actor : Actor} {follow : Bool}
  {now : Binary64}

/-- All but a file is in the second volume and looks to a walk as it did in the first. -/
structure Bypasses (first second : Volume) (leaf : Inode) : Prop where
  root : second.rootId = first.rootId
  held : first.inode? leaf.id = some leaf
  file : leaf.isFile = true
  alike : ∀ id inode, first.inode? id = some inode → id ≠ leaf.id →
    ∃ other, second.inode? id = some other ∧ inode.Alike other

/-- An inode that is not the file, and what is found in its place. -/
def Spared (first second : Volume) (leaf inode other : Inode) : Prop :=
  first.Again second inode other ∧ inode.id ≠ leaf.id

/-- A walk that led somewhere led to the file, or leads to the same again. -/
def Sidesteps (first second : Volume) (leaf : Inode) (result result' : Except FsFailure Inode) :
    Prop :=
  ∀ inode, result = .ok inode → inode = leaf ∨
    ∃ other, result' = .ok other ∧ first.Spared second leaf inode other

namespace Sidesteps

variable {result' : Except FsFailure Inode}

private theorem again (spared : first.Spared second leaf inode other) :
    first.Sidesteps second leaf (.ok inode) (.ok other) := by
  rintro _ ⟨⟩
  exact .inr ⟨other, rfl, spared⟩

private theorem failed {failure : FsFailure} :
    first.Sidesteps second leaf (.error failure) result' := by
  rintro _ ⟨⟩

/-- From the file no walk may go on to anything else. -/
private theorem bind {result : Except FsFailure Inode}
    {next next' : Inode → Except FsFailure Inode} (walks : first.Sidesteps second leaf result result')
    (stuck : ∀ inode, next leaf = .ok inode → inode = leaf)
    (continues : ∀ inode other, first.Spared second leaf inode other →
      first.Sidesteps second leaf (next inode) (next' other)) :
    first.Sidesteps second leaf (result >>= next) (result' >>= next') := by
  intro inode leads
  obtain ⟨reached, found, further⟩ := bind_eq_ok.mp leads
  rcases walks reached found with rfl | ⟨other, again, spared⟩
  · exact .inl (stuck inode further)
  · rw [again]
    exact continues reached other spared inode further

end Sidesteps

/-- A file is neither a directory nor a link. -/
theorem shape_of_isFile (file : leaf.isFile = true) :
    leaf.isDirectory = false ∧ leaf.isSymlink = false := by
  have type : leaf.type = .file := by simpa [Record.isFile] using file
  simp [Record.isDirectory, Record.isSymlink, type]

namespace Bypasses

variable (bypasses : first.Bypasses second leaf) (linked : first.Linked)
  (linkedAfter : second.Linked)

include bypasses

private theorem spared (found : first.inode? id = some inode) (differs : id ≠ leaf.id) :
    ∃ other, second.inode? id = some other ∧ first.Spared second leaf inode other := by
  obtain ⟨other, present, -⟩ := bypasses.alike id inode found differs
  obtain rfl := id_of_inode? found
  exact ⟨other, present, ⟨found, present⟩, differs⟩

private theorem alike_of_spared (spared : first.Spared second leaf inode other) :
    inode.Alike other := by
  obtain ⟨⟨held, present⟩, differs⟩ := spared
  obtain ⟨_, again, alike⟩ := bypasses.alike _ _ held differs
  cases present.symm.trans again
  exact alike

/-- A walk from the file leads nowhere, unless it ends there. -/
private theorem stuck {go : Bool → Inode → String → Except FsFailure Inode}
    (components : List String)
    (leads : first.descend user path follow go components leaf = .ok inode) : inode = leaf := by
  cases components with
  | nil => exact (Except.ok.inj leads).symm
  | cons component rest =>
    unfold Volume.descend at leads
    rw [(shape_of_isFile bypasses.file).1] at leads
    cases leads

private theorem stuck_within (levels : Nat) (relative : Path.isAbsolute path = false)
    (leads : first.resolveWithin user levels follow leaf path = .ok inode) : inode = leaf := by
  cases levels with
  | zero => cases leads
  | succ levels =>
    unfold Volume.resolveWithin at leads
    rw [relative] at leads
    obtain ⟨root, -, leads⟩ := bind_eq_ok.mp leads
    exact bypasses.stuck _ leads

include linked

private theorem root_spared : ∃ root top, first.root = .ok root ∧ second.root = .ok top ∧
    first.Spared second leaf root top := by
  obtain ⟨root, found, shape, -⟩ := linked.root
  have differs : first.rootId ≠ leaf.id := by
    intro same
    rw [same, bypasses.held] at found
    cases found
    rw [(shape_of_isFile bypasses.file).1] at shape
    cases shape
  obtain ⟨other, present, spared⟩ := bypasses.spared found differs
  exact ⟨root, other, root_of_inode? found, root_of_inode? (bypasses.root ▸ present), spared⟩

private theorem parent_spared (spared : first.Spared second leaf directory other) :
    ∃ parent above, first.parentOf directory = .ok parent ∧ second.parentOf other = .ok above ∧
      first.Spared second leaf parent above := by
  unfold parentOf
  rw [(bypasses.alike_of_spared spared).parent]
  cases up : directory.parent with
  | none => exact bypasses.root_spared linked
  | some holder =>
    obtain ⟨above, there, listed⟩ := (linked.lists_iff _ _).mpr ⟨directory, spared.1.1, up⟩
    have differs : holder ≠ leaf.id := by
      rintro rfl
      rw [bypasses.held] at there
      cases there
      have shape := isDirectory_of_mem_children listed
      rw [(shape_of_isFile bypasses.file).1] at shape
      cases shape
    obtain ⟨still, present, again⟩ := bypasses.spared there differs
    simp only [inode_of_inode? there, inode_of_inode? present]
    exact ⟨above, still, rfl, rfl, again⟩

include linkedAfter

/-- An entry that is not the file is found again under its name. -/
theorem child_spared (spared : first.Spared second leaf directory other)
    (named : first.childNamed? directory name = some child) (differs : child.id ≠ leaf.id) :
    ∃ still, second.childNamed? other name = some still ∧
      first.Spared second leaf child still := by
  obtain ⟨⟨held, present⟩, -⟩ := spared
  obtain ⟨id, listed, found, rfl⟩ := childNamed?_mem named
  obtain rfl := id_of_inode? found
  obtain ⟨still, there, same⟩ := bypasses.spared found differs
  have alike := bypasses.alike_of_spared same
  have up := linked.parent_of_lists ⟨directory, held, listed⟩ found
  obtain ⟨holder, above, entry⟩ :=
    (linkedAfter.lists_iff _ _).mpr ⟨still, there, alike.parent.trans up⟩
  cases present.symm.trans above
  have again := childNamed?_of_mem linkedAfter (inode?_self present) entry there
  rw [alike.name] at again
  exact ⟨still, again, same⟩

/-- By induction on the components. A link may lead to the file, but then nothing comes behind it. -/
private theorem descend {levels : Nat}
    (inner : ∀ follow start other path, first.Spared second leaf start other →
      first.Sidesteps second leaf (first.resolveWithin user levels follow start path)
        (second.resolveWithin user levels follow other path))
    (components : List String) (proper : ∀ c ∈ components, Path.IsComponent c)
    (spared : first.Spared second leaf inode other) :
    first.Sidesteps second leaf
      (first.descend user path follow (first.resolveWithin user levels) components inode)
      (second.descend user path follow (second.resolveWithin user levels) components other) := by
  induction components generalizing inode other with
  | nil => exact .again spared
  | cons component rest ih =>
    have properRest := fun c member => proper c (List.mem_cons_of_mem _ member)
    have alike := bypasses.alike_of_spared spared
    unfold Volume.descend
    rw [alike.isDirectory, alike.permits]
    split
    · exact .failed
    split
    · exact .failed
    split
    · exact ih properRest spared
    split
    · obtain ⟨parent, above, up, upAfter, same⟩ := bypasses.parent_spared linked spared
      rw [up, upAfter]
      exact ih properRest same
    cases named : first.childNamed? inode component with
    | none => exact .failed
    | some child =>
      by_cases here : child.id = leaf.id
      · obtain ⟨id, -, found, -⟩ := childNamed?_mem named
        obtain rfl := id_of_inode? found
        rw [here, bypasses.held] at found
        cases found
        intro reached leads
        simp only [(shape_of_isFile bypasses.file).2, Bool.false_and, Bool.false_eq_true,
          ↓reduceIte] at leads
        exact .inl (bypasses.stuck rest leads)
      · obtain ⟨still, namedAfter, same⟩ :=
          bypasses.child_spared linked linkedAfter spared named here
        have alike := bypasses.alike_of_spared same
        simp only [namedAfter, alike.isSymlink, alike.target]
        split
        · refine (inner true inode other child.target spared).bind (fun reached leads => ?_)
            fun target reached there => ?_
          · split at leads
            · exact (Except.ok.inj leads).symm
            · exact bypasses.stuck_within levels (Path.isAbsolute_intercalate properRest) leads
          · split
            · exact .again there
            · exact inner follow target reached _ there
        · exact ih properRest same

private theorem resolveWithin (levels : Nat) (spared : first.Spared second leaf inode other) :
    first.Sidesteps second leaf (first.resolveWithin user levels follow inode path)
      (second.resolveWithin user levels follow other path) := by
  induction levels generalizing follow inode other path with
  | zero => exact .failed
  | succ levels ih =>
    obtain ⟨root, top, found, present, same⟩ := bypasses.root_spared linked
    unfold Volume.resolveWithin
    rw [found, present]
    refine bypasses.descend linked linkedAfter (fun follow start other path here => ih here) _
      (fun _ => Path.isComponent_of_mem) ?_
    split
    · exact same
    · exact spared

private theorem resolve (depth : Int) {start : Option String}
    (from_ : ∀ id, start = some id → ∃ inode other, inode.id = id ∧
      first.Spared second leaf inode other) :
    first.Sidesteps second leaf (first.resolve user follow depth start path)
      (second.resolve user follow depth start path) := by
  obtain ⟨root, top, found, present, same⟩ := bypasses.root_spared linked
  unfold Volume.resolve
  by_cases deep : levelsAt depth = 0
  · simp only [deep, ↓reduceIte]
    exact .failed
  simp only [deep, ↓reduceIte, found, present]
  cases start with
  | none => exact bypasses.resolveWithin linked linkedAfter _ same
  | some id =>
    obtain ⟨inode, other, rfl, spared⟩ := from_ id rfl
    by_cases absolute : Path.isAbsolute path = true
    · simp only [absolute, ↓reduceIte]
      exact bypasses.resolveWithin linked linkedAfter _ same
    · simp only [absolute, Bool.false_eq_true, ↓reduceIte, spared.1.1, spared.1.2]
      exact bypasses.resolveWithin linked linkedAfter _ spared

private theorem lookup_sidesteps : first.Sidesteps second leaf (first.lookup actor follow path)
    (second.lookup actor follow path) := by
  rw [lookup_eq, lookup_eq]
  split
  · exact bypasses.resolve linked linkedAfter 0 (by simp)
  · refine (bypasses.resolve linked linkedAfter 0 (by simp)).bind (fun inode leads => ?_)
      fun base other spared => ?_
    · rw [(shape_of_isFile bypasses.file).1] at leads
      cases leads
    rw [(bypasses.alike_of_spared spared).isDirectory, id_of_inode? spared.1.2]
    split
    · refine bypasses.resolve linked linkedAfter 0 ?_
      rintro id ⟨⟩
      exact ⟨base, other, rfl, spared⟩
    · exact .failed

/-- A path that led to something else leads to it again. -/
theorem lookup (leads : first.lookup actor follow path = .ok inode) (differs : inode.id ≠ leaf.id) :
    ∃ other, second.lookup actor follow path = .ok other ∧
      first.Spared second leaf inode other := by
  rcases bypasses.lookup_sidesteps linked linkedAfter inode leads with rfl | again
  · exact absurd rfl differs
  · exact again

/-- The directory of the last name of a path is found again, whatever the path leads to. -/
theorem lookupParent (found : first.lookupParent actor path = .ok (directory, name)) :
    ∃ other, second.lookupParent actor path = .ok (other, name) ∧
      first.Spared second leaf directory other := by
  obtain ⟨parentPath, cut, some, dot, up, leads, shape⟩ := lookupParent_ok found
  have differs : directory.id ≠ leaf.id := by
    intro same
    obtain ⟨⟨trail, route⟩, -, -⟩ := linked.route_of_lookupParent found
    have held := route.held
    rw [same, bypasses.held] at held
    cases held
    rw [(shape_of_isFile bypasses.file).1] at shape
    cases shape
  obtain ⟨other, again, spared⟩ := bypasses.lookup linked linkedAfter leads differs
  exact ⟨other, lookupParent_ok_iff.mpr ⟨parentPath, cut, some, dot, up, again,
    (bypasses.alike_of_spared spared).isDirectory.trans shape⟩, spared⟩

end Bypasses

/-- A move of a file bypasses the rest. -/
theorem Moves.bypasses (linked : volume.Linked) (moves : volume.Moves old target leaf name)
    (file : leaf.isFile = true) : volume.Bypasses (volume.rehang now old target leaf name) leaf where
  root := rootId_rehang
  held := moves.hangs.held
  file := file
  alike := fun _ _ found differs => moves.again linked rfl found differs

end PocketShell.Volume
