import PocketShell.Proofs.Fs.Resolution

/-! The last name of a path. Looking a path up and looking up the directory that holds its last
name walk the same way, level by level of nested links; the first only goes on for one more name.
So they fail for the same reasons as long as the directory is not reached, and from there on the
entry decides. -/
namespace PocketShell.Volume

variable {volume : Volume} {child directory inode start : Inode} {name path user parentPath : String}
  {actor : Actor} {follow : Bool}

/-- How looking a path up goes on from looking up the directory of its last name: from the directory
that is found, or with a failure for the same reason. -/
inductive Prolongs (volume : Volume) (user : String) (follow : Bool) (name : String) :
    Except FsFailure Inode → Except FsFailure Inode → Prop
  | found {directory : Inode} (levels : Nat) (shown : String) :
      Prolongs volume user follow name (.ok directory)
        (volume.descend user shown follow (volume.resolveWithin user levels) [name] directory)
  | failed {failure other : FsFailure} (same : other.reason? = failure.reason?) :
      Prolongs volume user follow name (.error failure) (.error other)

/-- A failure at the same step, before the walk to the directory has come to its end. -/
private theorem Prolongs.both (failure : FsFailure) :
    volume.Prolongs user follow name (.error failure) (.error failure) :=
  .failed rfl

/-- By induction on the components, as the walk goes down: every step but the last is one of the
walk to the directory. -/
private theorem descend_snoc {levels : Nat}
    (inner : ∀ start rest, (∀ c ∈ rest, Path.IsComponent c) → rest ≠ [] →
      volume.Prolongs user follow name
        (volume.resolveWithin user levels true start ("/".intercalate rest))
        (volume.resolveWithin user levels follow start ("/".intercalate (rest ++ [name]))))
    (last : levels ≠ 0 → ∀ directory, volume.Prolongs user follow name (.ok directory)
      (volume.resolveWithin user levels follow directory name))
    (components : List String) (proper : ∀ c ∈ components, Path.IsComponent c) (current : Inode) :
    volume.Prolongs user follow name
      (volume.descend user parentPath true (volume.resolveWithin user levels) components current)
      (volume.descend user path follow (volume.resolveWithin user levels) (components ++ [name])
        current) := by
  induction components generalizing current with
  | nil => exact .found levels path
  | cons component rest ih =>
    have properRest := fun c member => proper c (List.mem_cons_of_mem _ member)
    rw [List.cons_append]
    unfold descend
    split
    · exact .both _
    split
    · exact .failed rfl
    split
    · exact ih properRest current
    split
    · cases volume.parentOf current with
      | error failure => exact .both failure
      | ok parent => exact ih properRest parent
    split
    · exact .both _
    rename_i child _
    by_cases link : child.isSymlink = true
    · have more : (child.isSymlink && (follow || !(rest ++ [name]).isEmpty)) = true := by
        simp [link]
      rw [if_pos more, if_pos (by simp [link])]
      cases reached : volume.resolveWithin user levels true current child.target with
      | error failure => exact .both failure
      | ok target =>
        change volume.Prolongs user follow name (if rest.isEmpty then .ok target
          else volume.resolveWithin user levels true target ("/".intercalate rest))
          (if (rest ++ [name]).isEmpty then .ok target
            else volume.resolveWithin user levels follow target ("/".intercalate (rest ++ [name])))
        rw [if_neg (show ¬ (rest ++ [name]).isEmpty = true by simp)]
        by_cases short : rest = []
        · subst short
          -- The link has been resolved, so there are levels left for going on behind it.
          refine last ?_ target
          rintro rfl
          cases reached
        · rw [if_neg (by simpa using short)]
          exact inner target rest properRest short
    · have plain : child.isSymlink = false := by simpa using link
      simp only [plain, Bool.false_and, Bool.false_eq_true, ↓reduceIte]
      exact ih properRest child

private theorem resolveWithin_snoc {levels : Nat} (component : Path.IsComponent name)
    (cut : Path.componentsOf path = Path.componentsOf parentPath ++ [name])
    (absolute : Path.isAbsolute parentPath = Path.isAbsolute path) :
    volume.Prolongs user follow name (volume.resolveWithin user levels true start parentPath)
      (volume.resolveWithin user levels follow start path) := by
  induction levels generalizing start path parentPath with
  | zero => exact .both _
  | succ levels ih =>
    unfold resolveWithin
    cases top : volume.root with
    | error failure => exact .both failure
    | ok root =>
      change volume.Prolongs user follow name (volume.descend _ _ _ _ _ _)
        (volume.descend _ _ _ _ _ _)
      rw [cut, ← absolute]
      refine descend_snoc ?_ ?_ _ (fun c member => Path.isComponent_of_mem member) _
      · intro start rest proper some
        have properAll : ∀ c ∈ rest ++ [name], Path.IsComponent c := by
          intro c member
          rcases List.mem_append.mp member with inRest | last
          · exact proper c inRest
          · exact List.mem_singleton.mp last ▸ component
        refine ih ?_ ?_
        · rw [Path.componentsOf_intercalate properAll, Path.componentsOf_intercalate proper]
        · rw [Path.isAbsolute_intercalate properAll, Path.isAbsolute_intercalate proper]
      · intro left directory
        obtain ⟨levels, rfl⟩ := Nat.exists_eq_succ_of_ne_zero left
        unfold resolveWithin
        rw [top, Path.componentsOf_single component, Path.isAbsolute_of_isComponent component]
        exact .found levels name

/-- The current directory is where the walk starts. -/
private theorem resolveWithin_dot {levels : Nat} (alone : Path.componentsOf path = [name])
    (relative : Path.isAbsolute path = false) :
    volume.Prolongs user follow name (volume.resolveWithin user levels true start ".")
      (volume.resolveWithin user levels follow start path) := by
  cases levels with
  | zero => exact .both _
  | succ levels =>
    have dot : Path.componentsOf "." = ["."] := by decide
    have here : Path.isAbsolute "." = false := by decide
    unfold resolveWithin
    rw [alone, relative, dot, here]
    cases volume.root with
    | error failure => exact .both failure
    | ok root =>
      change volume.Prolongs user follow name (volume.descend _ _ _ _ ["."] start)
        (volume.descend user path follow (volume.resolveWithin user levels) [name] start)
      by_cases open_ : start.isDirectory = true ∧ start.permits user .execute = true
      · have stays : volume.descend user "." true (volume.resolveWithin user levels) ["."] start =
            .ok start := by
          simp [descend, open_.1, open_.2]
        rw [stays]
        exact .found levels path
      · unfold descend
        by_cases shape : start.isDirectory = true
        · have closed : start.permits user .execute = false := by simpa [shape] using open_
          simp only [shape, closed, Bool.not_true, Bool.not_false, Bool.false_eq_true, ↓reduceIte]
          exact .failed rfl
        · simp only [shape, Bool.not_false, ↓reduceIte]
          exact .both _

/-- Resolving a path goes on from where resolving its parent ends. -/
private theorem resolve_snoc {depth : Int} {start : Option String}
    (cut : Path.splitParent path = (parentPath, name)) (some : name ≠ "")
    (absolute : Path.isAbsolute parentPath = Path.isAbsolute path) :
    volume.Prolongs user follow name (volume.resolve user true depth start parentPath)
      (volume.resolve user follow depth start path) := by
  obtain ⟨component, shape⟩ := Path.splitParent_spec cut some
  have within : ∀ levels start, volume.Prolongs user follow name
      (volume.resolveWithin user levels true start parentPath)
      (volume.resolveWithin user levels follow start path) := by
    intro levels start
    rcases shape with ⟨rfl, relative, alone⟩ | ⟨components, absolute⟩
    · exact resolveWithin_dot alone relative
    · exact resolveWithin_snoc component components absolute
  unfold resolve
  by_cases deep : levelsAt depth = 0
  · simp only [deep, ↓reduceIte]
    exact .both _
  simp only [deep, ↓reduceIte]
  cases volume.root with
  | error failure => exact .both failure
  | ok root =>
    cases start with
    | none => exact within _ _
    | some id =>
      simp only [bind, Except.bind, absolute]
      cases (if Path.isAbsolute path then Option.some root else volume.inode? id) with
      | none => exact .both _
      | some start => exact within _ _

/-- A path begins where its parent begins. -/
private theorem isAbsolute_parent (cut : Path.splitParent path = (parentPath, name))
    (some : name ≠ "") : Path.isAbsolute parentPath = Path.isAbsolute path := by
  rcases (Path.splitParent_spec cut some).2 with ⟨rfl, relative, -⟩ | ⟨-, same⟩
  · exact relative.symm
  · exact same

/-- Looking a path up goes on from where looking its parent up ends. -/
theorem lookup_prolongs (follow : Bool) (cut : Path.splitParent path = (parentPath, name))
    (some : name ≠ "") : volume.Prolongs actor.user follow name
      (volume.lookup actor true parentPath) (volume.lookup actor follow path) := by
  have absolute := isAbsolute_parent cut some
  rw [lookup_eq, lookup_eq, absolute]
  split
  · exact resolve_snoc cut some absolute
  · cases volume.resolve actor.user true 0 none actor.cwd with
    | error failure => exact .both failure
    | ok base =>
      change volume.Prolongs actor.user follow name (if base.isDirectory = true then _ else _)
        (if base.isDirectory = true then _ else _)
      split
      · exact resolve_snoc cut some absolute
      · exact .both _

/-- The parent that is found for a path is what the path before its last name leads to. -/
theorem lookupParent_ok_iff : volume.lookupParent actor path = .ok (directory, name) ↔
    ∃ parentPath, Path.splitParent path = (parentPath, name) ∧ name ≠ "" ∧ name ≠ "." ∧
      name ≠ ".." ∧ volume.lookup actor true parentPath = .ok directory ∧
      directory.isDirectory = true := by
  rw [lookupParent_eq]
  cases cut : Path.splitParent path with
  | mk parentPath last =>
    constructor
    · intro found
      simp only at found
      split at found
      · cases found
      rename_i proper
      simp only [Bool.or_eq_true, decide_eq_true_eq, not_or] at proper
      obtain ⟨parent, leads, found⟩ := bind_eq_ok.mp found
      split at found
      · rename_i shape
        cases found
        exact ⟨parentPath, rfl, proper.1.1, proper.1.2, proper.2, leads, shape⟩
      · cases found
    · rintro ⟨parentPath, same, some, dot, up, leads, shape⟩
      cases same
      simp only [some, dot, up, decide_false, Bool.or_self, Bool.false_eq_true, ↓reduceIte, leads]
      exact if_pos shape

alias ⟨lookupParent_ok, _⟩ := lookupParent_ok_iff

/-- Looking a path up goes on from the directory of its last name. -/
theorem lookup_of_lookupParent (follow : Bool)
    (found : volume.lookupParent actor path = .ok (directory, name)) :
    ∃ levels shown, volume.lookup actor follow path =
      volume.descend actor.user shown follow (volume.resolveWithin actor.user levels) [name]
        directory := by
  obtain ⟨parentPath, cut, some, -, -, leads, -⟩ := lookupParent_ok found
  have prolongs : volume.Prolongs actor.user follow name _ (volume.lookup actor follow path) :=
    lookup_prolongs follow cut some
  rw [leads] at prolongs
  generalize volume.lookup actor follow path = result at prolongs
  cases prolongs with
  | found levels shown => exact ⟨levels, shown, rfl⟩

/-- Where a path leads nowhere, what its last name stands for is a link. -/
theorem isSymlink_of_notFound (found : volume.lookupParent actor path = .ok (directory, name))
    (named : volume.childNamed? directory name = some child)
    (nowhere : volume.lookup actor true path = .error (.refused .notFound)) :
    child.isSymlink = true := by
  by_contra symlink
  have plain : child.isSymlink = false := by simpa using symlink
  obtain ⟨-, -, -, dot, up, -, -⟩ := lookupParent_ok found
  obtain ⟨levels, shown, same⟩ := lookup_of_lookupParent true found
  rw [same] at nowhere
  simp only [descend, dot, up, named, plain, Bool.false_and, Bool.false_eq_true,
    ↓reduceIte] at nowhere
  split at nowhere
  · cases nowhere
  split at nowhere <;> cases nowhere

/-- In the directory of its last name a path goes on to the entry called so, which is not followed
unless asked for, if the user may search the directory. -/
theorem lookup_entry (found : volume.lookupParent actor path = .ok (directory, name)) :
    volume.lookup actor false path = .ok inode ↔
      directory.permits actor.user .execute = true ∧
        volume.childNamed? directory name = some inode := by
  obtain ⟨-, -, -, dot, up, -, shape⟩ := lookupParent_ok found
  obtain ⟨levels, shown, same⟩ := lookup_of_lookupParent false found
  rw [same]
  unfold descend
  simp only [shape, dot, up, Bool.not_true, Bool.false_eq_true, ↓reduceIte]
  cases directory.permits actor.user .execute with
  | false => simp
  | true => cases volume.childNamed? directory name <;> simp [descend]

/-- Where the directory of its last name has no entry called so, a path leads nowhere. -/
theorem lookup_free (found : volume.lookupParent actor path = .ok (directory, name))
    (search : directory.permits actor.user .execute = true)
    (free : volume.childNamed? directory name = none) :
    volume.lookup actor follow path = .error (.refused .notFound) := by
  obtain ⟨-, -, -, dot, up, -, shape⟩ := lookupParent_ok found
  obtain ⟨levels, shown, same⟩ := lookup_of_lookupParent follow found
  rw [same]
  simp only [descend, shape, search, dot, up, free, Bool.not_true, Bool.false_eq_true, ↓reduceIte]

/-- A path that leads to an inode by an ordinary last name leads to a directory before it. -/
theorem lookupParent_of_lookup (cut : Path.splitParent path = (parentPath, name))
    (ordinary : name ≠ "" ∧ name ≠ "." ∧ name ≠ "..")
    (leads : volume.lookup actor follow path = .ok inode) :
    ∃ directory, volume.lookupParent actor path = .ok (directory, name) := by
  obtain ⟨some, dot, up⟩ := ordinary
  have prolongs : volume.Prolongs actor.user follow name
      (volume.lookup actor true parentPath) (volume.lookup actor follow path) :=
    lookup_prolongs follow cut some
  rw [leads] at prolongs
  cases before : volume.lookup actor true parentPath with
  | error failure =>
    rw [before] at prolongs
    cases prolongs
  | ok directory =>
    by_cases shape : directory.isDirectory = true
    · exact ⟨directory, lookupParent_ok_iff.mpr ⟨_, cut, some, dot, up, before, shape⟩⟩
    · rw [before] at prolongs
      generalize result : (Except.ok inode : Except FsFailure Inode) = reached at prolongs
      cases prolongs with
      | found levels shown =>
        unfold descend at result
        simp only [shape, Bool.not_false, ↓reduceIte] at result
        cases result

private theorem Linked.isDirectory_of_resolveWithin_nil {levels : Nat} (linked : volume.Linked)
    (empty : Path.componentsOf path = []) (directory : start.isDirectory = true)
    (leads : volume.resolveWithin user levels follow start path = .ok inode) :
    inode.isDirectory = true := by
  obtain ⟨root, found, shape, -⟩ := linked.root
  cases levels with
  | zero => cases leads
  | succ levels =>
    unfold resolveWithin at leads
    rw [root_of_inode? found, empty] at leads
    change Except.ok (if Path.isAbsolute path = true then root else start) = _ at leads
    cases leads
    split
    · exact shape
    · exact directory

private theorem Linked.isDirectory_of_resolve_nil {start : Option String} (linked : volume.Linked)
    (empty : Path.componentsOf path = [])
    (directory : ∀ id base, start = some id → volume.inode? id = some base →
      base.isDirectory = true)
    (leads : volume.resolve user follow 0 start path = .ok inode) : inode.isDirectory = true := by
  obtain ⟨root, found, shape, -⟩ := linked.root
  have level : levelsAt 0 ≠ 0 := by decide
  unfold resolve at leads
  simp only [level, ↓reduceIte, root_of_inode? found] at leads
  cases start with
  | none => exact linked.isDirectory_of_resolveWithin_nil empty shape leads
  | some id =>
    by_cases absolute : Path.isAbsolute path = true
    · simp only [absolute, ↓reduceIte] at leads
      exact linked.isDirectory_of_resolveWithin_nil empty shape leads
    · cases base : volume.inode? id with
      | none =>
        simp only [absolute, Bool.false_eq_true, ↓reduceIte, base] at leads
        cases leads
      | some start =>
        simp only [absolute, Bool.false_eq_true, ↓reduceIte, base] at leads
        exact linked.isDirectory_of_resolveWithin_nil empty (directory id start rfl base) leads

/-- A path without components leads to where it starts, which is a directory. -/
private theorem Linked.isDirectory_of_nil (linked : volume.Linked)
    (empty : Path.componentsOf path = [])
    (leads : volume.lookup actor follow path = .ok inode) : inode.isDirectory = true := by
  rw [lookup_eq] at leads
  split at leads
  · exact linked.isDirectory_of_resolve_nil empty (by simp) leads
  · have settled : Settled _ (volume.resolve actor.user true 0 none actor.cwd) :=
      linked.enclosed_held.resolve 0 (by simp)
    obtain ⟨base, reached, leads⟩ := bind_eq_ok.mp leads
    rw [reached] at settled
    cases settled with
    | ok held =>
      split at leads
      · rename_i directory
        refine linked.isDirectory_of_resolve_nil empty ?_ leads
        rintro id start ⟨⟩ same
        rw [held] at same
        cases same
        exact directory
      · cases leads

/-- A path that no entry is named by at its end leads to a directory. -/
theorem Linked.isDirectory_of_lookup (linked : volume.Linked)
    (cut : Path.splitParent path = (parentPath, name))
    (improper : name = "" ∨ name = "." ∨ name = "..")
    (leads : volume.lookup actor follow path = .ok inode) : inode.isDirectory = true := by
  by_cases none : name = ""
  · subst none
    exact linked.isDirectory_of_nil (Path.componentsOf_eq_nil cut) leads
  have prolongs : volume.Prolongs actor.user follow name
      (volume.lookup actor true parentPath) (volume.lookup actor follow path) :=
    lookup_prolongs follow cut none
  have settled : Settled _ (volume.lookup actor true parentPath) := linked.enclosed_held.lookup
  generalize volume.lookup actor true parentPath = before at prolongs settled
  rw [leads] at prolongs
  generalize result : (Except.ok inode : Except FsFailure Inode) = reached at prolongs
  cases prolongs with
  | failed same => cases result
  | @found directory levels shown =>
    cases settled with
    | ok held =>
      unfold descend at result
      split at result
      · cases result
      rename_i shape
      split at result
      · cases result
      split at result
      · cases result
        simpa using shape
      rename_i dot
      rw [if_pos ((improper.resolve_left none).resolve_left dot)] at result
      rcases linked.parentOf_spec held with ⟨-, ran⟩ | ⟨parent, -, -, listed, ran⟩
      · rw [ran] at result
        cases result
        simpa using shape
      · rw [ran] at result
        cases result
        exact isDirectory_of_mem_children listed

/-! ## Following the last name -/

/-- Only at the last name does it matter whether a link is followed, and there it is no link. -/
private theorem descend_follow {go : Bool → Inode → String → Except FsFailure Inode}
    (inner : ∀ start path, go false start path = .ok inode → go true start path = .ok inode)
    (plain : inode.isSymlink = false) (components : List String) {current : Inode}
    (leads : volume.descend user path false go components current = .ok inode) :
    volume.descend user path true go components current = .ok inode := by
  induction components generalizing current with
  | nil => exact leads
  | cons component rest ih =>
    unfold descend at leads ⊢
    split at leads
    · cases leads
    rename_i shape
    rw [if_neg shape]
    split at leads
    · cases leads
    rename_i search
    rw [if_neg search]
    split at leads
    · rename_i dot
      rw [if_pos dot]
      exact ih leads
    rename_i dot
    rw [if_neg dot]
    split at leads
    · rename_i up
      rw [if_pos up]
      obtain ⟨parent, above, leads⟩ := bind_eq_ok.mp leads
      rw [above]
      exact ih leads
    rename_i up
    rw [if_neg up]
    cases named : volume.childNamed? current component with
    | none =>
      rw [named] at leads
      cases leads
    | some child =>
      simp only [named, Bool.false_or, Bool.true_or, Bool.and_true] at leads ⊢
      cases link : child.isSymlink with
      | false =>
        simp only [link, Bool.false_and, Bool.false_eq_true, ↓reduceIte] at leads ⊢
        exact ih leads
      | true =>
        cases rest with
        | nil =>
          simp only [List.isEmpty_nil, Bool.not_true, Bool.and_false, Bool.false_eq_true,
            ↓reduceIte, descend] at leads
          cases leads
          rw [link] at plain
          cases plain
        | cons next more =>
          simp only [link, List.isEmpty_cons, Bool.not_false, Bool.and_self, ↓reduceIte,
            Bool.false_eq_true] at leads ⊢
          obtain ⟨target, reached, leads⟩ := bind_eq_ok.mp leads
          rw [reached]
          exact inner target _ leads

private theorem resolveWithin_follow {levels : Nat} (plain : inode.isSymlink = false)
    (leads : volume.resolveWithin user levels false start path = .ok inode) :
    volume.resolveWithin user levels true start path = .ok inode := by
  induction levels generalizing start path with
  | zero => cases leads
  | succ levels ih =>
    unfold resolveWithin at leads ⊢
    obtain ⟨root, top, leads⟩ := bind_eq_ok.mp leads
    rw [top]
    exact descend_follow (fun _ _ inside => ih inside) plain _ leads

private theorem resolve_follow {depth : Int} {start : Option String}
    (plain : inode.isSymlink = false)
    (leads : volume.resolve user false depth start path = .ok inode) :
    volume.resolve user true depth start path = .ok inode := by
  unfold resolve at leads ⊢
  by_cases deep : levelsAt depth = 0
  · simp only [deep, ↓reduceIte] at leads
    cases leads
  simp only [deep, ↓reduceIte] at leads ⊢
  obtain ⟨root, top, leads⟩ := bind_eq_ok.mp leads
  rw [top]
  cases start with
  | none => exact resolveWithin_follow plain leads
  | some id =>
    simp only [bind, Except.bind] at leads ⊢
    cases base : (if Path.isAbsolute path = true then Option.some root else volume.inode? id) with
    | none =>
      rw [base] at leads
      cases leads
    | some start =>
      rw [base] at leads
      exact resolveWithin_follow plain leads

/-- What is no link is found whether or not the last name is followed. -/
theorem lookup_follow (plain : inode.isSymlink = false)
    (leads : volume.lookup actor false path = .ok inode) :
    volume.lookup actor true path = .ok inode := by
  rw [lookup_eq] at leads ⊢
  split at leads
  · rename_i straight
    rw [if_pos straight]
    exact resolve_follow plain leads
  · rename_i relative
    rw [if_neg relative]
    obtain ⟨base, found, leads⟩ := bind_eq_ok.mp leads
    rw [found]
    change (if base.isDirectory = true then _ else _) = _
    split at leads
    · rename_i shape
      rw [if_pos shape]
      exact resolve_follow plain leads
    · cases leads

end PocketShell.Volume
