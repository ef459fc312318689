import PocketShell.Fs.Query
import PocketShell.Proofs.Fs.Components
import PocketShell.Proofs.Fs.Runs

/-! Paths folded by their text. A fold goes over the components and keeps those that are not taken
back, the nearest first. Without links a walk can be folded too: what a component adds, a step up
takes back, because the parent of an entry is the directory in which it was found. -/
namespace PocketShell

namespace Path

variable {absolute : Bool} {component path : String} {stack names : List String}

/-- What folding keeps, the nearest component first: names, and below them steps up, of which an
absolute path has none. -/
inductive Folded (absolute : Bool) : List String → Prop
  | nil : Folded absolute []
  | up {stack : List String} (relative : absolute = false) (folded : Folded absolute stack)
      (bare : ∀ below ∈ stack, below = "..") : Folded absolute (".." :: stack)
  | name {name : String} {stack : List String} (folded : Folded absolute stack)
      (entry : IsEntryName name) : Folded absolute (name :: stack)

/-- The components that are left when a path is folded, the nearest first. -/
def folds (path : String) : List String :=
  (componentsOf path).foldl (foldComponent (isAbsolute path)) []

theorem normalize_eq : normalize path = toText ⟨isAbsolute path, (folds path).reverse⟩ := rfl

namespace Folded

theorem fold (folded : Folded absolute stack) (single : IsComponent component) :
    Folded absolute (foldComponent absolute stack component) := by
  unfold foldComponent
  split
  · exact folded
  rename_i dot
  split
  · rename_i up
    subst up
    cases folded with
    | nil =>
      cases absolute with
      | true => exact .nil
      | false => exact .up rfl .nil (by simp)
    | up relative folded bare =>
      exact .up relative (.up relative folded bare) (List.forall_mem_cons.mpr ⟨rfl, bare⟩)
    | name folded entry =>
      dsimp only
      rw [if_neg entry.2.2]
      exact folded
  · rename_i up
    exact .name folded ⟨single, dot, up⟩

theorem folds (path : String) : Folded (isAbsolute path) (folds path) := by
  have kept : ∀ components : List String, (∀ c ∈ components, IsComponent c) → ∀ stack,
      Folded (isAbsolute path) stack →
        Folded (isAbsolute path) (components.foldl (foldComponent (isAbsolute path)) stack) := by
    intro components singles
    induction components with
    | nil => exact fun stack folded => folded
    | cons first rest ih =>
      obtain ⟨single, others⟩ := List.forall_mem_cons.mp singles
      exact fun stack folded => ih others _ (folded.fold single)
  exact kept _ (fun c member => isComponent_of_mem member) [] .nil

theorem isComponent_of_mem (folded : Folded absolute stack) :
    ∀ kept ∈ stack, IsComponent kept := by
  induction folded with
  | nil => simp
  | up _ _ _ ih => exact List.forall_mem_cons.mpr ⟨⟨by decide, by decide⟩, ih⟩
  | name _ entry ih => exact List.forall_mem_cons.mpr ⟨entry.1, ih⟩

/-- Folding takes nothing away from what has been folded. -/
theorem foldl_reverse (folded : Folded absolute stack) :
    stack.reverse.foldl (foldComponent absolute) [] = stack := by
  induction folded with
  | nil => rfl
  | @up stack relative folded bare ih =>
    rw [List.reverse_cons, List.foldl_append, ih, List.foldl_cons, List.foldl_nil]
    subst relative
    cases stack with
    | nil => rfl
    | cons top below =>
      have same : top = ".." := bare top List.mem_cons_self
      simp [foldComponent, same]
  | name folded entry ih =>
    rw [List.reverse_cons, List.foldl_append, ih, List.foldl_cons, List.foldl_nil]
    exact (if_neg entry.2.1).trans (if_neg entry.2.2)

/-- In the order of the path the steps up come first, and an absolute path has none. -/
theorem reverse_eq (folded : Folded absolute stack) : ∃ ups names,
    stack.reverse = List.replicate ups ".." ++ names ∧ (absolute = true → ups = 0) ∧
      ∀ name ∈ names, IsEntryName name := by
  induction folded with
  | nil => exact ⟨0, [], rfl, fun _ => rfl, by simp⟩
  | @up stack relative folded bare =>
    refine ⟨stack.length + 1, [], ?_, by simp [relative], by simp⟩
    have same : stack = List.replicate stack.length ".." := List.eq_replicate_of_mem bare
    rw [same, ← List.replicate_succ, List.reverse_replicate]
    simp
  | @name name stack folded entry ih =>
    obtain ⟨ups, names, shape, none, proper⟩ := ih
    refine ⟨ups, names ++ [name], ?_, none, ?_⟩
    · rw [List.reverse_cons, shape, List.append_assoc]
    · exact List.forall_mem_append.mpr ⟨proper, List.forall_mem_singleton.mpr entry⟩

end Folded

/-! ## The text of a folded path -/

private theorem components_of_folds (path : String) :
    ∀ name ∈ (folds path).reverse, IsComponent name :=
  fun name member => (Folded.folds path).isComponent_of_mem name (List.mem_reverse.mp member)

theorem isAbsolute_normalize : isAbsolute (normalize path) = isAbsolute path := by
  rw [normalize_eq]
  cases absolute : isAbsolute path with
  | true => exact isAbsolute_toText
  | false =>
    rw [toText]
    split
    · contradiction
    split
    · rfl
    · exact isAbsolute_intercalate (components_of_folds path)

/-- A folded path has the components that are left, or is the dot if a relative one has none. -/
theorem componentsOf_normalize : componentsOf (normalize path) = (folds path).reverse ∨
    isAbsolute path = false ∧ folds path = [] ∧ normalize path = "." := by
  rw [normalize_eq]
  cases absolute : isAbsolute path with
  | true => exact .inl (componentsOf_toText (components_of_folds path))
  | false =>
    by_cases bare : folds path = []
    · rw [bare]
      exact .inr ⟨rfl, rfl, rfl⟩
    · rw [toText, if_neg (by simp), if_neg (by simpa using bare)]
      exact .inl (componentsOf_intercalate (components_of_folds path))

theorem folds_normalize : folds (normalize path) = folds path := by
  rw [folds, isAbsolute_normalize]
  rcases componentsOf_normalize with same | ⟨-, bare, dot⟩
  · rw [same]
    exact (Folded.folds path).foldl_reverse
  · rw [dot, bare]
    rfl

theorem normalize_normalize : normalize (normalize path) = normalize path := by
  rw [normalize_eq, isAbsolute_normalize, folds_normalize, ← normalize_eq]

/-- A folded absolute path takes no step that is not a name. -/
theorem plain_of_absolute (absolute : isAbsolute path = true) :
    ∀ component ∈ componentsOf (normalize path), component ≠ "." ∧ component ≠ ".." := by
  rcases componentsOf_normalize with same | ⟨relative, -⟩
  · obtain ⟨ups, names, shape, none, proper⟩ := (Folded.folds path).reverse_eq
    rw [same, shape, none absolute, List.replicate_zero, List.nil_append]
    exact fun component member => (proper component member).2
  · rw [absolute] at relative
    cases relative

/-- In a folded path the steps up come first. -/
theorem plain_behind_ups : normalize path = "." ∨
    ∃ ups names, componentsOf (normalize path) = List.replicate ups ".." ++ names ∧
      ∀ name ∈ names, name ≠ "." ∧ name ≠ ".." := by
  rcases componentsOf_normalize with same | ⟨-, -, dot⟩
  · obtain ⟨ups, names, shape, -, proper⟩ := (Folded.folds path).reverse_eq
    exact .inr ⟨ups, names, same.trans shape, fun name member => (proper name member).2⟩
  · exact .inl dot

end Path

namespace Volume

variable {volume : Volume} {user path component : String} {start current next inode root : Inode}
  {stack components : List String} {follow absolute : Bool} {depth : Int}
  {go : Bool → Inode → String → Except FsFailure Inode}

/-- No inode of the volume is a link. -/
def Linkless (volume : Volume) : Prop :=
  ∀ id inode, volume.inode? id = some inode → inode.isSymlink = false

/-- Where one component leads from an inode, if no links are followed. -/
def advance? (volume : Volume) (user : String) (current : Inode) (component : String) :
    Option Inode :=
  if current.isDirectory && current.permits user .execute then
    if component = "." then some current
    else if component = ".." then (volume.parentOf current).toOption
    else volume.childNamed? current component
  else none

/-- Without links a path leads where its components lead one after another. -/
private theorem descend_ok_iff (linkless : volume.Linkless) :
    volume.descend user path follow go components current = .ok inode ↔
      components.foldlM (volume.advance? user) current = some inode := by
  induction components generalizing current with
  | nil => simp [descend]
  | cons component rest ih =>
    rw [List.foldlM_cons]
    unfold descend advance?
    cases shape : current.isDirectory with
    | false => simp
    | true =>
      cases search : current.permits user .execute with
      | false => simp
      | true =>
        simp only [Bool.not_true, Bool.false_eq_true, ↓reduceIte, Bool.and_self]
        split
        · exact ih
        split
        · cases above : volume.parentOf current with
          | error failure => simp [bind, Except.bind, Except.toOption]
          | ok parent => exact ih
        cases named : volume.childNamed? current component with
        | none => simp
        | some child =>
          obtain ⟨id, -, found, -⟩ := childNamed?_mem named
          simp only [linkless id child found, Bool.false_and, Bool.false_eq_true, ↓reduceIte]
          exact ih

/-- What one component can do. -/
private theorem advance?_spec (leads : volume.advance? user current component = some next) :
    (component = "." ∧ next = current) ∨
      (component = ".." ∧ volume.parentOf current = .ok next) ∨
      (component ≠ "." ∧ component ≠ ".." ∧ volume.childNamed? current component = some next) := by
  unfold advance? at leads
  split at leads
  · split at leads
    · rename_i dot
      exact .inl ⟨dot, (Option.some.inj leads).symm⟩
    rename_i dot
    split at leads
    · rename_i up
      exact .inr (.inl ⟨up, toOption_eq_some.mp leads⟩)
    · rename_i up
      exact .inr (.inr ⟨dot, up, leads⟩)
  · cases leads

private theorem held_of_advance? (linked : volume.Linked)
    (held : volume.inode? current.id = some current)
    (leads : volume.advance? user current component = some next) :
    volume.inode? next.id = some next := by
  rcases advance?_spec leads with ⟨-, rfl⟩ | ⟨-, climbs⟩ | ⟨-, -, named⟩
  · exact held
  · obtain ⟨-, above⟩ | ⟨directory, there, -, -, above⟩ := linked.parentOf_spec held
    all_goals
      rw [above] at climbs
      cases climbs
      assumption
  · obtain ⟨id, -, found, -⟩ := childNamed?_mem named
    exact inode?_self found

private theorem held_of_foldlM (linked : volume.Linked)
    (held : volume.inode? start.id = some start)
    (leads : components.foldlM (volume.advance? user) start = some inode) :
    volume.inode? inode.id = some inode := by
  induction components generalizing start with
  | nil =>
    cases leads
    exact held
  | cons component rest ih =>
    rw [List.foldlM_cons] at leads
    obtain ⟨next, here, further⟩ := Option.bind_eq_some_iff.mp leads
    exact ih (held_of_advance? linked held here) further

/-- From the root a step up stays there. -/
private theorem Linked.parentOf_root (linked : volume.Linked) (top : volume.root = .ok root) :
    volume.parentOf root = .ok root := by
  obtain ⟨held, found, -, parent⟩ := linked.root
  obtain rfl : held = root := Except.ok.inj ((root_of_inode? found).symm.trans top)
  simp only [parentOf, parent]
  exact top

/-- From an entry a step up leads back to where the entry was found. -/
private theorem parentOf_entry (linked : volume.Linked)
    (held : volume.inode? current.id = some current) (entry : Path.IsEntryName component)
    (leads : volume.advance? user current component = some next) :
    volume.parentOf next = .ok current := by
  rcases advance?_spec leads with ⟨dot, -⟩ | ⟨up, -⟩ | ⟨-, -, named⟩
  · exact absurd dot entry.2.1
  · exact absurd up entry.2.2
  · obtain ⟨id, listed, found, -⟩ := childNamed?_mem named
    have parent := linked.parent_of_lists ⟨current, held, listed⟩ found
    simp only [parentOf, parent]
    exact inode_of_inode? held

private theorem foldlM_concat : (stack ++ [component]).foldlM (volume.advance? user) start =
    (stack.foldlM (volume.advance? user) start).bind
      fun current => volume.advance? user current component := by
  rw [List.foldlM_append]
  simp [bind, Option.bind_fun_some]

/-- One more component: what is folded still leads to where the walk is. -/
private theorem foldComponent_leads (linked : volume.Linked)
    (held : volume.inode? start.id = some start) (top : absolute = true → volume.root = .ok start)
    (folded : Path.Folded absolute stack)
    (here : stack.reverse.foldlM (volume.advance? user) start = some current)
    (leads : volume.advance? user current component = some next) :
    (Path.foldComponent absolute stack component).reverse.foldlM (volume.advance? user) start =
      some next := by
  have pushed : (component :: stack).reverse.foldlM (volume.advance? user) start = some next := by
    rw [List.reverse_cons, foldlM_concat, here]
    exact leads
  rcases advance?_spec leads with ⟨rfl, rfl⟩ | ⟨rfl, climbs⟩ | ⟨dot, up, -⟩
  · exact here
  · cases folded with
    | nil =>
      cases absolute with
      | false => exact pushed
      | true =>
        cases here
        rw [linked.parentOf_root (top rfl)] at climbs
        cases climbs
        rfl
    | up relative folded bare => exact pushed
    | @name name below folded entry =>
      -- The name is taken back, and the step up leads to where it was found.
      rw [List.reverse_cons, foldlM_concat] at here
      obtain ⟨before, there, back⟩ := Option.bind_eq_some_iff.mp here
      rw [parentOf_entry linked (held_of_foldlM linked held there) entry back] at climbs
      cases climbs
      have taken : Path.foldComponent absolute (name :: below) ".." = below := if_neg entry.2.2
      rw [taken]
      exact there
  · have kept : Path.foldComponent absolute stack component = component :: stack :=
      (if_neg dot).trans (if_neg up)
    rw [kept]
    exact pushed

/-- By induction on the components: the folded ones lead to where all of them do. -/
private theorem folds_lead (linked : volume.Linked) (held : volume.inode? start.id = some start)
    (top : Path.isAbsolute path = true → volume.root = .ok start)
    (leads : (Path.componentsOf path).foldlM (volume.advance? user) start = some inode) :
    (Path.folds path).reverse.foldlM (volume.advance? user) start = some inode := by
  have onward : ∀ components : List String, (∀ c ∈ components, Path.IsComponent c) →
      ∀ stack current, Path.Folded (Path.isAbsolute path) stack →
        stack.reverse.foldlM (volume.advance? user) start = some current →
        components.foldlM (volume.advance? user) current = some inode →
        (components.foldl (Path.foldComponent (Path.isAbsolute path)) stack).reverse.foldlM
          (volume.advance? user) start = some inode := by
    intro components singles
    induction components with
    | nil =>
      intro stack current _ here ends
      cases ends
      exact here
    | cons component rest ih =>
      obtain ⟨single, others⟩ := List.forall_mem_cons.mp singles
      intro stack current folded here further
      rw [List.foldlM_cons] at further
      obtain ⟨next, step, further⟩ := Option.bind_eq_some_iff.mp further
      exact ih others _ next (folded.fold single)
        (foldComponent_leads linked held top folded here step) further
  exact onward _ (fun c member => Path.isComponent_of_mem member) [] start .nil rfl leads

/-- To resolve a path without links is to let its components lead. -/
private theorem resolve_ok_iff (linkless : volume.Linkless) (top : volume.root = .ok root)
    (held : volume.inode? start.id = some start) :
    volume.resolve user follow depth (some start.id) path = .ok inode ↔ levelsAt depth ≠ 0 ∧
      (Path.componentsOf path).foldlM (volume.advance? user)
        (if Path.isAbsolute path then root else start) = some inode := by
  unfold resolve
  by_cases spent : levelsAt depth = 0
  · simp [spent, bind, Except.bind, throw, throwThe, MonadExceptOf.throw]
  · obtain ⟨levels, left⟩ := Nat.exists_eq_succ_of_ne_zero spent
    have walks : ∀ origin, volume.resolveWithin user (levels + 1) follow origin path = .ok inode ↔
        (Path.componentsOf path).foldlM (volume.advance? user)
          (if Path.isAbsolute path then root else origin) = some inode := by
      intro origin
      rw [resolveWithin_succ top]
      exact descend_ok_iff linkless
    rw [if_neg spent, top, left, and_iff_right (Nat.succ_ne_zero levels)]
    cases absolute : Path.isAbsolute path with
    | true =>
      rw [absolute] at walks
      exact walks root
    | false =>
      simp only [bind, Except.bind, Bool.false_eq_true, ↓reduceIte, held]
      rw [absolute] at walks
      exact walks start

/-- Without links the folded path leads where the path leads. -/
theorem Linkless.resolve_normalize (linkless : volume.Linkless) (linked : volume.Linked)
    (held : volume.inode? start.id = some start) (shape : start.isDirectory = true)
    (search : start.permits user .execute = true)
    (leads : volume.resolve user follow depth (some start.id) path = .ok inode) :
    volume.resolve user follow depth (some start.id) (Path.normalize path) = .ok inode := by
  obtain ⟨root, found, -⟩ := linked.root
  have top := root_of_inode? found
  rw [resolve_ok_iff linkless top held] at leads ⊢
  obtain ⟨deep, leads⟩ := leads
  refine ⟨deep, ?_⟩
  rw [Path.isAbsolute_normalize]
  have folded : (Path.folds path).reverse.foldlM (volume.advance? user)
      (if Path.isAbsolute path then root else start) = some inode := by
    split at leads
    · rename_i absolute
      rw [if_pos absolute]
      exact folds_lead linked (inode?_self found) (fun _ => top) leads
    · rename_i relative
      rw [if_neg relative]
      exact folds_lead linked held (fun absolute => absurd absolute relative) leads
  rcases Path.componentsOf_normalize with same | ⟨relative, bare, dot⟩
  · rw [same]
    exact folded
  · -- The dot leads nowhere else, but asks for what the empty path does not.
    rw [bare, relative] at folded
    have single : Path.componentsOf "." = ["."] := by decide
    rw [dot, single, relative, ← folded]
    simp [advance?, shape, search]

end Volume

/-- A path that is asked for leads to an inode if it is resolved to it. -/
private theorem ask_resolve_iff {machine : Machine} {actor : Actor} {follow : Bool} {depth : Int}
    {origin : Option String} {path : String} {inode : Inode} :
    (machine.ask actor (Fs.resolve follow depth origin path)).1 = .ok (.ok inode) ↔
      machine.volume.resolve actor.user follow depth origin path = .ok inode := by
  have ran : Fs.resolve follow depth origin path actor machine = (_, _) := Fs.answer_run
  unfold Machine.ask Machine.perform
  rw [ran]
  cases machine.volume.resolve actor.user follow depth origin path with
  | ok found => simp
  | error failure => cases failure <;> simp [FsFailure.settle, Except.map]

/-- In a filesystem without links a path leads from a directory where its folded text leads, if the
directory may be searched, as it may be by root. To fold a path again changes nothing; a folded path
begins at the root if the path does, and has steps up only in front and only if it does not. -/
theorem folded_leads_alike {machine : Machine} (reachable : Reachable Snapshot.Keyed machine)
    (linkless : machine.volume.Linkless) :
    (∀ (actor : Actor) (follow : Bool) (depth : Int) (directory inode : Inode) (path : String),
      machine.volume.inode? directory.id = some directory → directory.isDirectory = true →
      actor.user = rootUser ∨ directory.permits actor.user .execute = true →
      (machine.ask actor (Fs.resolve follow depth (some directory.id) path)).1 = .ok (.ok inode) →
      (machine.ask actor (Fs.resolve follow depth (some directory.id) (Path.normalize path))).1 =
        .ok (.ok inode)) ∧
    ∀ path, Path.normalize (Path.normalize path) = Path.normalize path ∧
      Path.isAbsolute (Path.normalize path) = Path.isAbsolute path ∧
      (Path.isAbsolute path = true → ∀ component ∈ Path.componentsOf (Path.normalize path),
        component ≠ "." ∧ component ≠ "..") ∧
      (Path.isAbsolute path = false → Path.normalize path = "." ∨
        ∃ ups names, Path.componentsOf (Path.normalize path) = List.replicate ups ".." ++ names ∧
          ∀ name ∈ names, name ≠ "." ∧ name ≠ "..") := by
  have linked := (reachable.sound Snapshot.keyed_closed).linked
  refine ⟨?_, fun path => ⟨Path.normalize_normalize, Path.isAbsolute_normalize,
    Path.plain_of_absolute, fun _ => Path.plain_behind_ups⟩⟩
  intro actor follow depth directory inode path held shape search leads
  rw [ask_resolve_iff] at leads ⊢
  have searched : directory.permits actor.user .execute = true := by
    rcases search with top | permitted
    · simp [Record.permits, top]
    · exact permitted
  exact linkless.resolve_normalize linked held shape searched leads

/-- A directory in the one that everyone can write to. -/
private def nestedMachine : Machine :=
  (sharedMachine.serve ⟨"guest", "/"⟩ (.mkdir "/tmp/a" none)).2

/-- From below the root a path goes up, comes back and stays, and its folded text leads there too. -/
theorem folded_detour : Reachable Snapshot.Keyed nestedMachine ∧
    nestedMachine.volume.Linkless ∧
    ∃ directory inode, nestedMachine.volume.inode? directory.id = some directory ∧
      directory.isDirectory = true ∧ directory.name = "tmp" ∧ inode.name = "a" ∧
      Path.normalize "a/../../tmp//./a/" = "../tmp/a" ∧
      (nestedMachine.ask ⟨rootUser, "/"⟩
        (Fs.resolve true 0 (some directory.id) "a/../../tmp//./a/")).1 = .ok (.ok inode) ∧
      (nestedMachine.ask ⟨rootUser, "/"⟩ (Fs.resolve true 0 (some directory.id) "../tmp/a")).1 =
        .ok (.ok inode) := by
  have reachable : Reachable Snapshot.Keyed nestedMachine := (sharedMachine_reachable _).serve _ _
  have linkless : nestedMachine.volume.Linkless := by
    have none : ∀ inode ∈ nestedMachine.volume.inodes, inode.isSymlink = false := by decide +kernel
    exact fun id inode found => none inode (Volume.mem_of_inode? found)
  have there : (nestedMachine.volume.inode? (inodeId 1)).map (fun inode =>
      (inode.isDirectory, inode.name)) = some (true, "tmp") := by decide +kernel
  obtain ⟨directory, found, shown⟩ := Option.map_eq_some_iff.mp there
  obtain ⟨shape, named⟩ := Prod.mk.inj shown
  have id := Volume.id_of_inode? found
  have folded : Path.normalize "a/../../tmp//./a/" = "../tmp/a" := by decide +kernel
  have come : ((nestedMachine.ask ⟨rootUser, "/"⟩ (Fs.resolve true 0 (some (inodeId 1))
      "a/../../tmp//./a/")).1.toOption.bind (·.toOption)).map (·.name) = some "a" := by
    decide +kernel
  obtain ⟨inode, leads, called⟩ := Option.map_eq_some_iff.mp come
  rw [Option.bind_eq_some_iff] at leads
  obtain ⟨answer, ran, answered⟩ := leads
  rw [toOption_eq_some] at ran answered
  rw [answered, ← id] at ran
  have alike := (folded_leads_alike reachable linkless).1 ⟨rootUser, "/"⟩ true 0 directory inode
    "a/../../tmp//./a/" (id ▸ found) shape (.inl rfl) ran
  rw [folded] at alike
  exact ⟨reachable, linkless, directory, inode, id ▸ found, shape, named, called, folded, ran,
    alike⟩

end PocketShell
