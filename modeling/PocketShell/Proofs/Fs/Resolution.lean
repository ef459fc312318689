import PocketShell.Fs.Resolve
import PocketShell.Proofs.Fs.Components
import PocketShell.Proofs.Fs.Lineage

/-! What a path leads to. Whatever holds of the root, of the entries of a directory that may be
searched and of the parents of inodes holds of everything a path leads to, however its links nest;
and in a linked volume a path that leads nowhere is refused. Likewise for two searches: what the
roots, the entries and the parents in two volumes have in common, two searches for one path have in
common in the end. -/
namespace PocketShell

/-- The failure is a reason for the caller, not a fault of the table. -/
def FsFailure.Refuses (failure : FsFailure) : Prop := failure.reason?.isSome = true

/-- A value with a property, or a refusal. -/
inductive Settled {α : Type} (holds : α → Prop) : Except FsFailure α → Prop
  | ok {value : α} (here : holds value) : Settled holds (.ok value)
  | error {failure : FsFailure} (refuses : failure.Refuses) : Settled holds (.error failure)

namespace Settled

variable {α β : Type} {P Q : α → Prop} {result : Except FsFailure α}

theorem refused (reason : FsError) : Settled P (.error (.refused reason)) := .error rfl

theorem denied (path action : String) : Settled P (.error (.denied path action)) := .error rfl

theorem imp (settled : Settled P result) (weaker : ∀ value, P value → Q value) :
    Settled Q result := by
  cases settled with
  | ok here => exact .ok (weaker _ here)
  | error refuses => exact .error refuses

theorem bind {R : β → Prop} {next : α → Except FsFailure β} (settled : Settled P result)
    (continues : ∀ value, P value → Settled R (next value)) : Settled R (result >>= next) := by
  cases settled with
  | ok here => exact continues _ here
  | error refuses => exact .error refuses

/-- What comes of a search is its result. -/
theorem found (settled : Settled P result) : Settled (fun value => result = .ok value) result := by
  cases settled with
  | ok here => exact .ok rfl
  | error refuses => exact .error refuses

end Settled

namespace Volume

variable {volume : Volume} {inode child directory start : Inode} {id name path user : String}
  {trail : List Inode} {actor : Actor} {follow : Bool}

theorem childNamed?_mem (found : volume.childNamed? directory name = some child) :
    ∃ id ∈ directory.children, volume.inode? id = some child ∧ child.name = name := by
  obtain ⟨id, listed, passed⟩ := List.exists_of_findSome?_eq_some found
  obtain ⟨held, same⟩ := Option.filter_eq_some_iff.mp passed
  exact ⟨id, listed, held, by simpa using same⟩

theorem childNamed?_eq_none_iff : volume.childNamed? directory name = none ↔
    ∀ id ∈ directory.children, ∀ child, volume.inode? id = some child → child.name ≠ name := by
  unfold childNamed?
  rw [List.findSome?_eq_none_iff]
  simp [Option.filter_eq_none_iff]

theorem childNamed?_eq_none (found : volume.childNamed? directory name = none)
    (listed : id ∈ directory.children) (held : volume.inode? id = some child) :
    child.name ≠ name :=
  childNamed?_eq_none_iff.mp found id listed child held

/-- In a linked volume an entry is the one found under its name. -/
theorem childNamed?_of_mem (linked : volume.Linked)
    (held : volume.inode? directory.id = some directory) (listed : id ∈ directory.children)
    (found : volume.inode? id = some child) :
    volume.childNamed? directory child.name = some child := by
  cases named : volume.childNamed? directory child.name with
  | none => exact absurd rfl (childNamed?_eq_none named listed found)
  | some first =>
    obtain ⟨other, also, present, same⟩ := childNamed?_mem named
    have parents : first.parent = child.parent :=
      (linked.parent_of_lists ⟨directory, held, also⟩ present).trans
        (linked.parent_of_lists ⟨directory, held, listed⟩ found).symm
    have ids := linked.names other id first child present found parents same
    rw [ids, found] at present
    exact present.symm

theorem root_of_inode? {root : Inode} (found : volume.inode? volume.rootId = some root) :
    volume.root = .ok root :=
  inode_of_inode? found

/-- The directory around an inode: the root's is the root, another's is the one that lists it. -/
theorem Linked.parentOf_spec (linked : volume.Linked)
    (held : volume.inode? inode.id = some inode) :
    (inode.id = volume.rootId ∧ volume.parentOf inode = .ok inode) ∨
      ∃ directory, volume.inode? directory.id = some directory ∧
        inode.parent = some directory.id ∧ inode.id ∈ directory.children ∧
        volume.parentOf inode = .ok directory := by
  by_cases top : inode.id = volume.rootId
  · left
    obtain ⟨root, found, -, parent⟩ := linked.root
    rw [top, found] at held
    cases held
    exact ⟨top, by simp only [parentOf, parent]; exact root_of_inode? found⟩
  · right
    obtain ⟨directory, present, parent, listed⟩ := linked.holder_of_ne_root held top
    exact ⟨directory, present, parent, listed, by
      simp only [parentOf, parent]; exact inode_of_inode? present⟩

/-- A relative path starts in the working directory, which is resolved first. -/
theorem lookup_eq : volume.lookup actor follow path =
    if Path.isAbsolute path || actor.cwd = "" || actor.cwd = "/" then
      volume.resolve actor.user follow 0 none path
    else volume.resolve actor.user true 0 none actor.cwd >>= fun base =>
      if base.isDirectory then volume.resolve actor.user follow 0 (some base.id) path
      else .error (.refused .notADirectory) := by
  unfold lookup
  split
  · rfl
  · congr 1
    funext base
    cases base.isDirectory <;> rfl

/-- To resolve a path is to walk along its components. -/
theorem resolveWithin_succ {root : Inode} {levels : Nat} (top : volume.root = .ok root) :
    volume.resolveWithin user (levels + 1) follow start path =
      volume.descend user path follow (volume.resolveWithin user levels)
        (Path.componentsOf path) (if Path.isAbsolute path then root else start) := by
  rw [resolveWithin, top]
  rfl

/-- Without a start a path is resolved from the root. -/
theorem resolve_eq_resolveWithin {root : Inode} (top : volume.root = .ok root) :
    volume.resolve user follow 0 none path =
      volume.resolveWithin user (linkDepth + 1) follow root path := by
  have levels : levelsAt 0 = linkDepth + 1 := rfl
  unfold resolve
  rw [levels, if_neg (Nat.succ_ne_zero _), top]
  rfl

theorem resolve_of_root {root : Inode} (top : volume.root = .ok root) :
    volume.resolve user follow 0 none path =
      volume.descend user path follow (volume.resolveWithin user linkDepth)
        (Path.componentsOf path) root := by
  rw [resolve_eq_resolveWithin top, resolveWithin_succ top, ite_self]

/-- A relative path is resolved by a walk from the start. -/
theorem resolve_of_held {root : Inode} (top : volume.root = .ok root)
    (held : volume.inode? start.id = some start) (relative : Path.isAbsolute path = false) :
    volume.resolve user follow 0 (some start.id) path =
      volume.descend user path follow (volume.resolveWithin user linkDepth)
        (Path.componentsOf path) start := by
  have levels : levelsAt 0 = linkDepth + 1 := rfl
  unfold resolve
  rw [levels, if_neg (Nat.succ_ne_zero _), top]
  simp only [bind, Except.bind, relative, Bool.false_eq_true, ↓reduceIte, held]
  rw [resolveWithin_succ top, relative]
  rfl

/-- The parent directory is looked up only for a name that an entry can have. -/
theorem lookupParent_eq : volume.lookupParent actor path =
    let (parentPath, name) := Path.splitParent path
    if name = "" || name = "." || name = ".." then .error (.refused .fileExists)
    else volume.lookup actor true parentPath >>= fun parent =>
      if parent.isDirectory then .ok (parent, name) else .error (.refused .notADirectory) := by
  unfold lookupParent
  cases Path.splitParent path with
  | mk parentPath name =>
    by_cases improper : (name = "" || name = "." || name = "..") = true
    · simp only [improper, ↓reduceIte]
      rfl
    · simp only [improper, Bool.false_eq_true, ↓reduceIte]
      congr 1
      funext parent
      cases parent.isDirectory <;> rfl

/-- A property of inodes of the table that resolution cannot leave: it holds of the root and passes
from a directory that the user may search to its entries and to its parent. -/
structure Enclosed (volume : Volume) (user : String) (holds : Inode → Prop) : Prop where
  held : ∀ inode, holds inode → volume.inode? inode.id = some inode
  root : Settled holds volume.root
  child : ∀ directory name child, holds directory → directory.permits user .execute = true →
    Path.IsEntryName name → volume.childNamed? directory name = some child → holds child
  parent : ∀ directory, holds directory → Settled holds (volume.parentOf directory)

namespace Enclosed

variable {holds : Inode → Prop}

/-- One walk along components stays enclosed if the resolution of links does. -/
private theorem descend (enclosed : volume.Enclosed user holds)
    {go : Bool → Inode → String → Except FsFailure Inode}
    (inner : ∀ follow start path, holds start → Settled holds (go follow start path))
    (components : List String) (proper : ∀ c ∈ components, Path.IsComponent c) {current : Inode}
    (here : holds current) :
    Settled holds (volume.descend user path follow go components current) := by
  induction components generalizing current with
  | nil => exact .ok here
  | cons component rest ih =>
    have properRest := fun c member => proper c (List.mem_cons_of_mem _ member)
    unfold Volume.descend
    split
    · exact .refused _
    split
    · exact .denied _ _
    rename_i search
    split
    · exact ih properRest here
    rename_i dot
    split
    · exact (enclosed.parent current here).bind fun parent above => ih properRest above
    rename_i up
    split
    · exact .refused _
    · rename_i child found
      have below := enclosed.child current component child here (by simpa using search)
        ⟨proper component List.mem_cons_self, dot, up⟩ found
      split
      · refine (inner true current child.target here).bind fun target reached => ?_
        split
        · exact .ok reached
        · exact inner follow target _ reached
      · exact ih properRest below

theorem resolveWithin (enclosed : volume.Enclosed user holds) (levels : Nat)
    (here : holds start) :
    Settled holds (volume.resolveWithin user levels follow start path) := by
  induction levels generalizing follow start path with
  | zero => exact .refused _
  | succ levels ih =>
    unfold Volume.resolveWithin
    refine enclosed.root.bind fun root top => ?_
    refine enclosed.descend (fun follow start path here => ih here) _
      (fun c member => Path.isComponent_of_mem member) ?_
    split
    · exact top
    · exact here

theorem resolve (enclosed : volume.Enclosed user holds) (depth : Int) {start : Option String}
    (here : ∀ id inode, start = some id → volume.inode? id = some inode → holds inode) :
    Settled holds (volume.resolve user follow depth start path) := by
  unfold Volume.resolve
  by_cases deep : levelsAt depth = 0
  · cases start <;> simp only [deep, ↓reduceIte] <;> exact .refused _
  · cases start with
    | none =>
      simp only [deep, ↓reduceIte]
      exact enclosed.root.bind fun root top => enclosed.resolveWithin _ top
    | some id =>
      simp only [deep, ↓reduceIte]
      refine enclosed.root.bind fun root top => ?_
      split
      · exact .refused _
      · rename_i base found
        apply enclosed.resolveWithin
        split at found
        · cases found
          exact top
        · exact here id base rfl found

theorem lookup (enclosed : volume.Enclosed actor.user holds) :
    Settled holds (volume.lookup actor follow path) := by
  rw [lookup_eq]
  split
  · exact enclosed.resolve 0 (by simp)
  · refine (enclosed.resolve 0 (by simp)).bind fun base reached => ?_
    split
    · refine enclosed.resolve 0 fun id inode same found => ?_
      cases same
      rw [enclosed.held base reached] at found
      cases found
      exact reached
    · exact .refused _

/-- The directory that holds a new entry is enclosed as well, and the entry's name is proper. -/
theorem lookupParent (enclosed : volume.Enclosed actor.user holds) :
    Settled (fun found : Inode × String => holds found.1 ∧ found.1.isDirectory = true ∧
      Path.IsEntryName found.2) (volume.lookupParent actor path) := by
  rw [lookupParent_eq]
  cases cut : Path.splitParent path with
  | mk parentPath name =>
    simp only
    split
    · exact .refused _
    · rename_i proper
      simp only [Bool.or_eq_true, decide_eq_true_eq, not_or] at proper
      refine enclosed.lookup.bind fun parent reached => ?_
      split
      · rename_i shape
        exact .ok ⟨reached, shape, (Path.splitParent_spec cut proper.1.1).1, proper.1.2, proper.2⟩
      · exact .refused _

end Enclosed

/-- In a linked volume resolution stays within the table. -/
theorem Linked.enclosed_held (linked : volume.Linked) :
    volume.Enclosed user fun inode => volume.inode? inode.id = some inode where
  held := fun _ found => found
  root := by
    obtain ⟨root, found, -⟩ := linked.root
    rw [root_of_inode? found]
    exact .ok (inode?_self found)
  child := by
    intro directory name child _ _ _ named
    obtain ⟨id, -, found, -⟩ := childNamed?_mem named
    exact inode?_self found
  parent := by
    intro directory held
    rcases linked.parentOf_spec held with ⟨-, ran⟩ | ⟨parent, above, -, -, ran⟩
    · rw [ran]
      exact .ok held
    · rw [ran]
      exact .ok above

/-- The parent of an inode on a route is the directory entered last; the root is its own. -/
theorem Route.parentOf (linked : volume.Linked) (route : volume.Route user trail inode) :
    (trail = [] ∧ volume.parentOf inode = .ok inode) ∨
      ∃ directory shorter, trail = directory :: shorter ∧ volume.Route user shorter directory ∧
        volume.parentOf inode = .ok directory := by
  cases route with
  | root found =>
    obtain ⟨root, same, -, none⟩ := linked.root
    rw [found] at same
    cases same
    rcases linked.parentOf_spec (inode?_self found) with ⟨-, ran⟩ | ⟨_, -, named, -⟩
    · exact .inl ⟨rfl, ran⟩
    · rw [none] at named
      cases named
  | entry upper search listed found =>
    have up := linked.parent_of_lists (upper.lists listed) found
    refine .inr ⟨_, _, rfl, upper, ?_⟩
    simp only [Volume.parentOf, up, Volume.inode, upper.held]

/-- In a linked volume resolution stays on routes that the user can take. -/
theorem Linked.enclosed_route (linked : volume.Linked) :
    volume.Enclosed user fun inode => ∃ trail, volume.Route user trail inode where
  held := fun _ ⟨_, route⟩ => route.held
  root := by
    obtain ⟨root, found, -⟩ := linked.root
    rw [root_of_inode? found]
    exact .ok ⟨[], .root found⟩
  child := by
    rintro directory name child ⟨trail, route⟩ search - named
    obtain ⟨id, listed, found, -⟩ := childNamed?_mem named
    exact ⟨directory :: trail, .entry route search listed found⟩
  parent := by
    rintro directory ⟨trail, route⟩
    rcases route.parentOf linked with ⟨-, ran⟩ | ⟨above, shorter, -, upper, ran⟩
    · exact ran ▸ .ok ⟨trail, route⟩
    · exact ran ▸ .ok ⟨shorter, upper⟩

/-- What is reached by names has names that a path can spell on its route. -/
theorem Linked.enclosed_named (linked : volume.Linked) :
    volume.Enclosed user fun inode => ∃ trail, volume.Route user trail inode ∧
      ∀ name ∈ routeNames trail inode, Path.IsEntryName name where
  held := fun _ ⟨_, route, _⟩ => route.held
  root := by
    obtain ⟨root, found, -⟩ := linked.root
    rw [root_of_inode? found]
    exact .ok ⟨[], .root found, by simp [routeNames]⟩
  child := by
    rintro directory name child ⟨trail, route, names⟩ search proper named
    obtain ⟨id, listed, found, rfl⟩ := childNamed?_mem named
    refine ⟨directory :: trail, .entry route search listed found, fun name member => ?_⟩
    rcases List.mem_cons.mp member with rfl | further
    · exact proper
    · exact names name further
  parent := by
    rintro directory ⟨trail, route, names⟩
    rcases route.parentOf linked with ⟨-, ran⟩ | ⟨above, shorter, rfl, upper, ran⟩
    · exact ran ▸ .ok ⟨trail, route, names⟩
    · exact ran ▸ .ok ⟨shorter, upper, fun name member => names name (List.mem_cons_of_mem _ member)⟩

/-- Whatever a path leads to can be reached by the user. -/
theorem Linked.route_of_lookup (linked : volume.Linked)
    (leads : volume.lookup actor follow path = .ok inode) :
    ∃ trail, volume.Route actor.user trail inode := by
  have settled : Settled _ (volume.lookup actor follow path) := linked.enclosed_route.lookup
  rw [leads] at settled
  cases settled with
  | ok here => exact here

/-- The names on the way there are such as a path can spell. -/
theorem Linked.named_of_lookup (linked : volume.Linked)
    (leads : volume.lookup actor follow path = .ok inode) :
    ∃ trail, volume.Route actor.user trail inode ∧
      ∀ name ∈ routeNames trail inode, Path.IsEntryName name := by
  have settled : Settled _ (volume.lookup actor follow path) := linked.enclosed_named.lookup
  rw [leads] at settled
  cases settled with
  | ok here => exact here

/-- So can the directory for an entry. -/
theorem Linked.route_of_lookupParent (linked : volume.Linked)
    (leads : volume.lookupParent actor path = .ok (directory, name)) :
    (∃ trail, volume.Route actor.user trail directory) ∧ directory.isDirectory = true ∧
      Path.IsEntryName name := by
  have settled : Settled _ (volume.lookupParent actor path) := linked.enclosed_route.lookupParent
  rw [leads] at settled
  cases settled with
  | ok here => exact here

/-! ## Two searches side by side -/

/-- One step of a walk, with what comes behind it. -/
theorem descend_cons {go : Bool → Inode → String → Except FsFailure Inode} {rest : List String} :
    volume.descend user path follow go (name :: rest) inode =
      if !inode.isDirectory then .error (.refused .notADirectory)
      else if !inode.permits user .execute then .error (.denied path "execute")
      else if name = "." then volume.descend user path follow go rest inode
      else if name = ".." then volume.parentOf inode >>= volume.descend user path follow go rest
      else (volume.childNamed? inode name).elim (.error (.refused .notFound)) fun child =>
        if child.isSymlink && (follow || !rest.isEmpty) then
          go true inode child.target >>= fun target =>
            if rest.isEmpty then .ok target else go follow target ("/".intercalate rest)
        else volume.descend user path follow go rest child := by
  rw [descend]
  cases volume.childNamed? inode name <;> rfl

/-- Two users search two volumes step by step alike: `same` holds of the inodes that the two searches
have come to, and `like` of what they come to in the end. -/
structure Abreast (first second : Volume) (user other : String) (same : Inode → Inode → Prop)
    (like : Except FsFailure Inode → Except FsFailure Inode → Prop) : Prop where
  ok : ∀ {inode twin}, same inode twin → like (.ok inode) (.ok twin)
  refused : ∀ reason ∈ [FsError.notADirectory, .notFound, .symlinkLoop],
    like (.error (.refused reason)) (.error (.refused reason))
  bind : ∀ {result result' next next'}, like result result' →
    (∀ inode twin, same inode twin → like (next inode) (next' twin)) →
    like (result >>= next) (result' >>= next')
  id : ∀ {inode twin}, same inode twin → twin.id = inode.id
  type : ∀ {inode twin}, same inode twin → twin.type = inode.type
  target : ∀ {inode twin}, same inode twin → twin.target = inode.target
  search : ∀ {inode twin path result result'}, same inode twin → like result result' →
    like (if !inode.permits user .execute then .error (.denied path "execute") else result)
      (if !twin.permits other .execute then .error (.denied path "execute") else result')
  held : ∀ {inode twin}, same inode twin →
    Option.Rel same (first.inode? inode.id) (second.inode? inode.id)
  root : like first.root second.root
  parent : ∀ {inode twin}, same inode twin → like (first.parentOf inode) (second.parentOf twin)
  child : ∀ {inode twin name next next'}, same inode twin →
    (∀ child entry, same child entry → like (next child) (next' entry)) →
    like ((first.childNamed? inode name).elim (.error (.refused .notFound)) next)
      ((second.childNamed? twin name).elim (.error (.refused .notFound)) next')

namespace Abreast

variable {first second : Volume} {other : String} {same : Inode → Inode → Prop}
  {like : Except FsFailure Inode → Except FsFailure Inode → Prop} {twin : Inode}
  (abreast : first.Abreast second user other same like)

include abreast

private theorem isDirectory (here : same inode twin) : twin.isDirectory = inode.isDirectory := by
  rw [Record.isDirectory, abreast.type here, Record.isDirectory]

private theorem isSymlink (here : same inode twin) : twin.isSymlink = inode.isSymlink := by
  rw [Record.isSymlink, abreast.type here, Record.isSymlink]

/-- By induction on the components, as the walks go down. -/
private theorem descend {go through : Bool → Inode → String → Except FsFailure Inode}
    (inner : ∀ follow start begin path, same start begin →
      like (go follow start path) (through follow begin path))
    (components : List String) (here : same inode twin) :
    like (first.descend user path follow go components inode)
      (second.descend other path follow through components twin) := by
  induction components generalizing inode twin with
  | nil => exact abreast.ok here
  | cons component rest ih =>
    rw [descend_cons, descend_cons, abreast.isDirectory here]
    split
    · exact abreast.refused _ (by simp)
    refine abreast.search here ?_
    split
    · exact ih here
    split
    · exact abreast.bind (abreast.parent here) fun _ _ above => ih above
    refine abreast.child here fun child entry below => ?_
    rw [abreast.isSymlink below, abreast.target below]
    split
    · refine abreast.bind (inner true _ _ child.target here) fun target goal reached => ?_
      split
      · exact abreast.ok reached
      · exact inner follow _ _ _ reached
    · exact ih below

theorem resolveWithin (levels : Nat) (here : same start twin) :
    like (first.resolveWithin user levels follow start path)
      (second.resolveWithin other levels follow twin path) := by
  induction levels generalizing follow start twin path with
  | zero => exact abreast.refused _ (by simp)
  | succ levels ih =>
    refine abreast.bind abreast.root fun root peak top => ?_
    refine abreast.descend (fun _ _ _ _ here => ?_) _ ?_
    · exact ih here
    split
    · exact top
    · exact here

theorem resolve (depth : Int) {start : Option String}
    (begins : ∀ id, start = some id → Option.Rel same (first.inode? id) (second.inode? id)) :
    like (first.resolve user follow depth start path)
      (second.resolve other follow depth start path) := by
  unfold Volume.resolve
  by_cases deep : levelsAt depth = 0
  · simp only [deep, ↓reduceIte]
    exact abreast.refused _ (by simp)
  simp only [deep, ↓reduceIte]
  refine abreast.bind abreast.root fun root peak top => ?_
  cases start with
  | none => exact abreast.resolveWithin _ top
  | some id =>
    have here : Option.Rel same (if Path.isAbsolute path then some root else first.inode? id)
        (if Path.isAbsolute path then some peak else second.inode? id) := by
      split
      · exact .some top
      · exact begins id rfl
    dsimp only
    generalize (if Path.isAbsolute path then some root else first.inode? id) = found at here
    generalize (if Path.isAbsolute path then some peak else second.inode? id) = present at here
    cases here with
    | none => exact abreast.refused _ (by simp)
    | some here => exact abreast.resolveWithin _ here

theorem lookup {cwd : String} :
    like (first.lookup ⟨user, cwd⟩ follow path) (second.lookup ⟨other, cwd⟩ follow path) := by
  rw [lookup_eq, lookup_eq]
  split
  · exact abreast.resolve 0 nofun
  · refine abreast.bind (abreast.resolve 0 nofun) fun base twin here => ?_
    rw [abreast.isDirectory here, abreast.id here]
    split
    · refine abreast.resolve 0 ?_
      rintro _ ⟨⟩
      exact abreast.held here
    · exact abreast.refused _ (by simp)

end Abreast

end Volume

end PocketShell
