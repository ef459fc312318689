import PocketShell.Fs.Machine
import PocketShell.Proofs.Fs.Resolution
import PocketShell.Proofs.Fs.Components

/-! Walking a path in two parts. To resolve a path at once, or first one part of it and then the rest
from there, comes to the same, but for the links: what follows a link in the first part goes on with
fewer of them when the path is walked at once. So the walk at once may run out of links where the
other does not, and that is the only difference. -/
namespace PocketShell.Volume

variable {volume : Volume} {start current root : Inode} {user path shown other : String}
  {follow : Bool} {lax : Prop} {few many : Nat} {first second : Except FsFailure Inode}

/-- The second search comes to what the first comes to. If it is lax, it may come to anything where
the first runs out of links. -/
inductive Carries (lax : Prop) : Except FsFailure Inode → Except FsFailure Inode → Prop
  | loop {result : Except FsFailure Inode} (may : lax) :
      Carries lax (.error (.refused .symlinkLoop)) result
  | found {inode : Inode} : Carries lax (.ok inode) (.ok inode)
  | failed {failure other : FsFailure} (same : other.settle = failure.settle) :
      Carries lax (.error failure) (.error other)

namespace Carries

theorem refl (result : Except FsFailure Inode) : Carries lax result result := by
  cases result with
  | ok inode => exact .found
  | error failure => exact .failed rfl

theorem bind {next next' : Inode → Except FsFailure Inode} (carries : Carries lax first second)
    (continues : ∀ inode, first = .ok inode → Carries lax (next inode) (next' inode)) :
    Carries lax (first >>= next) (second >>= next') := by
  cases carries with
  | loop may => exact .loop may
  | found => exact continues _ rfl
  | failed same => exact .failed same

end Carries

/-! ## More levels -/

/-- By induction on the components: the text that is shown for the path matters only to what is put on
record, and the levels only to how links are resolved. -/
private theorem descend_more {go go' : Bool → Inode → String → Except FsFailure Inode}
    (inner : ∀ follow start path, Carries lax (go follow start path) (go' follow start path))
    (components : List String) (current : Inode) :
    Carries lax (volume.descend user path follow go components current)
      (volume.descend user other follow go' components current) := by
  induction components generalizing current with
  | nil => exact .found
  | cons component rest ih =>
    unfold descend
    split
    · exact .failed rfl
    split
    · exact .failed rfl
    split
    · exact ih current
    split
    · exact (Carries.refl _).bind fun parent _ => ih parent
    cases volume.childNamed? current component with
    | none => exact .failed rfl
    | some child =>
      dsimp only
      split
      · refine (inner true current child.target).bind fun target _ => ?_
        split
        · exact .found
        · exact inner follow target _
      · exact ih child

/-- With more levels a path leads to the same, unless the fewer do not suffice. -/
private theorem resolveWithin_more (more : few = many ∨ few ≤ many ∧ lax) :
    Carries lax (volume.resolveWithin user few follow start path)
      (volume.resolveWithin user many follow start path) := by
  induction few generalizing many follow start path with
  | zero =>
    rcases more with rfl | ⟨-, lax⟩
    · exact .failed rfl
    · exact .loop lax
  | succ few ih =>
    obtain ⟨many, rfl⟩ : ∃ fewer, many = fewer + 1 :=
      Nat.exists_eq_succ_of_ne_zero (by omega)
    unfold resolveWithin
    refine (Carries.refl _).bind fun root _ => descend_more (fun follow start path => ?_) _ _
    exact ih (more.imp Nat.succ.inj (And.imp_left Nat.le_of_succ_le_succ))

/-! ## Walking on -/

/-- Going on from where the first part has led. -/
def onward (volume : Volume) (user : String) (follow : Bool) (shown : String) (levels : Nat)
    (rest : List String) (base : Inode) : Except FsFailure Inode :=
  if base.isDirectory then
    volume.descend user shown follow (volume.resolveWithin user levels) rest base
  else .error (.refused .notADirectory)

/-- No place that the walk passes is a link. -/
def Straight (volume : Volume) (user : String)
    (go : Bool → Inode → String → Except FsFailure Inode) (components : List String)
    (current : Inode) : Prop :=
  ∀ passed inode, passed <+: components → passed ≠ [] →
    volume.descend user "" false go passed current = .ok inode → inode.isSymlink = false

/-- After one step the rest of a walk that passes no link passes none. -/
private theorem Straight.step {go : Bool → Inode → String → Except FsFailure Inode}
    {component : String} {further : List String} {next : Inode}
    (straight : volume.Straight user go (component :: further) current)
    (steps : ∀ passed, volume.descend user "" false go (component :: passed) current =
      volume.descend user "" false go passed next) : volume.Straight user go further next := by
  intro passed inode first some leads
  refine straight (component :: passed) inode ?_ (by simp) ((steps passed).trans leads)
  exact List.cons_prefix_cons.mpr ⟨rfl, first⟩

section Split

variable {levels : Nat} {rest : List String} (some : rest ≠ [])

include some

/-- At the end of the first part the walk goes on with as many levels, or more. -/
private theorem onward_more (more : few = many ∨ few ≤ many ∧ lax) :
    Carries lax (volume.descend user path follow (volume.resolveWithin user few) rest current)
      (volume.onward user follow shown many rest current) := by
  unfold onward
  split
  · exact descend_more (fun follow start path => resolveWithin_more more) _ _
  · rename_i plain
    obtain ⟨component, further, rfl⟩ := List.exists_cons_of_ne_nil some
    simp only [descend, plain, Bool.not_false, ↓reduceIte]
    exact .failed rfl

/-- By induction on the first part. A link in it takes the walk to another level, and what is behind
it is split there. -/
private theorem descend_split (more : few = many ∨ few ≤ many ∧ lax)
    (inner : lax → ∀ start before, (∀ c ∈ before, Path.IsComponent c) → before ≠ [] →
      Carries lax (volume.resolveWithin user few follow start ("/".intercalate (before ++ rest)))
        (volume.resolveWithin user few true start ("/".intercalate before) >>=
          volume.onward user follow shown many rest))
    (last : lax → few ≠ 0 → ∀ start, Carries lax
      (volume.resolveWithin user few follow start ("/".intercalate rest))
      (volume.onward user follow shown many rest start))
    (before : List String) (proper : ∀ c ∈ before, Path.IsComponent c)
    (plain : lax ∨ volume.Straight user (volume.resolveWithin user few) before current) :
    Carries lax
      (volume.descend user path follow (volume.resolveWithin user few) (before ++ rest) current)
      (volume.descend user other true (volume.resolveWithin user few) before current >>=
        volume.onward user follow shown many rest) := by
  induction before generalizing current with
  | nil => exact onward_more some more
  | cons component further ih =>
    have properRest := fun c member => proper c (List.mem_cons_of_mem _ member)
    have onStep : ∀ {next : Inode},
        (∀ passed, volume.descend user "" false (volume.resolveWithin user few)
          (component :: passed) current =
          volume.descend user "" false (volume.resolveWithin user few) passed next) →
        lax ∨ volume.Straight user (volume.resolveWithin user few) further next :=
      fun steps => plain.imp_right fun straight => straight.step steps
    rw [List.cons_append]
    unfold descend
    split
    · exact .failed rfl
    rename_i shape
    split
    · exact .failed rfl
    rename_i search
    split
    · rename_i dot
      refine ih properRest (onStep fun passed => ?_)
      rw [descend, if_neg shape, if_neg search, if_pos dot]
    rename_i dot
    split
    · rename_i up
      cases above : volume.parentOf current with
      | error failure => exact .failed rfl
      | ok parent =>
        refine ih properRest (onStep fun passed => ?_)
        rw [descend, if_neg shape, if_neg search, if_neg dot, if_pos up, above]
        rfl
    rename_i up
    cases named : volume.childNamed? current component with
    | none => exact .failed rfl
    | some child =>
      dsimp only
      cases link : child.isSymlink with
      | false =>
        simp only [Bool.false_and, Bool.false_eq_true, ↓reduceIte]
        refine ih properRest (onStep fun passed => ?_)
        rw [descend, if_neg shape, if_neg search, if_neg dot, if_neg up, named]
        simp [link]
      | true =>
        have follows : lax := by
          refine plain.resolve_right fun straight => ?_
          have passes : volume.descend user "" false (volume.resolveWithin user few) [component]
              current = .ok child := by
            rw [descend, if_neg shape, if_neg search, if_neg dot, if_neg up, named]
            simp [link, descend]
          rw [straight [component] child (by simp) (by simp) passes] at link
          cases link
        have goes : (!(further ++ rest).isEmpty) = true := by simp [some]
        simp only [goes, Bool.or_true, Bool.true_or, Bool.and_self, ↓reduceIte]
        cases reached : volume.resolveWithin user few true current child.target with
        | error failure => exact .failed rfl
        | ok target =>
          have left : few ≠ 0 := by
            rintro rfl
            cases reached
          change Carries lax (if (further ++ rest).isEmpty then .ok target else
              volume.resolveWithin user few follow target ("/".intercalate (further ++ rest)))
            ((if further.isEmpty then .ok target else
              volume.resolveWithin user few true target ("/".intercalate further)) >>=
              volume.onward user follow shown many rest)
          rw [if_neg (by simpa using goes)]
          by_cases short : further = []
          · subst short
            exact last follows left target
          · rw [if_neg (by simpa using short)]
            exact inner follows target further properRest short

/-- By induction on the levels. -/
private theorem resolveWithin_split (top : volume.root = .ok root)
    (more : few = many ∨ few ≤ many ∧ lax) {whole before : String}
    (cut : Path.componentsOf whole = Path.componentsOf before ++ rest)
    (absolute : Path.isAbsolute whole = Path.isAbsolute before)
    (plain : lax ∨ volume.Straight user (volume.resolveWithin user few)
      (Path.componentsOf before) (if Path.isAbsolute before then root else start)) :
    Carries lax (volume.resolveWithin user (few + 1) follow start whole)
      (volume.resolveWithin user (few + 1) true start before >>=
        volume.onward user follow shown many rest) := by
  have proper : ∀ c ∈ Path.componentsOf before ++ rest, Path.IsComponent c :=
    fun c member => Path.isComponent_of_mem (cut ▸ member)
  have properRest := fun c member => proper c (List.mem_append_right _ member)
  induction few generalizing start whole before with
  | zero =>
    rw [resolveWithin_succ top, resolveWithin_succ top, cut, absolute]
    exact descend_split some more (fun free _ _ _ _ => .loop free) (fun _ left => absurd rfl left) _
      (fun c member => proper c (List.mem_append_left _ member)) plain
  | succ few ih =>
    rw [resolveWithin_succ top, resolveWithin_succ top, cut, absolute]
    have fewer : few ≤ many := by omega
    refine descend_split some more (fun free start before properBefore _ => ?_)
      (fun free _ start => ?_) _ (fun c member => proper c (List.mem_append_left _ member)) plain
    · have properAll : ∀ c ∈ before ++ rest, Path.IsComponent c := fun c member =>
        (List.mem_append.mp member).elim (properBefore c) (properRest c)
      have again := Path.componentsOf_intercalate properBefore
      refine ih (.inr ⟨fewer, free⟩) ?_ ?_ (.inl free) (again.symm ▸ properAll)
      · rw [Path.componentsOf_intercalate properAll, again]
      · rw [Path.isAbsolute_intercalate properAll, Path.isAbsolute_intercalate properBefore]
    · rw [resolveWithin_succ top, Path.componentsOf_intercalate properRest,
        Path.isAbsolute_intercalate properRest]
      exact onward_more some (.inr ⟨fewer, free⟩)

end Split

/-! ## The working directory before a path -/

/-- No component of the path is a link, as far as the user gets. -/
def Unlinked (volume : Volume) (user path : String) : Prop :=
  ∀ passed inode, passed <+: Path.componentsOf path → passed ≠ [] →
    volume.resolve user false 0 none (Path.toText ⟨true, passed⟩) = .ok inode →
    inode.isSymlink = false

/-- The walk along such a path passes no link. -/
private theorem Unlinked.straight (unlinked : volume.Unlinked user path)
    (top : volume.root = .ok root) :
    volume.Straight user (volume.resolveWithin user linkDepth) (Path.componentsOf path) root := by
  intro passed inode first some leads
  have components : ∀ c ∈ passed, Path.IsComponent c := fun c member =>
    Path.isComponent_of_mem (first.subset member)
  refine unlinked passed inode first some ?_
  have again : Carries False (volume.descend user "" false _ passed root) (volume.descend user
      (Path.toText ⟨true, passed⟩) false (volume.resolveWithin user linkDepth) passed root) :=
    descend_more (fun _ _ _ => .refl _) passed root
  rw [leads] at again
  rw [resolve_of_root top, Path.componentsOf_toText components]
  generalize volume.descend user (Path.toText ⟨true, passed⟩) _ _ _ _ = result at again
  cases again
  rfl

variable {actor : Actor}

/-- A relative path is walked on from the working directory. -/
private theorem lookup_onward (linked : volume.Linked)
    (absolute : Path.isAbsolute actor.cwd = true) (relative : Path.isAbsolute path = false) :
    volume.lookup actor follow path = volume.resolve actor.user true 0 none actor.cwd >>=
      volume.onward actor.user follow path linkDepth (Path.componentsOf path) := by
  obtain ⟨root, found, shape, -⟩ := linked.root
  have top := root_of_inode? found
  rw [lookup_eq, relative]
  by_cases slash : actor.cwd = "/"
  · have here : volume.resolve actor.user true 0 none actor.cwd = .ok root := by
      rw [slash, resolve_of_root top, show Path.componentsOf "/" = [] by decide]
      rfl
    rw [if_pos (by simp [slash]), here, resolve_of_root top]
    exact (if_pos shape).symm
  · have some : actor.cwd ≠ "" := by
      intro none
      rw [none] at absolute
      exact absurd absolute (by decide)
    rw [if_neg (by simp [slash, some])]
    have settled : Settled _ (volume.resolve actor.user true 0 none actor.cwd) :=
      linked.enclosed_held.resolve 0 (by simp)
    cases reached : volume.resolve actor.user true 0 none actor.cwd with
    | error failure => rfl
    | ok base =>
      rw [reached] at settled
      cases settled with
      | ok held =>
        change (if base.isDirectory then _ else _) = volume.onward _ _ _ _ _ base
        rw [resolve_of_held top held relative]
        rfl

/-- The path behind the working directory leads where the relative path does, but may run out of
links on the way if the working directory is reached by some. -/
theorem lookup_carries (linked : volume.Linked) (absolute : Path.isAbsolute actor.cwd = true)
    (relative : Path.isAbsolute path = false) (some : Path.componentsOf path ≠ [])
    (plain : lax ∨ volume.Unlinked actor.user actor.cwd) :
    Carries lax (volume.resolve actor.user follow 0 none (actor.cwd ++ "/" ++ path))
      (volume.lookup actor follow path) := by
  obtain ⟨root, found, -⟩ := linked.root
  have top := root_of_inode? found
  have cut : Path.componentsOf (actor.cwd ++ "/" ++ path) =
      Path.componentsOf actor.cwd ++ Path.componentsOf path := by
    simp [Path.componentsOf_eq, Path.pieces_slash]
  have whole : Path.isAbsolute (actor.cwd ++ "/" ++ path) = Path.isAbsolute actor.cwd := by
    cases letters : actor.cwd.toList with
    | nil => simp [Path.isAbsolute, letters] at absolute
    | cons c rest => simp [Path.isAbsolute, letters]
  rw [lookup_onward linked absolute relative, resolve_eq_resolveWithin top,
    resolve_eq_resolveWithin top]
  refine resolveWithin_split some top (.inl rfl) cut whole (plain.imp_right fun unlinked => ?_)
  rw [ite_self]
  exact unlinked.straight top

end PocketShell.Volume
