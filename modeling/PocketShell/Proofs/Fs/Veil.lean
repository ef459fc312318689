import Mathlib.Data.List.Infix
import PocketShell.Proofs.Alongside
import PocketShell.Proofs.Fs.Resolution

/-! Two volumes that differ in what one file holds. The file is one that a user neither owns nor may
read, and its contents take as many bytes in both. Whatever is looked up, climbed, walked or counted
in the one is found in the other just so, but for that content. -/
namespace PocketShell

/-- The contents begin as scripts do or not, both alike, also with more put at their ends. -/
def SameStart (content other : String) : Prop :=
  ∀ more, (content ++ more).startsWith "#!" = (other ++ more).startsWith "#!"

/-- The first two characters decide, where there are as many. -/
theorem sameStart_iff {content other : String} (long : 2 ≤ content.length)
    (another : 2 ≤ other.length) :
    SameStart content other ↔ content.startsWith "#!" = other.startsWith "#!" := by
  have settled : ∀ {text : String}, 2 ≤ text.length → ∀ more,
      (text ++ more).startsWith "#!" = text.startsWith "#!" := by
    intro text enough more
    rw [Bool.eq_iff_iff, String.startsWith_string_iff, String.startsWith_string_iff,
      String.toList_append]
    exact List.isPrefix_append_of_length enough
  constructor
  · intro same
    rw [← settled long "", ← settled another "", same ""]
  · intro same more
    rw [settled long, settled another, same]

/-- A file that is kept from a user. Where `kinds` holds it may be told how files begin. -/
structure Veil where
  user : String
  secret : String
  kinds : Prop

/-- The second inode is the first, or the first is the file that is kept from the user and the second
holds something else of the same size. -/
inductive Veil.Alike (veil : Veil) (inode : Inode) : Inode → Prop
  | same : veil.Alike inode inode
  | hidden {content other : String} (secret : inode.id = veil.secret)
      (held : inode.payload = .file content) (foreign : inode.owner ≠ veil.user)
      (closed : inode.permits veil.user .read = false) (size : byteSize content = byteSize other)
      (start : veil.kinds → SameStart content other) :
      veil.Alike inode { inode with payload := .file other }

/-- The second volume is the first but for what is kept from the user. -/
inductive Veil.Beside (veil : Veil) (volume : Volume) : Volume → Prop
  | mk {inodes : List Inode} (alike : List.Forall₂ veil.Alike volume.inodes inodes) :
      veil.Beside volume { volume with inodes }

/-- Two rows of a walk: the same path, with inodes that are alike. -/
def Veil.SameRow (veil : Veil) (row other : String × Inode) : Prop :=
  row.1 = other.1 ∧ veil.Alike row.2 other.2

/-- Two places for an entry: directories that are alike, and the same name. -/
def Veil.SameEntry (veil : Veil) (place other : Inode × String) : Prop :=
  veil.Alike place.1 other.1 ∧ place.2 = other.2

variable {veil : Veil} {entry other : Inode}

namespace Veil.Alike

variable (alike : veil.Alike entry other)

include alike

theorem id : other.id = entry.id := by cases alike <;> rfl

theorem name : other.name = entry.name := by cases alike <;> rfl

theorem parent : other.parent = entry.parent := by cases alike <;> rfl

theorem size : other.size = entry.size := by cases alike <;> rfl

theorem mode : other.mode = entry.mode := by cases alike <;> rfl

theorem owner : other.owner = entry.owner := by cases alike <;> rfl

theorem group : other.group = entry.group := by cases alike <;> rfl

theorem created : other.created = entry.created := by cases alike <;> rfl

theorem modified : other.modified = entry.modified := by cases alike <;> rfl

theorem permits (user : String) (access : Access) :
    other.permits user access = entry.permits user access := by
  cases alike <;> rfl

theorem type : other.type = entry.type := by
  cases alike with
  | same => rfl
  | hidden secret held foreign closed size start => simp [Record.type, held, Payload.type]

theorem isDirectory : other.isDirectory = entry.isDirectory := by
  simp only [Record.isDirectory, alike.type]

theorem isFile : other.isFile = entry.isFile := by simp only [Record.isFile, alike.type]

theorem isSymlink : other.isSymlink = entry.isSymlink := by
  simp only [Record.isSymlink, alike.type]

theorem children : other.children = entry.children := by
  cases alike with
  | same => rfl
  | hidden secret held foreign closed size start => simp [Record.children, held]

theorem target : other.target = entry.target := by
  cases alike with
  | same => rfl
  | hidden secret held foreign closed size start => simp [Record.target, held]

/-- What the user may read is the same in both. -/
theorem eq_of_permits (readable : entry.permits veil.user .read = true) : other = entry := by
  cases alike with
  | same => rfl
  | hidden secret held foreign closed size start =>
    rw [closed] at readable
    cases readable

/-- So is every other inode than the one that is kept from the user. -/
theorem eq_of_ne (differs : entry.id ≠ veil.secret) : other = entry := by
  cases alike with
  | same => rfl
  | hidden secret => exact absurd secret differs

/-- So is every directory. -/
theorem eq_of_isDirectory (directory : entry.isDirectory = true) : other = entry := by
  cases alike with
  | same => rfl
  | hidden secret held => simp [Record.isDirectory, Record.type, held, Payload.type] at directory

end Veil.Alike

/-! ## Lists -/

section

variable {α β γ : Type} {related : α → β → Prop}

theorem isSome_of_rel {first : Option α} {second : Option β}
    (rel : Option.Rel related first second) : second.isSome = first.isSome := by
  cases rel <;> rfl

private theorem rel_findSome? {f : γ → Option α} {g : γ → Option β}
    (each : ∀ x, Option.Rel related (f x) (g x)) (xs : List γ) :
    Option.Rel related (xs.findSome? f) (xs.findSome? g) := by
  induction xs with
  | nil => exact .none
  | cons x rest ih =>
    have here := each x
    rw [List.findSome?_cons, List.findSome?_cons]
    generalize f x = first at here
    generalize g x = second at here
    cases here with
    | none => exact ih
    | some alike => exact .some alike

private theorem forall₂_filterMap {f : γ → Option α} {g : γ → Option β}
    (each : ∀ x, Option.Rel related (f x) (g x)) (xs : List γ) :
    List.Forall₂ related (xs.filterMap f) (xs.filterMap g) := by
  induction xs with
  | nil => exact .nil
  | cons x rest ih =>
    have here := each x
    rw [List.filterMap_cons, List.filterMap_cons]
    generalize f x = first at here
    generalize g x = second at here
    cases here with
    | none => exact ih
    | some alike => exact .cons alike ih

end

private theorem map_of_alike {γ : Type} {view : Inode → γ} {xs ys : List Inode}
    (alike : List.Forall₂ veil.Alike xs ys)
    (blind : ∀ inode other, veil.Alike inode other → view other = view inode) :
    ys.map view = xs.map view := by
  induction alike with
  | nil => rfl
  | cons head tail ih => rw [List.map_cons, List.map_cons, blind _ _ head, ih]

private theorem filter_of_alike (test : Inode → Bool) {xs ys : List Inode}
    (alike : List.Forall₂ veil.Alike xs ys)
    (blind : ∀ inode other, veil.Alike inode other → test other = test inode) :
    List.Forall₂ veil.Alike (xs.filter test) (ys.filter test) :=
  List.rel_filter (fun inode other alike => by simp only [blind inode other alike]) alike

private theorem takeWhile_of_alike (test : Inode → Bool) {xs ys : List Inode}
    (alike : List.Forall₂ veil.Alike xs ys)
    (blind : ∀ inode other, veil.Alike inode other → test other = test inode) :
    List.Forall₂ veil.Alike (xs.takeWhile test) (ys.takeWhile test) := by
  induction alike with
  | nil => exact .nil
  | cons head tail ih =>
    rw [List.takeWhile_cons, List.takeWhile_cons, blind _ _ head]
    split
    · exact .cons head ih
    · exact .nil

private theorem any_of_alike {id : String} {xs ys : List Inode}
    (alike : List.Forall₂ veil.Alike xs ys) :
    ys.any (·.id == id) = xs.any (·.id == id) := by
  induction alike with
  | nil => rfl
  | cons head tail ih => rw [List.any_cons, List.any_cons, head.id, ih]

/-! ## Looking up -/

namespace Veil.Beside

variable {volume twin : Volume} {actor : Actor} {follow : Bool}

theorem refl (volume : Volume) : veil.Beside volume volume :=
  .mk (List.forall₂_same.mpr fun _ _ => .same)

variable (beside : veil.Beside volume twin)

include beside

theorem inodes : List.Forall₂ veil.Alike volume.inodes twin.inodes := by
  cases beside with
  | mk alike => exact alike

theorem rootId : twin.rootId = volume.rootId := by cases beside; rfl

theorem umask : twin.umask = volume.umask := by cases beside; rfl

theorem length : twin.inodes.length = volume.inodes.length := beside.inodes.length_eq.symm

theorem inode? (id : String) : Option.Rel veil.Alike (volume.inode? id) (twin.inode? id) := by
  have alike := beside.inodes
  unfold Volume.inode?
  generalize volume.inodes = xs at alike
  generalize twin.inodes = ys at alike
  induction alike with
  | nil => exact .none
  | cons head tail ih =>
    rw [List.find?_cons, List.find?_cons, head.id]
    split
    · exact .some head
    · exact ih

theorem inode_held (id : String) :
    Results (fun node other => veil.Alike node other ∧ volume.inode? id = some node)
      (volume.inode id) (twin.inode id) := by
  have alike := beside.inode? id
  unfold Volume.inode
  generalize volume.inode? id = first at alike
  generalize twin.inode? id = second at alike
  cases alike with
  | none => exact .error _
  | some alike => exact .ok ⟨alike, rfl⟩

theorem inode (id : String) : Results veil.Alike (volume.inode id) (twin.inode id) :=
  (beside.inode_held id).imp fun _ _ found => found.1

theorem root : Results veil.Alike volume.root twin.root := by
  unfold Volume.root
  rw [beside.rootId]
  exact beside.inode volume.rootId

theorem childNamed? (alike : veil.Alike entry other) (name : String) :
    Option.Rel veil.Alike (volume.childNamed? entry name) (twin.childNamed? other name) := by
  unfold Volume.childNamed?
  rw [alike.children]
  refine rel_findSome? (fun id => ?_) _
  have here := beside.inode? id
  generalize volume.inode? id = first at here
  generalize twin.inode? id = second at here
  cases here with
  | none => exact .none
  | some alike =>
    rw [Option.filter_some, Option.filter_some, alike.name]
    split
    · exact .some alike
    · exact .none

/-- The entries of a directory. -/
theorem listed (alike : veil.Alike entry other) :
    List.Forall₂ veil.Alike (entry.children.filterMap volume.inode?)
      (other.children.filterMap twin.inode?) := by
  rw [alike.children]
  exact forall₂_filterMap beside.inode? _

theorem parentOf (alike : veil.Alike entry other) :
    Results veil.Alike (volume.parentOf entry) (twin.parentOf other) := by
  unfold Volume.parentOf
  rw [alike.parent]
  cases entry.parent with
  | none => exact beside.root
  | some id => exact beside.inode id

theorem above? (alike : veil.Alike entry other) :
    Option.Rel veil.Alike (volume.above? entry) (twin.above? other) := by
  unfold Volume.above?
  rw [alike.parent]
  cases entry.parent with
  | none => exact .none
  | some id =>
    dsimp only
    split
    · exact .none
    · exact beside.inode? id

theorem climb (limit : Nat) (alike : veil.Alike entry other) :
    List.Forall₂ veil.Alike (volume.climb limit entry) (twin.climb limit other) := by
  induction limit generalizing entry other with
  | zero => exact .cons alike .nil
  | succ limit ih =>
    have next := beside.above? alike
    unfold Volume.climb
    generalize volume.above? entry = first at next
    generalize twin.above? other = second at next
    cases next with
    | none => exact .cons alike .nil
    | some above => exact .cons alike (ih above)

theorem lineage (alike : veil.Alike entry other) :
    List.Forall₂ veil.Alike (volume.lineage entry) (twin.lineage other) := by
  unfold Volume.lineage
  rw [beside.length]
  exact beside.climb _ alike

theorem isWithin {ancestor another : Inode} (alike : veil.Alike entry other)
    (around : veil.Alike ancestor another) :
    twin.isWithin other another = volume.isWithin entry ancestor := by
  unfold Volume.isWithin
  rw [around.id, any_of_alike (beside.lineage alike)]

theorem pathOf (id : String) : twin.pathOf id = volume.pathOf id := by
  have here := beside.inode? id
  unfold Volume.pathOf
  generalize volume.inode? id = first at here
  generalize twin.inode? id = second at here
  cases here with
  | none => rfl
  | some alike =>
    have around := beside.lineage alike
    have inner := takeWhile_of_alike (·.id != volume.rootId) around
      fun _ _ alike => by rw [alike.id]
    dsimp only
    rw [beside.rootId, any_of_alike around, map_of_alike inner fun _ _ alike => alike.name]

theorem walk (alike : veil.Alike entry other) :
    Results (List.Forall₂ veil.SameRow) (volume.walk entry) (twin.walk other) := by
  suffices ∀ levels path {entry other}, veil.Alike entry other →
      Results (List.Forall₂ veil.SameRow) (volume.walkWithin levels path entry)
        (twin.walkWithin levels path other) by
    unfold Volume.walk
    rw [beside.length, alike.id, beside.pathOf]
    exact this _ _ alike
  intro levels
  induction levels with
  | zero => exact fun path _ _ alike => .ok (.cons ⟨rfl, alike⟩ .nil)
  | succ levels ih =>
    intro path entry other alike
    unfold Volume.walkWithin
    rw [alike.children]
    refine (Results.mapM (List.forall₂_same.mpr fun id _ => rfl) fun id _ same => ?_).bind
      fun below others rows => .ok (.cons ⟨rfl, alike⟩ (List.rel_flatten rows))
    cases same
    refine (beside.inode id).bind fun child another alike => ?_
    rw [alike.name]
    exact ih _ alike

/-! ## Resolving paths -/

private theorem abreast (user : String) :
    volume.Abreast twin user user veil.Alike (Results veil.Alike) where
  ok := .ok
  refused _ _ := .error _
  bind := Results.bind
  id := Veil.Alike.id
  type := Veil.Alike.type
  target := Veil.Alike.target
  search alike results := by
    rw [alike.permits]
    exact .ite (.error _) results
  held _ := beside.inode? _
  root := beside.root
  parent := beside.parentOf
  child := by
    intro entry other name next next' alike continues
    have named := beside.childNamed? alike name
    generalize volume.childNamed? entry name = first at named
    generalize twin.childNamed? other name = second at named
    cases named with
    | none => exact .error _
    | some below => exact continues _ _ below

theorem resolve (user : String) (follow : Bool) (depth : Int) (start : Option String)
    (path : String) : Results veil.Alike (volume.resolve user follow depth start path)
      (twin.resolve user follow depth start path) :=
  (beside.abreast user).resolve depth fun id _ => beside.inode? id

theorem lookup (actor : Actor) (follow : Bool) (path : String) :
    Results veil.Alike (volume.lookup actor follow path) (twin.lookup actor follow path) :=
  (beside.abreast actor.user).lookup

theorem lookupParent (actor : Actor) (path : String) :
    Results veil.SameEntry (volume.lookupParent actor path) (twin.lookupParent actor path) := by
  rw [Volume.lookupParent_eq, Volume.lookupParent_eq]
  cases Path.splitParent path with
  | mk parentPath name =>
    refine .ite (.error _) ((beside.lookup _ _ _).bind fun parent other alike => ?_)
    rw [alike.isDirectory]
    exact .ite (.ok ⟨alike, rfl⟩) (.error _)

/-! ## Changing and counting -/

theorem put (alike : veil.Alike entry other) :
    veil.Beside (volume.put entry) (twin.put other) := by
  have present : (twin.inode? other.id).isSome = (volume.inode? entry.id).isSome := by
    rw [alike.id]
    exact isSome_of_rel (beside.inode? entry.id)
  cases beside with
  | mk inodes =>
    unfold Volume.put
    dsimp only at present ⊢
    rw [present]
    refine .mk ?_
    dsimp only
    split
    · rw [List.forall₂_map_left_iff, List.forall₂_map_right_iff]
      refine inodes.imp fun old another kept => ?_
      rw [kept.id, alike.id]
      split
      · exact alike
      · exact kept
    · exact List.rel_append inodes (.cons alike .nil)

theorem eraseAll (ids : List String) : veil.Beside (volume.eraseAll ids) (twin.eraseAll ids) := by
  cases beside with
  | mk inodes =>
    exact .mk (filter_of_alike _ inodes fun _ _ alike => by rw [alike.id])

theorem stats : twin.stats = volume.stats := by
  have counts : ∀ {test : Inode → Bool}, (∀ inode other, veil.Alike inode other →
      test other = test inode) → twin.inodes.countP test = volume.inodes.countP test := by
    intro test blind
    rw [List.countP_eq_length_filter, List.countP_eq_length_filter,
      (filter_of_alike test beside.inodes blind).length_eq]
  have sizes := map_of_alike (filter_of_alike (·.isFile) beside.inodes
    fun _ _ alike => alike.isFile) fun _ _ alike => alike.size
  have total : ∀ inodes : List Inode, inodes.foldl (fun total inode => total + inode.size) 0 =
      (inodes.map (·.size)).foldl (· + ·) 0 := by
    intro inodes
    rw [List.foldl_map]
  unfold Volume.stats
  rw [counts fun _ _ alike => alike.isFile, counts fun _ _ alike => alike.isDirectory,
    counts fun _ _ alike => alike.isSymlink, total, total, sizes, beside.length]

end Veil.Beside

end PocketShell
