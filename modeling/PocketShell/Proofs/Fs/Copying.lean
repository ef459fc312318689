import PocketShell.Fs.Transfer
import PocketShell.Proofs.Fs.Operations

/-! Copying a tree. The recursion writes while it reads, so what it reads has to be followed through
its own changes: all it ever changes is the directory it was given and inodes that it made itself.
Hence a source that the directory does not lie in is copied as it was, and the levels suffice. -/
namespace PocketShell

open Volume

variable {actor : Actor} {before after start machine : Machine} {gate source parent child : Inode}
  {name : String} {levels : Nat}

/-- The machine after some growth of one directory, with ids given out since. -/
structure Grown (user : String) (before : Machine) (gate : Inode) (machine : Machine) : Prop where
  growth : Growth user before.volume gate machine.volume
  supplied : before.Supplied machine

namespace Grown

variable {user : String}

theorem step {trail : List Inode} (grown : Grown user before gate machine)
    (route : before.volume.Route user trail gate) (directory : gate.isDirectory = true)
    (writes : gate.permits user .write = true) : before.Step user machine :=
  ⟨.grow route directory writes grown.growth, grown.supplied⟩

/-- One more entry in the directory or in something new. -/
theorem graft (grown : Grown user before gate machine)
    (newcomer : Newcomer user machine parent child) (fits : machine.volume.Fits parent child)
    (place : parent.id = gate.id ∨ before.volume.inode? parent.id = none)
    (named : before.volume.NameFor user child.name) :
    Grown user before gate (Fs.grafted machine parent child) :=
  ⟨.graft grown.growth fits place newcomer.own named,
    grown.supplied.graft fits newcomer.id rfl rfl⟩

end Grown

/-- The levels suffice for a copy of the source: it is deep enough in the tree, and the directory
that grows does not lie in it. -/
def Room (before : Machine) (gate source : Inode) (levels : Nat) : Prop :=
  ∃ trail, before.volume.Route rootUser trail source ∧
    before.volume.inodes.length ≤ trail.length + levels ∧
    ¬ before.volume.Below source.id gate.id

namespace Room

theorem levels_ne_zero (linked : before.volume.Linked) : ¬ Room before gate source 0 := by
  rintro ⟨trail, route, deep, -⟩
  exact absurd (route.length_lt linked) (by omega)

/-- What there is room for has not been touched. -/
theorem kept {user : String} (room : Room before gate source levels)
    (grown : Grown user before gate machine) :
    machine.volume.inode? source.id = some source := by
  obtain ⟨trail, route, -, outside⟩ := room
  refine grown.growth.kept ?_ route.held
  intro same
  exact outside (same ▸ .refl)

/-- There is room for the entries one level down. -/
theorem entry {id : String} (room : Room before gate source (levels + 1))
    (listed : id ∈ source.children) (found : before.volume.inode? id = some child) :
    Room before gate child levels := by
  obtain ⟨trail, route, deep, outside⟩ := room
  refine ⟨source :: trail, .entry route (by simp [Record.permits]) listed found, ?_, ?_⟩
  · simp only [List.length_cons]
    omega
  · intro below
    rw [id_of_inode? found] at below
    exact outside (.head (route.lists listed) below)

end Room

namespace Fs

variable {user : String}

/-- Where a copy can begin: the source is what the table holds, and its name is free in a directory
that may grow. -/
structure CopyStart (user : String) (before : Machine) (gate source parent : Inode)
    (name : String) (start : Machine) : Prop where
  grown : Grown user before gate start
  read : start.volume.inode? source.id = some source
  held : start.volume.inode? parent.id = some parent
  directory : parent.isDirectory = true
  free : start.volume.childNamed? parent name = none
  place : parent.id = gate.id ∨ before.volume.inode? parent.id = none
  named : before.volume.NameFor user name

/-- What a copy ends with. Nothing that was there has changed but the directory, which has the copy
as its last entry. -/
structure CopyEnd (user : String) (before : Machine) (gate parent : Inode) (name : String)
    (start : Machine) (result : Except FsFailure Inode) (after : Machine) : Prop where
  grown : Grown user before gate after
  kept : ∀ id inode, id ≠ parent.id → start.volume.inode? id = some inode →
    after.volume.inode? id = some inode
  copied : ∀ copy, result = .ok copy → start.volume.inode? copy.id = none ∧ ∃ time made,
    after.volume.inode? copy.id = some made ∧ made.name = name ∧
      after.volume.inode? parent.id =
        some (parent.withChildren time (parent.children ++ [copy.id]))
  failed : ∀ failure, result = .error failure → failure = .endless

/-- The copies of all entries of a directory. -/
def copyEntries (levels : Nat) (ids : List String) (target : String) : Fs PUnit :=
  ids.forM fun id => do
    let child ← (← volume).inode id
    let target ← (← volume).inode target
    discard <| copyTree levels child target child.name

/-- Where the copies of entries can begin: each has a name of its own that is free in the copy of
their directory. -/
structure EntriesStart (user : String) (before : Machine) (gate : Inode) (ids : List String)
    (target : Inode) (start : Machine) : Prop where
  grown : Grown user before gate start
  new : before.volume.inode? target.id = none
  held : start.volume.inode? target.id = some target
  directory : ids ≠ [] → target.isDirectory = true
  each : ∀ id ∈ ids, id ≠ target.id ∧ ∃ child holder, start.volume.inode? id = some child ∧
    child.parent = some holder ∧ start.volume.childNamed? target child.name = none
  apart : ids.Pairwise fun a b => ∀ first second, start.volume.inode? a = some first →
    start.volume.inode? b = some second → first.name ≠ second.name

/-- What the copies of entries end with. -/
structure EntriesEnd (user : String) (before : Machine) (gate target : Inode) (start : Machine)
    (result : Except FsFailure PUnit) (after : Machine) : Prop where
  grown : Grown user before gate after
  kept : ∀ id inode, id ≠ target.id → start.volume.inode? id = some inode →
    after.volume.inode? id = some inode
  final : result = .ok PUnit.unit →
    ∃ made, after.volume.inode? target.id = some made ∧ made.name = target.name
  failed : ∀ failure, result = .error failure → failure = .endless

/-- After the first entry the others can still be copied. -/
theorem EntriesStart.next {id : String} {ids : List String} {target child copy : Inode}
    (linked : before.volume.Linked)
    (begins : EntriesStart user before gate (id :: ids) target start)
    (found : start.volume.inode? id = some child)
    (ends : CopyEnd user before gate target child.name start (.ok copy) after) :
    ∃ time, EntriesStart user before gate ids
      (target.withChildren time (target.children ++ [copy.id])) after := by
  obtain ⟨fresh, time, made, present, name, grown⟩ := ends.copied copy rfl
  have sound := begins.grown.growth.linked linked
  obtain ⟨apart, others⟩ := List.pairwise_cons.mp begins.apart
  have each := fun other member => begins.each other (List.mem_cons_of_mem id member)
  refine ⟨time, ends.grown, begins.new, grown, fun _ => rfl, ?_, ?_⟩
  · intro other member
    obtain ⟨differs, sibling, holder, held, up, free⟩ := each other member
    refine ⟨differs, sibling, holder, ends.kept other sibling differs held, up, ?_⟩
    rw [childNamed?_eq_none_iff]
    intro entry listed inode now
    rcases List.mem_append.mp listed with before | last
    · obtain ⟨old, was, -⟩ := (sound.lists_iff _ _).mp ⟨target, begins.held, before⟩
      have same : inode.name = old.name := by
        by_cases here : entry = target.id
        · rw [here, grown] at now
          rw [here, begins.held] at was
          cases now
          cases was
          rfl
        · rw [ends.kept entry old here was] at now
          cases now
          rfl
      rw [same]
      exact childNamed?_eq_none free before was
    · rw [List.mem_singleton.mp last, present] at now
      cases now
      rw [name]
      exact apart other member child sibling found held
  · refine others.imp_of_mem ?_
    intro a b memberA memberB differ first second nowA nowB
    obtain ⟨differsA, one, -, heldA, -⟩ := each a memberA
    obtain ⟨differsB, two, -, heldB, -⟩ := each b memberB
    rw [ends.kept a one differsA heldA] at nowA
    rw [ends.kept b two differsB heldB] at nowB
    cases nowA
    cases nowB
    exact differ _ _ heldA heldB

theorem copyEntries_cons {id : String} {ids : List String} {target : Inode}
    (found : start.volume.inode? id = some child)
    (held : start.volume.inode? target.id = some target) :
    copyEntries levels (id :: ids) target.id actor start =
      match copyTree levels child target child.name actor start with
      | (.ok _, after) => copyEntries levels ids target.id actor after
      | (.error failure, after) => (.error failure, after) := by
  have shape : copyEntries levels (id :: ids) target.id = (do
      let child ← (← volume).inode id
      let target ← (← volume).inode target.id
      discard <| copyTree levels child target child.name) >>= fun _ =>
        copyEntries levels ids target.id := rfl
  rw [shape]
  simp only [run_bind, volume_run, lift_run, discard_run, inode_of_inode? found,
    inode_of_inode? held]
  cases copyTree levels child target child.name actor start with
  | mk result after => cases result <;> rfl

/-- The copy of an inode before anything is put into it. -/
def copyOf (actor : Actor) (start : Machine) (source parent : Inode) (name : String) : Inode :=
  attached actor start parent name source.mode source.size
    (match source.payload with
      | .directory _ => .directory []
      | other => other)

theorem copyTree_succ (directory : parent.isDirectory = true) :
    copyTree (levels + 1) source parent name actor start =
      match copyEntries levels source.children (copyOf actor start source parent name).id actor
          (grafted start parent (copyOf actor start source parent name)) with
      | (.ok _, after) => (.ok (copyOf actor start source parent name), after)
      | (.error failure, after) => (.error failure, after) := by
  have attaches : attach parent name source.mode source.size
      (match source.payload with
        | .directory _ => .directory []
        | other => other) actor start =
      (.ok (copyOf actor start source parent name),
        grafted start parent (copyOf actor start source parent name)) := attach_run directory
  have shape : copyTree (levels + 1) source parent name =
      attach parent name source.mode source.size
        (match source.payload with
          | .directory _ => .directory []
          | other => other) >>= fun copy =>
        copyEntries levels source.children copy.id >>= fun _ => pure copy := rfl
  rw [shape, run_bind, attaches]
  simp only [run_bind]
  cases copyEntries levels source.children (copyOf actor start source parent name).id actor
      (grafted start parent (copyOf actor start source parent name)) with
  | mk result after => cases result <;> rfl

theorem copyOf_children : (copyOf actor start source parent name).children = [] := by
  cases payload : source.payload <;> simp [copyOf, attached, Record.children, payload]

theorem copyOf_isDirectory (directory : source.isDirectory = true) :
    (copyOf actor start source parent name).isDirectory = true := by
  cases payload : source.payload with
  | directory entries =>
    simp [copyOf, attached, Record.isDirectory, Record.type, payload, Payload.type]
  | file content => simp [Record.isDirectory, Record.type, payload, Payload.type] at directory
  | symlink target => simp [Record.isDirectory, Record.type, payload, Payload.type] at directory

private theorem copyOf_newcomer
    (sized : ∀ content, source.payload = .file content → source.size = byteSize content) :
    Newcomer actor.user start parent (copyOf actor start source parent name) := by
  refine ⟨rfl, rfl, copyOf_children, rfl, ?_⟩
  intro content same
  cases payload : source.payload with
  | directory entries => simp [copyOf, attached, payload] at same
  | file text =>
    have kept : text = content := by simpa [copyOf, attached, payload] using same
    exact sized content (kept ▸ payload)
  | symlink target => simp [copyOf, attached, payload] at same

section Levels

variable (linked : before.volume.Linked) (gateHeld : before.volume.inode? gate.id = some gate)
  (gateDirectory : gate.isDirectory = true)

include linked gateHeld gateDirectory

/-- The first of the entries can be copied. -/
theorem EntriesStart.first {id : String} {ids : List String} {target : Inode}
    (begins : EntriesStart user before gate (id :: ids) target start) :
    ∃ child, start.volume.inode? id = some child ∧
      CopyStart user before gate child target child.name start := by
  obtain ⟨-, child, holder, found, up, free⟩ := begins.each id List.mem_cons_self
  have sound := begins.grown.growth.linked linked
  have listed : start.volume.Lists holder id := (sound.lists_iff _ _).mpr ⟨child, found, up⟩
  exact ⟨child, found, begins.grown, inode?_self found, begins.held, begins.directory (by simp),
    free, .inr begins.new,
    begins.grown.growth.nameFor_entry linked gateHeld gateDirectory listed found⟩

/-- If every entry is copied as it should be, so are they all. -/
theorem copyEntries_end
    (copies : ∀ source parent name start,
      CopyStart actor.user before gate source parent name start →
      CopyEnd actor.user before gate parent name start
          (copyTree levels source parent name actor start).1
          (copyTree levels source parent name actor start).2 ∧
        (Room before gate source levels →
          ∃ copy, (copyTree levels source parent name actor start).1 = .ok copy))
    {ids : List String} {target : Inode}
    (begins : EntriesStart actor.user before gate ids target start) :
    EntriesEnd actor.user before gate target start
        (copyEntries levels ids target.id actor start).1
        (copyEntries levels ids target.id actor start).2 ∧
      ((∀ id ∈ ids, ∃ child, before.volume.inode? id = some child ∧
          Room before gate child levels) →
        (copyEntries levels ids target.id actor start).1 = .ok PUnit.unit) := by
  induction ids generalizing target start with
  | nil =>
    refine ⟨⟨begins.grown, fun _ _ _ held => held, fun _ => ⟨target, begins.held, rfl⟩, ?_⟩, ?_⟩
    · rintro failure impossible
      cases impossible
    · intro _
      rfl
  | cons id ids ih =>
    obtain ⟨child, found, starts⟩ := begins.first linked gateHeld gateDirectory
    obtain ⟨ends, settles⟩ := copies child target child.name start starts
    rw [copyEntries_cons found begins.held]
    cases ran : copyTree levels child target child.name actor start with
    | mk result after =>
      rw [ran] at ends settles
      cases result with
      | ok copy =>
        obtain ⟨time, begins'⟩ := begins.next linked found ends
        obtain ⟨final, settled⟩ := ih begins'
        refine ⟨⟨final.grown, ?_, final.final, final.failed⟩, ?_⟩
        · intro other inode outside held
          exact final.kept other inode outside (ends.kept other inode outside held)
        · intro rooms
          exact settled fun other member => rooms other (List.mem_cons_of_mem id member)
      | error failure =>
        refine ⟨⟨ends.grown, ends.kept, ?_, ?_⟩, ?_⟩
        · intro impossible
          cases impossible
        · rintro _ ⟨⟩
          exact ends.failed failure rfl
        · intro rooms
          obtain ⟨old, was, room⟩ := rooms id List.mem_cons_self
          have now := room.kept begins.grown
          rw [id_of_inode? was, found] at now
          cases now
          obtain ⟨copy, impossible⟩ := settles room
          cases impossible

omit gateHeld gateDirectory in
/-- After its own copy has been attached, the entries of an inode can be copied. -/
theorem CopyStart.entries (fresh : before.IdsFresh)
    (begins : CopyStart actor.user before gate source parent name start) :
    CopyEnd actor.user before gate parent name start
        (.ok (copyOf actor start source parent name))
        (grafted start parent (copyOf actor start source parent name)) ∧
      EntriesStart actor.user before gate source.children
        (copyOf actor start source parent name)
        (grafted start parent (copyOf actor start source parent name)) := by
  have sound := begins.grown.growth.linked linked
  have newcomer : Newcomer actor.user start parent (copyOf actor start source parent name) :=
    copyOf_newcomer fun content file => sound.sized _ source content begins.read file
  have fits := newcomer.fits (begins.grown.supplied.idsFresh fresh) begins.held begins.directory
    begins.free
  have grown := begins.grown.graft newcomer fits begins.place begins.named
  have linkedAfter := grown.growth.linked linked
  have lists : ∀ id ∈ source.children,
      (grafted start parent (copyOf actor start source parent name)).volume.Lists source.id id :=
    fun id listed => fits.lists_iff.mpr (.inl ⟨source, begins.read, listed⟩)
  refine ⟨⟨grown, ?_, ?_, ?_⟩, ⟨grown, ?_, Fits.inode?_child, ?_, ?_, ?_⟩⟩
  · intro id inode differs held
    exact fits.inode?_other differs held
  · rintro _ ⟨⟩
    exact ⟨fits.fresh, start.now, _, Fits.inode?_child, rfl, fits.inode?_parent⟩
  · rintro failure impossible
    cases impossible
  · exact fresh _ begins.grown.supplied.later
  · intro some
    obtain ⟨id, listed⟩ := List.exists_mem_of_ne_nil _ some
    exact copyOf_isDirectory (isDirectory_of_mem_children listed)
  · intro id listed
    obtain ⟨child, found, up⟩ := (linkedAfter.lists_iff _ _).mp (lists id listed)
    refine ⟨?_, child, source.id, found, up, ?_⟩
    · rintro rfl
      obtain ⟨old, was, -⟩ := (sound.lists_iff _ _).mp ⟨source, begins.read, listed⟩
      rw [fits.fresh] at was
      cases was
    · rw [childNamed?_eq_none_iff, copyOf_children]
      simp
  · refine (sound.once _ _ begins.read).imp_of_mem ?_
    intro a b listedA listedB differ first second foundA foundB same
    have up := linkedAfter.parent_of_lists (lists a listedA) foundA
    have also := linkedAfter.parent_of_lists (lists b listedB) foundB
    exact differ (linkedAfter.names a b first second foundA foundB (up.trans also.symm) same)

/-- A copy of a tree only grows the directory it was given, and where there is room it is done. -/
theorem copyTree_end (levels : Nat) (fresh : before.IdsFresh)
    (begins : CopyStart actor.user before gate source parent name start) :
    CopyEnd actor.user before gate parent name start
        (copyTree levels source parent name actor start).1
        (copyTree levels source parent name actor start).2 ∧
      (Room before gate source levels →
        ∃ copy, (copyTree levels source parent name actor start).1 = .ok copy) := by
  induction levels generalizing source parent name start with
  | zero =>
    refine ⟨⟨begins.grown, fun _ _ _ held => held, ?_, ?_⟩, fun room => ?_⟩
    · rintro copy impossible
      cases impossible
    · rintro failure same
      cases same
      rfl
    · exact absurd room (Room.levels_ne_zero linked)
  | succ levels ih =>
    obtain ⟨first, entries⟩ := begins.entries linked fresh
    obtain ⟨unused, time, made, -, -, above⟩ := first.copied _ rfl
    obtain ⟨ends, settles⟩ := copyEntries_end linked gateHeld gateDirectory
      (fun source parent name start begins => ih begins) entries
    have kept : ∀ id inode, start.volume.inode? id = some inode →
        id ≠ (copyOf actor start source parent name).id := by
      rintro _ inode held rfl
      rw [unused] at held
      cases held
    rw [copyTree_succ begins.directory]
    cases ran : copyEntries levels source.children (copyOf actor start source parent name).id
        actor (grafted start parent (copyOf actor start source parent name)) with
    | mk result after =>
      rw [ran] at ends settles
      cases result with
      | ok done =>
        refine ⟨⟨ends.grown, ?_, ?_, ?_⟩, fun _ => ⟨_, rfl⟩⟩
        · intro id inode differs held
          exact ends.kept id inode (kept id inode held) (first.kept id inode differs held)
        · rintro _ ⟨⟩
          obtain ⟨final, present, named⟩ := ends.final rfl
          exact ⟨unused, time, final, present, named,
            ends.kept _ _ (kept _ _ begins.held) above⟩
        · rintro failure impossible
          cases impossible
      | error failure =>
        refine ⟨⟨ends.grown, ?_, ?_, ?_⟩, fun room => ?_⟩
        · intro id inode differs held
          exact ends.kept id inode (kept id inode held) (first.kept id inode differs held)
        · rintro copy impossible
          cases impossible
        · rintro _ ⟨⟩
          exact ends.failed failure rfl
        · obtain ⟨trail, route, -⟩ := id room
          have impossible := settles fun id listed => by
            obtain ⟨child, found, -⟩ := (linked.lists_iff _ _).mp ⟨source, route.held, listed⟩
            exact ⟨child, found, room.entry listed found⟩
          cases impossible

end Levels

end Fs

end PocketShell
