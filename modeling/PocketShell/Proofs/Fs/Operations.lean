import PocketShell.Fs.Attributes
import PocketShell.Fs.Remove
import PocketShell.Fs.Write
import PocketShell.Proofs.Fs.Running

/-! The operations on one entry. Each is taken apart along its own steps: what has been read is
kept as facts about the volume, and from these the one change at the end is justified. Only a write
can touch the volume and still be refused, and what it leaves then is said exactly. -/
namespace PocketShell

open Volume

variable {actor : Actor} {before after machine : Machine} {volume : Volume}
  {parent child inode source : Inode} {user path name : String} {now : Binary64}
  {trail : List Inode}

namespace Volume

/-- A free name in a directory that the user reaches and may write to. -/
structure Vacant (volume : Volume) (user : String) (parent : Inode) (name : String) : Prop where
  route : ∃ trail, volume.Route user trail parent
  directory : parent.isDirectory = true
  named : volume.NameFor user name
  free : volume.childNamed? parent name = none
  writes : parent.permits user .write = true

/-- A new inode of the user's that is to be the next entry of a directory. -/
structure Newcomer (user : String) (machine : Machine) (parent child : Inode) : Prop where
  id : child.id = inodeId machine.nextId
  up : child.parent = some parent.id
  leaf : child.children = []
  own : child.owner = user
  sized : ∀ content, child.payload = .file content → child.size = byteSize content

theorem Newcomer.fits (newcomer : Newcomer user machine parent child)
    (fresh : machine.IdsFresh) (held : machine.volume.inode? parent.id = some parent)
    (directory : parent.isDirectory = true)
    (free : machine.volume.childNamed? parent child.name = none) :
    machine.volume.Fits parent child where
  held := held
  directory := directory
  fresh := by
    rw [newcomer.id]
    exact fresh _ (Nat.le_refl _)
  up := newcomer.up
  leaf := newcomer.leaf
  free := free
  sized := newcomer.sized

/-- Putting an entry where a name is free is a step. -/
theorem Vacant.step (vacant : machine.volume.Vacant user parent child.name)
    (fresh : machine.IdsFresh) (newcomer : Newcomer user machine parent child)
    (grafted : after.volume = machine.volume.graft now parent child)
    (supply : after.nextId = machine.nextId + 1) : machine.Step user after where
  edit := by
    obtain ⟨trail, route⟩ := vacant.route
    have fits := newcomer.fits fresh route.held vacant.directory vacant.free
    rw [grafted]
    exact .grow route vacant.directory vacant.writes
      (.graft .unchanged fits (.inl rfl) newcomer.own vacant.named)
  supplied := by
    obtain ⟨trail, route⟩ := vacant.route
    have fits := newcomer.fits fresh route.held vacant.directory vacant.free
    exact Machine.Supplied.refl.graft fits newcomer.id grafted supply

end Volume

namespace Fs

variable {spoils : FsFailure → Machine → Prop} {mode : Mode} {size : Int}
  {payload : Payload String}

/-! ## New entries -/

/-- The inode that an operation attaches. -/
def attached (actor : Actor) (machine : Machine) (parent : Inode) (name : String) (mode : Mode)
    (size : Int) (payload : Payload String) : Inode :=
  { id := inodeId machine.nextId, name, mode, owner := actor.user, group := actor.user, size,
    created := machine.now, modified := machine.now, payload, parent := some parent.id }

/-- The machine after an inode has been attached. -/
def grafted (machine : Machine) (parent child : Inode) : Machine :=
  { machine with
    volume := machine.volume.graft machine.now parent child, nextId := machine.nextId + 1 }

theorem attach_run (directory : parent.isDirectory = true) :
    attach parent name mode size payload actor machine =
      (.ok (attached actor machine parent name mode size payload),
        grafted machine parent (attached actor machine parent name mode size payload)) := by
  unfold attach
  simp only [run_bind, get_run, read_run, Record.addChild_eq directory]
  rfl

theorem attached_newcomer
    (leaf : (attached actor machine parent name mode size payload).children = [])
    (sized : ∀ content, payload = .file content → size = byteSize content) :
    Newcomer actor.user machine parent (attached actor machine parent name mode size payload) where
  id := rfl
  up := rfl
  leaf := leaf
  own := rfl
  sized := sized

/-- Once an entry has been attached where its name was free, an operation is done. -/
private theorem Ends.attach {α : Type} {next : Inode → Fs α}
    (vacant : before.volume.Vacant actor.user parent name) (fresh : before.IdsFresh)
    (leaf : (attached actor before parent name mode size payload).children = [])
    (sized : ∀ content, payload = .file content → size = byteSize content)
    (continues : before.Step actor.user
        (grafted before parent (attached actor before parent name mode size payload)) →
      Ends (next (attached actor before parent name mode size payload)) actor
        (grafted before parent (attached actor before parent name mode size payload))
        before spoils) :
    Ends (Fs.attach parent name mode size payload >>= next) actor before before spoils := by
  unfold Ends
  rw [run_bind, attach_run vacant.directory]
  exact continues (vacant.step fresh (attached_newcomer leaf sized) rfl rfl)

theorem claimName_reads (linked : before.volume.Linked) (path : String) :
    Reads (claimName path) actor before fun found =>
      before.volume.Vacant actor.user found.1 found.2 := by
  refine (Reads.lookupParent linked path).bind fun found ⟨route, directory, proper⟩ => ?_
  refine Reads.volume (Reads.check fun free => ?_)
  refine Reads.demand.bind fun _ writes => ?_
  refine (Reads.pure found).imp fun _ same => ?_
  rw [same]
  exact ⟨route, directory, .inl proper, by simpa using free, writes⟩

theorem mkdir_ends (linked : before.volume.Linked) (fresh : before.IdsFresh)
    (path : String) (mode : Option String) :
    Ends (mkdir path mode) actor before before spoils := by
  refine (claimName_reads linked path).ends fun found vacant => ?_
  have modes : Reads (directoryMode mode) actor before fun _ => True := by
    cases mode with
    | none => exact Reads.volume ((Reads.pure _).imp fun _ _ => trivial)
    | some text =>
      cases parsed : Mode.parse? true text with
      | none =>
        simp only [directoryMode, parsed]
        exact Reads.refuse .invalidMode
      | some mode =>
        simp only [directoryMode, parsed]
        exact (Reads.pure mode).imp fun _ _ => trivial
  refine modes.ends fun mode _ => ?_
  exact Ends.attach vacant fresh rfl (by simp) fun step => .note (.pure _ step.report)

theorem ln_ends (linked : before.volume.Linked) (fresh : before.IdsFresh)
    (target path : String) : Ends (ln target path) actor before before spoils := by
  refine (claimName_reads linked path).ends fun found vacant => ?_
  exact Ends.attach vacant fresh rfl (by simp) fun step => .note (.pure _ step.report)

theorem touch_ends (linked : before.volume.Linked) (fresh : before.IdsFresh) (path : String) :
    Ends (touch path) actor before before spoils := by
  refine (Reads.lookupParent linked path).ends fun found ⟨route, directory, proper⟩ => ?_
  refine Ends.volume ?_
  cases named : before.volume.childNamed? found.1 found.2 with
  | some existing =>
    obtain ⟨id, -, held, -⟩ := childNamed?_mem named
    exact .done (.amend (inode?_self held) .touch rfl rfl)
  | none =>
    refine Reads.demand.ends fun _ writes => ?_
    have vacant : before.volume.Vacant actor.user found.1 found.2 :=
      ⟨route, directory, .inl proper, named, writes⟩
    have sized : ∀ content, Payload.file (ρ := String) "" = .file content →
        0 = byteSize content := by
      intro content same
      cases same
      rfl
    exact .volume (Ends.attach vacant fresh rfl sized fun step => .note (.pure _ step.report))

/-! ## Attributes -/

theorem chmod_ends (linked : before.volume.Linked) (path mode : String) :
    Ends (chmod path mode) actor before before spoils := by
  refine (Reads.lookup linked true path).ends fun inode ⟨trail, route⟩ => ?_
  refine Ends.read ?_
  by_cases owned : actor.user = rootUser ∨ actor.user = inode.owner
  · have passed : (actor.user != rootUser && actor.user != inode.owner) = false := by
      rcases owned with same | same <;> simp [same]
    simp only [passed, Bool.false_eq_true, ↓reduceIte]
    cases parsed : Mode.parse? false mode with
    | none => exact .refuse .invalidMode
    | some bits =>
      exact .get (.done (.amend route.held (.chmod owned) rfl rfl))
  · have refused : (actor.user != rootUser && actor.user != inode.owner) = true := by
      simpa using owned
    simp only [refused, ↓reduceIte]
    exact .refused rfl

theorem chown_ends (linked : before.volume.Linked) (path owner : String) (group : Option String) :
    Ends (chown path owner group) actor before before spoils := by
  refine Ends.read ?_
  by_cases root : actor.user = rootUser
  · simp only [root, bne_self_eq_false, Bool.false_eq_true, ↓reduceIte]
    refine Ends.check fun _ => ?_
    refine (Reads.lookup linked true path).ends fun inode ⟨trail, route⟩ => ?_
    exact .get (.done (.amend route.held (root ▸ .chown) rfl rfl))
  · have refused : (actor.user != rootUser) = true := by simpa using root
    simp only [refused, ↓reduceIte]
    exact .refused rfl

/-! ## Removal -/

theorem demandUnlink_reads (parent entry : Inode) :
    Reads (demandUnlink parent entry) actor machine
      fun _ => MayUnlink actor.user parent entry := by
  refine Reads.read ?_
  by_cases root : actor.user = rootUser
  · simp only [root, ↓reduceIte]
    exact (Reads.pure _).imp fun _ _ => .inl rfl
  · simp only [root, ↓reduceIte]
    refine Reads.check fun unstuck => ?_
    by_cases allowed : parent.permits actor.user .write = true ∧
        parent.permits actor.user .execute = true
    · simp only [allowed.1, allowed.2, Bool.not_true, Bool.or_self, Bool.false_eq_true, ↓reduceIte]
      refine (Reads.pure _).imp fun _ _ => .inr ⟨allowed.1, allowed.2, fun sticky => ?_⟩
      by_contra neither
      rw [not_or] at neither
      exact unstuck (by simp [sticky, neither.1, neither.2])
    · have refused : (!parent.permits actor.user .write ||
          !parent.permits actor.user .execute) = true := by
        simpa [Bool.or_eq_true, imp_iff_not_or] using allowed
      simp only [refused, ↓reduceIte]
      exact Reads.volume (Reads.deny _ _)

theorem demandUnlinkAll_reads (linked : machine.volume.Linked)
    (held : machine.volume.inode? parent.id = some parent) :
    Reads (demandUnlinkAll parent) actor machine fun _ => ∀ id ∈ parent.children,
      ∃ child, machine.volume.inode? id = some child ∧ MayUnlink actor.user parent child := by
  refine Reads.forM fun id listed => Reads.volume ?_
  obtain ⟨child, found, -⟩ := (linked.lists_iff _ _).mp ⟨parent, held, listed⟩
  have reads : Reads (liftM (machine.volume.inode id)) actor machine (· = child) :=
    Reads.lift (inode_of_inode? found) rfl
  refine reads.bind fun value same => ?_
  rw [same]
  exact (demandUnlink_reads parent child).imp fun _ may => ⟨child, found, may⟩

theorem parentOf_reads (linked : machine.volume.Linked)
    (route : machine.volume.Route user trail inode) (inner : inode.id ≠ machine.volume.rootId) :
    Reads (liftM (machine.volume.parentOf inode)) actor machine
      fun parent => machine.volume.Hangs parent inode := by
  rcases linked.parentOf_spec route.held with ⟨top, -⟩ | ⟨parent, above, up, -, ran⟩
  · exact absurd top inner
  · exact Reads.lift ran ⟨route.held, above, up, route.not_below_parent linked up⟩

/-- An entry that its directory lets go is released. -/
theorem released_of_hangs (linked : volume.Linked) (hangs : volume.Hangs parent source)
    (may : MayUnlink user parent source) : volume.Released user source := by
  obtain ⟨directory, held, listed⟩ := hangs.lists linked
  rw [hangs.above] at held
  cases held
  exact ⟨parent, hangs.above, listed, hangs.up, may⟩

/-- If every directory of a subtree lets its entries go, the whole subtree is released. -/
private theorem released_below (linked : volume.Linked) (hangs : volume.Hangs parent source)
    (may : MayUnlink user parent source)
    (inside : ∀ holder, volume.inode? holder.id = some holder →
      volume.Below source.id holder.id → ∀ id ∈ holder.children,
        ∃ child, volume.inode? id = some child ∧ MayUnlink user holder child)
    (inode : Inode) (found : volume.inode? inode.id = some inode)
    (below : volume.Below source.id inode.id) : volume.Released user inode := by
  rcases Relation.ReflTransGen.cases_tail below with same | ⟨above, upper, holder, held, listed⟩
  · rw [same, hangs.held] at found
    cases found
    exact released_of_hangs linked hangs may
  · rw [← id_of_inode? held] at upper
    obtain ⟨child, present, may⟩ := inside holder (inode?_self held) upper inode.id listed
    rw [found] at present
    cases present
    exact ⟨holder, inode?_self held, listed,
      linked.parent_of_lists ⟨holder, inode?_self held, listed⟩ found, may⟩

theorem rm_ends (linked : before.volume.Linked) (path : String) (recursive : Bool) :
    Ends (rm path recursive) actor before before spoils := by
  refine (Reads.lookup linked false path).ends fun inode ⟨trail, route⟩ => ?_
  refine Ends.volume (Ends.check fun inner => Ends.check fun _ => ?_)
  refine (parentOf_reads linked route inner).ends fun parent hangs => ?_
  refine (demandUnlink_reads parent inode).ends fun _ may => ?_
  obtain ⟨rows, ran, nodes⟩ := route.walk linked
  have walks : Reads (liftM (before.volume.walk inode)) actor before (· = rows) :=
    Reads.lift ran rfl
  refine walks.ends fun subtree same => ?_
  rw [same]
  have checks : Reads (rows.forM fun row => demandUnlinkAll row.2) actor before
      fun _ => ∀ row ∈ rows, ∀ id ∈ row.2.children,
        ∃ child, before.volume.inode? id = some child ∧ MayUnlink actor.user row.2 child :=
    Reads.forM fun row member =>
      demandUnlinkAll_reads linked ((nodes row.2).mp ⟨row.1, member⟩).1
  refine checks.ends fun _ inside => Ends.get ?_
  obtain ⟨directory, held, listed⟩ := hangs.lists linked
  rw [hangs.above] at held
  cases held
  rw [Record.removeChild_eq listed]
  have all := route.mem_ids_walk linked nodes
  have edit : Volume.Edit actor.user before.volume (before.volume.prune before.now parent inode
      (rows.map fun row => row.2.id)) := by
    refine .prune route hangs all (released_below linked hangs may ?_)
    intro holder held below
    obtain ⟨shown, member⟩ := (nodes holder).mpr ⟨held, below⟩
    exact inside (shown, holder) member
  refine .done ⟨edit, .of_kept (fun id unused => inode?_prune.trans ?_) rfl⟩
  split
  · rename_i here
    rw [here, hangs.above] at unused
    cases unused
  split
  · rfl
  · exact unused

end Fs

end PocketShell
