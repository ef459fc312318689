import PocketShell.Proofs.Alongside
import PocketShell.Proofs.Fs.Requests

/-! What the log holds does not matter to a request. On two machines that differ in nothing else it
ends in the same way and leaves two that again differ in nothing else, for what is noted on the way
is put at the end of either log. -/
namespace PocketShell

variable {α β γ : Type} {actor : Actor} {machine twin : Machine}

/-- The second machine is the first but for what it has logged. -/
inductive Machine.Mirrors (machine : Machine) : Machine → Prop
  | mk (log : Log) : machine.Mirrors { machine with log }

namespace Machine.Mirrors

theorem refl (machine : Machine) : machine.Mirrors machine := .mk machine.log

theorem volume (mirrors : machine.Mirrors twin) : twin.volume = machine.volume := by
  obtain ⟨log⟩ := mirrors
  rfl

theorem report (mirrors : machine.Mirrors twin) (entry : Log.Entry) :
    (machine.report entry).Mirrors (twin.report entry) := by
  obtain ⟨log⟩ := mirrors
  exact .mk _

theorem record (mirrors : machine.Mirrors twin) (user : String) (failure : FsFailure) :
    (machine.record user failure).Mirrors (twin.record user failure) := by
  cases failure with
  | denied path action => exact mirrors.report _
  | _ => exact mirrors

theorem setUmask (mirrors : machine.Mirrors twin) (text : String) :
    (twin.setUmask text).1 = (machine.setUmask text).1 ∧
      (machine.setUmask text).2.Mirrors (twin.setUmask text).2 := by
  obtain ⟨log⟩ := mirrors
  unfold setUmask
  cases Mode.parse? true text with
  | none => exact ⟨rfl, .mk log⟩
  | some mode => exact ⟨rfl, .mk log⟩

end Machine.Mirrors

namespace Fs

/-- The operation does the same whatever the log holds. -/
def Heedless (operation : Fs α) : Prop :=
  ∀ actor, Alongside actor Machine.Mirrors Eq operation operation

namespace Heedless

variable {operation : Fs α} {next : α → Fs β} {volume : Volume}

theorem pure (value : α) : Heedless (Pure.pure value) := fun _ => Alongside.pure rfl

theorem throw (failure : FsFailure) : Heedless (MonadExcept.throw failure : Fs α) :=
  fun _ => Alongside.throw failure

theorem lift (result : Except FsFailure α) : Heedless (liftM result : Fs α) :=
  fun _ => Alongside.lift (.refl result)

theorem bind (first : Heedless operation) (continues : ∀ value, Heedless (next value)) :
    Heedless (operation >>= next) :=
  fun actor => (first actor).thenSame fun value => continues value actor

theorem read {next : Actor → Fs β} (continues : ∀ actor, Heedless (next actor)) :
    Heedless (MonadReader.read >>= next) :=
  fun actor => Alongside.read (continues actor actor)

/-- What is seen of the machine is not the log. -/
theorem get {next : Machine → Fs β} (unseen : ∀ machine log, next { machine with log } = next machine)
    (continues : ∀ machine, Heedless (next machine)) : Heedless (MonadState.get >>= next) := by
  refine fun actor => Alongside.get.bind ?_
  rintro machine _ ⟨log⟩
  rw [unseen machine log]
  exact continues machine actor

theorem seen {next : Volume → Fs β} (continues : ∀ volume, Heedless (next volume)) :
    Heedless (Fs.volume >>= next) :=
  get (fun _ _ => rfl) fun machine => continues machine.volume

theorem change {rule : Machine → Machine}
    (kept : ∀ machine log, (rule machine).Mirrors (rule { machine with log })) :
    Heedless (modify rule : Fs PUnit) := by
  refine fun actor => .change ?_
  rintro machine _ ⟨log⟩
  exact kept machine log

theorem refuse (reason : FsError) : Heedless (Fs.refuse reason : Fs α) := throw _

theorem fail (failure : FsFailure) : Heedless (Fs.fail failure : Fs α) :=
  read fun actor => (change fun _ log => (Machine.Mirrors.mk log).record actor.user failure).bind
    fun _ => throw failure

theorem answer (result : Except FsFailure α) : Heedless (Fs.answer result) := by
  cases result with
  | ok value => exact pure value
  | error failure => exact fail failure

theorem check {condition : Prop} [Decidable condition] {reason : FsError} {rest : PUnit → Fs β}
    (continues : Heedless (rest ⟨⟩)) :
    Heedless (if condition then Fs.refuse reason >>= rest else rest ⟨⟩) :=
  fun actor => .guard (refuse reason actor) (continues actor)

theorem forM {xs : List γ} {each : γ → Fs PUnit} (heedless : ∀ x, Heedless (each x)) :
    Heedless (xs.forM each) := by
  refine fun actor => Alongside.forM (List.forall₂_same.mpr fun _ _ => rfl) ?_
  rintro x _ rfl
  exact heedless x actor

theorem map {f : α → β} (heedless : Heedless operation) : Heedless (f <$> operation) := by
  rw [map_eq_pure_bind]
  exact heedless.bind fun value => pure (f value)

/-! ## What operations are made of -/

theorem lookup (follow : Bool) (path : String) : Heedless (Fs.lookup follow path) :=
  seen fun _ => read fun _ => answer _

theorem lookupParent (path : String) : Heedless (Fs.lookupParent path) :=
  seen fun _ => read fun _ => answer _

theorem demand (inode : Inode) (access : Access) (path action : String) :
    Heedless (Fs.demand inode access path action) := by
  refine read fun actor => ?_
  split
  · exact pure _
  · exact fail _

theorem put (inode : Inode) : Heedless (Fs.put inode) := change fun _ log => .mk log

theorem note (message : String) (context : List (String × Json)) :
    Heedless (Fs.note message context) := change fun _ _ => .mk _

theorem attach (parent : Inode) (name : String) (mode : Mode) (size : Int)
    (payload : Payload String) : Heedless (Fs.attach parent name mode size payload) := by
  refine fun actor => Alongside.get.bind ?_
  rintro machine _ ⟨log⟩
  refine .read ?_
  dsimp only
  cases parent.addChild machine.now (inodeId machine.nextId) with
  | none => exact .throw _
  | some parent => exact (Alongside.set (.mk log)).bind fun _ _ _ => .pure rfl

private theorem claimName (path : String) : Heedless (Fs.claimName path) :=
  (lookupParent path).bind fun (parent, _) => seen fun _ => check <|
    (demand parent .write path "write").bind fun _ => pure _

private theorem directoryMode (written : Option String) : Heedless (Fs.directoryMode written) := by
  cases written with
  | none => exact seen fun _ => pure _
  | some text =>
    unfold Fs.directoryMode
    dsimp only
    cases Mode.parse? true text with
    | none => exact refuse _
    | some mode => exact pure _

/-! ## Operations -/

theorem mkdir (path : String) (mode : Option String) : Heedless (Fs.mkdir path mode) :=
  (claimName path).bind fun _ => (directoryMode mode).bind fun _ =>
    (attach _ _ _ _ _).bind fun _ => (note _ _).bind fun _ => pure _

theorem touch (path : String) : Heedless (Fs.touch path) := by
  refine (lookupParent path).bind fun (parent, name) => seen fun volume => ?_
  cases volume.childNamed? parent name with
  | some existing => exact get (fun _ _ => rfl) fun _ => (put _).bind fun _ => pure _
  | none =>
    refine (demand parent .write path "write").bind fun _ => seen fun _ => ?_
    exact (attach _ _ _ _ _).bind fun _ => (note _ _).bind fun _ => pure _

theorem ln (target path : String) : Heedless (Fs.ln target path) :=
  (claimName path).bind fun _ => (attach _ _ _ _ _).bind fun _ => (note _ _).bind fun _ => pure _

private theorem findOrCreate (path : String) : Heedless (Fs.findOrCreate path) := by
  refine seen fun volume => read fun actor => ?_
  dsimp only
  split
  · exact pure _
  · exact check (touch path)
  · exact fail _

private theorem demandFile (path : String) (inode : Inode) :
    Heedless (Fs.demandFile path inode) := by
  unfold Fs.demandFile
  exact check (check (check (demand inode .write path "write")))

theorem rewrite (path : String) (rule : Inode → String) : Heedless (Fs.rewrite path rule) := by
  refine ((findOrCreate path).bind fun inode => (demandFile path inode).bind fun _ => pure inode).bind
    fun inode => ?_
  exact get (fun _ _ => rfl) fun _ => (put _).bind fun _ => pure _

theorem chmod (path mode : String) : Heedless (Fs.chmod path mode) := by
  refine (lookup true path).bind fun inode => read fun actor => ?_
  refine fun actor => Alongside.guard (fail _ actor) ?_
  cases Mode.parse? false mode with
  | none => exact refuse _ actor
  | some bits =>
    refine get (fun _ _ => rfl) (fun _ => ?_) actor
    exact (put _).bind fun _ => (note _ _).bind fun _ => pure _

theorem chown (path owner : String) (group : Option String) :
    Heedless (Fs.chown path owner group) := by
  refine read fun actor actor => Alongside.guard (fail _ actor) (check ?_ actor)
  exact (lookup true path).bind fun _ => get (fun _ _ => rfl) fun _ => (put _).bind fun _ => pure _

theorem demandUnlink (parent entry : Inode) : Heedless (Fs.demandUnlink parent entry) := by
  refine read fun actor => ?_
  dsimp only
  split
  · exact pure _
  refine check ?_
  split
  · exact seen fun _ => fail _
  · exact pure _

theorem rm (path : String) (recursive : Bool) : Heedless (Fs.rm path recursive) := by
  refine (lookup false path).bind fun inode => seen fun before => check (check ?_)
  refine (lift _).bind fun parent => (demandUnlink parent inode).bind fun _ => ?_
  refine (lift _).bind fun subtree => ?_
  refine (forM fun row => forM fun id => ?_).bind fun _ => get (fun _ _ => rfl) fun machine => ?_
  · exact seen fun _ => (lift _).bind fun child => demandUnlink _ child
  dsimp only
  cases parent.removeChild machine.now inode.id with
  | none => exact throw _
  | some parent => exact (change fun _ log => .mk log).bind fun _ => note _ _

theorem demandReadable (path : String) (source : Inode) :
    Heedless (Fs.demandReadable path source) := by
  refine seen fun _ => (lift _).bind fun rows => forM fun (_, node) => ?_
  refine (demand node .read path "read").bind fun _ => ?_
  split
  · exact demand node .execute path "read"
  · exact pure _

private theorem destination (path : String) (source : Inode) :
    Heedless (Fs.destination path source) := by
  refine seen fun volume => read fun actor => ?_
  split
  · split
    · exact pure _
    · exact lookupParent path
  · exact lookupParent path
  · exact fail _

/-- By induction on the levels, as the copy goes down. -/
theorem copyTree (levels : Nat) (source parent : Inode) (name : String) :
    Heedless (Fs.copyTree levels source parent name) := by
  induction levels generalizing source parent name with
  | zero => exact throw _
  | succ levels ih =>
    refine (attach _ _ _ _ _).bind fun copy => (forM fun id => ?_).bind fun _ => pure copy
    refine seen fun _ => (lift _).bind fun child => seen fun _ => (lift _).bind fun target => ?_
    exact (ih child target child.name).map

theorem cp (source dest : String) (recursive : Bool) : Heedless (Fs.cp source dest recursive) := by
  refine (lookup true source).bind fun inode => check ?_
  refine (demandReadable source inode).bind fun _ => (destination dest inode).bind
    fun (parent, name) => seen fun volume => ?_
  cases volume.childNamed? parent name with
  | some existing =>
    dsimp only
    refine check ?_
    split
    · refine (demand existing .write dest "write").bind fun _ => get (fun _ _ => rfl) fun _ => ?_
      exact (put _).bind fun _ => pure _
    · exact check (refuse _)
  | none =>
    refine (demand parent .write dest "write").bind fun _ => seen fun volume => check ?_
    exact (copyTree _ inode parent name).bind fun _ => (note _ _).bind fun _ => seen fun _ => lift _

theorem mv (source dest : String) : Heedless (Fs.mv source dest) := by
  refine (lookup false source).bind fun inode => seen fun _ => check ?_
  refine (destination dest inode).bind fun (parent, name) => seen fun before => ?_
  refine check (check ?_)
  refine (lift _).bind fun oldParent => (demandUnlink oldParent inode).bind fun _ => ?_
  refine (demand parent .write dest "write").bind fun _ => get (fun _ _ => rfl) fun machine => ?_
  dsimp only
  cases oldParent.removeChild machine.now inode.id with
  | none => exact throw _
  | some oldParent =>
    refine (put oldParent).bind fun _ => seen fun _ => (lift _).bind fun there => ?_
    cases there.addChild machine.now inode.id with
    | none => exact throw _
    | some parent =>
      exact (put parent).bind fun _ => (put _).bind fun _ => (note _ _).bind fun _ => pure _

theorem listChildren (path : String) : Heedless (Fs.listChildren path) :=
  (lookup true path).bind fun directory => check <|
    (demand directory .read path "read").bind fun _ => seen fun _ => pure _

theorem readText (path : String) : Heedless (Fs.readText path) := by
  refine (lookup true path).bind fun inode => ?_
  cases inode.payload with
  | directory entries => exact refuse _
  | symlink target => exact refuse _
  | file content => exact (demand inode .read path "read").bind fun _ => pure _

end Heedless

end Fs

/-- What is asked for is done in the same way whatever the log holds. -/
theorem Request.run_heedless (request : Request) : Fs.Heedless request.run := by
  cases request with
  | stat path => exact (Fs.Heedless.lookup true path).map
  | lstat path => exact (Fs.Heedless.lookup false path).map
  | resolve follow depth start path =>
    exact (Fs.Heedless.seen fun _ => .read fun _ => .answer _).map
  | listChildren path => exact (Fs.Heedless.listChildren path).map
  | readText path => exact (Fs.Heedless.readText path).map
  | mkdir path mode => exact (Fs.Heedless.mkdir path mode).map
  | touch path => exact (Fs.Heedless.touch path).map
  | ln target path => exact (Fs.Heedless.ln target path).map
  | writeText path content => exact (Fs.Heedless.rewrite path _).map
  | appendText path content => exact (Fs.Heedless.rewrite path _).map
  | rm path recursive => exact (Fs.Heedless.rm path recursive).map
  | chmod path mode => exact (Fs.Heedless.chmod path mode).map
  | chown path owner group => exact (Fs.Heedless.chown path owner group).map
  | cp source dest recursive => exact (Fs.Heedless.cp source dest recursive).map
  | mv source dest => exact (Fs.Heedless.mv source dest).map

namespace Machine.Mirrors

/-- Two machines that differ in what they have logged give the same answer. -/
theorem perform {operation : Fs α} (mirrors : machine.Mirrors twin)
    (heedless : Fs.Heedless operation) (actor : Actor) :
    (twin.perform actor operation).1 = (machine.perform actor operation).1 ∧
      (machine.perform actor operation).2.Mirrors (twin.perform actor operation).2 := by
  obtain ⟨results, left⟩ := heedless actor machine twin mirrors
  exact ⟨results.eq.symm, left⟩

theorem serve (mirrors : machine.Mirrors twin) (actor : Actor) (request : Request) :
    (twin.serve actor request).1 = (machine.serve actor request).1 ∧
      (machine.serve actor request).2.Mirrors (twin.serve actor request).2 :=
  mirrors.perform request.run_heedless actor

theorem ask {operation : Fs α} (mirrors : machine.Mirrors twin)
    (heedless : Fs.Heedless operation) (actor : Actor) :
    (twin.ask actor operation).1 = (machine.ask actor operation).1 := by
  have same := (mirrors.perform heedless actor).1
  unfold Machine.ask
  generalize machine.perform actor operation = outcome at same
  generalize twin.perform actor operation = another at same
  obtain ⟨result, after⟩ := outcome
  obtain ⟨_, later⟩ := another
  cases same
  cases result <;> rfl

end Machine.Mirrors

end PocketShell
