import PocketShell.Proofs.Fs.Requests

/-! Two runs side by side: an operation for a user and the same operation for root, who is refused
nothing for want of permission. Wherever the user gets a value root gets one that agrees with it,
and any other refusal of the user's is root's as well. What the two disagree in is who owns the
inodes that they make. -/
namespace PocketShell

variable {α β : Type} {failure : FsFailure} {machine before : Machine} {actor : Actor}

/-- The failure is for want of permission. -/
def FsFailure.Forbids (failure : FsFailure) : Prop :=
  failure.reason? = some .permissionDenied ∨ failure.reason? = some .notPermitted

instance (failure : FsFailure) : Decidable failure.Forbids :=
  inferInstanceAs (Decidable (_ ∨ _))

/-- Root in the place of the actor. -/
def Actor.asRoot (actor : Actor) : Actor := { actor with user := rootUser }

/-- The result is not a refusal for want of permission. -/
def Unbarred (result : Except FsFailure α) : Prop :=
  ∀ failure, result = .error failure → ¬ failure.Forbids

theorem Unbarred.ok (value : α) : Unbarred (.ok value) := by
  intro failure impossible
  cases impossible

theorem Unbarred.error (plain : ¬ failure.Forbids) : Unbarred (.error failure : Except FsFailure α) := by
  intro other same
  cases same
  exact plain

theorem Unbarred.bind {result : Except FsFailure α} {next : α → Except FsFailure β}
    (unbarred : Unbarred result) (continues : ∀ value, Unbarred (next value)) :
    Unbarred (result >>= next) := by
  cases result with
  | ok value => exact continues value
  | error failure => exact .error (unbarred failure rfl)

theorem Unbarred.mapM {f : α → Except FsFailure β} {xs : List α} (each : ∀ x, Unbarred (f x)) :
    Unbarred (xs.mapM f) := by
  induction xs with
  | nil => exact .ok []
  | cons x rest ih =>
    rw [List.mapM_cons]
    exact (each x).bind fun first => ih.bind fun others => .ok (first :: others)

/-! ## Results -/

/-- The first result is the second, or the permissions do not allow what leads to the second. -/
inductive Concedes : Except FsFailure α → Except FsFailure α → Prop
  | same {result : Except FsFailure α} (unbarred : Unbarred result) : Concedes result result
  | barred {path action : String} {result : Except FsFailure α} (unbarred : Unbarred result) :
      Concedes (.error (.denied path action)) result

namespace Concedes

theorem ok (value : α) : Concedes (.ok value) (.ok value) := .same (.ok value)

theorem error (plain : ¬ failure.Forbids) :
    Concedes (.error failure : Except FsFailure α) (.error failure) :=
  .same (.error plain)

theorem unbarred {first second : Except FsFailure α} (concedes : Concedes first second) :
    Unbarred second := by
  cases concedes with
  | same unbarred => exact unbarred
  | barred unbarred => exact unbarred

/-- What the user gets, root gets too. -/
theorem of_ok {value : α} {result : Except FsFailure α} (concedes : Concedes (.ok value) result) :
    result = .ok value := by
  cases concedes with
  | same unbarred => rfl

theorem bind {first second : Except FsFailure α} {next other : α → Except FsFailure β}
    (concedes : Concedes first second) (continues : ∀ value, Concedes (next value) (other value)) :
    Concedes (first >>= next) (second >>= other) := by
  cases concedes with
  | same unbarred =>
    cases first with
    | ok value => exact continues value
    | error failure => exact .error (unbarred failure rfl)
  | barred unbarred => exact .barred (unbarred.bind fun value => (continues value).unbarred)

/-- Both runs take the same branch. -/
theorem ite {condition : Prop} [Decidable condition] {first second other another : Except FsFailure α}
    (yes : condition → Concedes first second) (no : ¬ condition → Concedes other another) :
    Concedes (if condition then first else other) (if condition then second else another) := by
  split
  · rename_i holds
    exact yes holds
  · rename_i fails
    exact no fails

/-- A check of permissions, which root passes. -/
theorem pass {condition other : Prop} [Decidable condition] [Decidable other]
    {first second : Except FsFailure α} {path action : String} (never : ¬ other)
    (concedes : Concedes first second) :
    Concedes (if condition then .error (.denied path action) else first)
      (if other then .error (.denied path action) else second) := by
  rw [if_neg never]
  split
  · exact .barred concedes.unbarred
  · exact concedes

end Concedes

namespace Volume

variable {volume : Volume} {user path : String} {follow : Bool}

@[simp] theorem permits_rootUser {ρ : Type} (inode : Record ρ) (access : Access) :
    inode.permits rootUser access = true := by
  simp [Record.permits]

theorem inode_concedes (volume : Volume) (id : String) :
    Concedes (volume.inode id) (volume.inode id) := by
  unfold inode
  cases volume.inode? id with
  | some inode => exact .ok inode
  | none => exact .error (by simp [FsFailure.Forbids, FsFailure.reason?])

theorem parentOf_concedes (inode : Inode) :
    Concedes (volume.parentOf inode) (volume.parentOf inode) := by
  unfold parentOf
  cases inode.parent with
  | none => exact inode_concedes volume volume.rootId
  | some id => exact inode_concedes volume id

theorem walk_concedes (inode : Inode) : Concedes (volume.walk inode) (volume.walk inode) := by
  suffices ∀ levels path inode, Unbarred (volume.walkWithin levels path inode) from
    .same (this _ _ inode)
  intro levels
  induction levels with
  | zero => exact fun path inode => .ok _
  | succ levels ih =>
    intro path inode
    unfold walkWithin
    refine Unbarred.bind (Unbarred.mapM fun id => ?_) fun _ => .ok _
    exact (inode_concedes volume id).unbarred.bind fun child => ih _ child

/-- The search for root makes the same steps and passes every directory. -/
private theorem concedes_abreast (volume : Volume) (user : String) :
    volume.Abreast volume user rootUser Eq Concedes where
  ok same := same ▸ .ok _
  refused reason among := .error (by
    simp only [List.mem_cons, List.not_mem_nil, or_false] at among
    rcases among with rfl | rfl | rfl <;> decide)
  bind concedes continues := concedes.bind fun value => continues value value rfl
  id same := same ▸ rfl
  type same := same ▸ rfl
  target same := same ▸ rfl
  search := by
    rintro inode _ path result result' rfl concedes
    exact .pass (by simp) concedes
  held := by
    rintro inode _ rfl
    cases volume.inode? inode.id with
    | none => exact .none
    | some found => exact .some rfl
  root := inode_concedes volume volume.rootId
  parent := by
    rintro inode _ rfl
    exact parentOf_concedes inode
  child := by
    rintro inode _ name next next' rfl continues
    cases volume.childNamed? inode name with
    | none => exact .error (by decide)
    | some child => exact continues child child rfl

theorem resolve_concedes (depth : Int) (start : Option String) :
    Concedes (volume.resolve user follow depth start path)
      (volume.resolve rootUser follow depth start path) := by
  refine (concedes_abreast volume user).resolve depth fun id _ => ?_
  cases volume.inode? id with
  | none => exact .none
  | some found => exact .some rfl

theorem lookup_concedes : Concedes (volume.lookup actor follow path)
    (volume.lookup actor.asRoot follow path) :=
  (concedes_abreast volume actor.user).lookup

theorem lookupParent_concedes : Concedes (volume.lookupParent actor path)
    (volume.lookupParent actor.asRoot path) := by
  rw [lookupParent_eq, lookupParent_eq]
  cases Path.splitParent path with
  | mk parentPath name =>
    refine .ite (fun _ => .error (by decide)) fun _ => ?_
    refine lookup_concedes.bind fun parent => ?_
    exact .ite (fun _ => .ok (parent, name)) fun _ => .error (by decide)

theorem lookup_asRoot {inode : Inode} (leads : volume.lookup actor follow path = .ok inode) :
    volume.lookup actor.asRoot follow path = .ok inode :=
  Concedes.of_ok (leads ▸ lookup_concedes)

theorem lookupParent_asRoot {found : Inode × String}
    (parent : volume.lookupParent actor path = .ok found) :
    volume.lookupParent actor.asRoot path = .ok found :=
  Concedes.of_ok (parent ▸ lookupParent_concedes)

/-! ## What root makes -/

/-- The inode without its owners, unless the volume has it. -/
def disown (before : Volume) (inode : Inode) : Inode :=
  if (before.inode? inode.id).isSome then inode else { inode with owner := "", group := "" }

/-- The volume without the owners of the inodes that an earlier one does not have. -/
def disowned (before volume : Volume) : Volume :=
  { volume with inodes := volume.inodes.map before.disown }

variable {before : Volume} {inode other : Inode}

@[simp] theorem id_disown : (before.disown inode).id = inode.id := by
  unfold disown
  split <;> rfl

/-- Without their owners two inodes are the same if they differ in nothing else, and not even in
that if the volume has them. -/
theorem disown_eq_iff : before.disown inode = before.disown other ↔
    ∃ owner group, other = { inode with owner, group } ∧
      ((before.inode? inode.id).isSome → owner = inode.owner ∧ group = inode.group) := by
  constructor
  · intro same
    have id : inode.id = other.id := by rw [← id_disown, same, id_disown]
    unfold disown at same
    by_cases held : (before.inode? inode.id).isSome = true
    · simp only [← id, held, ↓reduceIte] at same
      exact ⟨inode.owner, inode.group, same.symm, fun _ => ⟨rfl, rfl⟩⟩
    · have unheld : (before.inode? other.id).isSome ≠ true := id ▸ held
      simp only [held, unheld, Bool.false_eq_true, ↓reduceIte] at same
      have whole := congrArg
        (fun entry : Inode => { entry with owner := other.owner, group := other.group }) same
      exact ⟨other.owner, other.group, whole.symm, fun impossible => absurd impossible held⟩
  · rintro ⟨owner, group, rfl, kept⟩
    unfold disown
    by_cases held : (before.inode? inode.id).isSome = true
    · obtain ⟨rfl, rfl⟩ := kept held
      rfl
    · simp only [held, Bool.false_eq_true, ↓reduceIte]

theorem inode?_disowned {id : String} :
    (before.disowned volume).inode? id = (volume.inode? id).map before.disown := by
  simp only [disowned, inode?, List.find?_map]
  congr 2
  funext entry
  simp

theorem disowned_put : before.disowned (volume.put inode) =
    (before.disowned volume).put (before.disown inode) := by
  have there : ((before.disowned volume).inode? (before.disown inode).id).isSome =
      (volume.inode? inode.id).isSome := by
    rw [inode?_disowned, id_disown, Option.isSome_map]
  simp only [put, there]
  by_cases held : (volume.inode? inode.id).isSome = true
  · simp only [disowned, held, ↓reduceIte, List.map_map, Volume.mk.injEq, and_self, and_true]
    apply List.map_congr_left
    intro entry _
    by_cases here : entry.id = inode.id <;> simp [here]
  · simp only [disowned, held, Bool.false_eq_true, ↓reduceIte, List.map_append, List.map_cons,
      List.map_nil]

/-- Under one id both volumes have nothing, or inodes that differ at most in their owners. -/
theorem inode?_of_disowned_eq {another : Volume} {id : String}
    (same : before.disowned volume = before.disowned another) :
    (volume.inode? id).map before.disown = (another.inode? id).map before.disown := by
  rw [← inode?_disowned, same, inode?_disowned]

end Volume

/-- Two machines that have come from an earlier one in the same way, be it for different users. -/
structure Machine.Resembles (before machine other : Machine) : Prop where
  now : machine.now = other.now
  nextId : machine.nextId = other.nextId
  later : before.nextId ≤ other.nextId
  volume : before.volume.disowned machine.volume = before.volume.disowned other.volume

namespace Machine.Resembles

variable {other : Machine} {inode another : Inode}

theorem refl : before.Resembles before before := ⟨rfl, rfl, Nat.le_refl _, rfl⟩

theorem right (resembles : before.Resembles machine other) : before.Resembles other other :=
  ⟨rfl, rfl, resembles.later, rfl⟩

theorem put (resembles : before.Resembles machine other)
    (same : before.volume.disown inode = before.volume.disown another) :
    before.Resembles { machine with volume := machine.volume.put inode }
      { other with volume := other.volume.put another } where
  now := resembles.now
  nextId := resembles.nextId
  later := resembles.later
  volume := by
    rw [Volume.disowned_put, Volume.disowned_put, resembles.volume, same]

end Machine.Resembles

/-! ## Outcomes -/

/-- What is to hold of the two values and the two machines where both runs succeed. It must hold of
root's run beside itself, which is how root's run goes on where the user's does not. -/
structure Agreement (α : Type) where
  holds : α → Machine → α → Machine → Prop
  right : ∀ {value machine other after}, holds value machine other after →
    holds other after other after

namespace Agreement

/-- The same value, and the machine as it was. -/
def exact (machine : Machine) : Agreement α where
  holds value after other another := value = other ∧ after = machine ∧ another = machine
  right := fun ⟨_, _, kept⟩ => ⟨rfl, kept, kept⟩

/-- Values that look the same in a view, and machines that resemble each other. -/
def alike (before : Machine) (view : α → β) : Agreement α where
  holds value after other another := view value = view other ∧ before.Resembles after another
  right := fun ⟨_, resembles⟩ => ⟨rfl, resembles.right⟩

end Agreement

/-- Both outcomes succeed and agree, both fail in the same way, or the first is a refusal for want
of permission and the second is none. -/
inductive Agrees (agreement : Agreement α) :
    Except FsFailure α × Machine → Except FsFailure α × Machine → Prop
  | done {value other : α} {after another : Machine}
      (agreed : agreement.holds value after other another) :
      Agrees agreement (.ok value, after) (.ok other, another)
  | failed {failure : FsFailure} {after another : Machine} (plain : ¬ failure.Forbids) :
      Agrees agreement (.error failure, after) (.error failure, another)
  | barred {failure : FsFailure} {after another : Machine} {result : Except FsFailure α}
      (bars : failure.Forbids) (unbarred : Unbarred result)
      (sound : ∀ value, result = .ok value → agreement.holds value another value another) :
      Agrees agreement (.error failure, after) (result, another)

namespace Agrees

variable {agreement : Agreement α} {further : Agreement β}
  {first second : Except FsFailure α × Machine}

theorem unbarred (agrees : Agrees agreement first second) : Unbarred second.1 := by
  cases agrees with
  | done agreed => exact .ok _
  | failed plain => exact .error plain
  | barred bars unbarred sound => exact unbarred

theorem sound (agrees : Agrees agreement first second) (value : α)
    (ran : second.1 = .ok value) : agreement.holds value second.2 value second.2 := by
  cases agrees with
  | done agreed =>
    cases ran
    exact agreement.right agreed
  | failed plain => cases ran
  | barred bars unbarred sound => exact sound value ran

/-- Where the user is kept from a run, root's run is as good as before. -/
theorem bar {after : Machine} (agrees : Agrees agreement first second) (bars : failure.Forbids) :
    Agrees agreement (.error failure, after) second :=
  .barred bars agrees.unbarred agrees.sound

theorem ofConcedes {result other : Except FsFailure α} {after another : Machine}
    (concedes : Concedes result other) (here : ∀ value, result = .ok value → after = machine)
    (there : ∀ value, other = .ok value → another = machine) :
    Agrees (.exact machine) (result, after) (other, another) := by
  cases concedes with
  | same unbarred =>
    cases result with
    | ok value => exact .done ⟨rfl, here value rfl, there value rfl⟩
    | error failure => exact .failed (unbarred failure rfl)
  | barred unbarred =>
    exact .barred (.inl rfl) unbarred fun value ran => ⟨rfl, there value ran, there value ran⟩

end Agrees

namespace Fs

variable {agreement : Agreement α} {further : Agreement β} {operation other : Fs α}
  {next onward : α → Fs β} {someone root : Actor} {twin : Machine}

theorem agrees_bind
    (agrees : Agrees agreement (operation someone machine) (other root twin))
    (continues : ∀ value after another later, agreement.holds value after another later →
      Agrees further (next value someone after) (onward another root later)) :
    Agrees further ((operation >>= next) someone machine) ((other >>= onward) root twin) := by
  rw [run_bind, run_bind]
  generalize operation someone machine = first at agrees
  generalize other root twin = second at agrees
  cases agrees with
  | done agreed => exact continues _ _ _ _ agreed
  | failed plain => exact .failed plain
  | @barred failure after another result bars unbarred sound =>
    cases result with
    | ok value => exact (continues _ _ _ _ (sound value rfl)).bar bars
    | error failure => exact .barred bars (.error (unbarred failure rfl)) (by simp)

/-- After both have only read the same, they go on from the same machine. -/
theorem agrees_after
    (agrees : Agrees (.exact machine) (operation someone machine) (other root machine))
    (continues : ∀ value,
      Agrees further (next value someone machine) (onward value root machine)) :
    Agrees further ((operation >>= next) someone machine) ((other >>= onward) root machine) :=
  agrees_bind agrees fun value _ _ _ ⟨same, here, there⟩ => by
    subst same here there
    exact continues value

theorem agrees_volume {next onward : Volume → Fs β}
    (continues : Agrees further (next machine.volume someone machine)
      (onward twin.volume root twin)) :
    Agrees further ((Fs.volume >>= next) someone machine) ((Fs.volume >>= onward) root twin) :=
  continues

theorem agrees_get {next onward : Machine → Fs β}
    (continues : Agrees further (next machine someone machine) (onward twin root twin)) :
    Agrees further ((MonadState.get >>= next) someone machine)
      ((MonadState.get >>= onward) root twin) :=
  continues

theorem agrees_read {next onward : Actor → Fs β}
    (continues : Agrees further (next someone someone machine) (onward root root twin)) :
    Agrees further ((MonadReader.read >>= next) someone machine)
      ((MonadReader.read >>= onward) root twin) :=
  continues

theorem agrees_map {f : α → β}
    (agrees : Agrees agreement (operation someone machine) (other root twin))
    (carries : ∀ value after another later, agreement.holds value after another later →
      further.holds (f value) after (f another) later) :
    Agrees further ((f <$> operation) someone machine) ((f <$> other) root twin) := by
  rw [map_eq_pure_bind, map_eq_pure_bind]
  exact agrees_bind agrees fun value after another later agreed => .done (carries _ _ _ _ agreed)

/-- What each element keeps of an agreement the whole list keeps. -/
theorem agrees_forM {γ : Type} {agreement : Agreement PUnit} {xs : List γ}
    {check passed : γ → Fs PUnit} (begins : agreement.holds ⟨⟩ machine ⟨⟩ twin)
    (each : ∀ x ∈ xs, ∀ after later, agreement.holds ⟨⟩ after ⟨⟩ later →
      Agrees agreement (check x someone after) (passed x root later)) :
    Agrees agreement (xs.forM check someone machine) (xs.forM passed root twin) := by
  induction xs generalizing machine twin with
  | nil => exact .done begins
  | cons x rest ih =>
    refine agrees_bind (each x List.mem_cons_self machine twin begins) ?_
    intro _ after _ later agreed
    exact ih agreed fun y member => each y (List.mem_cons_of_mem _ member)

/-- Where both only read at each element they only read the list. -/
theorem agrees_each {γ : Type} {xs : List γ} {check passed : γ → Fs PUnit}
    (each : ∀ x, Agrees (.exact machine) (check x someone machine) (passed x root machine)) :
    Agrees (.exact machine) (xs.forM check someone machine) (xs.forM passed root machine) :=
  agrees_forM ⟨rfl, rfl, rfl⟩ fun x _ _ _ ⟨_, here, there⟩ => by
    subst here there
    exact each x

theorem agrees_lift {result another : Except FsFailure α} (concedes : Concedes result another) :
    Agrees (.exact machine) ((liftM result : Fs α) someone machine)
      ((liftM another : Fs α) root machine) := by
  rw [lift_run, lift_run]
  exact .ofConcedes concedes (fun _ _ => rfl) fun _ _ => rfl

theorem agrees_answer {result another : Except FsFailure α} (concedes : Concedes result another) :
    Agrees (.exact machine) (answer result someone machine) (answer another root machine) := by
  rw [answer_run, answer_run]
  exact .ofConcedes concedes (fun _ => Machine.noting_of_ok) fun _ => Machine.noting_of_ok

theorem agrees_lookup (follow : Bool) (path : String) :
    Agrees (.exact machine) (lookup follow path actor machine)
      (lookup follow path actor.asRoot machine) := by
  exact agrees_volume (agrees_read (agrees_answer Volume.lookup_concedes))

theorem agrees_lookupParent (path : String) :
    Agrees (.exact machine) (lookupParent path actor machine)
      (lookupParent path actor.asRoot machine) := by
  exact agrees_volume (agrees_read (agrees_answer Volume.lookupParent_concedes))

theorem agrees_refuse {reason : FsError} (plain : ¬ (FsFailure.refused reason).Forbids) :
    Agrees agreement ((refuse reason : Fs α) someone machine)
      ((refuse reason : Fs α) root twin) :=
  .failed plain

/-- A check that does not depend on who asks. -/
theorem agrees_check {condition : Prop} [Decidable condition] {reason : FsError}
    {rest others : Unit → Fs α} (plain : ¬ (FsFailure.refused reason).Forbids)
    (continues : ¬ condition →
      Agrees agreement (rest () someone machine) (others () root twin)) :
    Agrees agreement
      ((if condition then refuse reason >>= rest else rest ()) someone machine)
      ((if condition then refuse reason >>= others else others ()) root twin) := by
  split
  · exact .failed plain
  · rename_i passed
    exact continues passed

/-- A check of permissions that root passes. -/
theorem agrees_pass {condition passed : Prop} [Decidable condition] [Decidable passed]
    {stop : Fs Unit} {rest others : Unit → Fs α} {after : Machine}
    (stops : stop someone machine = (.error failure, after)) (bars : failure.Forbids)
    (never : ¬ passed)
    (continues : Agrees agreement (rest () someone machine) (others () root twin)) :
    Agrees agreement ((if condition then stop >>= rest else rest ()) someone machine)
      ((if passed then stop >>= others else others ()) root twin) := by
  rw [if_neg never]
  split
  · rw [run_bind, stops]
    exact continues.bar bars
  · exact continues

/-- The permissions of an inode are no obstacle to root. -/
theorem agrees_demandOf {agreement : Agreement Unit} (inode counterpart : Inode) (access : Access)
    (path action : String) (agreed : agreement.holds () machine () twin) :
    Agrees agreement (demand inode access path action actor machine)
      (demand counterpart access path action actor.asRoot twin) := by
  have passed : counterpart.permits actor.asRoot.user access = true :=
    Volume.permits_rootUser counterpart access
  rw [demand_run, demand_run, if_pos passed]
  split
  · exact .done agreed
  · exact .barred (.inl rfl) (.ok _) fun _ _ => agreement.right agreed

theorem agrees_demand (inode : Inode) (access : Access) (path action : String) :
    Agrees (.exact machine) (demand inode access path action actor machine)
      (demand inode access path action actor.asRoot machine) :=
  agrees_demandOf inode inode access path action ⟨rfl, rfl, rfl⟩

end Fs

end PocketShell
