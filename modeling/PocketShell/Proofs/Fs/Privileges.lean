import PocketShell.Proofs.Fs.Runs
import PocketShell.Proofs.Fs.TwoRuns

/-! What permissions do. They only refuse: root is never kept from anything for want of permission,
gets whatever a user gets, and is refused for the same reason where the reason is another one. The
tables that the two leave behind differ at most in the owners of the inodes that were made. -/
namespace PocketShell

variable {actor : Actor} {before machine twin : Machine} {inode source parent counterpart : Inode}
  {path name : String}

namespace Fs

/-- The inodes that two runs give, but for the owners of what they made. -/
private abbrev sameInode (before : Machine) : Agreement Inode :=
  .alike before before.volume.disown

/-- Nothing but the machines to agree on. -/
private abbrev sameMachine (before : Machine) : Agreement PUnit :=
  .alike before fun _ => PUnit.unit

/-! ## Writing the same -/

private theorem agrees_note {message : String} {context other : List (String × Json)}
    (resembles : before.Resembles machine twin) {someone root : Actor} :
    Agrees (sameMachine before) (note message context someone machine)
      (note message other root twin) :=
  .done ⟨rfl, resembles.now, resembles.nextId, resembles.later, resembles.volume⟩

private theorem agrees_put (resembles : before.Resembles machine twin)
    (same : before.volume.disown inode = before.volume.disown counterpart) {someone root : Actor} :
    Agrees (sameMachine before) (put inode someone machine) (put counterpart root twin) :=
  .done ⟨rfl, resembles.put same⟩

/-- An entry that both put into the same directory differs only in its owner. -/
private theorem agrees_attach (fresh : before.IdsFresh) (resembles : before.Resembles machine twin)
    (same : before.volume.disown parent = before.volume.disown counterpart) (name : String)
    (mode : Mode) (size : Int) (payload : Payload String) :
    Agrees (sameInode before) (attach parent name mode size payload actor machine)
      (attach counterpart name mode size payload actor.asRoot twin) := by
  obtain ⟨now, nextId, later, volume⟩ := resembles
  obtain ⟨owner, group, rfl, kept⟩ := Volume.disown_eq_iff.mp same
  have unused : ¬ (before.volume.inode? (inodeId twin.nextId)).isSome = true := by
    rw [fresh _ later]
    simp
  cases payload : parent.payload with
  | file content =>
    simp only [attach, run_bind, get_run, read_run, Record.addChild, payload]
    exact .failed (by decide)
  | symlink target =>
    simp only [attach, run_bind, get_run, read_run, Record.addChild, payload]
    exact .failed (by decide)
  | directory children =>
    simp only [attach, run_bind, get_run, read_run, Record.addChild, payload, now, nextId]
    refine .done ⟨?_, rfl, rfl, Nat.le_succ_of_le later, ?_⟩
    · exact Volume.disown_eq_iff.mpr ⟨_, _, rfl, fun held => absurd held unused⟩
    · dsimp only
      rw [Volume.disowned_put, Volume.disowned_put, Volume.disowned_put, Volume.disowned_put,
        volume]
      congr 1
      · exact Volume.disown_eq_iff.mpr ⟨_, _, rfl, fun held => absurd held unused⟩
      · congr 1
        exact Volume.disown_eq_iff.mpr ⟨_, _, rfl, kept⟩

/-! ## Making entries -/

private theorem agrees_claimName (path : String) :
    Agrees (.exact machine) (claimName path actor machine)
      (claimName path actor.asRoot machine) := by
  refine agrees_after (agrees_lookupParent path) fun (parent, name) => ?_
  refine agrees_volume (agrees_check (by decide) fun _ => ?_)
  exact agrees_after (agrees_demand parent .write path "write") fun _ => .done ⟨rfl, rfl, rfl⟩

private theorem agrees_directoryMode (written : Option String) {someone root : Actor} :
    Agrees (.exact machine) (directoryMode written someone machine)
      (directoryMode written root machine) := by
  cases written with
  | none => exact .done ⟨rfl, rfl, rfl⟩
  | some text =>
    cases parsed : Mode.parse? true text with
    | none =>
      simp only [directoryMode, parsed]
      exact agrees_refuse (by decide)
    | some mode =>
      simp only [directoryMode, parsed]
      exact .done ⟨rfl, rfl, rfl⟩

/-- An entry is put into a directory and that is noted. -/
private theorem agrees_entry (fresh : machine.IdsFresh) (parent : Inode) (name : String)
    (mode : Mode) (size : Int) (payload : Payload String) {message : String}
    {context : Inode → List (String × Json)} :
    Agrees (sameInode machine)
      ((do
        let inode ← attach parent name mode size payload
        note message (context inode)
        return inode : Fs Inode) actor machine)
      ((do
        let inode ← attach parent name mode size payload
        note message (context inode)
        return inode : Fs Inode) actor.asRoot machine) := by
  refine agrees_bind (agrees_attach fresh .refl rfl name mode size payload) ?_
  intro value after other later ⟨same, resembles⟩
  refine agrees_bind (agrees_note resembles) ?_
  intro _ after _ later ⟨_, resembles⟩
  exact .done ⟨same, resembles⟩

theorem agrees_mkdir (fresh : machine.IdsFresh) (path : String) (mode : Option String) :
    Agrees (sameInode machine) (mkdir path mode actor machine)
      (mkdir path mode actor.asRoot machine) := by
  refine agrees_after (agrees_claimName path) fun (parent, name) => ?_
  refine agrees_after (agrees_directoryMode mode) fun mode => ?_
  exact agrees_entry fresh parent name mode 0 (.directory [])

theorem agrees_ln (fresh : machine.IdsFresh) (target path : String) :
    Agrees (sameInode machine) (ln target path actor machine)
      (ln target path actor.asRoot machine) := by
  refine agrees_after (agrees_claimName path) fun (parent, name) => ?_
  exact agrees_entry fresh parent name Mode.link (byteSize target) (.symlink target)

theorem agrees_touch (fresh : machine.IdsFresh) (path : String) :
    Agrees (sameInode machine) (touch path actor machine) (touch path actor.asRoot machine) := by
  refine agrees_after (agrees_lookupParent path) fun (parent, name) => ?_
  refine agrees_volume ?_
  cases machine.volume.childNamed? parent name with
  | some existing =>
    have touched : Agrees (sameMachine machine)
        (put (existing.touch machine.now) actor machine)
        (put (existing.touch machine.now) actor.asRoot machine) := agrees_put .refl rfl
    refine agrees_get (agrees_bind touched ?_)
    intro _ after _ later ⟨_, resembles⟩
    exact .done ⟨rfl, resembles⟩
  | none =>
    refine agrees_after (agrees_demand parent .write path "write") fun _ => ?_
    exact agrees_volume (agrees_entry fresh parent name _ 0 (.file ""))

/-! ## Writing -/

/-- A new file is opened although its owner could not write to it, but not by its owner. -/
private theorem agrees_demandFile (path : String) (resembles : before.Resembles machine twin)
    (same : before.volume.disown inode = before.volume.disown counterpart) :
    Agrees (sameMachine before) (demandFile path inode actor machine)
      (demandFile path counterpart actor.asRoot twin) := by
  obtain ⟨owner, group, rfl, kept⟩ := Volume.disown_eq_iff.mp same
  unfold demandFile
  refine agrees_check (by decide) fun _ => ?_
  refine agrees_check (by decide) fun _ => ?_
  refine agrees_check (by decide) fun _ => ?_
  exact agrees_demandOf inode _ .write path "write" ⟨rfl, resembles⟩

/-- Goes on with what a lookup has found, or without it; any other refusal is passed on. -/
private def unlessMissing {β : Type} (present : Inode → Fs β) (absent : Fs β) :
    Except FsFailure Inode → Fs β
  | .ok inode => present inode
  | .error (.refused .notFound) => absent
  | .error failure => fail failure

private theorem agrees_unlessMissing {β : Type} {agreement : Agreement β} (follow : Bool)
    (path : String) {present : Inode → Fs β} {absent : Fs β}
    (found : ∀ inode,
      Agrees agreement (present inode actor machine) (present inode actor.asRoot machine))
    (missing : Agrees agreement (absent actor machine) (absent actor.asRoot machine)) :
    Agrees agreement
      (unlessMissing present absent (machine.volume.lookup actor follow path) actor machine)
      (unlessMissing present absent (machine.volume.lookup actor.asRoot follow path) actor.asRoot
        machine) := by
  have alike : ∀ {result}, Unbarred result →
      Agrees agreement (unlessMissing present absent result actor machine)
        (unlessMissing present absent result actor.asRoot machine) := by
    intro result unbarred
    unfold unlessMissing
    split
    · exact found _
    · exact missing
    · exact .failed (unbarred _ rfl)
  have passed : ∀ {result failure}, result = .error failure → failure.Forbids →
      unlessMissing present absent result actor machine =
        (.error failure, machine.record actor.user failure) := by
    intro result failure refused bars
    unfold unlessMissing
    split
    · cases refused
    · cases refused
      exact absurd bars (by decide)
    · cases refused
      rfl
  have concedes : Concedes (machine.volume.lookup actor follow path)
      (machine.volume.lookup actor.asRoot follow path) := Volume.lookup_concedes
  generalize machine.volume.lookup actor follow path = first at concedes ⊢
  generalize machine.volume.lookup actor.asRoot follow path = second at concedes ⊢
  cases concedes with
  | same unbarred => exact alike unbarred
  | barred unbarred =>
    rw [passed rfl (.inl rfl)]
    exact (alike unbarred).bar (.inl rfl)

private theorem agrees_findOrCreate (fresh : machine.IdsFresh) (path : String) :
    Agrees (sameInode machine) (findOrCreate path actor machine)
      (findOrCreate path actor.asRoot machine) := by
  refine agrees_volume (agrees_read (agrees_unlessMissing true path (fun _ => ?_) ?_))
  · exact .done ⟨rfl, .refl⟩
  · exact agrees_check (by decide) fun _ => agrees_touch fresh path

/-- A rule for a content that does not look at the owners. -/
theorem agrees_rewrite (fresh : machine.IdsFresh) (path : String) {rule : Inode → String}
    (blind : ∀ inode owner group, rule { inode with owner, group } = rule inode) :
    Agrees (sameInode machine) (rewrite path rule actor machine)
      (rewrite path rule actor.asRoot machine) := by
  unfold rewrite openForWrite
  simp only [bind_assoc, pure_bind]
  refine agrees_bind (agrees_findOrCreate fresh path) ?_
  intro inode after counterpart later ⟨same, resembles⟩
  refine agrees_bind (agrees_demandFile path resembles same) ?_
  intro _ after _ later ⟨_, resembles⟩
  obtain ⟨owner, group, rfl, kept⟩ := Volume.disown_eq_iff.mp same
  have written : machine.volume.disown (inode.setContent after.now (rule inode)) =
      machine.volume.disown (Record.setContent later.now (rule { inode with owner, group })
        { inode with owner, group }) := by
    rw [← resembles.now, blind inode owner group]
    exact Volume.disown_eq_iff.mpr ⟨owner, group, rfl, kept⟩
  refine agrees_get (agrees_bind (agrees_put resembles written) ?_)
  intro _ after _ later ⟨_, resembles⟩
  exact .done ⟨written, resembles⟩

/-! ## Attributes and removal -/

theorem agrees_chmod (path mode : String) :
    Agrees (sameInode machine) (chmod path mode actor machine)
      (chmod path mode actor.asRoot machine) := by
  refine agrees_after (agrees_lookup true path) fun inode => agrees_read ?_
  refine agrees_pass rfl (.inl rfl) (by simp [Actor.asRoot]) ?_
  cases Mode.parse? false mode with
  | none => exact agrees_refuse (by decide)
  | some bits => exact .done ⟨rfl, rfl, rfl, Nat.le_refl _, rfl⟩

theorem agrees_chown (path owner : String) (group : Option String) :
    Agrees (sameInode machine) (chown path owner group actor machine)
      (chown path owner group actor.asRoot machine) := by
  refine agrees_read (agrees_pass rfl (.inl rfl) (by simp [Actor.asRoot]) ?_)
  refine agrees_check (by decide) fun _ => ?_
  refine agrees_after (agrees_lookup true path) fun inode => ?_
  exact .done ⟨rfl, rfl, rfl, Nat.le_refl _, rfl⟩

private theorem agrees_demandUnlink (parent entry : Inode) :
    Agrees (.exact machine) (demandUnlink parent entry actor machine)
      (demandUnlink parent entry actor.asRoot machine) := by
  have passed : demandUnlink parent entry actor.asRoot machine = (.ok (), machine) := rfl
  have granted : Agrees (.exact machine) ((.ok (), machine) : Except FsFailure Unit × Machine)
      (.ok (), machine) := .done ⟨rfl, rfl, rfl⟩
  rw [passed]
  unfold demandUnlink
  simp only [run_bind, read_run]
  split
  · exact granted
  split
  · exact granted.bar (.inr rfl)
  split
  · exact granted.bar (.inl rfl)
  · exact granted

private theorem agrees_demandUnlinkAll (directory : Inode) :
    Agrees (.exact machine) (demandUnlinkAll directory actor machine)
      (demandUnlinkAll directory actor.asRoot machine) := by
  refine agrees_each fun id => ?_
  refine agrees_volume (agrees_after (agrees_lift (Volume.inode_concedes _ id)) fun child => ?_)
  exact agrees_demandUnlink directory child

theorem agrees_rm (path : String) (recursive : Bool) :
    Agrees (sameMachine machine) (rm path recursive actor machine)
      (rm path recursive actor.asRoot machine) := by
  refine agrees_after (agrees_lookup false path) fun inode => agrees_volume ?_
  refine agrees_check (by decide) fun _ => agrees_check (by decide) fun _ => ?_
  refine agrees_after (agrees_lift (Volume.parentOf_concedes inode)) fun parent => ?_
  refine agrees_after (agrees_demandUnlink parent inode) fun _ => ?_
  refine agrees_after (agrees_lift (Volume.walk_concedes inode)) fun subtree => ?_
  have checks : Agrees (.exact machine)
      (subtree.forM (fun row => demandUnlinkAll row.2) actor machine)
      (subtree.forM (fun row => demandUnlinkAll row.2) actor.asRoot machine) :=
    agrees_each fun row => agrees_demandUnlinkAll row.2
  refine agrees_after checks fun _ => agrees_get ?_
  cases parent.removeChild machine.now inode.id with
  | none => exact .failed (by decide)
  | some parent => exact .done ⟨rfl, rfl, rfl, Nat.le_refl _, rfl⟩

/-! ## Copying and moving -/

private theorem agrees_demandReadable (path : String) (source : Inode) :
    Agrees (.exact machine) (demandReadable path source actor machine)
      (demandReadable path source actor.asRoot machine) := by
  refine agrees_volume (agrees_after (agrees_lift (Volume.walk_concedes source)) fun rows => ?_)
  refine agrees_each fun row => ?_
  refine agrees_after (agrees_demand row.2 .read path "read") fun _ => ?_
  by_cases directory : row.2.isDirectory = true
  · simp only [directory, ↓reduceIte]
    exact agrees_demand row.2 .execute path "read"
  · simp only [directory, Bool.false_eq_true, ↓reduceIte]
    exact .done ⟨rfl, rfl, rfl⟩

private theorem agrees_destination (path : String) (source : Inode) :
    Agrees (.exact machine) (destination path source actor machine)
      (destination path source actor.asRoot machine) := by
  refine agrees_volume (agrees_read (agrees_unlessMissing true path (fun existing => ?_) ?_))
  · by_cases directory : existing.isDirectory = true
    · simp only [directory, ↓reduceIte]
      exact .done ⟨rfl, rfl, rfl⟩
    · simp only [directory, Bool.false_eq_true, ↓reduceIte]
      exact agrees_lookupParent path
  · exact agrees_lookupParent path

/-- Under one id both runs find the same, or nothing. -/
private theorem agrees_inode (resembles : before.Resembles machine twin) (id : String)
    {someone root : Actor} :
    Agrees (sameInode before) ((liftM (machine.volume.inode id) : Fs Inode) someone machine)
      ((liftM (twin.volume.inode id) : Fs Inode) root twin) := by
  have same : (machine.volume.inode? id).map _ = (twin.volume.inode? id).map _ :=
    Volume.inode?_of_disowned_eq resembles.volume
  rw [lift_run, lift_run]
  unfold Volume.inode
  cases here : machine.volume.inode? id with
  | none =>
    have there : twin.volume.inode? id = none := by simpa [here] using same.symm
    rw [there]
    exact .failed (by simp [FsFailure.Forbids, FsFailure.reason?])
  | some inode =>
    rw [here, Option.map_some] at same
    obtain ⟨counterpart, there, alike⟩ := Option.map_eq_some_iff.mp same.symm
    rw [there]
    exact .done ⟨alike.symm, resembles⟩

private theorem agrees_discard {operation other : Fs Inode} {someone root : Actor}
    (agrees : Agrees (sameInode before) (operation someone machine) (other root twin)) :
    Agrees (sameMachine before) (discard operation someone machine)
      (discard other root twin) := by
  have drops : ∀ operation : Fs Inode, discard operation = (fun _ => PUnit.unit) <$> operation := by
    intro operation
    rw [Functor.discard, map_const]
    rfl
  rw [drops, drops]
  refine agrees_map agrees ?_
  rintro _ _ _ _ ⟨-, resembles⟩
  exact ⟨rfl, resembles⟩

/-- The copies are the same but for their owners, level by level. -/
private theorem agrees_copyTree (fresh : before.IdsFresh) (levels : Nat) {source origin : Inode}
    (resembles : before.Resembles machine twin)
    (alike : before.volume.disown source = before.volume.disown origin)
    (same : before.volume.disown parent = before.volume.disown counterpart) (name : String) :
    Agrees (sameInode before) (copyTree levels source parent name actor machine)
      (copyTree levels origin counterpart name actor.asRoot twin) := by
  induction levels generalizing source origin parent counterpart name machine twin with
  | zero => exact .failed (by decide)
  | succ levels ih =>
    obtain ⟨owner, group, rfl, -⟩ := Volume.disown_eq_iff.mp alike
    refine agrees_bind (agrees_attach fresh resembles same name _ _ _) ?_
    intro copy after other later ⟨same, resembles⟩
    have ids : copy.id = other.id := by simpa using congrArg Record.id same
    refine agrees_bind (agrees_forM ⟨rfl, resembles⟩ ?_ : Agrees (sameMachine before) _ _) ?_
    · intro id _ after later ⟨_, resembles⟩
      refine agrees_volume (agrees_bind (agrees_inode resembles id) ?_)
      intro child after entry later ⟨alike, resembles⟩
      rw [ids]
      refine agrees_volume (agrees_bind (agrees_inode resembles other.id) ?_)
      intro target after holder later ⟨same, resembles⟩
      obtain ⟨owner, group, rfl, -⟩ := Volume.disown_eq_iff.mp alike
      exact agrees_discard (ih resembles alike same child.name)
    · intro _ after _ later ⟨_, resembles⟩
      exact .done ⟨same, resembles⟩

theorem agrees_cp (fresh : machine.IdsFresh) (source dest : String) (recursive : Bool) :
    Agrees (sameInode machine) (cp source dest recursive actor machine)
      (cp source dest recursive actor.asRoot machine) := by
  refine agrees_after (agrees_lookup true source) fun inode => agrees_check (by decide) fun _ => ?_
  refine agrees_after (agrees_demandReadable source inode) fun _ => ?_
  refine agrees_after (agrees_destination dest inode) fun (parent, name) => agrees_volume ?_
  cases machine.volume.childNamed? parent name with
  | some existing =>
    refine agrees_check (by decide) fun _ => ?_
    by_cases files : (inode.isFile && existing.isFile) = true
    · simp only [files, ↓reduceIte]
      refine agrees_after (agrees_demand existing .write dest "write") fun _ => agrees_get ?_
      exact .done ⟨rfl, Machine.Resembles.refl.put rfl⟩
    · simp only [files, Bool.false_eq_true, ↓reduceIte]
      exact agrees_check (by decide) fun _ => agrees_refuse (by decide)
  | none =>
    refine agrees_after (agrees_demand parent .write dest "write") fun _ => ?_
    refine agrees_volume (agrees_check (by decide) fun _ => ?_)
    refine agrees_bind (agrees_copyTree fresh _ .refl rfl rfl name) ?_
    intro copy after other later ⟨same, resembles⟩
    have ids : copy.id = other.id := by simpa using congrArg Record.id same
    refine agrees_bind (agrees_note resembles) ?_
    intro _ after _ later ⟨_, resembles⟩
    rw [ids]
    exact agrees_volume (agrees_inode resembles other.id)

theorem agrees_mv (source dest : String) :
    Agrees (sameInode machine) (mv source dest actor machine)
      (mv source dest actor.asRoot machine) := by
  refine agrees_after (agrees_lookup false source) fun inode => ?_
  refine agrees_volume (agrees_check (by decide) fun _ => ?_)
  refine agrees_after (agrees_destination dest inode) fun (parent, name) => agrees_volume ?_
  refine agrees_check (by decide) fun _ => agrees_check (by decide) fun _ => ?_
  refine agrees_after (agrees_lift (Volume.parentOf_concedes inode)) fun oldParent => ?_
  refine agrees_after (agrees_demandUnlink oldParent inode) fun _ => ?_
  refine agrees_after (agrees_demand parent .write dest "write") fun _ => agrees_get ?_
  -- From here on the two do the same.
  cases oldParent.removeChild machine.now inode.id with
  | none => exact .failed (by decide)
  | some oldParent =>
    refine agrees_bind (.done ⟨rfl, rfl, rfl⟩ : Agrees
      (.exact { machine with volume := machine.volume.put oldParent }) _ _) ?_
    intro _ _ _ _ ⟨_, here, there⟩
    subst here there
    refine agrees_volume (agrees_after (agrees_lift (Volume.inode_concedes _ _)) fun there => ?_)
    cases there.addChild machine.now inode.id with
    | none => exact .failed (by decide)
    | some parent => exact .done ⟨rfl, rfl, rfl, Nat.le_refl _, rfl⟩

/-! ## Looking -/

theorem agrees_resolve (follow : Bool) (depth : Int) (start : Option String) (path : String) :
    Agrees (.exact machine) (resolve follow depth start path actor machine)
      (resolve follow depth start path actor.asRoot machine) :=
  agrees_volume (agrees_read (agrees_answer (Volume.resolve_concedes depth start)))

theorem agrees_listChildren (path : String) :
    Agrees (.exact machine) (listChildren path actor machine)
      (listChildren path actor.asRoot machine) := by
  refine agrees_after (agrees_lookup true path) fun directory => agrees_check (by decide) fun _ => ?_
  refine agrees_after (agrees_demand directory .read path "read") fun _ => agrees_volume ?_
  exact .done ⟨rfl, rfl, rfl⟩

theorem agrees_readText (path : String) :
    Agrees (.exact machine) (readText path actor machine)
      (readText path actor.asRoot machine) := by
  refine agrees_after (agrees_lookup true path) fun inode => ?_
  cases inode.payload with
  | directory entries => exact agrees_refuse (by decide)
  | symlink target => exact agrees_refuse (by decide)
  | file content =>
    exact agrees_after (agrees_demand inode .read path "read") fun _ => .done ⟨rfl, rfl, rfl⟩

end Fs

/-! ## Requests -/

/-- What a caller gets, without the owners of an inode that the volume does not have. -/
def Request.Value.disown (before : Volume) : Request.Value → Request.Value
  | .inode inode => .inode (before.disown inode)
  | other => other

/-- Whatever is asked, root's outcome agrees with the user's. -/
theorem Request.run_agrees (fresh : machine.IdsFresh) (request : Request) :
    Agrees (.alike machine (Value.disown machine.volume)) (request.run actor machine)
      (request.run actor.asRoot machine) := by
  have looks : ∀ {α : Type} {operation : Fs α} (value : α → Value),
      Agrees (.exact machine) (operation actor machine) (operation actor.asRoot machine) →
      Agrees (.alike machine (Value.disown machine.volume)) ((value <$> operation) actor machine)
        ((value <$> operation) actor.asRoot machine) := by
    intro α operation value agrees
    refine Fs.agrees_map agrees fun first _ second _ ⟨same, here, there⟩ => ?_
    subst same here there
    exact ⟨rfl, .refl⟩
  have makes : ∀ {operation : Fs Inode},
      Agrees (Fs.sameInode machine) (operation actor machine) (operation actor.asRoot machine) →
      Agrees (.alike machine (Value.disown machine.volume))
        ((Value.inode <$> operation) actor machine)
        ((Value.inode <$> operation) actor.asRoot machine) := by
    intro operation agrees
    exact Fs.agrees_map agrees fun _ _ _ _ ⟨same, resembles⟩ =>
      ⟨congrArg Value.inode same, resembles⟩
  cases request with
  | stat path => exact looks _ (Fs.agrees_lookup true path)
  | lstat path => exact looks _ (Fs.agrees_lookup false path)
  | resolve follow depth start path => exact looks _ (Fs.agrees_resolve follow depth start path)
  | listChildren path => exact looks _ (Fs.agrees_listChildren path)
  | readText path => exact looks _ (Fs.agrees_readText path)
  | mkdir path mode => exact makes (Fs.agrees_mkdir fresh path mode)
  | touch path => exact makes (Fs.agrees_touch fresh path)
  | ln target path => exact makes (Fs.agrees_ln fresh target path)
  | writeText path content => exact makes (Fs.agrees_rewrite fresh path fun _ _ _ => rfl)
  | appendText path content => exact makes (Fs.agrees_rewrite fresh path fun _ _ _ => rfl)
  | rm path recursive =>
    exact Fs.agrees_map (Fs.agrees_rm path recursive) fun _ _ _ _ ⟨_, resembles⟩ =>
      ⟨rfl, resembles⟩
  | chmod path mode => exact makes (Fs.agrees_chmod path mode)
  | chown path owner group => exact makes (Fs.agrees_chown path owner group)
  | cp source dest recursive => exact makes (Fs.agrees_cp fresh source dest recursive)
  | mv source dest => exact makes (Fs.agrees_mv source dest)

/-- How a user's request and the same request of root's compare, put to one machine. -/
structure OnlyRefused (machine : Machine) (actor : Actor) (request : Request) : Prop where
  unbarred : ∀ failure, (machine.serve actor.asRoot request).1 = .error failure →
    ¬ failure.Forbids
  failed : ∀ failure, (machine.serve actor request).1 = .error failure → ¬ failure.Forbids →
    (machine.serve actor.asRoot request).1 = .error failure
  done : ∀ value, (machine.serve actor request).1 = .ok value →
    (∃ same, (machine.serve actor.asRoot request).1 = .ok same ∧
      value.disown machine.volume = same.disown machine.volume) ∧
    machine.volume.disowned (machine.serve actor request).2.volume =
      machine.volume.disowned (machine.serve actor.asRoot request).2.volume

/-- All that permissions do is to refuse. -/
theorem permissions_only_refuse (reachable : Reachable Snapshot.Keyed machine) (actor : Actor)
    (request : Request) : OnlyRefused machine actor request := by
  have fresh := (reachable.sound Snapshot.keyed_closed).fresh
  have agrees : Agrees _ (request.run actor machine) (request.run actor.asRoot machine) :=
    request.run_agrees fresh
  constructor
  all_goals unfold Machine.serve Machine.perform
  · exact agrees.unbarred
  · generalize request.run actor machine = first at agrees
    generalize request.run actor.asRoot machine = second at agrees
    intro failure refused plain
    cases agrees with
    | done agreed => cases refused
    | failed same => exact refused
    | barred bars unbarred sound =>
      cases refused
      exact absurd bars plain
  · generalize request.run actor machine = first at agrees
    generalize request.run actor.asRoot machine = second at agrees
    intro value ran
    cases agrees with
    | @done value' other after another agreed =>
      cases ran
      exact ⟨⟨other, rfl, agreed.1⟩, agreed.2.volume⟩
    | failed same => cases ran
    | barred bars unbarred sound => cases ran

/-- In a directory that is open to all a user and root make the same, each with another owner. -/
theorem alike_made_directories :
    ((sharedMachine.serve ⟨"guest", "/"⟩ (.mkdir "/tmp/x" none)).2.volume.inodes.map (·.owner),
      (sharedMachine.serve ⟨"root", "/"⟩ (.mkdir "/tmp/x" none)).2.volume.inodes.map (·.owner)) =
      (["root", "root", "guest"], ["root", "root", "root"]) ∧
    OnlyRefused sharedMachine ⟨"guest", "/"⟩ (.mkdir "/tmp/x" none) :=
  ⟨rfl, permissions_only_refuse (sharedMachine_reachable _) ⟨"guest", "/"⟩ _⟩

end PocketShell
