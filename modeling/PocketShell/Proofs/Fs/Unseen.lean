import PocketShell.Proofs.Fs.Requests
import PocketShell.Proofs.Fs.TwoRuns
import PocketShell.Proofs.Fs.Veil

/-! Operations of the user from whom a file is kept, on two machines that differ in what the file
holds. They are refused alike or bring what is alike, and leave machines that again differ in
nothing else. -/
namespace PocketShell

/-- The second machine is the first but for what is kept from the user. -/
inductive Veil.Twins (veil : Veil) (machine : Machine) : Machine → Prop
  | mk {volume : Volume} (beside : veil.Beside machine.volume volume) :
      veil.Twins machine { machine with volume }

variable {veil : Veil} {machine twin : Machine} {actor : Actor} {entry other : Inode}

namespace Veil.Twins

theorem refl (machine : Machine) : veil.Twins machine machine := .mk (.refl _)

theorem beside (twins : veil.Twins machine twin) : veil.Beside machine.volume twin.volume := by
  cases twins with
  | mk beside => exact beside

theorem put (twins : veil.Twins machine twin) (alike : veil.Alike entry other) :
    veil.Twins { machine with volume := machine.volume.put entry }
      { twin with volume := twin.volume.put other } := by
  cases twins with
  | mk beside => exact .mk (beside.put alike)

/-- What is kept from the user may as well be something else. -/
theorem of_put (keyed : machine.volume.Keyed) (held : machine.volume.inode? entry.id = some entry)
    (alike : veil.Alike entry other) :
    veil.Twins machine { machine with volume := machine.volume.put other } := by
  have twins := (refl machine).put alike
  rw [keyed.put_self held] at twins
  exact twins

theorem report (twins : veil.Twins machine twin) (message : Log.Entry) :
    veil.Twins (machine.report message) (twin.report message) := by
  cases twins with
  | mk beside => exact .mk beside

theorem record (twins : veil.Twins machine twin) (user : String) (failure : FsFailure) :
    veil.Twins (machine.record user failure) (twin.record user failure) := by
  cases failure with
  | denied path action => exact twins.report _
  | _ => exact twins

end Veil.Twins

/-- States that differ in no more than what is kept from the user, before and after a refusal is
put on record. -/
structure Veil.Keeps (veil : Veil) (user : String) (states : Machine → Machine → Prop) : Prop where
  twins : ∀ machine twin, states machine twin → veil.Twins machine twin
  record : ∀ machine twin failure, states machine twin →
    states (machine.record user failure) (twin.record user failure)

theorem Veil.keeps (veil : Veil) (user : String) : veil.Keeps user veil.Twins :=
  ⟨fun _ _ => id, fun _ _ failure twins => twins.record user failure⟩

namespace Fs

variable {α β γ δ : Type} {states : Machine → Machine → Prop} {values : α → β → Prop}

/-! ## Operations that only look -/

section

variable (keeps : veil.Keeps actor.user states)

include keeps

theorem volume_alongside : Alongside actor states veil.Beside volume volume :=
  fun machine twin kept => ⟨.ok (keeps.twins machine twin kept).beside, kept⟩

theorem fail_alongside (failure : FsFailure) :
    Alongside actor states values (fail failure) (fail failure) :=
  .read ((Alongside.change fun machine twin => keeps.record machine twin failure).bind fun _ _ _ =>
    .throw failure)

theorem answer_alongside {first : Except FsFailure α} {second : Except FsFailure β}
    (results : Results values first second) :
    Alongside actor states values (answer first) (answer second) := by
  cases results with
  | ok related => exact .pure related
  | error failure => exact fail_alongside keeps failure

theorem lookup_alongside (follow : Bool) (path : String) :
    Alongside actor states veil.Alike (lookup follow path) (lookup follow path) := by
  refine (volume_alongside keeps).bind fun volume twin beside => .read ?_
  exact answer_alongside keeps (beside.lookup actor follow path)

theorem lookupParent_alongside (path : String) :
    Alongside actor states veil.SameEntry (lookupParent path) (lookupParent path) := by
  refine (volume_alongside keeps).bind fun volume twin beside => .read ?_
  exact answer_alongside keeps (beside.lookupParent actor path)

/-- Past the check the actor is known to have the permission. -/
theorem demand_alongside (alike : veil.Alike entry other) (access : Access) (path action : String) :
    Alongside actor states (fun _ _ => entry.permits actor.user access = true)
      (demand entry access path action) (demand other access path action) := by
  refine .read ?_
  rw [alike.permits]
  split
  · rename_i permitted
    exact .pure permitted
  · exact fail_alongside keeps _

end

/-- Where both fail what would follow does not matter. -/
private theorem bind_alongside_of_fails {next : α → Fs γ} {onward : β → Fs δ}
    {related : γ → δ → Prop} {operation : Fs α} {other : Fs β}
    (fails : Alongside actor states (fun _ _ => False) operation other) :
    Alongside actor states related (operation >>= next) (other >>= onward) :=
  fails.bind fun _ _ impossible => impossible.elim

theorem refuse_alongside (reason : FsError) :
    Alongside actor states values (refuse reason) (refuse reason) :=
  .throw _

/-- A check that comes out the same for both. -/
theorem check_alongside {condition : Prop} [Decidable condition] {reason : FsError}
    {rest : Unit → Fs α} {others : Unit → Fs β}
    (continues : Alongside actor states values (rest ()) (others ())) :
    Alongside actor states values
      (if condition then refuse reason >>= rest else rest ())
      (if condition then refuse reason >>= others else others ()) :=
  .guard (refuse_alongside reason) continues

end Fs

namespace Veil.Alike

variable {content : String} {now : Binary64}

theorem touch (alike : veil.Alike entry other) : veil.Alike (entry.touch now) (other.touch now) := by
  cases alike with
  | same => exact .same
  | hidden secret held foreign closed size start =>
    exact .hidden secret held foreign closed size start

/-- What is moved stays hidden. -/
theorem move (alike : veil.Alike entry other) (name : String) (parent : Option String)
    (now : Binary64) :
    veil.Alike { entry with name, parent, modified := now }
      { other with name, parent, modified := now } := by
  cases alike with
  | same => exact .same
  | hidden secret held foreign closed size start =>
    exact .hidden secret held foreign closed size start

/-- A new content is the same for both. -/
theorem setContent (alike : veil.Alike entry other) (now : Binary64) (content : String) :
    veil.Alike (entry.setContent now content) (other.setContent now content) := by
  cases alike with
  | same => exact .same
  | hidden secret held foreign closed size start =>
    simp only [Record.setContent, held]
    exact .same

/-- What is put at the end leaves the rest hidden. -/
theorem append (alike : veil.Alike entry other) (content : String) :
    veil.Alike (entry.setContent now (entry.content ++ content))
      (other.setContent now (other.content ++ content)) := by
  cases alike with
  | same => exact .same
  | @hidden before another secret held foreign closed size start =>
    have sizes : byteSize (before ++ content) = byteSize (another ++ content) := by
      simp only [byteSize, String.utf8ByteSize_append] at size ⊢
      omega
    have grown : veil.kinds → SameStart (before ++ content) (another ++ content) := by
      intro kinds more
      rw [String.append_assoc, String.append_assoc]
      exact start kinds (content ++ more)
    simp only [Record.setContent, Record.content, held, ← sizes]
    exact .hidden secret rfl foreign closed sizes grown

/-- Only a directory takes entries, and directories are the same in both. -/
theorem addChild (alike : veil.Alike entry other) (id : String) :
    other.addChild now id = entry.addChild now id := by
  cases alike with
  | same => rfl
  | hidden secret held => simp only [Record.addChild, held]

theorem removeChild (alike : veil.Alike entry other) (id : String) :
    other.removeChild now id = entry.removeChild now id := by
  cases alike with
  | same => rfl
  | hidden secret held => simp only [Record.removeChild, held]

end Veil.Alike

namespace Fs

theorem note_alongside (message : String) (context : List (String × Json)) :
    Alongside actor veil.Twins Eq (note message context) (note message context) :=
  .change fun _ _ twins => twins.report _

theorem put_alongside (alike : veil.Alike entry other) :
    Alongside actor veil.Twins Eq (put entry) (put other) :=
  .change fun _ _ twins => twins.put alike

/-! ## Making entries -/

theorem attach_alongside (alike : veil.Alike entry other) (name : String) (mode : Mode)
    (size : Int) (payload : Payload String) :
    Alongside actor veil.Twins veil.Alike (attach entry name mode size payload)
      (attach other name mode size payload) := by
  refine Alongside.get.bind fun machine twin twins => ?_
  refine .read ?_
  obtain ⟨beside⟩ := twins
  dsimp only
  rw [alike.addChild, alike.id]
  cases entry.addChild machine.now (inodeId machine.nextId) with
  | none => exact .throw _
  | some parent =>
    exact (Alongside.set (.mk ((beside.put .same).put .same))).bind fun _ _ _ => .pure .same

private theorem claimName_alongside (path : String) :
    Alongside actor veil.Twins veil.SameEntry (claimName path) (claimName path) := by
  refine (lookupParent_alongside (veil.keeps _) path).bind fun place spot same => ?_
  obtain ⟨parent, name⟩ := place
  obtain ⟨counterpart, _⟩ := spot
  obtain ⟨alike, rfl⟩ := same
  refine (volume_alongside (veil.keeps _)).bind fun volume twin beside => ?_
  rw [isSome_of_rel (beside.childNamed? alike name)]
  refine check_alongside ?_
  exact (demand_alongside (veil.keeps _) alike .write path "write").bind fun _ _ _ => .pure ⟨alike, rfl⟩

private theorem directoryMode_alongside (written : Option String) :
    Alongside actor veil.Twins Eq (directoryMode written) (directoryMode written) := by
  cases written with
  | none =>
    refine (volume_alongside (veil.keeps _)).bind fun volume twin beside => ?_
    rw [beside.umask]
    exact .pure rfl
  | some text =>
    cases parsed : Mode.parse? true text with
    | none =>
      simp only [directoryMode, parsed]
      exact refuse_alongside _
    | some mode =>
      simp only [directoryMode, parsed]
      exact .pure rfl

/-- An entry is put into a directory and that is noted. -/
private theorem entry_alongside (alike : veil.Alike entry other) (name : String) (mode : Mode)
    (size : Int) (payload : Payload String) (message : String)
    {context : Inode → List (String × Json)}
    (blind : ∀ inode another, veil.Alike inode another → context another = context inode) :
    Alongside actor veil.Twins veil.Alike
      (do
        let inode ← attach entry name mode size payload
        note message (context inode)
        return inode)
      (do
        let inode ← attach other name mode size payload
        note message (context inode)
        return inode) := by
  refine (attach_alongside alike name mode size payload).bind fun inode another made => ?_
  rw [blind _ _ made]
  exact (note_alongside _ _).bind fun _ _ _ => .pure made

theorem mkdir_alongside (path : String) (mode : Option String) :
    Alongside actor veil.Twins veil.Alike (mkdir path mode) (mkdir path mode) := by
  refine (claimName_alongside path).bind fun (parent, name) (other, _) ⟨alike, same⟩ => ?_
  cases same
  refine (directoryMode_alongside mode).thenSame fun mode => ?_
  exact entry_alongside alike name mode 0 (.directory []) _ fun _ _ made => by rw [made.id]

theorem ln_alongside (target path : String) :
    Alongside actor veil.Twins veil.Alike (ln target path) (ln target path) := by
  refine (claimName_alongside path).bind fun (parent, name) (other, _) ⟨alike, same⟩ => ?_
  cases same
  exact entry_alongside alike name Mode.link (byteSize target) (.symlink target) _ fun _ _ _ => rfl

theorem touch_alongside (path : String) :
    Alongside actor veil.Twins veil.Alike (touch path) (touch path) := by
  refine (lookupParent_alongside (veil.keeps _) path).bind
    fun (parent, name) (other, _) ⟨alike, same⟩ => ?_
  cases same
  refine (volume_alongside (veil.keeps _)).bind fun volume twin beside => ?_
  have named := beside.childNamed? alike name
  generalize volume.childNamed? parent name = first at named
  generalize twin.childNamed? other name = second at named
  cases named with
  | some existing =>
    refine Alongside.get.bind fun machine twin twins => ?_
    obtain ⟨beside⟩ := twins
    exact (put_alongside existing.touch).bind fun _ _ _ => .pure existing.touch
  | none =>
    refine (demand_alongside (veil.keeps _) alike .write path "write").bind fun _ _ _ => ?_
    refine (volume_alongside (veil.keeps _)).bind fun volume twin beside => ?_
    rw [beside.umask]
    exact entry_alongside alike name _ 0 (.file "") _ fun _ _ made => by rw [made.id]

/-! ## Writing, attributes and removal -/

private theorem findOrCreate_alongside (path : String) :
    Alongside actor veil.Twins veil.Alike (findOrCreate path) (findOrCreate path) := by
  refine (volume_alongside (veil.keeps _)).bind fun volume twin beside => ?_
  refine .read ?_
  have leads := beside.lookup actor true path
  generalize volume.lookup actor true path = first at leads
  generalize twin.lookup actor true path = second at leads
  cases leads with
  | ok alike => exact .pure alike
  | error failure =>
    dsimp only
    split
    · rename_i none
      cases none
    · exact check_alongside (touch_alongside path)
    · exact fail_alongside (veil.keeps _) _

private theorem demandFile_alongside (keeps : veil.Keeps actor.user states) (path : String)
    (alike : veil.Alike entry other) :
    Alongside actor states Eq (demandFile path entry) (demandFile path other) := by
  unfold demandFile
  rw [alike.isDirectory, alike.isSymlink]
  refine check_alongside (check_alongside (check_alongside ?_))
  exact (demand_alongside keeps alike .write path "write").imp fun _ _ _ => rfl

/-- A content that a rule makes stays hidden if it was. -/
private theorem rewrite_alongside (path : String) {rule : Inode → String}
    (blind : ∀ inode another now, veil.Alike inode another →
      veil.Alike (inode.setContent now (rule inode)) (another.setContent now (rule another))) :
    Alongside actor veil.Twins veil.Alike (rewrite path rule) (rewrite path rule) := by
  unfold rewrite openForWrite
  simp only [bind_assoc, pure_bind]
  refine (findOrCreate_alongside path).bind fun inode another alike => ?_
  refine (demandFile_alongside (veil.keeps _) path alike).bind fun _ _ _ => ?_
  refine Alongside.get.bind fun machine twin twins => ?_
  obtain ⟨beside⟩ := twins
  have written := blind inode another machine.now alike
  exact (put_alongside written).bind fun _ _ _ => .pure written

theorem writeText_alongside (path content : String) :
    Alongside actor veil.Twins veil.Alike (writeText path content) (writeText path content) :=
  rewrite_alongside path fun _ _ now alike => alike.setContent now content

theorem appendText_alongside (path content : String) :
    Alongside actor veil.Twins veil.Alike (appendText path content) (appendText path content) :=
  rewrite_alongside path fun _ _ _ alike => alike.append content

/-- Who does not own the file may not change its mode. -/
theorem chmod_alongside (acts : actor.user = veil.user) (path mode : String) :
    Alongside actor veil.Twins veil.Alike (chmod path mode) (chmod path mode) := by
  refine (lookup_alongside (veil.keeps _) true path).bind fun inode another alike => ?_
  refine .read ?_
  cases alike with
  | same =>
    refine .guard (fail_alongside (veil.keeps _) _) ?_
    cases Mode.parse? false mode with
    | none => exact refuse_alongside _
    | some bits =>
      refine Alongside.get.bind fun machine twin twins => ?_
      obtain ⟨beside⟩ := twins
      refine (put_alongside .same).bind fun _ _ _ => ?_
      exact (note_alongside _ _).bind fun _ _ _ => .pure .same
  | hidden secret held foreign closed size start =>
    have barred : (actor.user != rootUser && actor.user != inode.owner) = true := by
      rw [acts]
      simp only [Record.permits, Bool.or_eq_false_iff, decide_eq_false_iff_not] at closed
      simp [closed.1, Ne.symm foreign]
    simp only [barred, ↓reduceIte]
    exact bind_alongside_of_fails (fail_alongside (veil.keeps _) _)

theorem chown_alongside (plain : actor.user ≠ rootUser) (path owner : String)
    (group : Option String) :
    Alongside actor veil.Twins veil.Alike (chown path owner group) (chown path owner group) := by
  refine .read ?_
  simp only [bne_iff_ne, ne_eq, plain, not_false_eq_true, ↓reduceIte]
  exact bind_alongside_of_fails (fail_alongside (veil.keeps _) _)

theorem demandUnlink_alongside {parent counterpart : Inode}
    (keeps : veil.Keeps actor.user states)
    (holder : veil.Alike parent counterpart) (alike : veil.Alike entry other) :
    Alongside actor states Eq (demandUnlink parent entry) (demandUnlink counterpart other) := by
  refine .read ?_
  dsimp only
  rw [holder.mode, holder.owner, alike.owner, holder.permits, holder.permits]
  split
  · exact .pure rfl
  · refine check_alongside ?_
    split
    · refine (volume_alongside keeps).bind fun volume twin beside => ?_
      rw [alike.id, beside.pathOf]
      exact fail_alongside keeps _
    · exact .pure rfl

private theorem demandUnlinkAll_alongside
    (keeps : veil.Keeps actor.user states)
    (alike : veil.Alike entry other) :
    Alongside actor states Eq (demandUnlinkAll entry) (demandUnlinkAll other) := by
  unfold demandUnlinkAll
  rw [alike.children]
  refine .forM (List.forall₂_same.mpr fun id _ => rfl) fun id _ same => ?_
  cases same
  refine (volume_alongside keeps).bind fun volume twin beside => ?_
  exact (Alongside.lift (beside.inode id)).bind fun child another hanging =>
    demandUnlink_alongside keeps alike hanging

theorem rm_alongside (path : String) (recursive : Bool) :
    Alongside actor veil.Twins Eq (rm path recursive) (rm path recursive) := by
  refine (lookup_alongside (veil.keeps _) false path).bind fun inode another alike => ?_
  refine (volume_alongside (veil.keeps _)).bind fun volume twin beside => ?_
  rw [alike.id, alike.children, beside.rootId]
  refine check_alongside (check_alongside ?_)
  refine (Alongside.lift (beside.parentOf alike)).bind fun parent counterpart holder => ?_
  refine (demandUnlink_alongside (veil.keeps _) holder alike).bind fun _ _ _ => ?_
  refine (Alongside.lift (beside.walk alike)).bind fun rows others subtree => ?_
  refine (Alongside.forM subtree fun row another same =>
    demandUnlinkAll_alongside (veil.keeps _) same.2).bind fun _ _ _ => ?_
  have gone : others.map (fun row => row.2.id) = rows.map (fun row => row.2.id) := by
    induction subtree with
    | nil => rfl
    | cons head tail ih => rw [List.map_cons, List.map_cons, head.2.id, ih]
  refine Alongside.get.bind fun machine twin twins => ?_
  obtain ⟨-⟩ := twins
  dsimp only
  rw [holder.removeChild, gone, subtree.length_eq]
  cases parent.removeChild machine.now inode.id with
  | none => exact .throw _
  | some parent =>
    have removed : Alongside actor veil.Twins Eq
        (modify fun machine : Machine => { machine with
          volume := (machine.volume.eraseAll (rows.map fun row => row.2.id)).put parent } : Fs PUnit)
        (modify fun machine : Machine => { machine with
          volume := (machine.volume.eraseAll (rows.map fun row => row.2.id)).put parent }) := by
      refine .change fun machine twin twins => ?_
      obtain ⟨beside⟩ := twins
      exact .mk ((beside.eraseAll _).put .same)
    exact removed.bind fun _ _ _ => note_alongside _ _

/-! ## Looking -/

theorem listChildren_alongside (path : String) :
    Alongside actor veil.Twins (List.Forall₂ veil.Alike) (listChildren path)
      (listChildren path) := by
  refine (lookup_alongside (veil.keeps _) true path).bind fun inode another alike => ?_
  rw [alike.isDirectory]
  refine check_alongside ?_
  refine (demand_alongside (veil.keeps _) alike .read path "read").bind fun _ _ _ => ?_
  refine (volume_alongside (veil.keeps _)).bind fun volume twin beside => ?_
  exact .pure (beside.listed alike)

/-- What can be read is not hidden. -/
theorem readText_alongside (acts : actor.user = veil.user) (path : String) :
    Alongside actor veil.Twins Eq (readText path) (readText path) := by
  refine (lookup_alongside (veil.keeps _) true path).bind fun inode another alike => ?_
  cases alike with
  | same =>
    cases inode.payload with
    | directory entries => exact refuse_alongside _
    | symlink target => exact refuse_alongside _
    | file content =>
      have itself : veil.Alike inode inode := .same
      exact (demand_alongside (veil.keeps _) itself .read path "read").bind fun _ _ _ => .pure rfl
  | hidden secret held foreign closed size start =>
    simp only [held]
    refine (demand_alongside (veil.keeps _) (.hidden secret held foreign closed size start) .read path
      "read").bind fun _ _ permitted => ?_
    rw [acts, closed] at permitted
    cases permitted

end Fs

end PocketShell
