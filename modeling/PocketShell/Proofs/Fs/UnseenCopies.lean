import PocketShell.Proofs.Fs.Copying
import PocketShell.Proofs.Fs.Unseen

/-! Copying and moving past a file that is kept from the user. Whatever is to be copied has to be
readable, so no copy takes anything from the file. It can be moved, and stays what it is. -/
namespace PocketShell

variable {veil : Veil} {machine twin : Machine} {actor : Actor} {entry other parent child : Inode}
  {ids : List String}

/-- Nothing that lies below inodes with these ids is kept from the user. -/
structure Veil.Shows (veil : Veil) (ids : List String) (machine twin : Machine) : Prop where
  twins : veil.Twins machine twin
  shown : ∀ top ∈ ids, ∀ id, machine.volume.Below top id →
    twin.volume.inode? id = machine.volume.inode? id

namespace Veil.Shows

/-- A new entry brings nothing below an inode but itself. -/
private theorem below_graft {volume : Volume} {now : Binary64} {top id : String}
    (held : volume.inode? parent.id = some parent) (leaf : child.children = [])
    (below : (volume.graft now parent child).Below top id) :
    volume.Below top id ∨ id = child.id := by
  induction below with
  | refl => exact .inl .refl
  | tail _ listed ih =>
    obtain ⟨directory, found, member⟩ := listed
    rw [Volume.inode?_graft] at found
    split at found
    · cases found
      simp [leaf] at member
    rename_i old
    have above := ih.resolve_right old
    split at found
    · rename_i here
      cases found
      rcases List.mem_append.mp member with before | new
      · exact .inl (above.tail ⟨parent, here ▸ held, before⟩)
      · exact .inr (List.mem_singleton.mp new)
    · exact .inl (above.tail ⟨directory, found, member⟩)

theorem graft (shows : veil.Shows ids machine twin)
    (held : machine.volume.inode? parent.id = some parent) (leaf : child.children = []) :
    veil.Shows ids (Fs.grafted machine parent child) (Fs.grafted twin parent child) := by
  obtain ⟨⟨beside⟩, shown⟩ := shows
  refine ⟨.mk ((beside.put .same).put .same), fun top listed id below => ?_⟩
  simp only [Fs.grafted, Volume.inode?_graft]
  split
  · rfl
  split
  · rfl
  rename_i old _
  exact shown top listed id ((below_graft held leaf below).resolve_right old)

/-- What lies below the entries of a shown inode is shown as well. -/
theorem enter (shows : veil.Shows ids machine twin) {id : String} (listed : id ∈ ids)
    (found : machine.volume.inode? id = some child) :
    veil.Shows (ids ++ child.children) machine twin := by
  refine ⟨shows.twins, fun top member lower below => ?_⟩
  rcases List.mem_append.mp member with before | entry
  · exact shows.shown top before lower below
  · exact shows.shown id listed lower (.head ⟨child, found, entry⟩ below)

/-- What can be read is not hidden. -/
theorem of_readable (twins : veil.Twins machine twin) (acts : actor.user = veil.user)
    (held : machine.volume.inode? entry.id = some entry)
    (readable : ∀ node, machine.volume.inode? node.id = some node →
      machine.volume.Below entry.id node.id → node.permits actor.user .read = true) :
    veil.Shows entry.children machine twin := by
  refine ⟨twins, fun top listed id below => ?_⟩
  have found := twins.beside.inode? id
  cases here : machine.volume.inode? id with
  | none =>
    rw [here] at found
    generalize twin.volume.inode? id = other at found
    cases found
    rfl
  | some node =>
    rw [here] at found
    generalize twin.volume.inode? id = other at found
    cases Volume.id_of_inode? here
    have seen := readable node here (.head ⟨entry, held, listed⟩ below)
    cases found with
    | some alike => rw [alike.eq_of_permits (acts ▸ seen)]

theorem leave {further : List String} (shows : veil.Shows (ids ++ further) machine twin) :
    veil.Shows ids machine twin :=
  ⟨shows.twins, fun top member => shows.shown top (List.mem_append_left _ member)⟩

end Veil.Shows

namespace Fs

variable {α β γ : Type} {operation : Fs α} {further : Fs β} {values : α → β → Prop} {P : α → Prop}
  {states : Machine → Machine → Prop} {source counterpart : Inode} {name : String}

/-- The two machines but for what both have logged. -/
private def Logged (machine twin after later : Machine) : Prop :=
  ∃ log, after = { machine with log } ∧ later = { twin with log }

private theorem Logged.start (twins : veil.Twins machine twin) :
    Logged machine twin machine twin := by
  obtain ⟨-⟩ := twins
  exact ⟨machine.log, rfl, rfl⟩

/-- Where one has logged nothing more, neither has the other. -/
private theorem Logged.later_eq {later : Machine} (twins : veil.Twins machine twin)
    (logged : Logged machine twin machine later) : later = twin := by
  obtain ⟨-⟩ := twins
  obtain ⟨log, here, rfl⟩ := logged
  have same : machine.log = log := congrArg Machine.log here
  rw [← same]

private theorem Logged.keeps (twins : veil.Twins machine twin) (user : String) :
    veil.Keeps user (Logged machine twin) where
  twins := by
    rintro _ _ ⟨log, rfl, rfl⟩
    obtain ⟨beside⟩ := twins
    exact .mk beside
  record := by
    rintro _ _ failure ⟨log, rfl, rfl⟩
    cases failure with
    | denied path action => exact ⟨_, rfl, rfl⟩
    | _ => exact ⟨log, rfl, rfl⟩

/-- After both have only read, they go on from the machines that they had, and what is known of the
value in one run is known. -/
private theorem Reads.matched {next : α → Fs γ} {onward : β → Fs δ} {related : γ → δ → Prop}
    (reads : Reads operation actor machine P) (twins : veil.Twins machine twin)
    (agree : Alongside actor (Logged machine twin) values operation further)
    (continues : ∀ value image, values value image → P value →
      Matched related veil.Twins (next value actor machine) (onward image actor twin)) :
    Matched related veil.Twins ((operation >>= next) actor machine)
      ((further >>= onward) actor twin) := by
  obtain ⟨result, ran, settled⟩ := reads
  obtain ⟨results, left⟩ := agree machine twin (.start twins)
  rw [run_bind, run_bind]
  rw [ran] at results left ⊢
  generalize further actor twin = second at results left
  obtain ⟨image, later⟩ := second
  cases results with
  | @ok value image agreed =>
    cases settled with
    | ok here =>
      obtain rfl : later = twin := Logged.later_eq twins left
      exact continues value image agreed here
  | error failure => exact ⟨.error failure, (Logged.keeps twins actor.user).twins _ _ left⟩

private theorem matched_volume {next onward : Volume → Fs α} {related : α → α → Prop}
    (continues : Matched related states (next machine.volume actor machine)
      (onward twin.volume actor twin)) :
    Matched related states ((Fs.volume >>= next) actor machine)
      ((Fs.volume >>= onward) actor twin) :=
  continues

private theorem matched_lift {first : Except FsFailure α} {second : Except FsFailure β}
    {next : α → Fs γ} {onward : β → Fs γ} {related : γ → γ → Prop}
    (results : Results values first second) (stays : states machine twin)
    (continues : ∀ value image, values value image →
      Matched related states (next value actor machine) (onward image actor twin)) :
    Matched related states ((liftM first >>= next) actor machine)
      ((liftM second >>= onward) actor twin) := by
  rw [run_bind, run_bind, lift_run, lift_run]
  cases results with
  | ok agreed => exact continues _ _ agreed
  | error failure => exact ⟨.error failure, stays⟩

private theorem matched_check {condition : Prop} [Decidable condition] {reason : FsError}
    {rest : Unit → Fs α} {others : Unit → Fs β} (stays : states machine twin)
    (continues : Matched values states (rest () actor machine) (others () actor twin)) :
    Matched values states
      ((if condition then refuse reason >>= rest else rest ()) actor machine)
      ((if condition then refuse reason >>= others else others ()) actor twin) := by
  split
  · exact ⟨.error _, stays⟩
  · exact continues

/-! ## What is copied can be read -/

private theorem demandReadable_alongside
    (keeps : veil.Keeps actor.user states) (path : String)
    (alike : veil.Alike entry other) :
    Alongside actor states Eq (demandReadable path entry) (demandReadable path other) := by
  refine (volume_alongside keeps).bind fun volume twin beside => ?_
  refine (Alongside.lift (beside.walk alike)).bind fun rows others subtree => ?_
  refine .forM subtree fun row another same => ?_
  refine (demand_alongside keeps same.2 .read path "read").bind fun _ _ _ => ?_
  rw [same.2.isDirectory]
  split
  · exact (demand_alongside keeps same.2 .execute path "read").imp fun _ _ _ => rfl
  · exact .pure rfl

private theorem destination_alongside
    (keeps : veil.Keeps actor.user states) (path : String)
    (alike : veil.Alike entry other) :
    Alongside actor states veil.SameEntry (destination path entry) (destination path other) := by
  refine (volume_alongside keeps).bind fun volume twin beside => .read ?_
  have leads := beside.lookup actor true path
  generalize volume.lookup actor true path = first at leads
  generalize twin.lookup actor true path = second at leads
  cases leads with
  | ok existing =>
    dsimp only
    rw [existing.isDirectory, alike.name]
    split
    · exact .pure ⟨existing, rfl⟩
    · exact lookupParent_alongside keeps path
  | error failure =>
    split
    · rename_i none
      cases none
    · exact lookupParent_alongside keeps path
    · exact fail_alongside keeps _

/-! ## Copying -/

/-- Only a directory takes an entry. -/
private theorem attach_childless (leaf : ¬ parent.isDirectory = true) {mode : Mode} {size : Int}
    {payload : Payload String} :
    attach parent name mode size payload actor machine = (.error .childless, machine) := by
  have refuses : parent.addChild machine.now (inodeId machine.nextId) = none := by
    cases held : parent.payload with
    | directory entries => simp [Record.isDirectory, Record.type, held, Payload.type] at leaf
    | file content => simp only [Record.addChild, held]
    | symlink target => simp only [Record.addChild, held]
  unfold attach
  simp only [run_bind, get_run, read_run, refuses]
  rfl

/-- The copy of a source alone is made the same by both. -/
private theorem attach_matched (shows : veil.Shows ids machine twin)
    (held : machine.volume.inode? parent.id = some parent) (alike : veil.Alike parent counterpart)
    (source : Inode) (name : String) :
    Matched Eq (veil.Shows ids)
      (attach parent name source.mode source.size
        (match source.payload with
          | .directory _ => .directory []
          | other => other) actor machine)
      (attach counterpart name source.mode source.size
        (match source.payload with
          | .directory _ => .directory []
          | other => other) actor twin) := by
  by_cases directory : parent.isDirectory = true
  · rw [alike.eq_of_isDirectory directory, attach_run directory, attach_run directory]
    have same : copyOf actor twin source parent name = copyOf actor machine source parent name := by
      obtain ⟨⟨-⟩, -⟩ := shows
      rfl
    have grown : veil.Shows ids (grafted machine parent (copyOf actor machine source parent name))
        (grafted twin parent (copyOf actor twin source parent name)) := by
      rw [same]
      exact shows.graft held copyOf_children
    exact ⟨.ok same.symm, grown⟩
  · have leaf : ¬ counterpart.isDirectory = true := by rwa [alike.isDirectory]
    rw [attach_childless directory, attach_childless leaf]
    exact ⟨.error _, shows⟩

private theorem discard_matched (agree : Matched values states (operation actor machine)
    (further actor twin)) :
    Matched Eq states (discard operation actor machine) (discard further actor twin) := by
  obtain ⟨results, left⟩ := agree
  rw [discard_run, discard_run]
  generalize operation actor machine = first at results left
  generalize further actor twin = second at results left
  obtain ⟨result, after⟩ := first
  obtain ⟨image, later⟩ := second
  cases results with
  | ok related => exact ⟨.ok rfl, left⟩
  | error failure => exact ⟨.error failure, left⟩

/-- Copies of so many levels are made the same by both. -/
private def CopiesAlike (veil : Veil) (actor : Actor) (levels : Nat) : Prop :=
  ∀ {ids : List String} {machine twin : Machine} {source parent counterpart : Inode},
    veil.Shows ids machine twin → (∀ id ∈ source.children, id ∈ ids) →
    machine.volume.inode? parent.id = some parent → veil.Alike parent counterpart →
    ∀ name, Matched Eq (veil.Shows ids) (copyTree levels source parent name actor machine)
      (copyTree levels source counterpart name actor twin)

private theorem copyEntries_alongside {levels : Nat} (deeper : CopiesAlike veil actor levels)
    {entries : List String} (inside : ∀ id ∈ entries, id ∈ ids) (target : String) :
    Alongside actor (veil.Shows ids) Eq (copyEntries levels entries target)
      (copyEntries levels entries target) := by
  have listed : List.Forall₂ (fun id another => id = another ∧ id ∈ ids) entries entries :=
    List.forall₂_same.mpr fun id member => ⟨rfl, inside id member⟩
  refine .forM listed ?_
  rintro id _ ⟨rfl, listed⟩ machine twin shows
  have held : Results (fun child other => child = other ∧ machine.volume.inode? id = some child)
      (machine.volume.inode id) (twin.volume.inode id) := by
    unfold Volume.inode
    rw [shows.shown id listed id .refl]
    generalize machine.volume.inode? id = found
    cases found with
    | none => exact .error _
    | some child => exact .ok ⟨rfl, rfl⟩
  refine matched_volume (matched_lift held shows ?_)
  rintro child _ ⟨rfl, found⟩
  refine matched_volume (matched_lift (shows.twins.beside.inode_held target) shows ?_)
  rintro holder another ⟨alike, held⟩
  have below := deeper (shows.enter listed found) (fun _ => List.mem_append_right ids)
    (Volume.inode?_self held) alike child.name
  exact (discard_matched below).imp (fun _ _ same => same) fun _ _ => Veil.Shows.leave

/-- A copy is made the same by both, level by level. -/
private theorem copyTree_matched (levels : Nat) : CopiesAlike veil actor levels := by
  induction levels with
  | zero => exact fun shows _ _ _ _ => ⟨.error _, shows⟩
  | succ levels ih =>
    intro ids machine twin source parent counterpart shows inside held alike name
    refine (attach_matched shows held alike source name).bind (fun _ _ kept => kept)
      fun copy _ same after later shows => ?_
    cases same
    refine (copyEntries_alongside ih inside copy.id after later shows).bind
      (fun _ _ kept => kept) fun _ _ _ _ _ shows => ⟨.ok rfl, shows⟩

/-- A copy takes nothing from the file that is kept from the user. -/
theorem cp_matched (acts : actor.user = veil.user) (linked : machine.volume.Linked)
    (twins : veil.Twins machine twin) (source dest : String) (recursive : Bool) :
    Matched veil.Alike veil.Twins (cp source dest recursive actor machine)
      (cp source dest recursive actor twin) := by
  have keeps := Logged.keeps twins actor.user
  have beside := twins.beside
  have leads : Reads (lookup true source) actor machine _ := Reads.lookup linked true source
  refine leads.matched twins (lookup_alongside keeps true source)
    fun inode another alike ⟨trail, route⟩ => ?_
  rw [alike.isDirectory]
  refine matched_check twins ?_
  have checks : Reads (demandReadable source inode) actor machine _ :=
    demandReadable_reads linked route source
  refine checks.matched twins (demandReadable_alongside keeps source alike) fun _ _ _ readable => ?_
  rw [alike.eq_of_permits (acts ▸ (readable inode route.held .refl).1)]
  have itself : veil.Alike inode inode := .same
  have goes : Reads (destination dest inode) actor machine _ := destination_reads linked dest inode
  refine goes.matched twins (destination_alongside keeps dest itself)
    fun (parent, name) (counterpart, _) ⟨holder, same⟩ aims => ?_
  cases same
  obtain ⟨⟨_, way⟩, -⟩ := aims.route linked
  refine matched_volume ?_
  have named := beside.childNamed? holder name
  generalize machine.volume.childNamed? parent name = first at named
  generalize twin.volume.childNamed? counterpart name = second at named
  cases named with
  | some existing =>
    dsimp only
    rw [existing.id, existing.isFile, existing.isDirectory]
    refine check_alongside ?_ machine twin twins
    split
    · refine (demand_alongside (veil.keeps _) existing .write dest "write").bind fun _ _ _ => ?_
      refine Alongside.get.bind fun machine twin twins => ?_
      obtain ⟨-⟩ := twins
      have written := existing.setContent machine.now inode.content
      exact (put_alongside written).bind fun _ _ _ => .pure written
    · exact check_alongside (refuse_alongside _)
  | none =>
    have writable : Reads (demand parent .write dest "write") actor machine _ := Reads.demand
    refine writable.matched twins (demand_alongside keeps holder .write dest "write")
      fun _ _ _ _ => matched_volume ?_
    rw [beside.isWithin holder itself, beside.length]
    refine matched_check twins ?_
    have shows : veil.Shows inode.children machine twin :=
      .of_readable twins acts route.held fun node held below => (readable node held below).1
    refine (copyTree_matched _ shows (fun _ => id) way.held holder name).bind
      (fun _ _ shows => shows.twins) fun copy _ same after later shows => ?_
    cases same
    refine ((note_alongside _ _).bind fun _ _ _ => ?_) after later shows.twins
    exact (volume_alongside (veil.keeps _)).bind fun _ _ beside => .lift (beside.inode copy.id)

theorem mv_alongside (source dest : String) :
    Alongside actor veil.Twins veil.Alike (mv source dest) (mv source dest) := by
  refine (lookup_alongside (veil.keeps _) false source).bind fun inode another alike => ?_
  refine (volume_alongside (veil.keeps _)).bind fun volume twin beside => ?_
  rw [alike.id, beside.rootId]
  refine check_alongside ?_
  refine (destination_alongside (veil.keeps _) dest alike).bind
    fun (parent, name) (counterpart, _) ⟨holder, same⟩ => ?_
  cases same
  refine (volume_alongside (veil.keeps _)).bind fun before origin beside => ?_
  rw [isSome_of_rel (beside.childNamed? holder name), alike.isDirectory,
    beside.isWithin holder alike]
  refine check_alongside (check_alongside ?_)
  refine (Alongside.lift (beside.parentOf alike)).bind fun oldParent formerly around => ?_
  refine (demandUnlink_alongside (veil.keeps _) around alike).bind fun _ _ _ => ?_
  refine (demand_alongside (veil.keeps _) holder .write dest "write").bind fun _ _ _ => ?_
  refine Alongside.get.bind fun machine twin twins => ?_
  obtain ⟨-⟩ := twins
  dsimp only
  rw [around.removeChild]
  cases oldParent.removeChild machine.now inode.id with
  | none => exact .throw _
  | some oldParent =>
    refine (put_alongside .same).bind fun _ _ _ => ?_
    refine (volume_alongside (veil.keeps _)).bind fun volume twin beside => ?_
    rw [holder.id]
    refine (Alongside.lift (beside.inode parent.id)).bind fun there counterpart holder => ?_
    rw [holder.addChild]
    cases there.addChild machine.now inode.id with
    | none => exact .throw _
    | some parent =>
      refine (put_alongside .same).bind fun _ _ _ => ?_
      have moved := alike.move name (some parent.id) machine.now
      rw [alike.id] at moved
      refine (put_alongside moved).bind fun _ _ _ => ?_
      exact (note_alongside _ _).bind fun _ _ _ => .pure moved

end Fs

end PocketShell
