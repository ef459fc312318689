import PocketShell.Proofs.Fs.Arrivals
import PocketShell.Proofs.Fs.Descent
import PocketShell.Proofs.Fs.Retracing
import PocketShell.Proofs.Fs.Shape

/-! What a move does. It takes one entry to another directory and leaves the rest of the table as it
was, so that what lies below the entry goes along, and the path by which it was moved leads nowhere.
The paths of what goes along follow, but only where the way up can be followed: it can not past an
empty id. -/
namespace PocketShell

open Volume

variable {actor : Actor} {machine : Machine} {volume after : Volume}
  {old target inode moved directory other lower : Inode} {source dest name given holder id : String}
  {user : String} {names : List String} {trail : List Inode} {now : Binary64}

namespace Volume

/-- The second volume is the first with an entry taken from one directory to the end of another, or
to the end of the same one. The entry itself has its new name, its new parent and the time of the
move; the two directories have their new entries and that time. -/
structure Relocated (first : Volume) (now : Binary64) (old target inode moved : Inode)
    (second : Volume) : Prop where
  rootId : second.rootId = first.rootId
  umask : second.umask = first.umask
  ids : second.inodes.map (·.id) = first.inodes.map (·.id)
  held : first.inode? inode.id = some inode
  above : first.inode? old.id = some old
  there : first.inode? target.id = some target
  up : inode.parent = some old.id
  apart : old.id ≠ inode.id ∧ target.id ≠ inode.id
  renamed : moved = { inode with name := moved.name, parent := some target.id, modified := now }
  found : second.inode? inode.id = some moved
  entries : ∃ former latter, old.children = former ++ inode.id :: latter ∧
    inode.id ∉ former ++ latter ∧
    (old.id = target.id → second.inode? old.id =
      some (old.withChildren now (former ++ latter ++ [inode.id]))) ∧
    (old.id ≠ target.id →
      second.inode? old.id = some (old.withChildren now (former ++ latter)) ∧
      inode.id ∉ target.children ∧
      second.inode? target.id = some (target.withChildren now (target.children ++ [inode.id])))
  others : ∀ id, id ≠ inode.id → id ≠ old.id → id ≠ target.id →
    second.inode? id = first.inode? id

namespace Moves

variable (linked : volume.Linked) (moves : volume.Moves old target inode name)

include moves

private theorem ids_rehang :
    (volume.rehang now old target inode name).inodes.map (·.id) =
      volume.inodes.map (·.id) := by
  have taken : ∀ {entry : Inode}, volume.inode? entry.id = some entry →
      entry.id ∈ volume.inodes.map (·.id) :=
    fun found => List.mem_map_of_mem (mem_of_inode? found)
  have step : ∀ {next : Volume} {entry : Inode},
      next.inodes.map (·.id) = volume.inodes.map (·.id) → entry.id ∈ volume.inodes.map (·.id) →
      (next.put entry).inodes.map (·.id) = volume.inodes.map (·.id) :=
    fun same there => (ids_put (same ▸ there)).trans same
  have left := taken moves.hangs.above
  have there := taken moves.held
  have source := taken moves.hangs.held
  exact step (step (step rfl left) there) source

include linked

/-- Hanging an entry elsewhere is a relocation. -/
theorem relocated : volume.Relocated now old target inode
    { inode with name, parent := some target.id, modified := now }
    (volume.rehang now old target inode name) := by
  have listed : inode.id ∈ old.children := by
    obtain ⟨holder, held, member⟩ := moves.hangs.lists linked
    rw [moves.hangs.above] at held
    cases held
    exact member
  obtain ⟨former, latter, split⟩ := List.append_of_mem listed
  have once := linked.once _ _ moves.hangs.above
  rw [split, List.nodup_middle, List.nodup_cons] at once
  have erased : old.children.erase inode.id = former ++ latter := by
    rw [split, List.erase_append_right _ fun early => once.1 (List.mem_append_left _ early),
      List.erase_cons_head]
  refine ⟨rfl, rfl, moves.ids_rehang, moves.hangs.held, moves.hangs.above, moves.held,
    moves.hangs.up, ⟨moves.hangs.ids_ne, moves.differs⟩, rfl, inode?_rehang.trans (if_pos rfl),
    ⟨former, latter, split, once.1, ?_, ?_⟩, ?_⟩
  · intro same
    have here := moves.held
    rw [← same, moves.hangs.above] at here
    cases here
    rw [inode?_rehang, if_neg moves.differs, if_pos rfl, erased]
  · intro differs
    have unlisted : inode.id ∉ target.children := fun also =>
      differs (linked.lists_unique (moves.hangs.lists linked) ⟨target, moves.held, also⟩)
    refine ⟨?_, unlisted, ?_⟩
    · rw [inode?_rehang, if_neg moves.hangs.ids_ne, if_neg differs, if_pos rfl, erased]
    · rw [inode?_rehang, if_neg moves.differs, if_pos rfl, List.erase_of_not_mem unlisted]
  · intro id other left here
    rw [inode?_rehang, if_neg other, if_neg here, if_neg left]

/-! ## What goes along -/

variable (rehung : after = volume.rehang now old target inode name)

include rehung

/-- What is not moved itself looks as it did. -/
theorem again (found : volume.inode? id = some directory) (differs : id ≠ inode.id) :
    ∃ other, after.inode? id = some other ∧ directory.Alike other := by
  rw [rehung, inode?_rehang, if_neg differs]
  split
  · rename_i here
    rw [here, moves.held] at found
    cases found
    exact ⟨_, rfl, .withChildren moves.directory⟩
  split
  · rename_i left
    rw [left, moves.hangs.above] at found
    cases found
    obtain ⟨holder, held, listed⟩ := moves.hangs.lists linked
    rw [moves.hangs.above] at held
    cases held
    exact ⟨_, rfl, .withChildren (isDirectory_of_mem_children listed)⟩
  · exact ⟨directory, found, .refl _⟩

/-- The other entries of a directory stay there. -/
private theorem lists_again (listed : volume.Lists holder id) (differs : id ≠ inode.id) :
    after.Lists holder id :=
  rehung ▸ (lists_rehang linked moves).mpr (.inl ⟨listed, differs⟩)

/-- The way down from the entry is as it was. -/
theorem descent (descent : volume.Descent inode.id names lower) :
    ∃ still, after.inode? lower.id = some still ∧ after.Descent inode.id names still := by
  induction descent with
  | @here lower found =>
    have present : after.inode? inode.id =
        some { inode with name, parent := some target.id, modified := now } :=
      rehung ▸ inode?_rehang.trans (if_pos rfl)
    rw [id_of_inode? found]
    exact ⟨_, present, .here present⟩
  | @entry names directory lower id above listed found ih =>
    obtain ⟨holder, there, further⟩ := ih
    have lists : volume.Lists directory.id id := ⟨directory, above.held, listed⟩
    have differs : id ≠ inode.id := by
      rintro rfl
      have same := linked.lists_unique lists (moves.hangs.lists linked)
      exact moves.hangs.outside (same ▸ above.hangs)
    obtain ⟨still, present, alike⟩ := again linked moves rehung found differs
    obtain ⟨_, same, member⟩ := lists_again linked moves rehung lists differs
    rw [there] at same
    cases same
    rw [id_of_inode? found, ← alike.name]
    exact ⟨still, present, .entry further member present⟩

/-! ## What paths lead to afterwards -/

omit rehung in
/-- The inode is found again, and does not lie below the moved entry. -/
private def Stays (volume after : Volume) (source : String) (inode other : Inode) : Prop :=
  volume.Again after inode other ∧ ¬ volume.Below source inode.id

private theorem stays (found : volume.inode? id = some directory)
    (outside : ¬ volume.Below inode.id id) :
    ∃ other, after.inode? id = some other ∧ Stays volume after inode.id directory other := by
  have differs : id ≠ inode.id := by
    rintro rfl
    exact outside .refl
  obtain ⟨other, present, -⟩ := again linked moves rehung found differs
  rw [← id_of_inode? found] at outside
  exact ⟨other, present, ⟨inode?_self found, by rw [id_of_inode? found]; exact present⟩, outside⟩

private theorem alike_of_stays (stays : Stays volume after inode.id directory other) :
    directory.Alike other := by
  obtain ⟨⟨held, present⟩, outside⟩ := stays
  have differs : directory.id ≠ inode.id := fun here => outside (here ▸ .refl)
  obtain ⟨_, again, alike⟩ := again linked moves rehung held differs
  cases present.symm.trans again
  exact alike

/-- An entry of what is found again is found again, unless it has been moved. -/
private theorem child_stays {child : Inode} (stays : Stays volume after inode.id directory other)
    (named : volume.childNamed? directory given = some child) :
    (∃ still, after.childNamed? other given = some still ∧
        Stays volume after inode.id child still) ∨
      (after.childNamed? other given = none ∧ True) := by
  obtain ⟨⟨held, present⟩, outside⟩ := stays
  have linkedAfter : after.Linked := rehung ▸ rehang_linked linked moves
  have otherId := id_of_inode? present
  obtain ⟨id, listed, found, rfl⟩ := childNamed?_mem named
  obtain rfl := id_of_inode? found
  have lists : volume.Lists directory.id child.id := ⟨directory, held, listed⟩
  have up := linked.parent_of_lists lists found
  by_cases here : child.id = inode.id
  · rw [here, moves.hangs.held] at found
    cases found
    refine .inr ⟨childNamed?_eq_none_iff.mpr fun id listedAfter entry there same => ?_, trivial⟩
    have upAfter := linkedAfter.parent_of_lists ⟨other, inode?_self present, listedAfter⟩ there
    rw [otherId] at upAfter
    rcases rehang_origin moves (rehung ▸ there) with
      ⟨-, above, fresh⟩ | ⟨differs, before, old, above, kept⟩
    · -- It came back to the directory that it left, so its name is another.
      have back : directory.id = target.id := Option.some.inj (upAfter.symm.trans above)
      rw [back, moves.held] at held
      cases held
      rw [← same, fresh] at named
      cases moves.free.symm.trans named
    · exact differs (linked.names _ _ before inode old moves.hangs.held
        (above.trans (upAfter.trans up.symm)) (kept.trans same))
  · have below : ¬ volume.Below inode.id child.id := by
      intro inside
      rcases inside.cases_tail with same | ⟨holder, upper, last⟩
      · exact here same
      · exact outside (linked.lists_unique last lists ▸ upper)
    obtain ⟨still, there, same⟩ := Moves.stays linked moves rehung found below
    obtain ⟨_, again, member⟩ := lists_again linked moves rehung lists here
    rw [present] at again
    cases again
    have entry := childNamed?_of_mem linkedAfter (inode?_self present) member there
    rw [(alike_of_stays linked moves rehung same).name] at entry
    exact .inl ⟨still, entry, same⟩

private theorem root_stays :
    Retraced (Stays volume after inode.id) True volume.root after.root := by
  obtain ⟨root, found, -⟩ := linked.root
  have outside : ¬ volume.Below inode.id volume.rootId :=
    fun above => moves.hangs.ne_root linked (linked.eq_root_of_below above)
  obtain ⟨other, present, same⟩ := stays linked moves rehung found outside
  have top : after.rootId = volume.rootId := by rw [rehung, rootId_rehang]
  rw [root_of_inode? found, root_of_inode? (top ▸ present)]
  exact .again same

private theorem parent_stays (stays : Stays volume after inode.id directory other) :
    Retraced (Stays volume after inode.id) True (volume.parentOf directory)
      (after.parentOf other) := by
  unfold parentOf
  rw [(alike_of_stays linked moves rehung stays).parent]
  cases up : directory.parent with
  | none => exact root_stays linked moves rehung
  | some holder =>
    obtain ⟨above, there, listed⟩ := (linked.lists_iff _ _).mpr ⟨directory, stays.1.1, up⟩
    have outside : ¬ volume.Below inode.id holder :=
      fun inside => stays.2 (inside.tail ⟨above, there, listed⟩)
    obtain ⟨still, present, same⟩ := Moves.stays linked moves rehung there outside
    simp only [inode_of_inode? there, inode_of_inode? present]
    exact .again same

/-- The path by which the entry was moved leads nowhere: it leads to what it led to up to the entry,
and this is not there. -/
theorem lookup_left (leads : volume.lookup actor false source = .ok inode) :
    after.lookup actor false source = .error (.refused .notFound) := by
  have retraces : volume.Retraces after (Stays volume after inode.id) True :=
    ⟨fun _ _ stays => stays.1, fun _ _ => alike_of_stays linked moves rehung,
      root_stays linked moves rehung, fun _ _ _ _ => child_stays linked moves rehung,
      fun _ _ => parent_stays linked moves rehung⟩
  have retraced := retraces.lookup actor false source
  rw [leads] at retraced
  generalize after.lookup actor false source = result at retraced
  cases retraced with
  | again same => exact absurd .refl same.2
  | lost _ => rfl

/-! ## The paths of what goes along -/

omit linked moves in
private theorem moved_again : after.inode? inode.id =
    some { inode with name, parent := some target.id, modified := now } :=
  rehung ▸ inode?_rehang.trans (if_pos rfl)

private theorem lists_moved : after.Lists target.id inode.id :=
  rehung ▸ (lists_rehang linked moves).mpr (.inr ⟨rfl, rfl⟩)

/-- An entry that is moved below itself is not reached any more, nor is what lies below it. -/
private theorem unreached (inside : volume.Below inode.id target.id)
    (descent : after.Descent inode.id names lower) : ¬ after.Below after.rootId lower.id := by
  intro reached
  have linkedAfter : after.Linked := rehung ▸ rehang_linked linked moves
  have top : after.rootId = volume.rootId := by rw [rehung, rootId_rehang]
  obtain ⟨trail, route⟩ := route_of_below reached descent.held
  obtain ⟨met, member, same⟩ := route.met_of_below linkedAfter descent.hangs
  have entered : after.Below volume.rootId inode.id := by
    rw [← top, ← same]
    rcases List.mem_cons.mp member with rfl | further
    · exact route.below_root
    · obtain ⟨_, above, -⟩ := route.of_mem further
      exact above.below_root
  exact not_below_of_rehang linked moves inside (rehung ▸ entered) .refl

/-- Such a move is only made where the test misses it, and then there is an empty id on the way up
from all that lies below the entry. -/
private theorem unnamed (route : volume.Route user trail target)
    (apart : inode.isDirectory = true → volume.isWithin target inode = false)
    (inside : volume.Below inode.id target.id) (descent : after.Descent inode.id names lower)
    (some : names ≠ []) : ∃ ancestor, after.Ancestor lower ancestor ∧ ancestor.id = "" := by
  have linkedAfter : after.Linked := rehung ▸ rehang_linked linked moves
  obtain ⟨met, member, below, empty⟩ :=
    unnamed_of_apart linked route moves.hangs.held moves.directory apart inside
  obtain ⟨ancestor, present⟩ : ∃ ancestor, after.inode? met.id = Option.some ancestor := by
    obtain ⟨_, above, -⟩ := route.of_mem member
    rw [rehung]
    refine Option.ne_none_iff_exists'.mp fun gone => ?_
    cases above.held.symm.trans (moves.inode?_rehang_eq_none_iff.mp gone)
  have down : after.Below met.id target.id :=
    rehung ▸ rehang_below_inside linked moves below
      (route.below_of_mem (List.mem_cons_of_mem _ member))
  have above : Relation.TransGen after.Lists ancestor.id lower.id := by
    rw [id_of_inode? present]
    exact (Relation.TransGen.tail' down (lists_moved linked moves rehung)).trans
      (descent.strict some)
  refine ⟨ancestor, linkedAfter.ancestor_of_lists (inode?_self present) descent.held above, ?_⟩
  rw [id_of_inode? present, empty]

/-- The path of what lies below the entry is afterwards that of the entry with the names on the way
down, exactly if every directory above has an id. -/
theorem pathOf_descent (route : volume.Route user trail target)
    (apart : inode.isDirectory = true → volume.isWithin target inode = false)
    (descent : after.Descent inode.id names lower) (some : names ≠ []) :
    after.pathOf lower.id = after.pathOf inode.id ++ "/" ++ "/".intercalate names ↔
      ∀ ancestor, after.Ancestor lower ancestor → ancestor.id ≠ "" := by
  have linkedAfter : after.Linked := rehung ▸ rehang_linked linked moves
  by_cases inside : volume.Below inode.id target.id
  · have pathless := linkedAfter.pathOf_of_unreached (unreached linked moves rehung inside descent)
    obtain ⟨ancestor, above, empty⟩ := unnamed linked moves rehung route apart inside descent some
    constructor
    · intro same
      rw [pathless] at same
      exact absurd same (Path.append_slash_ne _ _)
    · intro named
      exact absurd empty (named ancestor above)
  · have reached : after.Below after.rootId target.id := by
      rw [rehung, rootId_rehang]
      exact rehang_below_of_outside linked moves route.below_root inside
    obtain ⟨holder, held, listed⟩ := lists_moved linked moves rehung
    obtain ⟨way, above⟩ := route_of_below reached held
    have entered : after.Route rootUser (holder :: way)
        { inode with name, parent := Option.some target.id, modified := now } :=
      .entry above (by simp [Record.permits]) listed (moved_again rehung)
    have follows := entered.pathOf_descent linkedAfter descent some
    exact follows

end Moves

end Volume

/-- A move that is done takes the entry that its path named to another place and leaves the rest of
the table as it was, and its path leads nowhere then. The way down from the entry is as it was; and
the path of what lies there is that of the entry and the names on the way down, exactly if every
directory above it has an id. -/
theorem relocated_alone (reachable : Reachable Snapshot.Keyed machine)
    (served : (machine.serve actor (.mv source dest)).1 = .ok (.inode moved)) :
    ∃ inode old target,
      (machine.serve actor (.lstat source)).1 = .ok (.inode inode) ∧
      machine.volume.Relocated machine.now old target inode moved
        (machine.serve actor (.mv source dest)).2.volume ∧
      ((machine.serve actor (.mv source dest)).2.serve actor.asRoot (.lstat source)).1 =
        .error (.refused .notFound) ∧
      ∀ names lower, machine.volume.Descent moved.id names lower → ∃ still,
        (machine.serve actor (.mv source dest)).2.volume.inode? lower.id = some still ∧
        (machine.serve actor (.mv source dest)).2.volume.Descent moved.id names still ∧
        (names ≠ [] →
          ((machine.serve actor (.mv source dest)).2.volume.pathOf lower.id =
              (machine.serve actor (.mv source dest)).2.volume.pathOf moved.id ++ "/" ++
                "/".intercalate names ↔
            ∀ ancestor, (machine.serve actor (.mv source dest)).2.volume.Ancestor still ancestor →
              ancestor.id ≠ "")) := by
  have linked := (reachable.sound Snapshot.keyed_closed).linked
  obtain ⟨_, ran, ⟨⟩⟩ := Machine.serve_ok
    (rfl : (Request.mv source dest).run = .inode <$> Fs.mv source dest) served
  obtain ⟨old, target, inode, name, relocates, rfl⟩ := Fs.mv_ok linked ran
  generalize (machine.serve actor (.mv source dest)).2 = after at relocates ⊢
  have moves := relocates.moves
  obtain ⟨⟨trail, route⟩, -⟩ := relocates.aims.route linked
  refine ⟨inode, old, target, Machine.serve_lstat.mpr relocates.leads, ?_, ?_, ?_⟩
  · rw [relocates.volume]
    exact moves.relocated linked
  · have asked : (Request.lstat source).run = .inode <$> Fs.lookup false source := rfl
    rw [Machine.serve_eq asked, Fs.lookup_run,
      moves.lookup_left linked relocates.volume (lookup_asRoot relocates.leads)]
  · intro names lower descent
    obtain ⟨still, present, further⟩ := moves.descent linked relocates.volume descent
    refine ⟨still, present, further, fun some => ?_⟩
    rw [← id_of_inode? present]
    have follows := moves.pathOf_descent linked relocates.volume route relocates.apart further some
    exact follows

/-- A directory is moved with what users have made in it. -/
theorem tmp_relocated : Reachable Snapshot.Keyed forkedMachine ∧ ∃ moved inode old target,
    (forkedMachine.serve ⟨rootUser, "/"⟩ (.mv "/tmp" "/var")).1 = .ok (.inode moved) ∧
    forkedMachine.volume.Relocated forkedMachine.now old target inode moved
      (forkedMachine.serve ⟨rootUser, "/"⟩ (.mv "/tmp" "/var")).2.volume := by
  have served : (Request.inode? (forkedMachine.serve ⟨rootUser, "/"⟩ (.mv "/tmp" "/var")).1).isSome =
      true := by decide +kernel
  obtain ⟨moved, answered⟩ := Option.isSome_iff_exists.mp served
  have ran := Request.answer_of_inode? answered
  obtain ⟨inode, old, target, -, relocated, -⟩ := relocated_alone forkedMachine_reachable ran
  exact ⟨forkedMachine_reachable, moved, inode, old, target, ran, relocated⟩

/-- What lies in a directory with the empty id has no path after a move. -/
theorem pathless_below_moved : Reachable Snapshot.Keyed untraceableMachine ∧ ∃ moved lower,
    (untraceableMachine.serve ⟨rootUser, "/"⟩ (.mv "/a" "/c")).1 = .ok (.inode moved) ∧
    untraceableMachine.volume.Descent moved.id ["b"] lower ∧
    (untraceableMachine.serve ⟨rootUser, "/"⟩ (.mv "/a" "/c")).2.volume.pathOf moved.id = "/c" ∧
    (untraceableMachine.serve ⟨rootUser, "/"⟩ (.mv "/a" "/c")).2.volume.pathOf lower.id = "" := by
  have served : (Request.inode? (untraceableMachine.serve ⟨rootUser, "/"⟩ (.mv "/a" "/c")).1).any
      (·.id == "") = true := by decide +kernel
  obtain ⟨moved, answered, same⟩ := (Option.any_eq_true _ _).mp served
  have empty : moved.id = "" := by simpa using same
  obtain ⟨lower, descent, here⟩ : ∃ lower,
      untraceableMachine.volume.Descent "" ["b"] lower ∧ lower.id = "b" := by
    have listed : ("b" : String) ∈ ["b"] := by decide
    have entry : untraceableMachine.volume.Descent "" ([] ++ [_]) _ := .entry (.here rfl) listed rfl
    exact ⟨_, entry, rfl⟩
  refine ⟨untraceable_reachable, moved, lower, Request.answer_of_inode? answered, empty ▸ descent,
    ?_, ?_⟩
  · rw [empty]
    decide +kernel
  · rw [here]
    decide +kernel

end PocketShell
