import PocketShell.Proofs.Fs.Arrivals
import PocketShell.Proofs.Fs.Descent
import PocketShell.Proofs.Fs.Shape
import PocketShell.Proofs.Fs.Views

/-! What a copy of a tree comes to. It ends exactly if the directory that takes it does not lie in
what is copied: one that does is read again after it has been written to, and what is read then is
deeper each time. A copy that ends is the same tree once more, with ids of its own. -/
namespace PocketShell

open Volume

variable {actor : Actor} {before start after machine : Machine}
  {gate source parent target copy : Inode} {user name path id entry holder : String}
  {levels : Nat} {ids : List String}

namespace Fs

/-! ## Copies without end -/

/-- Whatever a directory listed it lists after a copy. -/
theorem CopyEnd.lists (ends : CopyEnd user before gate parent name start (.ok copy) after)
    (held : start.volume.inode? parent.id = some parent)
    (listed : start.volume.Lists holder entry) : after.volume.Lists holder entry := by
  obtain ⟨directory, found, member⟩ := listed
  by_cases here : holder = parent.id
  · obtain ⟨-, time, -, -, -, grown⟩ := ends.copied copy rfl
    rw [here, held] at found
    cases found
    exact here ▸ ⟨_, grown, List.mem_append_left _ member⟩
  · exact ⟨directory, ends.kept holder directory here found, member⟩

/-- Whatever was there is there after a copy. -/
theorem CopyEnd.begun (ends : CopyEnd user before gate parent name start (.ok copy) after)
    (there : start.volume.inode? id ≠ none) : after.volume.inode? id ≠ none := by
  obtain ⟨inode, held⟩ := Option.ne_none_iff_exists'.mp there
  by_cases here : id = parent.id
  · obtain ⟨-, time, -, -, -, grown⟩ := ends.copied copy rfl
    rw [here, grown]
    nofun
  · rw [ends.kept id inode here held]
    nofun

section Endless

variable (linked : before.volume.Linked) (gateHeld : before.volume.inode? gate.id = some gate)
  (gateDirectory : gate.isDirectory = true)

include linked gateHeld gateDirectory

/-- The copies of entries do not end if one of the entries lies above where it is copied to. -/
private theorem copyEntries_endless (fresh : before.IdsFresh)
    (endless : ∀ source parent name start,
      CopyStart actor.user before gate source parent name start →
      Relation.TransGen start.volume.Lists source.id parent.id →
      (copyTree levels source parent name actor start).1 = .error .endless)
    (begins : EntriesStart actor.user before gate ids target start)
    (inside : ∃ id ∈ ids, Relation.TransGen start.volume.Lists id target.id) :
    (copyEntries levels ids target.id actor start).1 = .error .endless := by
  induction ids generalizing target start with
  | nil => simp at inside
  | cons id ids ih =>
    obtain ⟨child, found, starts⟩ := begins.first linked gateHeld gateDirectory
    have ends := (copyTree_end linked gateHeld gateDirectory levels fresh starts).1
    rw [copyEntries_cons found begins.held]
    cases ran : copyTree levels child target child.name actor start with
    | mk result after =>
      rw [ran] at ends
      cases result with
      | error failure => exact congrArg _ (ends.failed failure rfl)
      | ok copy =>
        obtain ⟨time, begins'⟩ := begins.next linked found ends
        obtain ⟨above, member, down⟩ := inside
        rcases List.mem_cons.mp member with rfl | later
        · have fails := endless child target child.name start starts (id_of_inode? found ▸ down)
          rw [ran] at fails
          cases fails
        · have still : Relation.TransGen after.volume.Lists above target.id :=
            Relation.TransGen.mono (fun _ _ listed => ends.lists begins.held listed) _ _ down
          have fails := ih begins' ⟨above, later, still⟩
          exact fails

/-- A copy of what lies above the directory that takes it does not end. By induction on the levels:
one of the entries lies above the directory too, and this now lists the copy that takes the copy of
the entry. -/
theorem copyTree_endless (fresh : before.IdsFresh)
    (begins : CopyStart actor.user before gate source parent name start)
    (inside : Relation.TransGen start.volume.Lists source.id parent.id) :
    (copyTree levels source parent name actor start).1 = .error .endless := by
  induction levels generalizing source parent name start with
  | zero => rfl
  | succ levels ih =>
    obtain ⟨first, entries⟩ := begins.entries linked fresh
    obtain ⟨-, time, -, -, -, grown⟩ := first.copied _ rfl
    obtain ⟨entry, ⟨_, held, listed⟩, down⟩ := Relation.TransGen.head'_iff.mp inside
    rw [begins.read] at held
    cases held
    have deeper : Relation.TransGen
        (grafted start parent (copyOf actor start source parent name)).volume.Lists entry
        (copyOf actor start source parent name).id :=
      .tail' (.mono (fun _ _ listed => first.lists begins.held listed) _ _ down)
        ⟨_, grown, by simp⟩
    have fails := copyEntries_endless linked gateHeld gateDirectory fresh
      (fun _ _ _ _ => ih) entries ⟨entry, listed, deeper⟩
    rw [copyTree_succ begins.directory]
    cases ran : copyEntries levels source.children (copyOf actor start source parent name).id
        actor (grafted start parent (copyOf actor start source parent name)) with
    | mk result after =>
      rw [ran] at fails
      cases fails
      rfl

end Endless

/-- The directory that takes a copy passes the test even if it lies in what is copied, where the test
does not see that; but then the copy of the tree does not end. -/
private theorem Offered.endless {dest : String} {recursive : Bool} (linked : before.volume.Linked)
    (fresh : before.IdsFresh)
    (offered : Offered actor before path dest recursive source parent name)
    (vacant : Vacates actor before source parent name)
    (inside : before.volume.Below source.id parent.id) :
    (copyTree levels source parent name actor before).1 = .error .endless := by
  obtain ⟨_, route⟩ := linked.route_of_lookup offered.leads
  obtain ⟨⟨_, reached⟩, directory⟩ := offered.aims.route linked
  have differs := ids_ne_of_apart reached.held route.held directory vacant.apart
  have strict : Relation.TransGen before.volume.Lists source.id parent.id :=
    (Relation.reflTransGen_iff_eq_or_transGen.mp inside).resolve_left differs
  exact copyTree_endless linked reached.held directory fresh
    (vacant.begins linked route.held offered.aims) strict

/-- A copy does not end exactly if nothing refuses it and the directory that takes it lies in what is
copied, which the test has missed then. -/
theorem cp_endless_iff {dest : String} {recursive : Bool} (linked : before.volume.Linked)
    (fresh : before.IdsFresh) :
    (cp path dest recursive actor before).1 = .error .endless ↔
      ∃ inode parent name, Offered actor before path dest recursive inode parent name ∧
        Vacates actor before inode parent name ∧ before.volume.Below inode.id parent.id := by
  constructor
  · intro fails
    cases ran : cp path dest recursive actor before with
    | mk outcome after =>
      rw [ran] at fails
      obtain rfl : outcome = .error .endless := fails
      have goes : ∀ failure, (.error .endless : Except FsFailure Inode) = .error failure →
          ¬ failure.Refuses := by
        rintro _ ⟨⟩ refuses
        cases refuses
      obtain ⟨inode, parent, name, offered, copies⟩ := cp_copies linked fresh ran goes
      obtain ⟨trail, route⟩ := linked.route_of_lookup offered.leads
      obtain ⟨⟨_, reached⟩, directory⟩ := offered.aims.route linked
      cases copies with
      | broken vacant ran =>
        refine ⟨inode, parent, name, offered, vacant, ?_⟩
        by_contra outside
        obtain ⟨copy, done⟩ := (copyTree_end linked reached.held directory
          before.volume.inodes.length fresh (vacant.begins linked route.held offered.aims)).2
          ⟨trail, route.as_root, by omega, outside⟩
        rw [ran] at done
        cases done
  · rintro ⟨inode, parent, name, offered, vacant, inside⟩
    have fails : (copyTree before.volume.inodes.length inode parent name actor before).1 =
        .error .endless := offered.endless linked fresh vacant inside
    cases ran : copyTree before.volume.inodes.length inode parent name actor before with
    | mk result after =>
      rw [ran] at fails
      obtain rfl : result = .error .endless := fails
      rw [cp_broken linked offered vacant ran]

end Fs

/-! ## Twins -/

/-- The user has made the second inode of the first: it is of the same type, mode and size, and holds
the same if it is no directory. -/
structure Record.Replicates (user : String) (old new : Inode) : Prop where
  type : new.type = old.type
  mode : new.mode = old.mode
  size : new.size = old.size
  content : new.content = old.content
  target : new.target = old.target
  owner : new.owner = user
  group : new.group = user

theorem Record.Replicates.withChildren {old new : Inode} {now : Binary64} {entries : List String}
    (replicates : old.Replicates user new) (directory : new.isDirectory = true) :
    old.Replicates user (new.withChildren now entries) := by
  obtain ⟨type, mode, size, content, target, owner, group⟩ := replicates
  cases payload : new.payload with
  | directory _ =>
    refine ⟨?_, mode, size, ?_, ?_, owner, group⟩
    · rw [← type]
      simp [Record.withChildren, Record.type, payload, Payload.type]
    · rw [← content]
      simp [Record.withChildren, Record.content, payload]
    · rw [← target]
      simp [Record.withChildren, Record.target, payload]
  | file text => simp [Record.isDirectory, Record.type, payload, Payload.type] at directory
  | symlink text => simp [Record.isDirectory, Record.type, payload, Payload.type] at directory

theorem Fs.copyOf_replicates :
    source.Replicates actor.user (copyOf actor start source parent name) := by
  cases payload : source.payload <;>
    exact ⟨by simp [copyOf, attached, Record.type, payload, Payload.type], rfl, rfl,
      by simp [copyOf, attached, Record.content, payload],
      by simp [copyOf, attached, Record.target, payload], rfl, rfl⟩

namespace Volume

/-- With an inode its entries are of the kind too. -/
def Closed (volume : Volume) (kind : String → Prop) : Prop :=
  ∀ id inode, volume.inode? id = some inode → kind id → ∀ entry ∈ inode.children, kind entry

theorem closed_below (volume : Volume) (top : String) : volume.Closed (volume.Below top) :=
  fun _ inode found below _ listed => below.tail ⟨inode, found, listed⟩

theorem closed_entries (volume : Volume) (ids : List String) :
    volume.Closed fun id => ∃ top ∈ ids, volume.Below top id :=
  fun id inode found ⟨top, member, below⟩ entry listed =>
    ⟨top, member, closed_below volume top id inode found below entry listed⟩

/-- The names in a tree whose top gets another one. -/
def calledAnew (top : Inode) (name : String) (inode : Inode) : String :=
  if inode.id = top.id then name else inode.name

theorem calledAnew_self {volume : Volume} {top inode : Inode}
    (held : volume.inode? top.id = some top) (found : volume.inode? id = some inode) :
    calledAnew top top.name inode = inode.name := by
  unfold calledAnew
  split
  · rename_i same
    rw [← same, inode?_self found] at held
    cases held
    rfl
  · rfl

theorem calledAnew_other {top inode : Inode} (differs : inode.id ≠ top.id) :
    calledAnew top name inode = inode.name :=
  if_neg differs

/-- Some inodes of a volume have twins, which are new in the last of two later ones, and are all that
is new there: no two have the same twin, and each is replicated, a directory with the twins of its
entries in their order. -/
structure Twins (user : String) (volume : Volume) (among : String → Prop)
    (called : Inode → String) (start after : Volume) (twin : String → String) : Prop where
  fresh : ∀ id, among id → start.inode? (twin id) = none
  distinct : ∀ id other, among id → among other → twin id = twin other → id = other
  record : ∀ id, among id → ∃ old new, volume.inode? id = some old ∧
    after.inode? (twin id) = some new ∧ old.Replicates user new ∧ new.name = called old ∧
      new.children = old.children.map twin
  only : ∀ id, start.inode? id = none → after.inode? id ≠ none → ∃ old, among old ∧ twin old = id

namespace Twins

variable {volume start first second third : Volume} {one two : String → Prop}
  {called : Inode → String} {twin other : String → String}

theorem congr {called' : Inode → String} (twins : volume.Twins user one called first second twin)
    (same : ∀ id old, volume.inode? id = some old → called old = called' old) :
    volume.Twins user one called' first second twin where
  fresh := twins.fresh
  distinct := twins.distinct
  record := by
    intro id here
    obtain ⟨old, new, held, found, replicates, named, entries⟩ := twins.record id here
    exact ⟨old, new, held, found, replicates, named.trans (same id old held), entries⟩
  only := twins.only

/-- A twin is none of what was there. -/
theorem ne_of_held {inode : Inode} {taken : String}
    (twins : volume.Twins user one called first second twin) (here : one id)
    (held : first.inode? taken = some inode) : twin id ≠ taken := by
  intro same
  have unused := twins.fresh id here
  rw [same, held] at unused
  cases unused

open Classical in
/-- Twins that came after others stand beside them, if the two kinds are apart and closed. -/
theorem append (twins : volume.Twins user one called first second twin)
    (more : volume.Twins user two called second third other)
    (apart : ∀ id, one id → ¬ two id)
    (closed : volume.Closed one) (closed' : volume.Closed two)
    (begun : ∀ id, first.inode? id ≠ none → second.inode? id ≠ none)
    (kept : ∀ id new, one id → second.inode? (twin id) = some new →
      third.inode? (twin id) = some new) :
    ∃ both : String → String, (∀ id, one id → both id = twin id) ∧
      (∀ id, two id → both id = other id) ∧
      volume.Twins user (fun id => one id ∨ two id) called first third both := by
  obtain ⟨both, left, right⟩ : ∃ both : String → String, (∀ id, one id → both id = twin id) ∧
      ∀ id, two id → both id = other id :=
    ⟨fun id => if one id then twin id else other id, fun id here => if_pos here,
      fun id there => if_neg fun here => apart id here there⟩
  have differ : ∀ {id also}, one id → two also → twin id ≠ other also := by
    intro id also here there same
    obtain ⟨-, new, -, found, -⟩ := twins.record id here
    rw [same, more.fresh also there] at found
    cases found
  refine ⟨both, left, right, ?_, ?_, ?_, ?_⟩
  · rintro id (here | there)
    · rw [left id here]
      exact twins.fresh id here
    · rw [right id there]
      by_contra taken
      exact begun _ taken (more.fresh id there)
  · rintro id also (here | there) (here' | there') same
    · rw [left id here, left also here'] at same
      exact twins.distinct id also here here' same
    · rw [left id here, right also there'] at same
      exact absurd same (differ here there')
    · rw [right id there, left also here'] at same
      exact absurd same.symm (differ here' there)
    · rw [right id there, right also there'] at same
      exact more.distinct id also there there' same
  · rintro id (here | there)
    · obtain ⟨old, new, held, found, replicates, named, entries⟩ := twins.record id here
      rw [left id here]
      refine ⟨old, new, held, kept id new here found, replicates, named, ?_⟩
      rw [entries]
      exact List.map_congr_left fun entry listed =>
        (left entry (closed id old held here entry listed)).symm
    · obtain ⟨old, new, held, found, replicates, named, entries⟩ := more.record id there
      rw [right id there]
      refine ⟨old, new, held, found, replicates, named, ?_⟩
      rw [entries]
      exact List.map_congr_left fun entry listed =>
        (right entry (closed' id old held there entry listed)).symm
  · intro id unused taken
    by_cases between : second.inode? id = none
    · obtain ⟨old, there, same⟩ := more.only id between taken
      exact ⟨old, .inr there, (right old there).trans same⟩
    · obtain ⟨old, here, same⟩ := twins.only id unused between
      exact ⟨old, .inl here, (left old here).trans same⟩

/-- With one more inode, which has its twin from the beginning. -/
theorem cons {top copy : Inode} {entries : String → Prop}
    (twins : volume.Twins user entries (·.name) first second twin)
    (held : volume.inode? top.id = some top) (outside : ¬ entries top.id)
    (within : ∀ entry ∈ top.children, entries entry)
    (closed : volume.Closed entries)
    (unused : start.inode? copy.id = none) (there : first.inode? copy.id ≠ none)
    (begun : ∀ id, id ≠ copy.id → (first.inode? id = none ↔ start.inode? id = none))
    (found : second.inode? copy.id = some copy) (replicates : top.Replicates user copy)
    (listed : copy.children = top.children.map twin) :
    ∃ whole : String → String, whole top.id = copy.id ∧
      volume.Twins user (fun id => id = top.id ∨ entries id)
        (calledAnew top copy.name) start second whole := by
  obtain ⟨whole, here, inner⟩ : ∃ whole : String → String, whole top.id = copy.id ∧
      ∀ id, entries id → whole id = twin id :=
    ⟨fun id => if id = top.id then copy.id else twin id, if_pos rfl,
      fun id member => if_neg fun same => outside (same.subst member)⟩
  have differ : ∀ {id}, entries id → twin id ≠ copy.id := by
    intro id member same
    exact there (same ▸ twins.fresh id member)
  refine ⟨whole, here, ?_, ?_, ?_, ?_⟩
  · rintro id (rfl | member)
    · rw [here]
      exact unused
    · rw [inner id member]
      exact (begun _ (differ member)).mp (twins.fresh id member)
  · rintro id also (rfl | member) (rfl | member') same
    · rfl
    · rw [here, inner also member'] at same
      exact absurd same.symm (differ member')
    · rw [here, inner id member] at same
      exact absurd same (differ member)
    · rw [inner id member, inner also member'] at same
      exact twins.distinct id also member member' same
  · rintro id (rfl | member)
    · rw [here]
      refine ⟨top, copy, held, found, replicates, (if_pos rfl).symm, ?_⟩
      rw [listed]
      exact List.map_congr_left fun entry listed =>
        (inner entry (within entry listed)).symm
    · obtain ⟨old, new, held, found, replicates, named, entries⟩ := twins.record id member
      rw [inner id member]
      refine ⟨old, new, held, found, replicates, ?_, ?_⟩
      · rw [named, calledAnew_other]
        rw [id_of_inode? held]
        exact fun same => outside (same ▸ member)
      · rw [entries]
        exact List.map_congr_left fun entry listed =>
          (inner entry (closed id old held member entry listed)).symm
  · intro id unused taken
    by_cases same : id = copy.id
    · exact ⟨top.id, .inl rfl, here.trans same.symm⟩
    · obtain ⟨old, member, also⟩ := twins.only id ((begun id same).mpr unused) taken
      exact ⟨old, .inr member, (inner old member).trans also⟩

end Twins

end Volume

/-- An entry of what there is room for is copied as it was before, and there is room for it. -/
theorem Room.entry_kept {child : Inode} (linked : before.volume.Linked)
    (room : Room before gate source (levels + 1)) (grown : Grown user before gate start)
    (listed : entry ∈ source.children) (found : start.volume.inode? entry = some child) :
    before.volume.inode? entry = some child ∧ Room before gate child levels := by
  obtain ⟨trail, route, -⟩ := id room
  obtain ⟨old, was, -⟩ := (linked.lists_iff _ _).mp (route.lists listed)
  have roomy := room.entry listed was
  have kept := roomy.kept grown
  rw [id_of_inode? was, found] at kept
  cases kept
  exact ⟨was, roomy⟩

namespace Fs

section Twins

variable (linked : before.volume.Linked) (gateHeld : before.volume.inode? gate.id = some gate)
  (gateDirectory : gate.isDirectory = true) (fresh : before.IdsFresh)

include linked gateHeld gateDirectory fresh

omit linked gateHeld gateDirectory fresh in
/-- Of what was not there only the new inode is there when it has been attached. -/
private theorem inode?_grafted_eq_none_iff {child : Inode}
    (held : start.volume.inode? parent.id = some parent) (differs : id ≠ child.id) :
    (grafted start parent child).volume.inode? id = none ↔ start.volume.inode? id = none := by
  rw [grafted, inode?_graft, if_neg differs]
  split
  · rename_i here
    simp [here, held]
  · rfl

/-- The copies of entries of a directory are twins of all that lies below the entries, and are
entries of the directory's twin. -/
private theorem copyEntries_twins {trail : List Inode}
    (copies : ∀ source parent name start copy after,
      CopyStart actor.user before gate source parent name start → Room before gate source levels →
      copyTree levels source parent name actor start = (.ok copy, after) →
      ∃ twin, twin source.id = copy.id ∧
        before.volume.Twins actor.user (before.volume.Below source.id)
          (calledAnew source name) start.volume after.volume twin)
    (route : before.volume.Route rootUser trail source) (within : ids ⊆ source.children)
    (once : ids.Nodup) (room : Room before gate source (levels + 1))
    (begins : EntriesStart actor.user before gate ids target start)
    (replicates : source.Replicates actor.user target)
    (ran : copyEntries levels ids target.id actor start = (.ok PUnit.unit, after)) :
    ∃ twin made, after.volume.inode? target.id = some made ∧ made.name = target.name ∧
      source.Replicates actor.user made ∧ made.children = target.children ++ ids.map twin ∧
      before.volume.Twins actor.user (fun id => ∃ entry ∈ ids, before.volume.Below entry id)
        (·.name) start.volume after.volume twin := by
  induction ids generalizing target start with
  | nil =>
    cases ran
    refine ⟨id, target, begins.held, rfl, replicates, by simp, ?_⟩
    exact ⟨by simp, by simp, by simp, fun _ unused taken => absurd unused taken⟩
  | cons entry ids ih =>
    obtain ⟨child, found, starts⟩ := begins.first linked gateHeld gateDirectory
    have listed : entry ∈ source.children := within List.mem_cons_self
    obtain ⟨unlisted, later⟩ := List.nodup_cons.mp once
    obtain ⟨was, roomy⟩ := room.entry_kept linked begins.grown listed found
    obtain rfl := id_of_inode? was
    rw [copyEntries_cons found begins.held] at ran
    cases grows : copyTree levels child target child.name actor start with
    | mk result between =>
      rw [grows] at ran
      cases result with
      | error failure => cases ran
      | ok copy =>
        have ends := (copyTree_end linked gateHeld gateDirectory levels fresh starts).1
        dsimp only at ran
        simp only [grows] at ends
        obtain ⟨time, begins'⟩ := begins.next linked found ends
        obtain ⟨twin, top, twins⟩ := copies _ _ _ _ _ _ starts roomy grows
        obtain ⟨other, made, present, named, alike, entries, more⟩ :=
          ih (fun id member => within (List.mem_cons_of_mem _ member)) later begins'
            (replicates.withChildren (begins.directory (by simp))) ran
        have final := (copyEntries_end linked gateHeld gateDirectory
          (fun _ _ _ _ => copyTree_end linked gateHeld gateDirectory levels fresh) begins').1
        rw [Record.withChildren_id, ran] at final
        have apart : ∀ id, before.volume.Below child.id id →
            ¬ ∃ entry ∈ ids, before.volume.Below entry id := by
          rintro id below ⟨sibling, member, also⟩
          have same := route.entry_unique linked listed
            (within (List.mem_cons_of_mem _ member)) below also
          exact unlisted (same ▸ member)
        have same := twins.congr fun id old held => calledAnew_self was held
        obtain ⟨both, left, right, joined⟩ := same.append more apart
          (closed_below _ _) (closed_entries _ _) (fun _ there => ends.begun there)
          fun id new below present =>
            final.kept _ new (twins.ne_of_held below begins.held) present
        refine ⟨both, made, present, named, alike, ?_, ?_⟩
        · rw [entries, List.map_cons, left _ .refl, top, Record.withChildren_children,
            List.append_assoc, List.singleton_append]
          congr 2
          exact List.map_congr_left fun id member => (right id ⟨id, member, .refl⟩).symm
        · simpa only [List.exists_mem_cons_iff] using joined

/-- A copy of what the directory does not lie in makes twins of it and of all that lies below it. -/
theorem copyTree_twins (begins : CopyStart actor.user before gate source parent name start)
    (room : Room before gate source levels)
    (ran : copyTree levels source parent name actor start = (.ok copy, after)) :
    ∃ twin, twin source.id = copy.id ∧
      before.volume.Twins actor.user (before.volume.Below source.id)
        (calledAnew source name) start.volume after.volume twin := by
  induction levels generalizing source parent name start copy after with
  | zero => exact absurd room (Room.levels_ne_zero linked)
  | succ levels ih =>
    obtain ⟨first, entries⟩ := begins.entries linked fresh
    obtain ⟨unused, time, fresh', there, -, grown⟩ := first.copied _ rfl
    obtain ⟨trail, route, -⟩ := id room
    rw [copyTree_succ begins.directory] at ran
    cases fills : copyEntries levels source.children (copyOf actor start source parent name).id
        actor (grafted start parent (copyOf actor start source parent name)) with
    | mk result final =>
      rw [fills] at ran
      cases result with
      | error failure => cases ran
      | ok done =>
        cases ran
        obtain ⟨twin, made, present, named, replicates, listed, twins⟩ :=
          copyEntries_twins linked gateHeld gateDirectory fresh (fun _ _ _ _ _ _ => ih) route
            (List.Subset.refl _) (linked.once _ _ route.held) room entries copyOf_replicates fills
        have same := id_of_inode? present
        rw [copyOf_children, List.nil_append] at listed
        obtain ⟨whole, top, all⟩ := twins.cons route.held
          (fun ⟨entry, member, below⟩ => route.not_below_entry linked member below)
          (fun entry member => ⟨entry, member, .refl⟩)
          (closed_entries _ _) (same ▸ unused) (by rw [same, there]; nofun)
          (fun id differs => inode?_grafted_eq_none_iff begins.held (same ▸ differs))
          (inode?_self present) replicates listed
        refine ⟨whole, top.trans same, ?_⟩
        rw [named] at all
        have spread : before.volume.Below source.id = fun id =>
            id = source.id ∨ ∃ entry ∈ source.children, before.volume.Below entry id :=
          funext fun id => propext (below_iff route.held id)
        rw [spread]
        exact all

end Twins

end Fs

/-! ## The tree once more -/

namespace Volume

/-- What lies below the copy in the second volume is what lay below the inode in the first, once
more: the same ways down lead to twins. -/
structure Duplicated (first : Volume) (user : String) (second : Volume) (inode copy : Inode)
    (twin : String → String) : Prop where
  top : twin inode.id = copy.id
  twins : first.Twins user (first.Below inode.id)
    (calledAnew inode copy.name) first second twin
  below : ∀ id, second.Below copy.id id ↔ ∃ old, first.Below inode.id old ∧ twin old = id
  ways : ∀ names new, second.Descent copy.id names new ↔
    ∃ old, first.Descent inode.id names old ∧ second.inode? (twin old.id) = some new

section Duplicated

variable {first second : Volume} {inode copy : Inode} {trail : List Inode} {twin : String → String}
  (linked : first.Linked) (route : first.Route user trail inode)
  (top : twin inode.id = copy.id)
  (twins : first.Twins user (first.Below inode.id)
    (calledAnew inode copy.name) first second twin)

include linked route top twins

omit top in
/-- An entry below the inode has a twin that is called as it is and is an entry of the twin of its
directory. -/
private theorem twin_of_entry {directory holder entry : Inode} {names : List String} {id : String}
    (way : first.Descent inode.id names directory) (listed : id ∈ directory.children)
    (found : first.inode? id = some entry)
    (there : second.inode? (twin directory.id) = some holder) :
    holder.children = directory.children.map twin ∧
      ∃ new, second.inode? (twin id) = some new ∧ new.name = entry.name := by
  have lists : first.Lists directory.id id := ⟨directory, way.held, listed⟩
  obtain ⟨_, _, held, present, -, -, entries⟩ := twins.record _ way.hangs
  cases way.held.symm.trans held
  cases there.symm.trans present
  obtain ⟨_, new, held, present, -, named, -⟩ := twins.record id (way.hangs.tail lists)
  cases found.symm.trans held
  refine ⟨entries, new, present, named.trans (calledAnew_other ?_)⟩
  rw [id_of_inode? found]
  rintro rfl
  cases route.held.symm.trans found
  exact route.not_below_parent linked (linked.parent_of_lists lists found) way.hangs

/-- A way down from the inode leads to a twin, and a way down from the copy comes from one that
leads to an inode. -/
private theorem descent_twins {names : List String} {new : Inode} :
    second.Descent copy.id names new ↔
      ∃ old, first.Descent inode.id names old ∧ second.inode? (twin old.id) = some new := by
  constructor
  · intro way
    generalize same : copy.id = start at way
    induction way with
    | here found => exact ⟨inode, .here route.held, by rw [top, same, found]⟩
    | @entry names holder new id above listed found ih =>
      obtain ⟨directory, way, there⟩ := ih
      obtain ⟨_, _, held, present, -, -, entries⟩ := twins.record _ way.hangs
      cases way.held.symm.trans held
      cases there.symm.trans present
      rw [entries] at listed
      obtain ⟨entry, member, rfl⟩ := List.mem_map.mp listed
      obtain ⟨old, was, -⟩ := (linked.lists_iff _ _).mp ⟨directory, way.held, member⟩
      obtain ⟨-, _, again, named⟩ := twin_of_entry linked route twins way member was there
      cases found.symm.trans again
      exact ⟨old, named ▸ .entry way member was, by rw [id_of_inode? was, found]⟩
  · rintro ⟨old, way, there⟩
    induction way generalizing new with
    | here found =>
      rw [id_of_inode? found, top] at there
      exact .here there
    | @entry names directory old id above listed found ih =>
      obtain ⟨_, holder, held, present, -⟩ := twins.record _ above.hangs
      obtain ⟨entries, _, again, named⟩ :=
        twin_of_entry linked route twins above listed found present
      rw [id_of_inode? found, again] at there
      cases there
      rw [← named]
      exact .entry (ih present) (entries ▸ List.mem_map_of_mem listed) again

/-- So twins make the tree once more. -/
theorem Twins.duplicated (linkedAfter : second.Linked) :
    first.Duplicated user second inode copy twin := by
  refine ⟨top, twins, fun id => ⟨fun below => ?_, ?_⟩,
    fun _ _ => descent_twins linked route top twins⟩
  · obtain ⟨_, made, _, there, -⟩ := twins.record _ .refl
    rw [top] at there
    obtain ⟨new, found⟩ := linkedAfter.held_of_below there below
    obtain ⟨names, way⟩ := Descent.of_below there below found
    obtain ⟨old, down, same⟩ := (descent_twins linked route top twins).mp way
    exact ⟨old.id, down.hangs, (id_of_inode? same).symm.trans (id_of_inode? found)⟩
  · rintro ⟨id, below, rfl⟩
    obtain ⟨old, new, held, there, -⟩ := twins.record _ below
    obtain ⟨names, way⟩ := Descent.of_below route.held below held
    have copied := (descent_twins linked route top twins).mpr
      ⟨old, way, by rw [id_of_inode? held, there]⟩
    rw [← id_of_inode? there]
    exact copied.hangs

end Duplicated

end Volume

namespace Fs

variable {inode : Inode} {dest : String} {recursive : Bool}

/-- A copy that is done and new is the tree once more, in the directory that the destination aims at;
and nothing else has changed. -/
theorem Copies.duplicates (linked : before.volume.Linked) (fresh : before.IdsFresh)
    (linkedAfter : after.volume.Linked)
    (offered : Offered actor before path dest recursive inode parent name)
    (copies : Copies actor before inode parent name (.ok copy) after)
    (new : before.volume.inode? copy.id = none) :
    ∃ twin time, before.volume.Duplicated actor.user after.volume inode copy twin ∧
      after.volume.inode? parent.id =
        some (parent.withChildren time (parent.children ++ [copy.id])) ∧
      ∀ id old, id ≠ parent.id → before.volume.inode? id = some old →
        after.volume.inode? id = some old := by
  obtain ⟨trail, route⟩ := linked.route_of_lookup offered.leads
  obtain ⟨⟨_, reached⟩, directory⟩ := offered.aims.route linked
  cases copies with
  | written named file volume =>
    obtain ⟨_, -, held, -⟩ := childNamed?_mem named
    have known : before.volume.inode? _ = _ := inode?_self held
    cases known.symm.trans new
  | @made first _ between _ vacant ran found volume =>
    have begins := vacant.begins linked route.held offered.aims
    have outside : ¬ before.volume.Below inode.id parent.id := by
      intro inside
      have fails : (copyTree before.volume.inodes.length inode parent name actor before).1 =
          .error .endless := offered.endless linked fresh vacant inside
      rw [ran] at fails
      cases fails
    obtain ⟨ends, -⟩ := copyTree_end linked reached.held directory
      before.volume.inodes.length fresh begins
    rw [ran] at ends
    obtain ⟨-, time, _, present, rfl, filled⟩ := ends.copied first rfl
    cases found.symm.trans present
    obtain ⟨twin, top, twins⟩ := copyTree_twins linked reached.held directory fresh begins
      ⟨trail, route.as_root, by omega, outside⟩ ran
    have same := id_of_inode? found
    rw [← same] at top filled
    rw [volume] at linkedAfter ⊢
    exact ⟨twin, time, twins.duplicated linked route top linkedAfter, filled,
      fun id old differs held => ends.kept id old differs held⟩

end Fs

end PocketShell
