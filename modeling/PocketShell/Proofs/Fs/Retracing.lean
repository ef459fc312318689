import PocketShell.Proofs.Fs.LastName
import PocketShell.Proofs.Fs.Links

/-! Walking a path again after a change. A walk sees of an inode its type, its link's target, its
place and who may search it. Where these are as they were in all that a walk can come to, a path that
led to an inode leads there again, or ends where something is gone. Most changes leave them in all
that stays; a move leaves them in all but what it takes along. -/
namespace PocketShell

/-- What a walk sees of the two inodes is the same. -/
structure Record.Alike (inode other : Inode) : Prop where
  name : other.name = inode.name
  type : other.type = inode.type
  target : other.target = inode.target
  parent : other.parent = inode.parent
  permits : ∀ user, other.permits user .execute = inode.permits user .execute

namespace Record.Alike

variable {inode other : Inode} {now : Binary64}

theorem refl (inode : Inode) : inode.Alike inode := ⟨rfl, rfl, rfl, rfl, fun _ => rfl⟩

theorem isDirectory (alike : inode.Alike other) : other.isDirectory = inode.isDirectory := by
  simp only [Record.isDirectory, alike.type]

theorem isSymlink (alike : inode.Alike other) : other.isSymlink = inode.isSymlink := by
  simp only [Record.isSymlink, alike.type]

theorem touch : inode.Alike (inode.touch now) := ⟨rfl, rfl, rfl, rfl, fun _ => rfl⟩

theorem setContent {content : String} : inode.Alike (inode.setContent now content) := by
  have seen : (inode.setContent now content).type = inode.type ∧
      (inode.setContent now content).target = inode.target := by
    unfold Record.setContent Record.type Record.target
    cases inode.payload <;> exact ⟨rfl, rfl⟩
  exact ⟨rfl, seen.1, seen.2, rfl, fun _ => rfl⟩

theorem withChildren {entries : List String} (directory : inode.isDirectory = true) :
    inode.Alike (inode.withChildren now entries) := by
  have type : inode.type = .directory := by simpa [Record.isDirectory] using directory
  have target : inode.target = "" := by
    cases payload : inode.payload with
    | directory entries => simp [Record.target, payload]
    | file content => simp [Record.type, payload, Payload.type] at type
    | symlink target => simp [Record.type, payload, Payload.type] at type
  exact ⟨rfl, type.symm, target.symm, rfl, fun _ => rfl⟩

end Record.Alike

namespace Volume

variable {first second volume : Volume} {inode other target parent child directory : Inode}
  {now : Binary64} {user id name path : String} {actor : Actor} {follow : Bool}

/-- What comes of a walk that led somewhere: it leads to the same again, or to where something is
gone. -/
inductive Retraced (same : Inode → Inode → Prop) (gone : Prop) :
    Except FsFailure Inode → Except FsFailure Inode → Prop
  | again {inode other : Inode} (here : same inode other) : Retraced same gone (.ok inode) (.ok other)
  | lost {result : Except FsFailure Inode} (loses : gone) :
      Retraced same gone result (.error (.refused .notFound))
  | failed {failure : FsFailure} {result : Except FsFailure Inode} :
      Retraced same gone (.error failure) result

theorem Retraced.bind {same : Inode → Inode → Prop} {gone : Prop}
    {result result' : Except FsFailure Inode} {next next' : Inode → Except FsFailure Inode}
    (retraced : Retraced same gone result result')
    (continues : ∀ inode other, same inode other → Retraced same gone (next inode) (next' other)) :
    Retraced same gone (result >>= next) (result' >>= next') := by
  cases retraced with
  | again here => exact continues _ _ here
  | lost loses => exact .lost loses
  | failed => exact .failed

/-- A relation between inodes of two volumes that every step of a walk keeps, unless it ends where
something is gone. -/
structure Retraces (first second : Volume) (same : Inode → Inode → Prop) (gone : Prop) : Prop where
  held : ∀ inode other, same inode other →
    first.inode? inode.id = some inode ∧ second.inode? inode.id = some other
  alike : ∀ inode other, same inode other → inode.Alike other
  root : Retraced same gone first.root second.root
  child : ∀ directory after name child, same directory after →
    first.childNamed? directory name = some child →
    (∃ other, second.childNamed? after name = some other ∧ same child other) ∨
      (second.childNamed? after name = none ∧ gone)
  parent : ∀ directory after, same directory after →
    Retraced same gone (first.parentOf directory) (second.parentOf after)

namespace Retraces

variable {same : Inode → Inode → Prop} {gone : Prop} (retraces : first.Retraces second same gone)

include retraces

/-- What has been found again is a directory again, and open to the same users. -/
private theorem abreast : first.Abreast second user user same (Retraced same gone) where
  ok := .again
  refused _ _ := .failed
  bind := Retraced.bind
  id here := id_of_inode? (retraces.held _ _ here).2
  type here := (retraces.alike _ _ here).type
  target here := (retraces.alike _ _ here).target
  search := by
    intro inode after path result result' here retraced
    rw [(retraces.alike _ _ here).permits]
    split
    · exact .failed
    · exact retraced
  held := by
    intro inode after here
    obtain ⟨found, present⟩ := retraces.held _ _ here
    rw [found, present]
    exact .some here
  root := retraces.root
  parent := retraces.parent _ _
  child := by
    intro inode after name next next' here continues
    cases named : first.childNamed? inode name with
    | none => exact .failed
    | some child =>
      rcases retraces.child _ _ _ _ here named with ⟨other, namedAfter, again⟩ | ⟨namedAfter, gone⟩
      · rw [namedAfter]
        exact continues child other again
      · rw [namedAfter]
        exact .lost gone

/-- Whatever a path led to it leads to again, or it ends where something is gone. -/
theorem lookup (actor : Actor) (follow : Bool) (path : String) :
    Retraced same gone (first.lookup actor follow path) (second.lookup actor follow path) :=
  retraces.abreast.lookup

end Retraces

/-! ## What stays looks as it did -/

/-- Something of the first volume is not in the second. -/
def Loses (first second : Volume) : Prop :=
  ∃ id, first.inode? id ≠ none ∧ second.inode? id = none

theorem not_loses_put (held : volume.inode? target.id = some inode) :
    ¬ volume.Loses (volume.put target) := by
  rintro ⟨id, there, none⟩
  exact there ((inode?_put_eq_none_iff held).mp none)

theorem not_loses_graft : ¬ volume.Loses (volume.graft now parent child) := by
  rintro ⟨id, there, none⟩
  rw [inode?_graft] at none
  split at none
  · cases none
  split at none
  · cases none
  · exact there none

/-- What stays of the first volume in the second looks the same to a walk, and the change between
them is one way: where something goes, nothing comes. -/
structure Keeps (first second : Volume) : Prop where
  root : second.rootId = first.rootId
  alike : ∀ id inode other, first.inode? id = some inode → second.inode? id = some other →
    inode.Alike other
  oneWay : ∀ lost id, first.inode? lost ≠ none → second.inode? lost = none →
    first.inode? id = none → second.inode? id = none

namespace Keeps

theorem put (held : volume.inode? target.id = some inode) (alike : inode.Alike target) :
    volume.Keeps (volume.put target) where
  root := rfl
  alike := by
    intro id before after found present
    rw [inode?_put] at present
    split at present
    · rename_i here
      rw [here, held] at found
      cases found
      cases present
      exact alike
    · rw [found] at present
      cases present
      exact .refl _
  oneWay := fun lost _ there none _ => absurd ⟨lost, there, none⟩ (not_loses_put held)

theorem graft (fits : volume.Fits parent child) : volume.Keeps (volume.graft now parent child) where
  root := rfl
  alike := by
    intro id before after found present
    rw [inode?_graft] at present
    split at present
    · rename_i new
      rw [new, fits.fresh] at found
      cases found
    split at present
    · rename_i here
      rw [here, fits.held] at found
      cases found
      cases present
      exact .withChildren fits.directory
    · rw [found] at present
      cases present
      exact .refl _
  oneWay := fun lost _ there none _ => absurd ⟨lost, there, none⟩ not_loses_graft

end Keeps

/-- The inode and what is found in its place later. -/
def Again (first second : Volume) (inode other : Inode) : Prop :=
  first.inode? inode.id = some inode ∧ second.inode? inode.id = some other

namespace Keeps

variable (keeps : first.Keeps second) (linked : first.Linked) (linkedAfter : second.Linked)

include keeps linked linkedAfter

private theorem root_again :
    Retraced (first.Again second) (first.Loses second) first.root second.root := by
  obtain ⟨root, found, -⟩ := linked.root
  obtain ⟨after, present, -⟩ := linkedAfter.root
  rw [root_of_inode? found, root_of_inode? present]
  rw [keeps.root] at present
  exact .again ⟨inode?_self found, by rw [id_of_inode? found]; exact present⟩

/-- An entry of what is found again is found again, or has gone. -/
private theorem child_again {after : Inode} (same : first.Again second directory after)
    (named : first.childNamed? directory name = some child) :
    (∃ other, second.childNamed? after name = some other ∧ first.Again second child other) ∨
      (second.childNamed? after name = none ∧ first.Loses second) := by
  obtain ⟨held, present⟩ := same
  obtain ⟨id, listed, found, named⟩ := childNamed?_mem named
  have up := linked.parent_of_lists ⟨directory, held, listed⟩ found
  obtain rfl := id_of_inode? found
  have afterId := id_of_inode? present
  cases still : second.inode? child.id with
  | some other =>
    have alike := keeps.alike _ _ _ found still
    obtain ⟨holder, there, listedAfter⟩ :=
      (linkedAfter.lists_iff _ _).mpr ⟨other, still, alike.parent.trans up⟩
    rw [present] at there
    cases there
    have again := childNamed?_of_mem linkedAfter (inode?_self present) listedAfter still
    exact .inl ⟨other, by rw [← named, ← alike.name]; exact again, found, still⟩
  | none =>
    refine .inr ⟨childNamed?_eq_none_iff.mpr fun id listedAfter other there same => ?_,
      child.id, by simp [found], still⟩
    have upAfter := linkedAfter.parent_of_lists ⟨after, inode?_self present, listedAfter⟩ there
    -- Nothing has come where something has gone, so the entry was there under the name.
    cases before : first.inode? id with
    | none =>
      rw [keeps.oneWay child.id id (by simp [found]) still before] at there
      cases there
    | some old =>
      have alike := keeps.alike _ _ _ before there
      have parents : old.parent = child.parent := by
        rw [← alike.parent, upAfter, up, afterId]
      have ids := linked.names _ _ old child before found parents
        (by rw [← alike.name, same, named])
      rw [ids, still] at there
      cases there

private theorem parent_again {after : Inode} (same : first.Again second directory after) :
    Retraced (first.Again second) (first.Loses second) (first.parentOf directory)
      (second.parentOf after) := by
  obtain ⟨held, present⟩ := same
  have alike := keeps.alike _ _ _ held present
  cases up : directory.parent with
  | none =>
    simp only [parentOf, alike.parent, up]
    exact keeps.root_again linked linkedAfter
  | some above =>
    obtain ⟨holder, there, -⟩ := (linked.lists_iff _ _).mpr ⟨directory, held, up⟩
    obtain ⟨holderAfter, still, -⟩ :=
      (linkedAfter.lists_iff _ _).mpr ⟨after, present, alike.parent.trans up⟩
    simp only [parentOf, alike.parent, up]
    rw [inode_of_inode? there, inode_of_inode? still]
    exact .again ⟨inode?_self there, by rw [id_of_inode? there]; exact still⟩

/-- A walk after such a change finds again what it found. -/
theorem retraces : first.Retraces second (first.Again second) (first.Loses second) where
  held := fun _ _ same => same
  alike := fun _ _ same => keeps.alike _ _ _ same.1 same.2
  root := keeps.root_again linked linkedAfter
  child := fun _ _ _ _ same named => keeps.child_again linked linkedAfter same named
  parent := fun _ _ same => keeps.parent_again linked linkedAfter same

/-- Where nothing is gone, a path leads to what it led to. -/
theorem lookup (stays : ¬ first.Loses second) (leads : first.lookup actor follow path = .ok inode) :
    ∃ other, second.lookup actor follow path = .ok other ∧
      second.inode? inode.id = some other := by
  have retraced : Retraced (first.Again second) (first.Loses second) _
      (second.lookup actor follow path) :=
    (keeps.retraces linked linkedAfter).lookup actor follow path
  rw [leads] at retraced
  generalize second.lookup actor follow path = result at retraced
  cases retraced with
  | again same => exact ⟨_, rfl, same.2⟩
  | lost loses => exact absurd loses stays

/-- A path that led to what is gone leads nowhere. -/
theorem lookup_lost (leads : first.lookup actor follow path = .ok inode)
    (lost : second.inode? inode.id = none) :
    second.lookup actor follow path = .error (.refused .notFound) := by
  have retraced : Retraced (first.Again second) (first.Loses second) _
      (second.lookup actor follow path) :=
    (keeps.retraces linked linkedAfter).lookup actor follow path
  rw [leads] at retraced
  generalize second.lookup actor follow path = result at retraced
  cases retraced with
  | again same =>
    rw [same.2] at lost
    cases lost
  | lost loses => rfl

/-- Where the entry is gone that a path led to, the path leads nowhere, even if the entry was a link
that is followed now. -/
theorem lookup_gone (leads : first.lookup actor false path = .ok inode)
    (lost : second.inode? inode.id = none) :
    second.lookup actor follow path = .error (.refused .notFound) := by
  cases cut : Path.splitParent path with
  | mk parentPath name =>
    by_cases ordinary : name ≠ "" ∧ name ≠ "." ∧ name ≠ ".."
    · obtain ⟨directory, parent⟩ := lookupParent_of_lookup cut ordinary leads
      obtain ⟨search, named⟩ := (lookup_entry parent).mp leads
      obtain ⟨_, same, some, dot, up, led, shape⟩ := lookupParent_ok parent
      cases cut.symm.trans same
      have retraced : Retraced (first.Again second) (first.Loses second) _
          (second.lookup actor true parentPath) :=
        (keeps.retraces linked linkedAfter).lookup actor true parentPath
      have prolongs : second.Prolongs actor.user follow name
          (second.lookup actor true parentPath) (second.lookup actor follow path) :=
        lookup_prolongs follow cut some
      rw [led] at retraced
      cases reached : second.lookup actor true parentPath with
      | ok after =>
        rw [reached] at retraced
        cases retraced with
        | again again =>
          have alike := keeps.alike _ _ _ again.1 again.2
          have parentAfter : second.lookupParent actor path = .ok (after, name) :=
            lookupParent_ok_iff.mpr
              ⟨_, cut, some, dot, up, reached, alike.isDirectory.trans shape⟩
          rcases keeps.child_again linked linkedAfter again named with
            ⟨other, -, -, present⟩ | ⟨free, -⟩
          · rw [lost] at present
            cases present
          · exact lookup_free parentAfter ((alike.permits _).trans search) free
      | error failure =>
        rw [reached] at retraced prolongs
        generalize second.lookup actor follow path = result at prolongs
        cases retraced with
        | lost =>
          cases prolongs with
          | @failed _ other same =>
            cases other with
            | refused reason =>
              cases same
              rfl
            | _ => cases same
    · have improper : name = "" ∨ name = "." ∨ name = ".." := by
        simpa only [ne_eq, not_and_or, not_not] using ordinary
      have shape := linked.isDirectory_of_lookup cut improper leads
      have plain : inode.isSymlink = false := by
        have type : inode.type = .directory := by simpa [Record.isDirectory] using shape
        simp [Record.isSymlink, type]
      cases follow with
      | false => exact keeps.lookup_lost linked linkedAfter leads lost
      | true => exact keeps.lookup_lost linked linkedAfter (lookup_follow plain leads) lost

/-- Where nothing is gone, the directory of an entry is found again. -/
theorem lookupParent (stays : ¬ first.Loses second)
    (found : first.lookupParent actor path = .ok (directory, name)) :
    ∃ after, second.lookupParent actor path = .ok (after, name) ∧
      second.inode? directory.id = some after := by
  obtain ⟨parentPath, cut, some, dot, up, leads, shape⟩ := lookupParent_ok found
  obtain ⟨after, again, present⟩ := keeps.lookup linked linkedAfter stays leads
  have held : first.inode? directory.id = .some directory := by
    have settled : Settled _ (first.lookup actor true parentPath) := linked.enclosed_held.lookup
    rw [leads] at settled
    cases settled with
    | ok here => exact here
  have alike := keeps.alike _ _ _ held present
  exact ⟨after, lookupParent_ok_iff.mpr ⟨parentPath, cut, some, dot, up, again,
    alike.isDirectory.trans shape⟩, present⟩

end Keeps

end Volume

end PocketShell
