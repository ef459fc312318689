import Mathlib.Data.List.Nodup
import PocketShell.Fs.Volume

/-! The table of a volume as a map from ids to inodes. Whatever an operation does to the list of
inodes is said here once, for `put` and `eraseAll`, as what a lookup finds afterwards. -/
namespace PocketShell.Volume

variable {volume : Volume} {inode other : Inode} {id : String} {ids : List String}

/-- Every id stands for one inode. -/
def Keyed (volume : Volume) : Prop := (volume.inodes.map (·.id)).Nodup

theorem id_of_inode? (found : volume.inode? id = some inode) : inode.id = id := by
  have same := List.find?_some found
  simpa using same

theorem mem_of_inode? (found : volume.inode? id = some inode) : inode ∈ volume.inodes :=
  List.mem_of_find?_eq_some found

/-- What a lookup finds is found again under its own id. -/
theorem inode?_self (found : volume.inode? id = some inode) :
    volume.inode? inode.id = some inode := by
  rw [id_of_inode? found]
  exact found

/-- Where ids differ, a record is the one found under its id. -/
theorem find_of_mem_nodup {ρ : Type} {records : List (Record ρ)} {record : Record ρ}
    (keyed : (records.map (·.id)).Nodup) (member : record ∈ records) :
    records.find? (·.id == record.id) = some record := by
  induction records with
  | nil => cases member
  | cons head rest ih =>
    simp only [List.map_cons, List.nodup_cons] at keyed
    rcases List.mem_cons.mp member with rfl | inRest
    · simp
    · have differs : head.id ≠ record.id := by
        intro same
        exact keyed.1 (same ▸ List.mem_map_of_mem inRest)
      simpa [List.find?_cons, differs] using ih keyed.2 inRest

/-- In a keyed table every inode is the one found under its id. -/
theorem Keyed.inode?_of_mem (keyed : volume.Keyed) (member : inode ∈ volume.inodes) :
    volume.inode? inode.id = some inode :=
  find_of_mem_nodup keyed member

theorem inode?_eq_none_iff : volume.inode? id = none ↔ id ∉ volume.inodes.map (·.id) := by
  simp [inode?, List.find?_eq_none]

@[simp] theorem rootId_put : (volume.put inode).rootId = volume.rootId := rfl

@[simp] theorem umask_put : (volume.put inode).umask = volume.umask := rfl

@[simp] theorem rootId_eraseAll : (volume.eraseAll ids).rootId = volume.rootId := rfl

@[simp] theorem umask_eraseAll : (volume.eraseAll ids).umask = volume.umask := rfl

private theorem find_replaced (inodes : List Inode) (inode : Inode) (id : String) :
    (inodes.map fun old => if old.id = inode.id then inode else old).find? (·.id == id) =
      if id = inode.id then (inodes.find? (·.id == id)).map fun _ => inode
      else inodes.find? (·.id == id) := by
  induction inodes with
  | nil => simp
  | cons head rest ih =>
    rw [List.map_cons, List.find?_cons, List.find?_cons, ih]
    by_cases replaced : head.id = inode.id
    · by_cases wanted : id = inode.id
      · simp [replaced, wanted]
      · have passed : (inode.id == id) = false := by simpa using Ne.symm wanted
        simp [replaced, wanted, passed]
    · have passed : (head.id == inode.id) = false := by simpa using replaced
      by_cases wanted : id = inode.id
      · simp [replaced, wanted, passed]
      · simp [replaced, wanted]

private theorem inodes_put_of_some (held : volume.inode? inode.id = some other) :
    (volume.put inode).inodes =
      volume.inodes.map fun old => if old.id = inode.id then inode else old := by
  simp only [put, held, Option.isSome_some, ↓reduceIte]

private theorem inodes_put_of_none (missing : volume.inode? inode.id = none) :
    (volume.put inode).inodes = volume.inodes ++ [inode] := by
  simp only [put, missing, Option.isSome_none, Bool.false_eq_true, ↓reduceIte]

/-- A written inode is found under its id; every other lookup finds what it found before. -/
theorem inode?_put : (volume.put inode).inode? id =
    if id = inode.id then some inode else volume.inode? id := by
  cases held : volume.inode? inode.id with
  | some old =>
    unfold inode? at held ⊢
    rw [inodes_put_of_some held, find_replaced]
    split
    · rename_i wanted
      rw [wanted, held]
      rfl
    · rfl
  | none =>
    unfold inode?
    rw [inodes_put_of_none held, List.find?_append]
    change (volume.inode? id).or _ = _
    by_cases wanted : id = inode.id
    · subst wanted
      simp [held]
    · have passed : (inode.id == id) = false := by simpa using Ne.symm wanted
      simp [wanted, passed, inode?]

@[simp] theorem inode?_put_self : (volume.put inode).inode? inode.id = some inode := by
  simp [inode?_put]

/-- Writing over what is there leaves the ids as they are. -/
theorem inode?_put_eq_none_iff {old : Inode} (held : volume.inode? inode.id = some old) :
    (volume.put inode).inode? id = none ↔ volume.inode? id = none := by
  rw [inode?_put]
  split
  · rename_i here
    simp [here, held]
  · rfl

/-- An erased id stands for nothing; every other lookup finds what it found before. -/
theorem inode?_eraseAll : (volume.eraseAll ids).inode? id =
    if id ∈ ids then none else volume.inode? id := by
  simp only [eraseAll, inode?, List.find?_filter]
  split
  · rename_i erased
    rw [List.find?_eq_none]
    intro inode _ kept
    simp only [Bool.not_eq_eq_eq_not, Bool.not_true, beq_iff_eq, decide_eq_true_eq] at kept
    rw [kept.2] at kept
    simp [erased] at kept
  · rename_i kept
    congr 1
    funext inode
    by_cases same : inode.id = id
    · subst same
      simp [kept]
    · simp [same]

private theorem ids_replaced (inodes : List Inode) (inode : Inode) :
    (inodes.map fun old => if old.id = inode.id then inode else old).map (·.id) =
      inodes.map (·.id) := by
  rw [List.map_map]
  apply List.map_congr_left
  intro old _
  by_cases same : old.id = inode.id <;> simp [same]

/-- Writing over what is there leaves the list of ids as it is. -/
theorem ids_put (there : inode.id ∈ volume.inodes.map (·.id)) :
    (volume.put inode).inodes.map (·.id) = volume.inodes.map (·.id) := by
  obtain ⟨old, held⟩ := Option.ne_none_iff_exists'.mp
    fun missing => inode?_eq_none_iff.mp missing there
  rw [inodes_put_of_some held, ids_replaced]

theorem Keyed.put (keyed : volume.Keyed) : (volume.put inode).Keyed := by
  unfold Keyed
  cases held : volume.inode? inode.id with
  | some old =>
    rw [inodes_put_of_some held, ids_replaced]
    exact keyed
  | none =>
    rw [inodes_put_of_none held, List.map_append]
    have absent : inode.id ∉ volume.inodes.map (·.id) := inode?_eq_none_iff.mp held
    refine List.nodup_append.mpr ⟨keyed, by simp, ?_⟩
    intro a before b new same
    simp only [List.map_cons, List.map_nil, List.mem_singleton] at new
    exact absent (new ▸ same ▸ before)

theorem Keyed.eraseAll (keyed : volume.Keyed) : (volume.eraseAll ids).Keyed := by
  unfold Keyed Volume.eraseAll
  exact List.Nodup.sublist (List.Sublist.map _ List.filter_sublist) keyed

/-- Of two inodes written under one id only the second stays. -/
theorem put_put (same : other.id = inode.id) :
    (volume.put inode).put other = volume.put other := by
  have inodes : ((volume.put inode).put other).inodes = (volume.put other).inodes := by
    have there : (volume.put inode).inode? other.id = some inode := by
      rw [same]
      exact inode?_put_self
    rw [inodes_put_of_some there]
    cases held : volume.inode? inode.id with
    | some old =>
      have heldOther : volume.inode? other.id = some old := by rw [same]; exact held
      rw [inodes_put_of_some held, inodes_put_of_some heldOther, List.map_map]
      apply List.map_congr_left
      intro entry _
      by_cases here : entry.id = inode.id <;> simp [here, same]
    | none =>
      have missing : volume.inode? other.id = none := by rw [same]; exact held
      have kept : volume.inodes.map (fun old => if old.id = other.id then other else old) =
          volume.inodes := by
        conv_rhs => rw [← List.map_id volume.inodes]
        apply List.map_congr_left
        intro entry member
        have old : entry.id ≠ other.id := by
          intro here
          exact inode?_eq_none_iff.mp missing (here ▸ List.mem_map_of_mem member)
        rw [if_neg old, id]
      rw [inodes_put_of_none held, inodes_put_of_none missing, List.map_append, kept]
      simp [same]
  exact congrArg (fun inodes => { volume with inodes }) inodes

/-- Writing an inode as it is changes nothing. -/
theorem Keyed.put_self (keyed : volume.Keyed) (held : volume.inode? inode.id = some inode) :
    volume.put inode = volume := by
  have inodes : (volume.put inode).inodes = volume.inodes := by
    rw [inodes_put_of_some held]
    conv_rhs => rw [← List.map_id volume.inodes]
    apply List.map_congr_left
    intro entry member
    split
    · rename_i same
      have found := keyed.inode?_of_mem member
      rw [same, held] at found
      exact Option.some.inj found
    · rfl
  exact congrArg (fun inodes => { volume with inodes }) inodes

end PocketShell.Volume
