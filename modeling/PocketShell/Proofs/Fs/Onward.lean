import PocketShell.Proofs.Fs.ClosingSlash

/-! Paths that go on by one more component. The longer path leads on from where the shorter one
leads, however many slashes stand between them. -/
namespace PocketShell

variable {s base name : String}

namespace Path

/-- The components of a path are what stands between its slashes. -/
theorem componentsOf_append_slash (component : IsComponent name) :
    componentsOf (s ++ "/" ++ name) = componentsOf s ++ [name] := by
  have slash : "/".toList = ['/'] := rfl
  have whole : pieces name.toList = [name.toList] :=
    pieces_whole component.2 (by simpa using component.1)
  rw [componentsOf_eq, componentsOf_eq, String.toList_append, String.toList_append, slash,
    List.append_assoc, List.singleton_append, pieces_slash, whole, List.map_append]
  simp

private theorem isAbsolute_append (some : s ≠ "") : isAbsolute (s ++ base) = isAbsolute s := by
  have inhabited : s.toList ≠ [] := by simpa using some
  unfold isAbsolute
  rw [String.toList_append, List.head?_append_of_ne_nil _ inhabited]

theorem isAbsolute_append_slash (some : s ≠ "") :
    isAbsolute (s ++ "/" ++ name) = isAbsolute s := by
  rw [String.append_assoc, isAbsolute_append some]

/-- What stands before a closing slash, put together with the slash. -/
private theorem eq_append_slash (closed : endsInSlash s = true) : ∃ front, s = front ++ "/" := by
  obtain ⟨front, shape⟩ := List.getLast?_eq_some_iff.mp (by simpa [endsInSlash] using closed)
  refine ⟨String.ofList front, String.toList_inj.mp ?_⟩
  rw [String.toList_append, String.toList_ofList, shape]
  rfl

theorem componentsOf_append (component : IsComponent name) :
    componentsOf (append base name) = componentsOf base ++ [name] := by
  have some : name.isEmpty = false := by simpa using component.1
  unfold append
  rw [if_neg (by simp [some]), if_neg (by simp [isAbsolute_of_isComponent component])]
  split
  · rename_i closed
    obtain ⟨front, rfl⟩ := eq_append_slash closed
    have slash : "/".toList = ['/'] := rfl
    have bare : componentsOf (front ++ "/") = componentsOf front := by
      rw [componentsOf_eq, componentsOf_eq, String.toList_append, slash, pieces_slash, pieces_nil,
        List.append_nil]
    rw [componentsOf_append_slash component, bare]
  · exact componentsOf_append_slash component

theorem isAbsolute_append_component (component : IsComponent name) (some : base ≠ "") :
    isAbsolute (append base name) = isAbsolute base := by
  have named : name.isEmpty = false := by simpa using component.1
  unfold append
  rw [if_neg (by simp [named]), if_neg (by simp [isAbsolute_of_isComponent component])]
  split
  · exact isAbsolute_append some
  · exact isAbsolute_append_slash some

/-- A path without components is empty or the root. -/
theorem isAbsolute_of_nil (bare : componentsOf s = []) (some : s ≠ "") : isAbsolute s = true := by
  obtain ⟨c, rest, shape⟩ := (List.exists_cons_of_ne_nil (by simpa using some) : ∃ c rest, s.toList = c :: rest)
  have none : pieces (c :: rest) = [] := by
    rw [← shape]
    exact List.map_eq_nil_iff.mp (componentsOf_eq s ▸ bare)
  by_cases slash : c = '/'
  · simp [isAbsolute, shape, slash]
  · unfold pieces Text.splitWhere at none
    rw [if_neg (by simpa using slash)] at none
    split at none <;> simp at none

end Path

namespace Volume

variable {volume : Volume} {actor : Actor} {path other : String} {follow : Bool}
  {root directory child : Inode}

/-- The root is found by a path that names nothing. -/
theorem lookup_root (top : volume.root = .ok root) (absolute : Path.isAbsolute path = true)
    (bare : Path.componentsOf path = []) : volume.lookup actor follow path = .ok root := by
  rw [lookup_eq, if_pos (by simp [absolute]), resolve_of_root top, bare]
  rfl

/-- Behind a directory comes an entry of it. -/
theorem lookupParent_onward (leads : volume.lookup actor true path = .ok directory)
    (some : path ≠ "") (shape : directory.isDirectory = true) (entry : Path.IsEntryName name)
    (absolute : Path.isAbsolute other = Path.isAbsolute path)
    (components : Path.componentsOf other = Path.componentsOf path ++ [name]) :
    volume.lookupParent actor other = .ok (directory, name) := by
  have last : (Path.componentsOf other).getLast? = Option.some name := by
    rw [components, List.getLast?_concat]
  obtain ⟨parentPath, cut⟩ := Path.splitParent_of_getLast? last
  refine lookupParent_ok_iff.mpr
    ⟨parentPath, cut, entry.1.1, entry.2.1, entry.2.2, ?_, shape⟩
  obtain ⟨-, ⟨-, relative, single⟩ | ⟨longer, same⟩⟩ := Path.splitParent_spec cut entry.1.1
  · have bare : Path.componentsOf path = [] := by simpa [components] using single
    rw [absolute, Path.isAbsolute_of_nil bare some] at relative
    cases relative
  · have parts : Path.componentsOf parentPath = Path.componentsOf path :=
      List.append_cancel_right (longer.symm.trans components)
    exact (lookup_echoes (same.trans absolute) parts).ok_iff.mp leads

end Volume

end PocketShell
