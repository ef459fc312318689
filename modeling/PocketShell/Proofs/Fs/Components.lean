import Mathlib.Data.List.Induction
import PocketShell.Fs.Path

/-! Paths and their components. A path that is built from components falls apart into the same
ones, and cutting the last name off a path takes exactly its last component away. -/
namespace PocketShell.Path

variable {name parent s : String} {names : List String} {cs ds : List Char}

/-- A component of a path: a name that is not empty and holds no slash. -/
def IsComponent (name : String) : Prop := name ≠ "" ∧ '/' ∉ name.toList

/-- A name that an entry can be given: a component that does not stand for a step. -/
def IsEntryName (name : String) : Prop := IsComponent name ∧ name ≠ "." ∧ name ≠ ".."

instance (name : String) : Decidable (IsEntryName name) :=
  inferInstanceAs (Decidable ((name ≠ "" ∧ '/' ∉ name.toList) ∧ name ≠ "." ∧ name ≠ ".."))

/-- The components of a path as lists of characters. -/
def pieces (cs : List Char) : List (List Char) :=
  (Text.splitWhere (· == '/') cs).filter (!·.isEmpty)

private theorem head?_append_of_ne_nil (some : cs ≠ []) : (cs ++ ds).head? = cs.head? := by
  cases cs with
  | nil => exact absurd rfl some
  | cons c rest => rfl

private theorem splitWhere_whole (free : '/' ∉ cs) : Text.splitWhere (· == '/') cs = [cs] := by
  induction cs with
  | nil => rfl
  | cons c rest ih =>
    simp only [List.mem_cons, not_or] at free
    have other : (c == '/') = false := by simpa using Ne.symm free.1
    simp [Text.splitWhere, other, ih free.2]

private theorem splitWhere_slash (cs ds : List Char) :
    Text.splitWhere (· == '/') (cs ++ '/' :: ds) =
      Text.splitWhere (· == '/') cs ++ Text.splitWhere (· == '/') ds := by
  induction cs with
  | nil => simp [Text.splitWhere]
  | cons c rest ih =>
    simp only [List.cons_append, Text.splitWhere, ih]
    split
    · rfl
    · cases found : Text.splitWhere (· == '/') rest with
      | nil => exact absurd found (Text.splitWhere_ne_nil _ _)
      | cons piece pieces => rfl

theorem pieces_slash (cs ds : List Char) : pieces (cs ++ '/' :: ds) = pieces cs ++ pieces ds := by
  simp [pieces, splitWhere_slash]

@[simp] theorem pieces_nil : pieces [] = [] := rfl

theorem pieces_whole (free : '/' ∉ cs) (some : cs ≠ []) : pieces cs = [cs] := by
  simp [pieces, splitWhere_whole free, some]

theorem componentsOf_eq (s : String) : componentsOf s = (pieces s.toList).map String.ofList := rfl

private theorem free_of_mem_splitWhere {piece : List Char}
    (member : piece ∈ Text.splitWhere (· == '/') cs) : '/' ∉ piece := by
  induction cs generalizing piece with
  | nil =>
    simp only [Text.splitWhere, List.mem_singleton] at member
    simp [member]
  | cons c rest ih =>
    simp only [Text.splitWhere] at member
    split at member
    · rcases List.mem_cons.mp member with rfl | further
      · simp
      · exact ih further
    · rename_i other
      cases found : Text.splitWhere (· == '/') rest with
      | nil => exact absurd found (Text.splitWhere_ne_nil _ _)
      | cons first pieces =>
        simp only [found, List.mem_cons] at member
        rcases member with rfl | further
        · have freeFirst : '/' ∉ first := ih (by simp [found])
          simp only [List.mem_cons, not_or]
          exact ⟨fun same => other (by simp [← same]), freeFirst⟩
        · exact ih (by simp [found, further])

/-- Every component of a path is one. -/
theorem isComponent_of_mem (member : name ∈ componentsOf s) : IsComponent name := by
  obtain ⟨piece, inPieces, rfl⟩ := List.mem_map.mp member
  obtain ⟨split, some⟩ := List.mem_filter.mp inPieces
  refine ⟨?_, by simpa using free_of_mem_splitWhere split⟩
  intro empty
  have none : piece = [] := by simpa using congrArg String.toList empty
  simp [none] at some

theorem componentsOf_single (component : IsComponent name) : componentsOf name = [name] := by
  have some : name.toList ≠ [] := by simpa using component.1
  simp [componentsOf_eq, pieces_whole component.2 some]

private theorem pieces_intercalate (components : ∀ name ∈ names, IsComponent name) :
    pieces (['/'].intercalate (names.map String.toList)) = names.map String.toList := by
  induction names with
  | nil => rfl
  | cons first rest ih =>
    have here := components first (by simp)
    have whole := pieces_whole here.2 (by simpa using here.1)
    have others := ih fun name member => components name (List.mem_cons_of_mem _ member)
    cases rest with
    | nil => simpa using whole
    | cons second more =>
      rw [List.map_cons, List.map_cons, List.intercalate_cons_cons, List.append_assoc,
        List.singleton_append, pieces_slash, whole]
      rw [List.map_cons] at others
      rw [others]
      rfl

/-- Components put together fall apart again. -/
theorem componentsOf_intercalate (components : ∀ name ∈ names, IsComponent name) :
    componentsOf ("/".intercalate names) = names := by
  have cut := pieces_intercalate components
  rw [componentsOf_eq, String.toList_intercalate, show "/".toList = ['/'] from rfl, cut,
    List.map_map]
  simp

/-- The text of an absolute path falls apart into its components. -/
theorem componentsOf_toText (components : ∀ name ∈ names, IsComponent name) :
    componentsOf (toText ⟨true, names⟩) = names := by
  have cut := componentsOf_intercalate components
  simp only [componentsOf_eq] at cut
  simp only [toText, ↓reduceIte, componentsOf_eq, String.toList_append,
    show "/".toList = ['/'] from rfl, List.singleton_append]
  rw [← List.nil_append ('/' :: _), pieces_slash]
  exact cut

theorem isAbsolute_toText : isAbsolute (toText ⟨true, names⟩) = true := by
  simp [isAbsolute, toText]

theorem isAbsolute_of_isComponent (component : IsComponent name) : isAbsolute name = false := by
  cases first : name.toList with
  | nil => simp [isAbsolute, first]
  | cons c rest =>
    have other : '/' ≠ c := by
      intro same
      exact component.2 (by rw [first, same]; exact List.mem_cons_self)
    simpa [isAbsolute, first] using Ne.symm other

/-- Components put together make a relative path. -/
theorem isAbsolute_intercalate (components : ∀ name ∈ names, IsComponent name) :
    isAbsolute ("/".intercalate names) = false := by
  cases names with
  | nil => rfl
  | cons first rest =>
    have here := components first (by simp)
    cases letters : first.toList with
    | nil => exact absurd (by simpa using letters) here.1
    | cons c more =>
      have other : c ≠ '/' := by
        rintro rfl
        exact here.2 (by rw [letters]; exact List.mem_cons_self)
      rw [isAbsolute, String.toList_intercalate, List.map_cons]
      cases rest with
      | nil => simpa [letters] using other
      | cons second others =>
        rw [List.map_cons, List.intercalate_cons_cons, letters]
        simpa using other

/-- What stands before a slash is left alone by the slashes after it. -/
private theorem pieces_trimmed (cs : List Char) :
    pieces (cs.reverse.dropWhile (· == '/')).reverse = pieces cs := by
  induction cs using List.reverseRecOn with
  | nil => rfl
  | append_singleton cs c ih =>
    rw [List.reverse_append, List.reverse_singleton, List.singleton_append]
    by_cases slash : c = '/'
    · subst slash
      rw [List.dropWhile_cons_of_pos (by simp), ih, pieces_slash, pieces_nil, List.append_nil]
    · rw [List.dropWhile_cons_of_neg (by simpa using slash)]
      simp

theorem componentsOf_dropSlashes : componentsOf (dropSlashes s) = componentsOf s := by
  simp [componentsOf_eq, dropSlashes, Text.trimRightWhere, pieces_trimmed]

theorem cutAt_spec {mark : Char} {before after : List Char}
    (found : Text.cutAt mark cs = some (before, after)) :
    cs = before ++ mark :: after ∧ mark ∉ before := by
  induction cs generalizing before with
  | nil => simp [Text.cutAt] at found
  | cons c rest ih =>
    simp only [Text.cutAt] at found
    split at found
    · rename_i same
      cases found
      exact ⟨by simp [same], by simp⟩
    · rename_i other
      obtain ⟨⟨start, tail⟩, inner, same⟩ := Option.map_eq_some_iff.mp found
      cases same
      obtain ⟨whole, free⟩ := ih inner
      exact ⟨by rw [whole]; rfl, by simp [Ne.symm other, free]⟩

private theorem cutAt_none {mark : Char} (found : Text.cutAt mark cs = none) : mark ∉ cs := by
  induction cs with
  | nil => simp
  | cons c rest ih =>
    simp only [Text.cutAt] at found
    split at found
    · cases found
    · rename_i other
      simp only [Option.map_eq_none_iff] at found
      simp [Ne.symm other, ih found]

/-- Without its closing slashes a path begins as before, unless nothing is left. -/
theorem isAbsolute_dropSlashes (some : dropSlashes s ≠ "") :
    isAbsolute (dropSlashes s) = isAbsolute s := by
  have shape : (dropSlashes s).toList = (s.toList.reverse.dropWhile (· == '/')).reverse := by
    simp [dropSlashes, Text.trimRightWhere]
  have start : (dropSlashes s).toList <+: s.toList := by
    rw [shape, ← List.reverse_suffix, List.reverse_reverse]
    exact List.dropWhile_suffix _
  obtain ⟨closing, whole⟩ := start
  have kept : (dropSlashes s).toList ≠ [] := by simpa using some
  simp only [isAbsolute]
  rw [← whole, head?_append_of_ne_nil kept]

private theorem cutAtLastSlash_spec {before after : String}
    (found : cutAtLastSlash s = some (before, after)) :
    s.toList = before.toList ++ '/' :: after.toList ∧ '/' ∉ after.toList := by
  obtain ⟨⟨tail, start⟩, cut, same⟩ := Option.map_eq_some_iff.mp found
  cases same
  obtain ⟨whole, free⟩ := cutAt_spec cut
  have turned := congrArg List.reverse whole
  rw [List.reverse_reverse] at turned
  simp only [String.toList_ofList, List.mem_reverse]
  exact ⟨by simpa using turned, free⟩

/-- The parent and the name of a path: the name is the last component, and the parent holds the
others and begins where the path begins. A lone name has the current directory as its parent. -/
theorem splitParent_spec (cut : splitParent s = (parent, name)) (some : name ≠ "") :
    IsComponent name ∧
      ((parent = "." ∧ isAbsolute s = false ∧ componentsOf s = [name]) ∨
        (componentsOf s = componentsOf parent ++ [name] ∧ isAbsolute parent = isAbsolute s)) := by
  simp only [splitParent] at cut
  split at cut
  · cases cut
    exact absurd rfl some
  · rename_i nonempty
    have kept : dropSlashes s ≠ "" := by simpa using nonempty
    rw [← isAbsolute_dropSlashes kept, ← componentsOf_dropSlashes]
    split at cut
    · rename_i whole
      cases cut
      have free : '/' ∉ (dropSlashes s).toList := by
        simpa using cutAt_none (Option.map_eq_none_iff.mp whole)
      have component : IsComponent (dropSlashes s) := ⟨some, free⟩
      exact ⟨component, .inl ⟨rfl, isAbsolute_of_isComponent component,
        componentsOf_single component⟩⟩
    · rename_i before after found
      cases cut
      obtain ⟨whole, free⟩ := cutAtLastSlash_spec found
      have last : pieces name.toList = [name.toList] := pieces_whole free (by simpa using some)
      refine ⟨⟨some, free⟩, .inr ?_⟩
      simp only [componentsOf_eq, isAbsolute, whole, pieces_slash, last]
      by_cases top : before = ""
      · subst top
        exact ⟨by simp [show "/".toList = ['/'] from rfl, pieces, Text.splitWhere],
          by simp⟩
      · have rest : before.toList ≠ [] := by simpa using top
        have full : before.isEmpty = false := by simpa using top
        rw [full, head?_append_of_ne_nil rest]
        exact ⟨by simp, rfl⟩

/-- Only a path of slashes alone has no name. -/
theorem componentsOf_eq_nil (cut : splitParent s = (parent, "")) : componentsOf s = [] := by
  rw [← componentsOf_dropSlashes]
  simp only [splitParent] at cut
  split at cut
  · rename_i empty
    rw [String.isEmpty_iff.mp empty]
    rfl
  · rename_i nonempty
    split at cut
    · exact absurd (String.isEmpty_iff.mpr (congrArg Prod.snd cut)) nonempty
    · rename_i before after found
      cases cut
      -- No slash is left at the end of what the slashes have been dropped from.
      obtain ⟨whole, -⟩ := cutAtLastSlash_spec found
      have kept : (s.toList.reverse.dropWhile (· == '/')).head? = some '/' := by
        have shape : (dropSlashes s).toList = (s.toList.reverse.dropWhile (· == '/')).reverse := by
          simp [dropSlashes, Text.trimRightWhere]
        rw [← List.getLast?_reverse, ← shape, whole]
        simp
      have stopped := List.head?_dropWhile_not (· == '/') s.toList.reverse
      rw [kept] at stopped
      simp at stopped

/-- The name that a path is cut into is its last component. -/
theorem splitParent_of_getLast? (last : (componentsOf s).getLast? = some name) :
    ∃ parent, splitParent s = (parent, name) := by
  obtain ⟨parent, cut⟩ : ∃ parent, splitParent s = (parent, (splitParent s).2) :=
    ⟨_, (Prod.eta _).symm⟩
  refine ⟨parent, cut.trans (congrArg _ ?_)⟩
  by_cases empty : (splitParent s).2 = ""
  · rw [empty] at cut
    rw [componentsOf_eq_nil cut] at last
    cases last
  · rcases (splitParent_spec cut empty).2 with ⟨-, -, alone⟩ | ⟨components, -⟩
    · rw [alone] at last
      simpa using last
    · rw [components] at last
      simpa using last

end PocketShell.Path
