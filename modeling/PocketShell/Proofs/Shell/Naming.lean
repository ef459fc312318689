import PocketShell.Command.Standard
import PocketShell.Proofs.Fs.Onward

/-! A path as a directory and a name. Wherever a path has its slashes, all that take it apart agree:
the name is its last component, and the directory has the others and is as absolute as the path. An
ending comes off a name that is longer and ends in it. But the empty ending takes the whole name. -/
namespace PocketShell

namespace Path

variable {s parent name : String}

/-! ## The directory in front of the name -/

/-- A path without its last component. A lone name leaves the dot, the current directory. -/
def front (path : Path) : Path :=
  if path.absolute = false ∧ path.components.length = 1 then ⟨false, ["."]⟩
  else ⟨path.absolute, path.components.dropLast⟩

/-- The slashes at the end of a text do not matter where the empty text stands for the root. -/
private theorem parse_closed (s : String) :
    parse (if (dropSlashes s).isEmpty then "/" else dropSlashes s) =
      parse (if s.isEmpty then "/" else s) := by
  by_cases nothing : dropSlashes s = ""
  · have bare : componentsOf s = [] := by
      rw [← componentsOf_dropSlashes, nothing]
      rfl
    rw [if_pos (String.isEmpty_iff.mpr nothing)]
    by_cases empty : s = ""
    · rw [if_pos (String.isEmpty_iff.mpr empty)]
    · rw [if_neg (by simpa using empty), parse, parse, isAbsolute_of_nil bare empty, bare]
      rfl
  · have some : s ≠ "" := by
      rintro rfl
      exact nothing rfl
    rw [if_neg (by simpa using nothing), if_neg (by simpa using some), parse, parse,
      isAbsolute_dropSlashes nothing, componentsOf_dropSlashes]

/-- The directory part of a path, and the parent that a path is cut into, are one path. -/
theorem parse_dirname (s : String) : parse (dirname s) = parse (splitParent s).1 := by
  unfold dirname splitParent
  by_cases empty : (dropSlashes s).isEmpty = true
  · simp only [empty, if_true]
  · simp only [empty, Bool.false_eq_true, if_false]
    cases cutAtLastSlash (dropSlashes s) with
    | none => rfl
    | some cut => exact parse_closed cut.1

private theorem parent_ne (cut : splitParent s = (parent, name)) : parent ≠ "" := by
  have root : "/" ≠ "" := by decide
  have here : "." ≠ "" := by decide
  unfold splitParent at cut
  dsimp only at cut
  split at cut
  · cases cut
    split
    · exact root
    · exact here
  · split at cut
    · cases cut
      exact here
    · cases cut
      split
      · exact root
      · rename_i inhabited
        simpa using inhabited

/-- The parent that a path is cut into is the path without its last component. -/
theorem parse_parent (cut : splitParent s = (parent, name)) (named : name ≠ "") :
    parse parent = (parse s).front := by
  rcases (splitParent_spec cut named).2 with ⟨dot, relative, alone⟩ | ⟨components, absolute⟩
  · rw [dot, front, if_pos ⟨relative, congrArg List.length alone⟩]
    decide
  · have further : ¬ ((parse s).absolute = false ∧ (parse s).components.length = 1) := by
      rintro ⟨relative, single⟩
      -- With no component in front of the name, what stands in front of it is the root.
      have bare : componentsOf parent = [] := by simpa [parse, components] using single
      change isAbsolute s = false at relative
      rw [← absolute, isAbsolute_of_nil bare (parent_ne cut)] at relative
      cases relative
    rw [front, if_neg further]
    simp only [parse, absolute, components, List.dropLast_concat]

example : parse (splitParent "notes//").1 = ⟨false, ["."]⟩ := by decide

/-! ## The name -/

theorem basename_eq (cut : splitParent s = (parent, name)) (named : name ≠ "") :
    basename s = name := by
  unfold splitParent at cut
  unfold basename
  by_cases empty : (dropSlashes s).isEmpty = true
  · simp only [empty, if_true] at cut
    cases cut
    exact absurd rfl named
  · simp only [empty, Bool.false_eq_true, if_false] at cut ⊢
    cases found : cutAtLastSlash (dropSlashes s) with
    | none =>
      rw [found] at cut
      cases cut
      rfl
    | some around =>
      rw [found] at cut
      cases cut
      rfl

/-- A path with a component is cut at the last one. -/
theorem exists_splitParent (some : componentsOf s ≠ []) : ∃ parent name,
    splitParent s = (parent, name) ∧ (componentsOf s).getLast? = .some name ∧ name ≠ "" := by
  obtain ⟨name, last⟩ := Option.isSome_iff_exists.mp (List.getLast?_isSome.mpr some)
  obtain ⟨parent, cut⟩ := splitParent_of_getLast? last
  exact ⟨parent, name, cut, last, (isComponent_of_mem (List.mem_of_getLast? last)).1⟩

end Path

namespace Command

open Shell

variable {ending name : String}

/-! ## Endings -/

/-- The ending is the last part of the name: more than nothing, and less than all of it. -/
structure EndsIn (name ending : String) : Prop where
  inhabited : ending ≠ ""
  proper : ending ≠ name
  closes : ending.toList <:+ name.toList

/-- What may be left of a name without an ending: something, either the name as it was or the name
cut before the ending, and the latter wherever the name ends in it. -/
structure Shortens (name ending left : String) : Prop where
  inhabited : left ≠ ""
  kept_or_cut : left = name ∨ left ++ ending = name ∧ EndsIn name ending
  cut : EndsIn name ending → left ++ ending = name

private theorem endsWith_iff : name.endsWith ending = true ↔ ending.toList <:+ name.toList := by
  rw [String.endsWith_eq_endsWith_toSlice, String.Slice.endsWith_string_iff, String.copy_toSlice]

theorem dropEnding_empty (name : String) : dropEnding "" name = "" := rfl

theorem dropEnding_append (ends : EndsIn name ending) : dropEnding ending name ++ ending = name := by
  have longer : (name.endsWith ending && name != ending) = true := by
    rw [Bool.and_eq_true, endsWith_iff, bne_iff_ne]
    exact ⟨ends.closes, ends.proper.symm⟩
  unfold dropEnding
  rw [if_neg (by simpa using ends.inhabited), if_pos longer, ← String.toList_inj,
    String.toList_append, String.Slice.toString_eq, String.toList_copy_dropEnd,
    ← String.length_toList]
  exact List.suffix_iff_eq_append.mp ends.closes

theorem dropEnding_of_not_endsIn (inhabited : ending ≠ "") (other : ¬ EndsIn name ending) :
    dropEnding ending name = name := by
  have whole : ¬ (name.endsWith ending && name != ending) = true := by
    rw [Bool.and_eq_true, endsWith_iff, bne_iff_ne]
    exact fun ⟨closes, proper⟩ => other ⟨inhabited, proper.symm, closes⟩
  unfold dropEnding
  rw [if_neg (by simpa using inhabited), if_neg whole]

/-- What is left of a name is as it should be exactly if the ending is not empty. -/
theorem shortens_dropEnding_iff (named : name ≠ "") :
    Shortens name ending (dropEnding ending name) ↔ ending ≠ "" := by
  constructor
  · rintro short rfl
    exact short.inhabited (dropEnding_empty name)
  · intro inhabited
    by_cases ends : EndsIn name ending
    · have whole := dropEnding_append ends
      refine ⟨fun nothing => ends.proper ?_, .inr ⟨whole, ends⟩, fun _ => whole⟩
      rw [← whole, nothing, String.empty_append]
    · rw [dropEnding_of_not_endsIn inhabited ends]
      exact ⟨named, .inl rfl, fun sound => absurd sound ends⟩

/-! ## Paths taken apart -/

private theorem basename_run (path ending : String) (stdin : Option String)
    (caller : Caller Command) (workspace : Workspace) :
    run (.builtin .basename) [path, ending] stdin caller workspace =
      (.ok (.text (dropEnding ending (Path.basename path))), workspace) := by
  change basename [path, ending] caller workspace = _
  rfl

/-- A path with a component is taken apart in one way: the name is its last component, and the
directory is the path without it. The name that is shown without an ending is as it should be
exactly if the ending is not empty; the empty ending leaves nothing of it. -/
theorem parted_and_shortened_iff (path : String) (some : (Path.parse path).components ≠ []) :
    (Path.parse path).components.getLast? = .some (Path.basename path) ∧
    (Path.splitParent path).2 = Path.basename path ∧
    Path.parse (Path.dirname path) = (Path.parse path).front ∧
    Path.parse (Path.splitParent path).1 = (Path.parse path).front ∧
    ∀ ending stdin caller workspace, ∃ left,
      run (.builtin .basename) [path, ending] stdin caller workspace =
        (.ok (.text left), workspace) ∧
      (Shortens (Path.basename path) ending left ↔ ending ≠ "") ∧
      (ending = "" → left = "") := by
  obtain ⟨parent, name, cut, last, named⟩ := Path.exists_splitParent some
  have front := Path.parse_parent cut named
  have directory := Path.parse_dirname path
  rw [cut] at directory ⊢
  rw [Path.basename_eq cut named]
  refine ⟨last, rfl, directory.trans front, front, fun ending stdin caller workspace => ?_⟩
  refine ⟨dropEnding ending name, ?_, shortens_dropEnding_iff named, ?_⟩
  · rw [basename_run, Path.basename_eq cut named]
  · rintro rfl
    exact dropEnding_empty name

/-- Slashes everywhere, and an ending that comes off. -/
theorem parted_with_slashes : (Path.parse "//a//b.txt//").components ≠ [] ∧
    Path.basename "//a//b.txt//" = "b.txt" ∧
    Path.parse (Path.dirname "//a//b.txt//") = ⟨true, ["a"]⟩ ∧
    ∀ stdin caller workspace, run (.builtin .basename) ["//a//b.txt//", ".txt"] stdin caller
      workspace = (.ok (.text "b"), workspace) := by
  have some : (Path.parse "//a//b.txt//").components ≠ [] := by decide
  have named : Path.basename "//a//b.txt//" = "b.txt" := by decide
  have front : (Path.parse "//a//b.txt//").front = ⟨true, ["a"]⟩ := by decide
  have ends : EndsIn "b.txt" ".txt" := ⟨by decide, by decide, by decide⟩
  obtain ⟨-, -, directory, -, shortened⟩ := parted_and_shortened_iff "//a//b.txt//" some
  refine ⟨some, named, directory.trans front, fun stdin caller workspace => ?_⟩
  obtain ⟨left, ran, short, -⟩ := shortened ".txt" stdin caller workspace
  rw [named] at short
  have whole : left ++ ".txt" = "b" ++ ".txt" := (short.mpr ends.inhabited).cut ends
  rw [ran, (String.append_left_inj _).mp whole]

/-- The empty ending takes the whole name. -/
theorem empty_ending_takes_all : (Path.parse "a.txt").components ≠ [] ∧
    Path.basename "a.txt" = "a.txt" ∧ ¬ Shortens "a.txt" "" "" ∧
    ∀ stdin caller workspace, run (.builtin .basename) ["a.txt", ""] stdin caller workspace =
      (.ok (.text ""), workspace) :=
  ⟨by decide, by decide, fun short => short.inhabited rfl, fun stdin caller workspace => by
    rw [basename_run, dropEnding_empty]⟩

end Command

end PocketShell
