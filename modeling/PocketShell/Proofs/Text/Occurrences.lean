import PocketShell.Text.Split

/-! Occurrences of one text in another, found from the left. Every replacement goes from one first
occurrence to the next, so what it does to a text is told by the text around the first one. -/
namespace PocketShell.Text

variable {old new rest : List Char} {c d : Char}

/-- The characters of a found occurrence are passed. -/
private theorem replaceFrom_skip (old new cs : List Char) (skip : Nat) :
    replaceFrom old new skip cs = replaceFrom old new 0 (cs.drop skip) := by
  induction cs generalizing skip with
  | nil => simp [replaceFrom]
  | cons c rest ih =>
    cases skip with
    | zero => rfl
    | succ skip => exact ih skip

/-- An occurrence at the front is replaced, and the search goes on behind it. -/
theorem replaceFrom_append (some : old ≠ []) :
    replaceFrom old new 0 (old ++ rest) = new ++ replaceFrom old new 0 rest := by
  obtain ⟨first, more, rfl⟩ := List.exists_cons_of_ne_nil some
  have found : (first :: more).isPrefixOf (first :: more ++ rest) = true := by simp
  rw [List.cons_append] at found ⊢
  rw [replaceFrom, if_pos found, replaceFrom_skip]
  simp

/-- A character at which nothing is found stays. -/
theorem replaceFrom_cons (other : ¬ old <+: c :: rest) :
    replaceFrom old new 0 (c :: rest) = c :: replaceFrom old new 0 rest := by
  rw [replaceFrom, if_neg (mt List.isPrefixOf_iff_prefix.mp other)]

/-- Nothing is found where the first character is another. -/
theorem replaceFrom_cons_of_ne (apart : c ≠ d) :
    replaceFrom (c :: old) new 0 (d :: rest) = d :: replaceFrom (c :: old) new 0 rest :=
  replaceFrom_cons fun found => apart (List.cons_prefix_cons.mp found).1

/-- A single character is replaced wherever it stands. -/
theorem replaceFrom_single (c d : Char) (cs : List Char) :
    replaceFrom [c] [d] 0 cs = cs.map fun e => if e = c then d else e := by
  induction cs with
  | nil => rfl
  | cons e rest ih =>
    by_cases same : e = c
    · have front : e :: rest = [c] ++ rest := by rw [same]; rfl
      rw [front, replaceFrom_append (List.cons_ne_nil _ _), ih]
      simp
    · rw [replaceFrom_cons_of_ne (Ne.symm same), ih, List.map_cons, if_neg same]

/-! ## The first occurrence -/

/-- The text before the first occurrence and the text behind it. -/
def cutAround? (part : List Char) : List Char → Option (List Char × List Char)
  | [] => if part.isEmpty then some ([], []) else none
  | c :: rest =>
    if part.isPrefixOf (c :: rest) then some ([], (c :: rest).drop part.length)
    else (cutAround? part rest).map fun (before, behind) => (c :: before, behind)

/-- The text with the first occurrence of `old` replaced. -/
def replaceFirst (old new s : String) : String :=
  match cutAround? old.toList s.toList with
  | none => s
  | some (before, behind) => String.ofList (before ++ new.toList ++ behind)

theorem cutAround?_append (filled : old ≠ []) : cutAround? old (old ++ rest) = some ([], rest) := by
  obtain ⟨first, more, rfl⟩ := List.exists_cons_of_ne_nil filled
  have found : (first :: more).isPrefixOf (first :: more ++ rest) = true := by simp
  rw [List.cons_append] at found ⊢
  rw [cutAround?, if_pos found, ← List.cons_append, List.drop_left]

theorem cutAround?_cons (other : ¬ old <+: c :: rest) :
    cutAround? old (c :: rest) =
      (cutAround? old rest).map fun (before, behind) => (c :: before, behind) := by
  rw [cutAround?, if_neg (mt List.isPrefixOf_iff_prefix.mp other)]

/-- What is cut around an occurrence is the whole text. -/
theorem eq_of_cutAround? {cs before behind : List Char}
    (cut : cutAround? old cs = some (before, behind)) : cs = before ++ old ++ behind := by
  fun_induction cutAround? old cs generalizing before with
  | case1 none =>
    cases cut
    simpa using none
  | case2 => cases cut
  | case3 c rest found =>
    cases cut
    exact (List.prefix_iff_eq_append.mp (List.isPrefixOf_iff_prefix.mp found)).symm
  | case4 c rest other ih =>
    obtain ⟨⟨front, _⟩, inside, same⟩ := Option.map_eq_some_iff.mp cut
    cases same
    rw [ih inside]
    rfl

/-- All occurrences are replaced by replacing the first one and those behind it. -/
theorem replaceFrom_eq_cutAround? (filled : old ≠ []) (cs : List Char) :
    replaceFrom old new 0 cs = match cutAround? old cs with
      | none => cs
      | some (before, behind) => before ++ new ++ replaceFrom old new 0 behind := by
  induction cs with
  | nil =>
    have inhabited : old.isEmpty = false := by simpa using filled
    rw [cutAround?, inhabited]
    rfl
  | cons c rest ih =>
    by_cases found : old <+: c :: rest
    · obtain ⟨behind, shape⟩ := found
      rw [← shape, cutAround?_append filled, replaceFrom_append filled]
      rfl
    · rw [replaceFrom_cons found, cutAround?_cons found, ih]
      cases cutAround? old rest <;> rfl

/-! ## Characters behind backslashes -/

/-- The text with a backslash before each of the characters given. -/
def guarded (marks text : List Char) : List Char :=
  text.flatMap fun c => if c ∈ marks then ['\\', c] else [c]

section Guarded

variable {marks text : List Char}

theorem guarded_cons_of_mem (member : c ∈ marks) (text : List Char) :
    guarded marks (c :: text) = '\\' :: c :: guarded marks text := by
  rw [guarded, List.flatMap_cons, if_pos member]
  rfl

theorem guarded_cons_of_notMem (free : c ∉ marks) (text : List Char) :
    guarded marks (c :: text) = c :: guarded marks text := by
  rw [guarded, List.flatMap_cons, if_neg free]
  rfl

theorem guarded_of_free (free : ∀ c ∈ text, c ∉ marks) : guarded marks text = text := by
  induction text with
  | nil => rfl
  | cons c rest ih =>
    obtain ⟨first, others⟩ := List.forall_mem_cons.mp free
    rw [guarded_cons_of_notMem first, ih others]

/-- What is guarded does not come first. -/
theorem head_guarded (member : c ∈ marks) (other : c ≠ '\\') (text : List Char) :
    (guarded marks text).head? ≠ some c := by
  cases text with
  | nil => simp [guarded]
  | cons d rest =>
    by_cases inside : d ∈ marks
    · simpa [guarded_cons_of_mem inside] using Ne.symm other
    · rw [guarded_cons_of_notMem inside, List.head?_cons, Ne, Option.some.injEq]
      rintro rfl
      exact inside member

/-- Of backslashes and another character the guards of the other one are taken off: no backslash
that is guarded itself stands before it. -/
theorem replaceFrom_guarded (other : c ≠ '\\') (text : List Char) :
    replaceFrom ['\\', c] [c] 0 (guarded ['\\', c] text) = guarded ['\\'] text := by
  induction text with
  | nil => rfl
  | cons d rest ih =>
    by_cases backslash : d = '\\'
    · subst backslash
      have apart : ¬ ['\\', c] <+: '\\' :: guarded ['\\', c] rest := by
        intro found
        obtain ⟨more, shape⟩ := (List.cons_prefix_cons.mp found).2
        exact head_guarded (List.mem_cons_of_mem _ (List.mem_singleton_self c)) other rest
          (by rw [← shape]; rfl)
      rw [guarded_cons_of_mem (by simp), guarded_cons_of_mem (by simp),
        replaceFrom_cons (by simp [List.cons_prefix_cons, other]), replaceFrom_cons apart, ih]
    by_cases same : d = c
    · subst same
      rw [guarded_cons_of_mem (by simp), guarded_cons_of_notMem (by simpa using backslash)]
      change replaceFrom ['\\', d] [d] 0 (['\\', d] ++ guarded ['\\', d] rest) = _
      rw [replaceFrom_append (List.cons_ne_nil _ _), ih]
      rfl
    · rw [guarded_cons_of_notMem (by simp [backslash, same]),
        guarded_cons_of_notMem (by simpa using backslash),
        replaceFrom_cons_of_ne (Ne.symm backslash), ih]

end Guarded

end PocketShell.Text
