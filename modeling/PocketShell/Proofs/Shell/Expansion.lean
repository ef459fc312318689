import Mathlib.Data.List.TakeWhile
import Mathlib.Data.List.Zip
import PocketShell.Shell.Token
import PocketShell.Shell.Variable

/-! What variables put into a word. A dollar sign that is to stay is kept behind a backslash until the
variables of the word have been filled in; then every backslash before a dollar sign goes, wherever the
two have come from. So the word comes out as it was meant exactly if no dollar sign without a backslash
of its own has come to stand behind a backslash. -/
namespace PocketShell.Shell

/-- The value of a variable; one that is not set is empty. -/
def Env.value (env : Env) (name : List Char) : List Char :=
  ((env.get? (String.ofList name)).getD "").toList

/-- What a word means: references are their values, and a dollar sign behind a backslash is one. -/
def meant (env : Env) (word : List Char) : List Char :=
  match word with
  | [] => []
  | '\\' :: '$' :: rest => '$' :: meant env rest
  | c :: rest => match _found : reference? (c :: rest) with
    | some (name, after) => env.value name ++ meant env after
    | none => c :: meant env rest
  termination_by word.length
  decreasing_by
    · simp only [List.length_cons]; omega
    · exact length_lt_of_reference _found
    · simp only [List.length_cons]; omega

/-- A character of a word after its variables; a dollar sign may still have its backslash. -/
inductive Glyph
  | char (c : Char)
  | dollar
  deriving DecidableEq

/-- The glyph before the backslashes are taken from the dollar signs. -/
def Glyph.source : Glyph → List Char
  | .char c => [c]
  | .dollar => ['\\', '$']

/-- The character that is meant. -/
def Glyph.shown : Glyph → Char
  | .char c => c
  | .dollar => '$'

/-- The glyphs of a word. A dollar sign loses its backslash early if it would begin a reference. -/
def glyphs (env : Env) (word : List Char) : List Glyph :=
  match word with
  | [] => []
  | '\\' :: '$' :: rest =>
    (if (reference? ('$' :: rest)).isSome then .char '$' else .dollar) :: glyphs env rest
  | c :: rest => match _found : reference? (c :: rest) with
    | some (name, after) => (env.value name).map .char ++ glyphs env after
    | none => .char c :: glyphs env rest
  termination_by word.length
  decreasing_by
    · simp only [List.length_cons]; omega
    · exact length_lt_of_reference _found
    · simp only [List.length_cons]; omega

/-- No dollar sign without a backslash of its own stands behind a backslash. -/
def Unconfused (env : Env) (word : List Char) : Prop :=
  ¬ [.char '\\', .char '$'] <:+: glyphs env word

instance (env : Env) (word : List Char) : Decidable (Unconfused env word) :=
  inferInstanceAs (Decidable (¬ _))

/-- The text and what follows it are read apart: no backslash at the end gets a dollar sign, and a
reference is the same with what follows and without. -/
structure Apart (front back : List Char) : Prop where
  slash : front.getLast? = some '\\' → back.head? ≠ some '$'
  reference : ∀ before rest, before ++ rest = front → rest.head? = some '$' →
    before.getLast? ≠ some '\\' →
    reference? (rest ++ back) = (reference? rest).map fun (name, after) => (name, after ++ back)

instance (front back : List Char) : Decidable (Apart front back) :=
  decidable_of_iff ((front.getLast? = some '\\' → back.head? ≠ some '$') ∧
      ∀ split ∈ front.inits.zip front.tails, split.2.head? = some '$' →
        split.1.getLast? ≠ some '\\' →
        reference? (split.2 ++ back) =
          (reference? split.2).map fun (name, after) => (name, after ++ back))
    ⟨fun ⟨slash, reference⟩ => ⟨slash, fun before rest whole =>
        reference (before, rest) (List.mem_zip_inits_tails.mpr whole)⟩,
      fun apart => ⟨apart.slash, fun (before, rest) listed =>
        apart.reference before rest (List.mem_zip_inits_tails.mp listed)⟩⟩

variable {env : Env} {text front back rest after name : List Char} {c : Char}

/-! ## References -/

private theorem wordChar_plain (named : Text.isWordChar c = true) : c ≠ '\\' ∧ c ≠ '$' := by
  constructor <;> rintro rfl <;> revert named <;> decide

private theorem name_text (found : name? text = some (name, after)) :
    text = name ++ after ∧ ∀ c ∈ name, c ≠ '\\' ∧ c ≠ '$' := by
  unfold name? at found
  split at found
  · cases found
  · cases found
    exact ⟨List.takeWhile_append_dropWhile.symm,
      fun c member => wordChar_plain (List.mem_takeWhile_imp member)⟩

/-- A reference is a dollar sign and characters that are neither backslash nor dollar sign. -/
private theorem reference_text (found : reference? text = some (name, after)) :
    ∃ body, text = '$' :: (body ++ after) ∧ ∀ c ∈ body, c ≠ '\\' ∧ c ≠ '$' := by
  unfold reference? at found
  split at found
  · rename_i rest
    split at found
    · rename_i named
      cases found
      obtain ⟨rfl, plain⟩ := name_text named
      refine ⟨'{' :: name ++ ['}'], by simp, fun c member => ?_⟩
      simp only [List.cons_append, List.mem_cons, List.mem_append, List.not_mem_nil, or_false]
        at member
      rcases member with rfl | member | rfl
      · decide
      · exact plain c member
      · decide
    · cases found
  · obtain ⟨rfl, plain⟩ := name_text found
    exact ⟨name, rfl, plain⟩
  · cases found

private theorem reference_none (differs : c ≠ '$') : reference? (c :: rest) = none := by
  unfold reference?
  split <;> simp_all

/-! ## Reading a word -/

private theorem head_of_unprotected
    (unprotected : ∀ more, c = '\\' → rest = '$' :: more → False) :
    c = '\\' → rest.head? ≠ some '$' := by
  intro same begins
  obtain ⟨more, rfl⟩ := List.head?_eq_some_iff.mp begins
  exact unprotected more same rfl

@[simp] private theorem meant_nil : meant env [] = [] := by rw [meant]

private theorem meant_protected : meant env ('\\' :: '$' :: rest) = '$' :: meant env rest := by
  rw [meant]

private theorem meant_char (unprotected : c = '\\' → rest.head? ≠ some '$')
    (plain : reference? (c :: rest) = none) : meant env (c :: rest) = c :: meant env rest := by
  rw [meant]
  · split
    · rename_i found
      cases plain.symm.trans found
    · rfl
  · rintro more rfl rfl
    exact unprotected rfl rfl

private theorem meant_reference (found : reference? text = some (name, after)) :
    meant env text = env.value name ++ meant env after := by
  obtain ⟨body, rfl, -⟩ := reference_text found
  rw [meant]
  · split
    · rename_i again
      cases found.symm.trans again
      rfl
    · rename_i missing
      cases found.symm.trans missing
  · simp

@[simp] private theorem glyphs_nil : glyphs env [] = [] := by rw [glyphs]

private theorem glyphs_protected : glyphs env ('\\' :: '$' :: rest) =
    (if (reference? ('$' :: rest)).isSome then .char '$' else .dollar) :: glyphs env rest := by
  rw [glyphs]

private theorem glyphs_char (unprotected : c = '\\' → rest.head? ≠ some '$')
    (plain : reference? (c :: rest) = none) : glyphs env (c :: rest) = .char c :: glyphs env rest := by
  rw [glyphs]
  · split
    · rename_i found
      cases plain.symm.trans found
    · rfl
  · rintro more rfl rfl
    exact unprotected rfl rfl

/-- The glyphs show what is meant. -/
theorem shown_glyphs (word : List Char) : (glyphs env word).map Glyph.shown = meant env word := by
  fun_induction glyphs env word with
  | case1 => simp
  | case2 rest ih =>
    rw [meant_protected, List.map_cons, ih]
    split <;> rfl
  | case3 c rest unprotected name after found ih =>
    rw [meant_reference found, List.map_append, ih]
    simp [Function.comp_def, Glyph.shown]
  | case4 c rest unprotected plain ih =>
    have bare := head_of_unprotected unprotected
    rw [meant_char bare plain, List.map_cons, ih]
    rfl

/-! ## Filling in -/

private theorem fillIn_char (differs : c ≠ '\\') (plain : reference? (c :: rest) = none) :
    fillIn env (c :: rest) = c :: fillIn env rest := by
  rw [fillIn, if_neg differs]
  split
  · rename_i found
    cases plain.symm.trans found
  · rfl

private theorem fillIn_backslash (plain : reference? rest = none) :
    fillIn env ('\\' :: rest) = '\\' :: fillIn env rest := by
  rw [fillIn, if_pos rfl]
  split
  · rename_i found
    cases plain.symm.trans found
  · rfl

private theorem fillIn_kept {body : List Char}
    (found : reference? ('$' :: (body ++ after)) = some (name, after)) :
    fillIn env ('\\' :: '$' :: (body ++ after)) = '$' :: body ++ fillIn env after := by
  rw [fillIn, if_pos rfl]
  split
  · rename_i again
    cases found.symm.trans again
    have length : ('$' :: (body ++ after)).length - after.length = ('$' :: body).length := by
      simp
      omega
    rw [length, ← List.cons_append, List.take_left]
  · rename_i missing
    cases found.symm.trans missing

private theorem fillIn_reference (found : reference? text = some (name, after)) :
    fillIn env text = env.value name ++ fillIn env after := by
  obtain ⟨body, rfl, -⟩ := reference_text found
  rw [fillIn, if_neg (by decide)]
  split
  · rename_i again
    cases found.symm.trans again
    rfl
  · rename_i missing
    cases found.symm.trans missing

theorem fillIn_plain (plain : ∀ c ∈ text, c ≠ '\\' ∧ c ≠ '$') (rest : List Char) :
    fillIn env (text ++ rest) = text ++ fillIn env rest := by
  induction text with
  | nil => rfl
  | cons c text ih =>
    have first := plain c List.mem_cons_self
    rw [List.cons_append, fillIn_char first.1 (reference_none first.2),
      ih fun c member => plain c (List.mem_cons_of_mem _ member), List.cons_append]

/-- The glyphs are what stands in the word once its references are filled in. -/
private theorem fillIn_eq (word : List Char) :
    fillIn env word = (glyphs env word).flatMap Glyph.source := by
  fun_induction glyphs env word with
  | case1 => rw [fillIn, List.flatMap_nil]
  | case2 rest ih =>
    rw [List.flatMap_cons, ← ih]
    cases found : reference? ('$' :: rest) with
    | none =>
      rw [fillIn_backslash found, fillIn_char (by decide) found]
      rfl
    | some split =>
      obtain ⟨name, after⟩ := split
      obtain ⟨body, same, plain⟩ := reference_text found
      cases same
      rw [fillIn_kept found, fillIn_plain plain]
      rfl
  | case3 c rest unprotected name after found ih =>
    rw [fillIn_reference found, List.flatMap_append, ih]
    simp [List.flatMap_map, Glyph.source]
  | case4 c rest unprotected plain ih =>
    rw [List.flatMap_cons, ← ih]
    by_cases escapes : c = '\\'
    · subst escapes
      have bare : reference? rest = none := by
        rcases rest with _ | ⟨first, more⟩
        · rfl
        · exact reference_none fun same => unprotected more rfl (by rw [same])
      rw [fillIn_backslash bare]
      rfl
    · rw [fillIn_char escapes plain]
      rfl

/-! ## Taking the backslashes -/

/-- The text without the backslash before every dollar sign. -/
private def unslash (text : List Char) : List Char := Text.replaceFrom ['\\', '$'] ['$'] 0 text

private theorem unslash_protected : unslash ('\\' :: '$' :: rest) = '$' :: unslash rest := rfl

private theorem unslash_char (unprotected : c = '\\' → rest.head? ≠ some '$') :
    unslash (c :: rest) = c :: unslash rest := by
  have apart : List.isPrefixOf ['\\', '$'] (c :: rest) = false := by
    cases rest with
    | nil => simp [List.isPrefixOf]
    | cons d rest =>
      simp only [List.isPrefixOf, Bool.and_true, Bool.and_eq_false_iff, beq_eq_false_iff_ne]
      by_cases same : c = '\\'
      · exact .inr fun dollar => unprotected same (by rw [← dollar]; rfl)
      · exact .inl (Ne.symm same)
  rw [unslash, Text.replaceFrom, apart]
  rfl

/-- What is meant comes out exactly if no dollar sign without a backslash of its own stands behind a
backslash. -/
private theorem unslash_source_iff (glyphs : List Glyph) :
    unslash (glyphs.flatMap Glyph.source) = glyphs.map Glyph.shown ↔
      ¬ [.char '\\', .char '$'] <:+: glyphs := by
  induction glyphs with
  | nil => exact iff_of_true rfl (by simp)
  | cons glyph glyphs ih =>
    rw [List.flatMap_cons, List.map_cons, List.infix_cons_iff, not_or, ← ih]
    cases glyph with
    | dollar =>
      have apart : ¬ [Glyph.char '\\', .char '$'] <+: .dollar :: glyphs := by simp
      rw [and_iff_right apart]
      change unslash ('\\' :: '$' :: glyphs.flatMap Glyph.source) = _ ↔ _
      rw [unslash_protected]
      simp [Glyph.shown]
    | char c =>
      by_cases confused : [Glyph.char '\\', .char '$'] <+: .char c :: glyphs
      · obtain ⟨others, same⟩ := confused
        cases same
        refine iff_of_false (fun taken => ?_) (fun apart => apart.1 (List.prefix_append _ _))
        change unslash ('\\' :: '$' :: others.flatMap Glyph.source) = _ at taken
        rw [unslash_protected] at taken
        simp [Glyph.shown] at taken
      · rw [and_iff_right confused]
        have unprotected : c = '\\' → (glyphs.flatMap Glyph.source).head? ≠ some '$' := by
          rintro rfl begins
          rcases glyphs with _ | ⟨_ | _, glyphs⟩
          · simp at begins
          · simp only [List.flatMap_cons, Glyph.source, List.singleton_append, List.head?_cons,
              Option.some.injEq] at begins
            exact confused (by simp [begins])
          · simp [Glyph.source] at begins
        change unslash (c :: glyphs.flatMap Glyph.source) = _ ↔ _
        rw [unslash_char unprotected]
        simp [Glyph.shown]

private theorem expandWord_eq (env : Env) (word : String) :
    expandWord env word = String.ofList (unslash (fillIn env word.toList)) := by
  simp only [expandWord, unescapeDollars, Text.replaceAll, unslash, String.toList_ofList]
  rfl

/-- The word comes out as it was meant exactly if it is not confused. -/
theorem expandWord_eq_meant_iff (env : Env) (word : String) :
    expandWord env word = String.ofList (meant env word.toList) ↔ Unconfused env word.toList := by
  rw [expandWord_eq, String.ofList_inj, fillIn_eq, ← shown_glyphs]
  exact unslash_source_iff _

/-! ## Final text -/

theorem head_literally (text : List Char) : (text.flatMap literally).head? ≠ some '$' := by
  rcases text with _ | ⟨c, text⟩
  · simp
  · by_cases dollar : c = '$' <;> simp [literally, dollar]

/-- Final text means itself. -/
theorem meant_literally (text : List Char) : meant env (text.flatMap literally) = text := by
  induction text with
  | nil => simp
  | cons c text ih =>
    rw [List.flatMap_cons]
    by_cases dollar : c = '$'
    · subst dollar
      change meant env ('\\' :: '$' :: text.flatMap literally) = _
      rw [meant_protected, ih]
    · rw [literally, if_neg dollar, List.singleton_append,
        meant_char (fun _ => head_literally text) (reference_none dollar), ih]

private theorem takeWhile_literally (text : List Char) :
    (text.flatMap literally).takeWhile Text.isWordChar = text.takeWhile Text.isWordChar ∧
      (text.flatMap literally).dropWhile Text.isWordChar =
        (text.dropWhile Text.isWordChar).flatMap literally := by
  induction text with
  | nil => simp
  | cons c text ih =>
    rw [List.flatMap_cons]
    by_cases named : Text.isWordChar c = true
    · have dollar : c ≠ '$' := (wordChar_plain named).2
      simp [literally, dollar, named, ih.1, ih.2]
    · by_cases dollar : c = '$'
      · subst dollar
        have slash : Text.isWordChar '\\' = false := by decide
        have sign : Text.isWordChar '$' = false := by decide
        simp [literally, slash, sign]
      · simp [literally, dollar, named]

private theorem name_literally (text : List Char) : name? (text.flatMap literally) =
    (name? text).map fun (name, after) => (name, after.flatMap literally) := by
  obtain ⟨taken, dropped⟩ := takeWhile_literally text
  unfold name?
  rw [taken, dropped]
  split <;> rfl

private theorem reference_unbraced (unbraced : text.head? ≠ some '{') :
    reference? ('$' :: text) = name? text := by
  rcases text with _ | ⟨c, text⟩
  · rfl
  · unfold reference?
    split
    · rename_i same
      cases same
      exact absurd rfl unbraced
    · rename_i same
      cases same
      rfl
    · rename_i unmatched
      exact (unmatched _ rfl).elim

private theorem isSome_reference_braced (inner : List Char) :
    (reference? ('$' :: '{' :: inner)).isSome =
      (name? inner).any fun split => split.2.head? == some '}' := by
  rw [reference?]
  rcases name? inner with _ | ⟨name, _ | ⟨d, after⟩⟩
  · rfl
  · rfl
  · by_cases closes : d = '}' <;> simp [closes]

/-- Protection changes no first character but a dollar sign. -/
private theorem head_literally_iff (plain : c ≠ '\\' ∧ c ≠ '$') :
    (text.flatMap literally).head? = some c ↔ text.head? = some c := by
  rcases text with _ | ⟨d, text⟩
  · simp
  · by_cases dollar : d = '$'
    · simp [literally, dollar, plain.1.symm, plain.2.symm]
    · simp [literally, dollar]

/-- Protected dollar signs begin references where they did before. -/
private theorem isSome_reference_literally (text : List Char) :
    (reference? ('$' :: text.flatMap literally)).isSome = (reference? ('$' :: text)).isSome := by
  by_cases braced : text.head? = some '{'
  · obtain ⟨inner, rfl⟩ := List.head?_eq_some_iff.mp braced
    change (reference? ('$' :: '{' :: inner.flatMap literally)).isSome = _
    rw [isSome_reference_braced, isSome_reference_braced, name_literally]
    cases name? inner with
    | none => rfl
    | some split =>
      have same : (split.2.flatMap literally).head? = some '}' ↔ split.2.head? = some '}' :=
        head_literally_iff (by decide)
      simp [same]
  · have unbraced : (text.flatMap literally).head? ≠ some '{' :=
      mt (head_literally_iff (by decide)).mp braced
    rw [reference_unbraced unbraced, reference_unbraced braced, name_literally, Option.isSome_map]

private theorem glyphs_literally (env : Env) (c : Char) (text : List Char) :
    glyphs env ((c :: text).flatMap literally) =
      (if c = '$' ∧ reference? (c :: text) = none then .dollar else .char c) ::
        glyphs env (text.flatMap literally) := by
  rw [List.flatMap_cons]
  by_cases dollar : c = '$'
  · subst dollar
    change glyphs env ('\\' :: '$' :: text.flatMap literally) = _
    rw [glyphs_protected, isSome_reference_literally]
    cases reference? ('$' :: text) <;> simp
  · rw [literally, if_neg dollar, if_neg (fun both => dollar both.1), List.singleton_append,
      glyphs_char (fun _ => head_literally text) (reference_none dollar)]

/-- Final text is confused exactly if one of its backslashes stands before a reference. -/
theorem confused_literally_iff (env : Env) (text : List Char) :
    ¬ Unconfused env (text.flatMap literally) ↔
      ∃ front back, text = front ++ '\\' :: back ∧ reference? back ≠ none := by
  rw [Unconfused, not_not]
  induction text with
  | nil => simp
  | cons c text ih =>
    have here : [Glyph.char '\\', .char '$'] <+: glyphs env ((c :: text).flatMap literally) ↔
        c = '\\' ∧ reference? text ≠ none := by
      rw [glyphs_literally, List.cons_prefix_cons]
      rcases text with _ | ⟨d, text⟩
      · simp [reference?]
      · rw [glyphs_literally, List.cons_prefix_cons]
        by_cases dollar : d = '$'
        · subst dollar
          cases reference? ('$' :: text) <;> split <;> simp_all [eq_comm]
        · rw [reference_none dollar]
          split <;> split <;> simp_all [eq_comm]
    rw [glyphs_literally] at here ⊢
    rw [List.infix_cons_iff, ih, here]
    constructor
    · rintro (⟨rfl, found⟩ | ⟨front, back, rfl, found⟩)
      · exact ⟨[], text, rfl, found⟩
      · exact ⟨c :: front, back, rfl, found⟩
    · rintro ⟨_ | ⟨first, front⟩, back, whole, found⟩
      · cases whole
        exact .inl ⟨rfl, found⟩
      · cases whole
        exact .inr ⟨front, back, rfl, found⟩

/-! ## Seams -/

section

variable {tail : List Char}

private theorem Apart.suffix (head : List Char) (apart : Apart (head ++ tail) back)
    (bare : head.getLast? = some '\\' → tail.head? ≠ some '$') : Apart tail back where
  slash ends := by
    refine apart.slash ?_
    rw [List.getLast?_append, ends]
    rfl
  reference before rest whole begins unprotected := by
    subst whole
    refine apart.reference (head ++ before) rest (by simp) begins ?_
    rcases before with _ | ⟨c, before⟩
    · rw [List.append_nil]
      exact fun ends => bare ends begins
    · rw [List.getLast?_append]
      rcases last : (c :: before).getLast? with _ | d
      · simp at last
      · simpa [last] using unprotected

/-- What is read apart means what its two sides mean. -/
theorem meant_append (env : Env) (apart : Apart front back) :
    meant env (front ++ back) = meant env front ++ meant env back := by
  fun_induction meant env front with
  | case1 => rfl
  | case2 rest ih =>
    rw [List.cons_append, List.cons_append, meant_protected, ih, List.cons_append]
    exact apart.suffix ['\\', '$'] (by simp)
  | case3 c rest unprotected name after found ih =>
    obtain ⟨body, same, plain⟩ := reference_text found
    cases same
    have further : reference? ('$' :: (body ++ after) ++ back) = some (name, after ++ back) := by
      rw [apart.reference [] _ rfl rfl (by simp), found]
      rfl
    have bare : ('$' :: body).getLast? ≠ some '\\' := by
      intro ends
      rcases List.mem_cons.mp (List.mem_of_getLast? ends) with impossible | member
      · exact absurd impossible (by decide)
      · exact (plain _ member).1 rfl
    rw [meant_reference further, List.append_assoc, ih]
    exact apart.suffix ('$' :: body) (fun ends => absurd ends bare)
  | case4 c rest unprotected plain ih =>
    have bare := head_of_unprotected unprotected
    have stays : c = '\\' → (rest ++ back).head? ≠ some '$' := by
      intro same
      rcases rest with _ | ⟨d, rest⟩
      · exact apart.slash (by simp [same])
      · exact bare same
    have spared : reference? (c :: rest ++ back) = none := by
      by_cases dollar : c = '$'
      · subst dollar
        rw [apart.reference [] _ rfl rfl (by simp), plain]
        rfl
      · exact reference_none dollar
    rw [List.cons_append, meant_char stays spared, ih, List.cons_append]
    exact apart.suffix [c] (by simpa using bare)

end

end PocketShell.Shell
