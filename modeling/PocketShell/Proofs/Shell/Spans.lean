import PocketShell.Proofs.Shell.Scanning

/-! Where a substitution ends. What stands between its opening and the parenthesis that closes it
is balanced, and whether a text is balanced is seen from the text alone: outside quotes a backslash
is a character like others, and within double quotes nothing opens a substitution. -/
namespace PocketShell.Shell

open Text (singleQuote doubleQuote)

/-! ## Balanced texts -/

/-- Between double quotes the text holds none that is not behind a backslash, and no backslash that
is the last character. -/
inductive Sealed : List Char → Prop
  | nil : Sealed []
  | pair {c text} : Sealed text → Sealed ('\\' :: c :: text)
  | char {c text} : c ≠ '\\' → c ≠ doubleQuote → Sealed text → Sealed (c :: text)

/-- The text may stand between two of the quotes. -/
def Hides (q : Char) (text : List Char) : Prop :=
  if q = doubleQuote then Sealed text else q ∉ text

/-- Quotes come in pairs and so do the openings of substitutions and the parentheses that close
them, those between quotes aside. -/
inductive Balanced : List Char → Prop
  | nil : Balanced []
  | plain {c text} : isQuote c = false → c ≠ ')' → (c = '$' → text.head? ≠ some '(') →
      Balanced text → Balanced (c :: text)
  | quoted {q inner text} : isQuote q = true → Hides q inner → Balanced text →
      Balanced (q :: (inner ++ q :: text))
  | span {inner text} : Balanced inner → Balanced text → Balanced (spanOf inner ++ text)

/-! ## The way to the closing parenthesis -/

/-- The text leads to the parenthesis that closes a substitution; `depth` substitutions and the
given quote are open before it. -/
inductive Closes : Nat → Option Char → List Char → Prop
  | done : Closes 0 none []
  | pair {depth c inner} : Closes depth (some doubleQuote) inner →
      Closes depth (some doubleQuote) ('\\' :: c :: inner)
  | quoted {depth q c inner} : ¬ (c = '\\' ∧ q = doubleQuote) →
      Closes depth (if c = q then none else some q) inner → Closes depth (some q) (c :: inner)
  | quote {depth q inner} : isQuote q = true → Closes depth (some q) inner →
      Closes depth none (q :: inner)
  | opening {depth inner} : Closes (depth + 1) none inner → Closes depth none ('$' :: '(' :: inner)
  | closing {depth inner} : Closes depth none inner → Closes (depth + 1) none (')' :: inner)
  | plain {depth c inner} : isQuote c = false → c ≠ ')' → (c = '$' → inner.head? ≠ some '(') →
      Closes depth none inner → Closes depth none (c :: inner)

variable {depth : Nat} {quote : Option Char} {q c : Char}
  {text inner after rest command : List Char}

/-- The finder goes on behind the text. -/
private def onward (front : List Char) :
    Option (List Char × List Char) → Option (List Char × List Char) :=
  Option.map fun (inner, after) => (front ++ inner, after)

private theorem untilClose_pair : untilClose depth (some doubleQuote) ('\\' :: c :: rest) =
    onward ['\\', c] (untilClose depth (some doubleQuote) rest) := by
  rw [untilClose, if_pos ⟨rfl, rfl⟩]
  rfl

private theorem untilClose_quoted (bare : ¬ (c = '\\' ∧ q = doubleQuote)) (more : rest ≠ []) :
    untilClose depth (some q) (c :: rest) =
      onward [c] (untilClose depth (if c = q then none else some q) rest) := by
  obtain ⟨d, rest, rfl⟩ := List.exists_cons_of_ne_nil more
  rw [untilClose, if_neg bare]
  rfl

private theorem untilClose_quote (opens : isQuote q = true) :
    untilClose depth none (q :: rest) = onward [q] (untilClose depth (some q) rest) := by
  rw [untilClose.eq_def]
  simp only [opens, if_true]
  rfl

private theorem untilClose_opening : untilClose depth none ('$' :: '(' :: rest) =
    onward ['$', '('] (untilClose (depth + 1) none rest) := by
  rw [untilClose.eq_def]
  rfl

private theorem untilClose_closing : untilClose (depth + 1) none (')' :: rest) =
    onward [')'] (untilClose depth none rest) := by
  rw [untilClose.eq_def]
  rfl

private theorem untilClose_close : untilClose 0 none (')' :: rest) = some ([], rest) := by
  rw [untilClose.eq_def]
  rfl

private theorem untilClose_plain (opens : isQuote c = false) (shuts : c ≠ ')')
    (stays : c = '$' → rest.head? ≠ some '(') :
    untilClose depth none (c :: rest) = onward [c] (untilClose depth none rest) := by
  rw [untilClose.eq_def]
  simp only [opens, Bool.false_eq_true, if_false, shuts]
  split
  · rename_i dollar
    split
    · exact absurd rfl (stays dollar)
    · rfl
  · rfl

private theorem untilClose_of_closes (closes : Closes depth quote inner) (after : List Char) :
    untilClose depth quote (inner ++ ')' :: after) = some (inner, after) := by
  induction closes with
  | done => exact untilClose_close
  | pair _ ih => rw [List.cons_append, List.cons_append, untilClose_pair, ih]; rfl
  | quoted bare _ ih => rw [List.cons_append, untilClose_quoted bare (by simp), ih]; rfl
  | quote opens _ ih => rw [List.cons_append, untilClose_quote opens, ih]; rfl
  | opening _ ih => rw [List.cons_append, List.cons_append, untilClose_opening, ih]; rfl
  | closing _ ih => rw [List.cons_append, untilClose_closing, ih]; rfl
  | @plain depth c inner opens shuts stays _ ih =>
    have bare : c = '$' → (inner ++ ')' :: after).head? ≠ some '(' := by
      cases inner with
      | nil => simp
      | cons => exact stays
    rw [List.cons_append, untilClose_plain opens shuts bare, ih]
    rfl

private theorem onward_eq_some (front : List Char) {found : Option (List Char × List Char)}
    (same : onward front found = some (inner, after)) :
    ∃ tail, inner = front ++ tail ∧ found = some (tail, after) := by
  obtain ⟨⟨tail, rest⟩, held, same⟩ := Option.map_eq_some_iff.mp same
  cases same
  exact ⟨tail, rfl, held⟩

private theorem closes_of_untilClose (ran : untilClose depth quote text = some (inner, after)) :
    Closes depth quote inner := by
  fun_induction untilClose depth quote text generalizing inner after with
  | case1 => cases ran
  | case2 depth q c d rest escapes ih =>
    obtain ⟨rfl, rfl⟩ := escapes
    obtain ⟨tail, rfl, found⟩ := onward_eq_some ['\\', d] ran
    exact .pair (ih found)
  | case3 depth q c d rest bare ih =>
    obtain ⟨tail, rfl, found⟩ := onward_eq_some [c] ran
    exact .quoted bare (ih found)
  | case4 => cases ran
  | case5 depth c rest opens ih =>
    obtain ⟨tail, rfl, found⟩ := onward_eq_some [c] ran
    exact .quote opens (ih found)
  | case6 depth rest opens ih =>
    obtain ⟨tail, rfl, found⟩ := onward_eq_some ['$', '('] ran
    exact .opening (ih found)
  | case7 depth rest bare opens ih =>
    obtain ⟨tail, rfl, found⟩ := onward_eq_some ['$'] ran
    refine .plain rfl (by decide) (fun _ begins => ?_) (ih found)
    have whole := eq_append_of_untilClose found
    cases tail with
    | nil => cases begins
    | cons c tail =>
      cases begins
      exact bare _ whole
  | case8 => cases ran; exact .done
  | case9 below rest opens shuts ih =>
    obtain ⟨tail, rfl, found⟩ := onward_eq_some [')'] ran
    exact .closing (ih found)
  | case10 depth c rest opens dollar shuts ih =>
    obtain ⟨tail, rfl, found⟩ := onward_eq_some [c] ran
    exact .plain (by simpa using opens) shuts (fun same => absurd same dollar) (ih found)

/-- A substitution is found by its command alone, whatever follows it. -/
theorem substitution_spanOf_iff :
    substitution? (spanOf command ++ rest) = some (command, rest) ↔ Closes 0 none command := by
  have opened : substitution? (spanOf command ++ rest) = untilClose 0 none (command ++ ')' :: rest) := by
    simp [spanOf, substitution?]
  rw [opened]
  exact ⟨closes_of_untilClose, fun closes => untilClose_of_closes closes rest⟩

theorem closes_of_substitution (found : substitution? text = some (command, after)) :
    Closes 0 none command := by
  have whole := eq_append_of_substitution found
  rw [whole] at found
  exact substitution_spanOf_iff.mp found

/-- More text behind it makes no difference to a substitution. -/
theorem substitution_append (found : substitution? text = some (command, after))
    (more : List Char) : substitution? (text ++ more) = some (command, after ++ more) := by
  rw [eq_append_of_substitution found, List.append_assoc]
  exact substitution_spanOf_iff.mpr (closes_of_substitution found)

/-! ## Layers -/

theorem Sealed.closes (hidden : Sealed text) (closes : Closes depth none rest) :
    Closes depth (some doubleQuote) (text ++ doubleQuote :: rest) := by
  induction hidden with
  | nil => exact .quoted (by decide) (by simpa using closes)
  | pair _ ih => exact .pair ih
  | char escapes inside _ ih =>
    exact .quoted (fun both => escapes both.1) (by rw [if_neg inside]; exact ih)

private theorem Hides.closes (hidden : Hides q text) (closes : Closes depth none rest) :
    Closes depth (some q) (text ++ q :: rest) := by
  unfold Hides at hidden
  split at hidden
  · rename_i double
    subst double
    exact hidden.closes closes
  · rename_i single
    have bare : ∀ c, ¬ (c = '\\' ∧ q = doubleQuote) := fun c both => single both.2
    induction text with
    | nil => exact .quoted (bare q) (by simpa using closes)
    | cons c text ih =>
      simp only [List.mem_cons, not_or] at hidden
      exact .quoted (bare c) (by rw [if_neg (Ne.symm hidden.1)]; exact ih hidden.2)

/-- A balanced text leaves the finder where it was. -/
theorem Balanced.closes (balanced : Balanced text) (closes : Closes depth none rest)
    (apart : rest.head? ≠ some '(') : Closes depth none (text ++ rest) := by
  induction balanced generalizing depth rest with
  | nil => exact closes
  | @plain c text opens shuts stays _ ih =>
    refine .plain opens shuts (fun dollar => ?_) (ih closes apart)
    cases text with
    | nil => exact apart
    | cons => exact stays dollar
  | quoted opens hidden _ ih =>
    rw [List.cons_append, List.append_assoc]
    exact .quote opens (hidden.closes (ih closes apart))
  | span _ _ inside ih =>
    simp only [spanOf, List.cons_append, List.append_assoc, List.nil_append]
    exact .opening (inside (.closing (ih closes apart)) (by simp))

/-- Balanced texts, each but the last with the parenthesis that closes what it stands in. -/
private def Layers : Nat → List Char → Prop
  | 0, text => Balanced text
  | depth + 1, text =>
    ∃ inner rest, text = inner ++ ')' :: rest ∧ Balanced inner ∧ Layers depth rest

private theorem Layers.prepend (front : List Char) (layers : Layers depth text)
    (keeps : ∀ inner rest, text = inner ++ rest → Balanced inner → Balanced (front ++ inner)) :
    Layers depth (front ++ text) := by
  cases depth with
  | zero => exact keeps text [] (by simp) layers
  | succ depth =>
    obtain ⟨inner, rest, rfl, balanced, later⟩ := layers
    exact ⟨front ++ inner, rest, by simp, keeps _ _ rfl balanced, later⟩

/-- What is left of the text between open quotes, and the layers behind it. -/
private def Opened (depth : Nat) : Option Char → List Char → Prop
  | none, text => Layers depth text
  | some q, text => ∃ inner rest, text = inner ++ q :: rest ∧ Hides q inner ∧ Layers depth rest

private theorem opened_of_closes (closes : Closes depth quote text) : Opened depth quote text := by
  induction closes with
  | done => exact Balanced.nil
  | @pair depth c inner _ ih =>
    obtain ⟨hidden, rest, rfl, hides, layers⟩ := ih
    exact ⟨'\\' :: c :: hidden, rest, rfl, .pair hides, layers⟩
  | @quoted depth q c inner bare _ ih =>
    by_cases same : c = q
    · rw [if_pos same] at ih
      subst same
      refine ⟨[], inner, rfl, ?_, ih⟩
      unfold Hides
      split
      · exact .nil
      · simp
    · rw [if_neg same] at ih
      obtain ⟨hidden, rest, rfl, hides, layers⟩ := ih
      refine ⟨c :: hidden, rest, rfl, ?_, layers⟩
      unfold Hides at hides ⊢
      split
      · rename_i double
        subst double
        exact .char (fun escapes => bare ⟨escapes, rfl⟩) same (by simpa using hides)
      · rename_i single
        rw [if_neg single] at hides
        simpa using ⟨Ne.symm same, hides⟩
  | @quote depth q inner opens _ ih =>
    obtain ⟨hidden, rest, rfl, hides, layers⟩ := ih
    have whole : q :: (hidden ++ q :: rest) = (q :: hidden ++ [q]) ++ rest := by simp
    change Layers depth _
    rw [whole]
    refine layers.prepend _ fun inner rest _ balanced => ?_
    simpa using Balanced.quoted opens hides balanced
  | @opening depth inner _ ih =>
    obtain ⟨command, rest, rfl, balanced, layers⟩ := ih
    have whole : '$' :: '(' :: (command ++ ')' :: rest) = spanOf command ++ rest := by simp [spanOf]
    change Layers depth _
    rw [whole]
    exact layers.prepend _ fun inner rest _ later => .span balanced later
  | closing _ ih => exact ⟨[], _, rfl, .nil, ih⟩
  | @plain depth c inner opens shuts stays _ ih =>
    refine Layers.prepend [c] ih fun begin rest whole balanced => ?_
    refine .plain opens shuts (fun dollar => ?_) balanced
    have stays := stays dollar
    rw [whole] at stays
    cases begin with
    | nil => simp
    | cons => exact stays

theorem closes_iff_balanced : Closes 0 none text ↔ Balanced text := by
  refine ⟨opened_of_closes, fun balanced => ?_⟩
  simpa using balanced.closes .done (by simp)

/-- The finder takes a span for the substitution of a command exactly if the command is balanced. -/
theorem substitution_iff_balanced :
    substitution? (spanOf command ++ rest) = some (command, rest) ↔ Balanced command :=
  substitution_spanOf_iff.trans closes_iff_balanced

/-! ## Parts of a word -/

/-- Only a dollar sign and a parenthesis begin a substitution. -/
theorem substitution_unopened (unopened : c = '$' → rest.head? ≠ some '(') :
    substitution? (c :: rest) = none := by
  unfold substitution?
  split
  · rename_i same
    cases same
    exact absurd rfl (unopened rfl)
  · rfl

theorem substitution_none (differs : c ≠ '$') : substitution? (c :: rest) = none :=
  substitution_unopened fun same => absurd same differs

@[simp] theorem parts_nil : parts [] = [] := by
  rw [parts]

theorem parts_protected (rest : List Char) :
    parts ('\\' :: '$' :: rest) = Part.before ['\\', '$'] (parts rest) := by
  rw [parts]

theorem parts_char (unprotected : c = '\\' → rest.head? ≠ some '$')
    (spanless : substitution? (c :: rest) = none) :
    parts (c :: rest) = Part.before [c] (parts rest) := by
  rw [parts]
  · split
    · rename_i found
      cases spanless.symm.trans found
    · rfl
  · rintro rest' rfl rfl
    exact unprotected rfl rfl

theorem parts_span (found : substitution? text = some (command, after)) :
    parts text = .command command :: parts after := by
  obtain ⟨rest, rfl⟩ := opening_of_substitution found
  rw [parts]
  · split
    · rename_i again
      cases found.symm.trans again
      rfl
    · rename_i missing
      cases found.symm.trans missing
  · simp

end PocketShell.Shell
