import PocketShell.Pattern.Compile

/-! Reading patterns, token by token. What a reader takes is described by the text at the front of
the source, whatever follows it, and by how many characters are behind the source afterwards. -/
namespace PocketShell.Pattern

variable {source : Source} {c : Char} {text more : List Char} {p : Char → Bool}

/-- The source some characters further on. -/
def Source.skip (source : Source) (n : Nat) : Source :=
  { source with rest := source.rest.drop n, position := source.position + n }

namespace Source

variable {m n : Nat}

@[simp] theorem skip_rest : (source.skip n).rest = source.rest.drop n := rfl

@[simp] theorem skip_flags : (source.skip n).flags = source.flags := rfl

@[simp] theorem skip_conditions : (source.skip n).conditions = source.conditions := rfl

@[simp] theorem skip_skip : (source.skip m).skip n = source.skip (m + n) := by
  simp [skip, Nat.add_assoc]

@[simp] theorem skip_zero : source.skip 0 = source := rfl

theorem rest_skip (front : source.rest = text ++ more) :
    (source.skip text.length).rest = more := by
  simp [front]

end Source

/-- No backslash ends the text; so none is ever the last thing to be read. -/
def Sealed (rest : List Char) : Prop := rest.getLast? ≠ some '\\'

theorem Sealed.skip (closed : Sealed source.rest) (n : Nat) : Sealed (source.skip n).rest := by
  intro ends
  rw [Source.skip_rest] at ends
  apply closed
  rw [← List.take_append_drop n source.rest, List.getLast?_append, ends]
  rfl

namespace Reader

variable {α β : Type} {reader : Reader α} {onward : α → Reader β} {value : α} {after : Source}

theorem bind_ok (reads : reader source = .ok (value, after)) :
    (reader >>= onward) source = onward value after := by
  change (reader source >>= fun pair => onward pair.1 pair.2) = _
  rw [reads]
  rfl

theorem map_ok {f : α → β} (reads : reader source = .ok (value, after)) :
    (f <$> reader) source = .ok (f value, after) := by
  change (reader source >>= fun pair => pure (f pair.1, pair.2)) = _
  rw [reads]
  rfl

theorem discard_ok (reads : reader source = .ok (value, after)) :
    discard reader source = .ok ((), after) :=
  map_ok reads

theorem get_bind {onward : Source → Reader β} :
    (get >>= onward) source = onward source source := rfl

theorem position_bind {onward : Nat → Reader β} :
    (position >>= onward) source = onward source.position source := rfl

theorem remaining_bind {onward : Nat → Reader β} :
    (remaining >>= onward) source = onward source.rest.length source := rfl

/-! ## Tokens -/

theorem peek_nil (front : source.rest = []) : peek source = .ok (none, source) := by
  unfold peek
  rw [get_bind, front]
  rfl

theorem peek_plain (front : source.rest = c :: more) (bare : c ≠ '\\') :
    peek source = .ok (some (.plain c), source) := by
  unfold peek
  rw [get_bind, front]
  simp [bare]
  rfl

theorem peek_escaped (front : source.rest = '\\' :: c :: more) :
    peek source = .ok (some (.escaped c), source) := by
  unfold peek
  rw [get_bind, front]
  rfl

theorem checkBackslash_ok (closed : Sealed source.rest) :
    checkBackslash source = .ok ((), source) := by
  unfold checkBackslash
  rw [get_bind, if_neg]
  · rfl
  · intro bare
    exact closed (by rw [bare]; rfl)

/-- What is next is taken if the text is sealed behind it. -/
private theorem next_ok {token : Token} (seen : peek source = .ok (some token, source))
    (closed : Sealed source.rest) :
    next source = .ok (some token, source.skip token.width) := by
  unfold next
  rw [bind_ok seen]
  exact (bind_ok (rfl : _ = Except.ok ((), source.skip token.width))).trans
    (bind_ok (checkBackslash_ok (closed.skip _)))

theorem next_nil (front : source.rest = []) : next source = .ok (none, source) := by
  unfold next
  rw [bind_ok (peek_nil front)]
  rfl

theorem next_plain (front : source.rest = c :: more) (bare : c ≠ '\\')
    (closed : Sealed source.rest) : next source = .ok (some (.plain c), source.skip 1) :=
  next_ok (peek_plain front bare) closed

theorem next_escaped (front : source.rest = '\\' :: c :: more) (closed : Sealed source.rest) :
    next source = .ok (some (.escaped c), source.skip 2) :=
  next_ok (peek_escaped front) closed

theorem accept_plain (front : source.rest = c :: more) (bare : c ≠ '\\')
    (closed : Sealed source.rest) : accept c source = .ok (true, source.skip 1) := by
  unfold accept
  rw [bind_ok (peek_plain front bare), if_pos rfl]
  exact bind_ok (discard_ok (next_plain front bare closed))

/-- What is next shows in the first character. -/
private theorem exists_peek (source : Source) : ∃ token, peek source = .ok (token, source) ∧
    ∀ d, token = some (.plain d) → source.rest.head? = some d := by
  rcases shape : source.rest with _ | ⟨c, rest⟩
  · exact ⟨none, peek_nil shape, fun d same => by cases same⟩
  · by_cases escape : c = '\\'
    · subst escape
      cases rest with
      | nil =>
        refine ⟨some (.plain '\\'), ?_, fun d same => by cases same; rfl⟩
        unfold peek
        rw [get_bind, shape]
        rfl
      | cons d rest =>
        exact ⟨some (.escaped d), peek_escaped shape, fun d same => by cases same⟩
    · exact ⟨some (.plain c), peek_plain shape escape, fun d same => by cases same; rfl⟩

theorem accept_other (other : source.rest.head? ≠ some c) :
    accept c source = .ok (false, source) := by
  obtain ⟨token, seen, shows⟩ := exists_peek source
  unfold accept
  rw [bind_ok seen, if_neg fun same => other (shows c same)]
  rfl

theorem nextIs_none (none : ∀ d, source.rest.head? = some d → p d = false) :
    nextIs p source = .ok (false, source) := by
  obtain ⟨token, seen, shows⟩ := exists_peek source
  unfold nextIs
  rw [bind_ok seen]
  rcases token with _ | c | c
  · rfl
  · change Except.ok (p c, source) = _
    rw [none c (shows c rfl)]
  · rfl

theorem nextIs_plain (front : source.rest = c :: more) (bare : c ≠ '\\') (holds : p c = true) :
    nextIs p source = .ok (true, source) := by
  unfold nextIs
  rw [bind_ok (peek_plain front bare)]
  change Except.ok (p c, source) = _
  rw [holds]

/-! ## Escapes of characters that are no letters or digits -/

theorem category?_of_odd (odd : c.isAlphanum = false) : category? c = none := by
  unfold category?
  split <;> first | rfl | exact absurd odd (by decide)

theorem controlCode?_of_odd (odd : c.isAlphanum = false) :
    controlCode? c = if c = '\\' then some c.toNat else none := by
  unfold controlCode?
  split <;> first | exact absurd odd (by decide) | rfl | skip
  rw [if_neg ‹_›]

theorem readCode_of_odd (odd : c.isAlphanum = false) (start : Nat) :
    readCode start c source = .ok (none, source) := by
  unfold readCode
  split <;> first | rfl | exact absurd odd (by decide)

theorem readItself_of_odd (odd : c.isAlphanum = false) (start : Nat) :
    readItself start c source = .ok (.code c.toNat, source) := by
  unfold readItself
  rw [if_neg]
  · rfl
  · simpa [Char.isAlphanum] using odd

theorem readEscape_of_odd (odd : c.isAlphanum = false) (start : Nat) :
    readEscape start c source = .ok (.code c.toNat, source) := by
  have place : place? c = none := by
    unfold place?
    split <;> first | rfl | exact absurd odd (by decide)
  have digit : c.isDigit = false := by
    simp only [Char.isAlphanum, Bool.or_eq_false_iff] at odd
    exact odd.2
  unfold readEscape
  rw [category?_of_odd odd, place, controlCode?_of_odd odd]
  split
  · rfl
  · refine (bind_ok (readCode_of_odd odd start)).trans ?_
    dsimp only
    rw [if_neg, if_neg (by simp [digit])]
    · exact readItself_of_odd odd start
    · rintro rfl
      exact absurd digit (by decide)

end Reader

end PocketShell.Pattern
