import Mathlib.Data.List.Chain
import PocketShell.Proofs.Pattern.Reading

/-! Sets in patterns. A set is written in chunks, with hyphens between them that make ranges of the
characters beside them; it is read whole if no range goes down. -/
namespace PocketShell.Pattern

/-- Characters that would mean something in a set. -/
def setSigns : List Char := ['\\', '-', '&', '~', '|', '^', '[']

theorem odd_of_setSign {c : Char} (sign : c ∈ setSigns) : c.isAlphanum = false := by
  have odd : setSigns.all (fun c => !c.isAlphanum) = true := by decide
  simpa using List.all_eq_true.mp odd c sign

/-- How a character stands in a set: as it is, or behind a backslash if it would mean something. -/
inductive Written (c : Char) : List Char → Prop
  | plain (bare : c ≠ '\\') : Written c [c]
  | escaped (sign : c ∈ setSigns) : Written c ['\\', c]

/-- Chunks of characters with hyphens between them. Inside a chunk a hyphen has a backslash. -/
inductive Spells : List (List Char) → List Char → Prop
  | done : Spells [[]] []
  | char {c : Char} {front text chunk : List Char} {chunks : List (List Char)}
      (written : Written c front) (visible : front ≠ ['-'])
      (behind : Spells (chunk :: chunks) text) : Spells ((c :: chunk) :: chunks) (front ++ text)
  | hyphen {text chunk : List Char} {chunks : List (List Char)}
      (behind : Spells (chunk :: chunks) text) : Spells ([] :: chunk :: chunks) ('-' :: text)

/-- The range from the end of one chunk to the start of the next one holds characters. -/
def Ascends (chunk next : List Char) : Prop :=
  ∀ low ∈ chunk.getLast?, ∀ high ∈ next.head?, ¬ high < low

/-- Every hyphen stands between the ends of a range, but for one at the front. -/
structure Tidy (chunks : List (List Char)) : Prop where
  inhabited : ∀ chunk ∈ chunks.tail, chunk ≠ []
  ascends : chunks.IsChain Ascends

variable {source : Source} {c d : Char} {front second text more chunk : List Char}
  {chunks : List (List Char)}

theorem Tidy.behind_char (tidy : Tidy ((c :: chunk) :: chunks)) : Tidy (chunk :: chunks) where
  inhabited := tidy.inhabited
  ascends := by
    cases chunks with
    | nil => exact .singleton _
    | cons next chunks =>
      obtain ⟨first, others⟩ := List.isChain_cons_cons.mp tidy.ascends
      refine List.isChain_cons_cons.mpr ⟨fun low last => first low ?_, others⟩
      cases chunk with
      | nil => cases last
      | cons d chunk => rw [List.getLast?_cons_cons]; exact last

theorem Tidy.behind_hyphen (tidy : Tidy ([] :: chunk :: chunks)) :
    chunk ≠ [] ∧ Tidy (chunk :: chunks) where
  left := tidy.inhabited chunk (by simp)
  right :=
    { inhabited := fun next member => tidy.inhabited next (List.mem_cons_of_mem _ member)
      ascends := (List.isChain_cons_cons.mp tidy.ascends).2 }

/-- Only a hyphen between chunks shows as one. -/
private theorem Spells.head_ne (spells : Spells (chunk :: chunks) text) (inhabited : chunk ≠ []) :
    (text ++ ']' :: more).head? ≠ some '-' := by
  cases spells with
  | done => exact absurd rfl inhabited
  | hyphen behind => exact absurd rfl inhabited
  | char written visible behind =>
    cases written with
    | plain bare => simpa using visible
    | escaped sign => simp

namespace Reader

variable {flags : Flags} {opening limit : Nat} {before : List SetItem}

private theorem not_octal_of_odd (odd : c.isAlphanum = false) : isOctalDigit c = false := by
  by_contra octal
  have digit : c.isDigit = true := by
    simp only [isOctalDigit, Bool.not_eq_false, Bool.and_eq_true, decide_eq_true_eq] at octal
    simp only [Char.isDigit, Bool.and_eq_true, decide_eq_true_eq]
    exact ⟨octal.1, UInt32.le_trans octal.2 (by decide : '7'.val ≤ '9'.val)⟩
  simp [Char.isAlphanum, digit] at odd

theorem readSetEscape_of_odd (odd : c.isAlphanum = false) (start : Nat) :
    readSetEscape start c source = .ok (.code c.toNat, source) := by
  unfold readSetEscape
  rw [category?_of_odd odd, controlCode?_of_odd odd]
  split
  · rfl
  · refine (bind_ok (readCode_of_odd odd start)).trans ?_
    dsimp only
    rw [if_neg (by simp [not_octal_of_odd odd])]
    exact readItself_of_odd odd start

/-- One character of a set. -/
private theorem Written.next_ok (written : Written c front) (shape : source.rest = front ++ more)
    (closed : Sealed source.rest) : ∃ token,
      next source = .ok (some token, source.skip front.length) ∧
      (∀ start source, setMeaning start token source = .ok (.code c.toNat, source)) ∧
      (token = .plain ']' → c = ']') := by
  cases written with
  | plain bare =>
    refine ⟨.plain c, next_plain shape bare closed, fun _ _ => rfl, fun same => ?_⟩
    cases same
    rfl
  | escaped sign =>
    exact ⟨.escaped c, next_escaped shape closed,
      fun start _ => readSetEscape_of_odd (odd_of_setSign sign) start, fun same => by cases same⟩

/-- A character that no hyphen follows is an element of the set. -/
private theorem readSetFrom_char (written : Written c front)
    (shape : source.rest = front ++ more) (closed : Sealed source.rest)
    (alone : more.head? ≠ some '-') (opens : c = ']' → before = []) :
    readSetFrom flags opening before (limit + 1) source =
      readSetFrom flags opening (.code c.toNat :: before) limit (source.skip front.length) := by
  obtain ⟨token, taken, means, bracket⟩ := Written.next_ok written shape closed
  have behind := Source.rest_skip shape
  rw [readSetFrom, position_bind, bind_ok taken]
  dsimp only
  rw [if_neg]
  · rw [bind_ok (means _ _), bind_ok (accept_other (by rw [behind]; exact alone))]
    rfl
  · simp only [Bool.and_eq_true, decide_eq_true_eq, Bool.not_eq_true', List.isEmpty_eq_false_iff,
      ne_eq, not_and, not_not]
    exact fun same => opens (bracket same)

/-- Two characters with a hyphen between them make a range. -/
private theorem readSetFrom_range (written : Written c front) (other : Written d second)
    (shape : source.rest = front ++ '-' :: (second ++ more)) (closed : Sealed source.rest)
    (opens : c = ']' → before = []) (inside : d ≠ ']') (ascends : ¬ d < c) :
    readSetFrom flags opening before (limit + 1) source =
      readSetFrom flags opening (.range c.toNat d.toNat :: before) limit
        (source.skip (front.length + 1 + second.length)) := by
  obtain ⟨token, taken, means, bracket⟩ := Written.next_ok written shape closed
  have behind := Source.rest_skip shape
  have onward : ((source.skip front.length).skip 1).rest = second ++ more := by
    rw [Source.skip_rest, behind]
    rfl
  obtain ⟨last, takenLast, meansLast, bracketLast⟩ :=
    Written.next_ok other onward ((closed.skip _).skip _)
  rw [readSetFrom, position_bind, bind_ok taken]
  dsimp only
  rw [if_neg]
  · rw [bind_ok (means _ _), bind_ok (accept_plain behind (by decide) (closed.skip _))]
    rw [if_neg (by decide), position_bind, bind_ok takenLast]
    dsimp only
    rw [if_neg fun same => inside (bracketLast same), bind_ok (meansLast _ _), position_bind]
    dsimp only
    rw [if_neg (by exact ascends), Source.skip_skip, Source.skip_skip, Nat.add_assoc]
  · simp only [Bool.and_eq_true, decide_eq_true_eq, Bool.not_eq_true', List.isEmpty_eq_false_iff,
      ne_eq, not_and, not_not]
    exact fun same => opens (bracket same)

/-- The bracket behind the set closes it. -/
private theorem readSetFrom_close (shape : source.rest = ']' :: more) (closed : Sealed source.rest)
    (inhabited : before ≠ []) :
    readSetFrom flags opening before (limit + 1) source = .ok (before.reverse, source.skip 1) := by
  rw [readSetFrom, position_bind, bind_ok (next_plain shape (by decide) closed)]
  change (if _ then _ else _ : Reader (List SetItem)) _ = _
  rw [if_pos (by simpa using inhabited)]
  rfl

/-- By induction on the limit, which each element of the set takes one from. A closing bracket is a
character only at the front. -/
theorem readSetFrom_ok (flags : Flags) (opening : Nat) (spells : Spells (chunk :: chunks) text)
    (tidy : Tidy (chunk :: chunks)) (shape : source.rest = text ++ ']' :: more)
    (closed : Sealed source.rest) (room : text.length < limit)
    (inhabited : before = [] → text ≠ []) (opens : chunk.head? = some ']' → before = [])
    (inside : ']' ∉ chunk.tail ++ chunks.flatten) :
    ∃ items, readSetFrom flags opening before limit source =
      .ok (items, source.skip (text.length + 1)) := by
  induction limit generalizing chunk chunks text source before with
  | zero => omega
  | succ limit ih =>
    have further : ∀ {n : Nat} {item : SetItem} {text chunk : List Char}
        {chunks : List (List Char)}, Spells (chunk :: chunks) text → Tidy (chunk :: chunks) →
        (source.skip n).rest = text ++ ']' :: more → text.length < limit →
        ']' ∉ chunk ++ chunks.flatten →
        ∃ items, readSetFrom flags opening (item :: before) limit (source.skip n) =
          .ok (items, source.skip (n + (text.length + 1))) := by
      intro n item text chunk chunks spells tidy shape room inside
      have some : item :: before ≠ [] := List.cons_ne_nil _ _
      obtain ⟨items, ran⟩ := ih spells tidy shape (closed.skip n) room
        (fun none => absurd none some)
        (fun first => absurd (List.mem_append_left _ (List.mem_of_mem_head? first)) inside)
        (fun member => inside ((List.append_sublist_append_right _).mpr
          (List.tail_sublist _) |>.mem member))
      exact ⟨items, by rw [ran, Source.skip_skip]⟩
    cases spells with
    | done =>
      exact ⟨_, readSetFrom_close shape closed fun none => inhabited none rfl⟩
    | @hyphen text next chunks behind =>
      obtain ⟨some, tidy⟩ := tidy.behind_hyphen
      have first : source.rest = ['-'] ++ (text ++ ']' :: more) := shape
      rw [readSetFrom_char (.plain (by decide)) first closed (behind.head_ne some)
        fun same => absurd same (by decide)]
      obtain ⟨items, ran⟩ := further behind tidy (Source.rest_skip first)
        (by simpa using room) inside
      exact ⟨items, ran.trans (by simp [Nat.add_comm])⟩
    | @char c front text chunk _ written visible behind =>
      have lead : c = ']' → before = [] := fun same => opens (by rw [same]; rfl)
      have short : 1 ≤ front.length := by cases written <;> simp
      rw [List.length_append] at room
      by_cases alone : (text ++ ']' :: more).head? = some '-'
      · cases behind with
        | done => exact absurd alone (by simp)
        | char other shows behind =>
          exact absurd alone ((Spells.char other shows behind).head_ne (List.cons_ne_nil _ _))
        | @hyphen text next chunks behind =>
          obtain ⟨some, -⟩ := tidy.behind_char.behind_hyphen
          cases behind with
          | done => exact absurd rfl some
          | hyphen => exact absurd rfl some
          | @char d second text next _ other shows behind =>
            have first : source.rest = front ++ '-' :: (second ++ (text ++ ']' :: more)) := by
              simp [shape]
            have ascends := (List.isChain_cons_cons.mp tidy.ascends).1 c rfl d rfl
            have long : 1 ≤ second.length := by cases other <;> simp
            have onward : (source.skip (front.length + 1 + second.length)).rest =
                text ++ ']' :: more := by
              simp [shape, Nat.add_assoc, ← List.drop_drop]
            simp only [List.length_cons, List.length_append] at room
            have apart : d ≠ ']' ∧ ']' ∉ next ++ chunks.flatten := by
              simpa [eq_comm, not_or] using inside
            rw [readSetFrom_range written other first closed lead apart.1 ascends]
            obtain ⟨items, ran⟩ := further behind tidy.behind_char.behind_hyphen.2.behind_char
              onward (by omega) apart.2
            refine ⟨items, ran.trans ?_⟩
            rw [List.length_append, List.length_cons, List.length_append]
            congr 3
            omega
      · have first : source.rest = front ++ (text ++ ']' :: more) := by
          rw [shape, List.append_assoc]
        rw [readSetFrom_char written first closed alone lead]
        obtain ⟨items, ran⟩ := further behind tidy.behind_char (Source.rest_skip first)
          (by omega) inside
        exact ⟨items, ran.trans (by simp [Nat.add_assoc])⟩

/-- A set is read whole, with the sign that turns it around or without. -/
theorem readSet_ok {sign : List Char} (flags : Flags) (opening : Nat)
    (spells : Spells (chunk :: chunks) text) (tidy : Tidy (chunk :: chunks))
    (shape : source.rest = sign ++ (text ++ ']' :: more))
    (signed : sign = ['^'] ∨ sign = [] ∧ text.head? ≠ some '^') (closed : Sealed source.rest)
    (inhabited : text ≠ []) (inside : ']' ∉ chunk.tail ++ chunks.flatten) :
    ∃ test, readSet flags opening source =
      .ok (.of (.char test), source.skip (sign.length + (text.length + 1))) := by
  have accepted : ∃ negated, accept '^' source = .ok (negated, source.skip sign.length) := by
    rcases signed with rfl | ⟨rfl, other⟩
    · exact ⟨true, accept_plain shape (by decide) closed⟩
    · refine ⟨false, accept_other ?_⟩
      obtain ⟨c, rest, rfl⟩ := List.exists_cons_of_ne_nil inhabited
      rw [shape]
      exact other
  obtain ⟨negated, accepted⟩ := accepted
  have front := Source.rest_skip shape
  have room : text.length < (source.skip sign.length).rest.length + 1 := by
    rw [front, List.length_append]
    omega
  obtain ⟨items, ran⟩ := readSetFrom_ok flags opening spells tidy front (closed.skip _) room
    (fun _ => inhabited : ([] : List SetItem) = [] → text ≠ []) (fun _ => rfl) inside
  unfold readSet
  rw [bind_ok accepted, remaining_bind, bind_ok ran, Source.skip_skip]
  exact ⟨_, rfl⟩

end Reader

end PocketShell.Pattern
