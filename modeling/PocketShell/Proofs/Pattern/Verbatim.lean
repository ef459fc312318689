import PocketShell.Pattern.Replacement
import PocketShell.Proofs.Pattern.Snippets
import PocketShell.Proofs.Text.Occurrences

/-! Patterns and replacements that stand for one text. A pattern of characters without a meaning is
found where they stand one after another, so that replacing its matches is replacing a text in a
text. In a replacement a backslash is written twice. -/
namespace PocketShell.Pattern

open Text

variable {source : Source} {cursor : Cursor} {c : Char} {word new : List Char}
  {items : List Item} {fuel origin : Nat}

/-! ## Reading a word -/

/-- A pattern for one word. -/
def wordPattern (word : List Char) : Pattern :=
  ⟨.ofList (word.map fun c => .char (.one false c.toNat .exact)), 0, []⟩

namespace Reader

/-- By induction on the word, each character of which is one more item. -/
private theorem readItems_word (start : Bool) (ordinary : ∀ c ∈ word, Glob.isSpecial c = false)
    (shape : source.rest = word) (closed : Sealed source.rest) (room : word.length < fuel) :
    readItems fuel .none start items source = .ok
      (.ofList (items.reverse.map (·.node) ++ word.map fun c => .char (.one false c.toNat .exact)),
        source.skip word.length) := by
  induction word generalizing source fuel items with
  | nil =>
    obtain ⟨fuel, rfl⟩ : ∃ left, fuel = left + 1 := ⟨fuel - 1, by simp at room; omega⟩
    have inner : nextIs (fun c => c == '|' || c == ')') source = .ok (false, source) :=
      nextIs_none fun d first => by
        rw [shape] at first
        cases first
    rw [readItems, position_bind, bind_ok inner, if_neg (by decide), bind_ok (next_nil shape),
      List.map_nil, List.append_nil]
    rfl
  | cons c rest ih =>
    obtain ⟨fuel, rfl⟩ : ∃ left, fuel = left + 1 := ⟨fuel - 1, by simp at room; omega⟩
    obtain ⟨first, others⟩ := List.forall_mem_cons.mp ordinary
    rw [readItems_literal closed shape rfl first,
      ih others (by rw [Source.skip_rest, shape]; rfl) (closed.skip 1) (by simp at room; omega),
      Source.skip_skip]
    simp [literal, Item.of, Flags.fold, Flags.none, Nat.add_comm]

end Reader

/-- A text of characters without a meaning is a pattern for itself. -/
theorem compile_word (text : String) (ordinary : ∀ c ∈ text.toList, Glob.isSpecial c = false) :
    compile .none text = .ok (wordPattern text.toList) := by
  have closed : Sealed text.toList := by
    intro ends
    exact absurd (ordinary '\\' (List.mem_of_getLast? ends)) (by decide)
  have ran : Reader.readItems (3 * text.toList.length + 2) .none true [] (sourceOf .none text) =
      .ok ((wordPattern text.toList).node, (sourceOf .none text).skip text.toList.length) :=
    Reader.readItems_word true ordinary rfl closed (by omega)
  have sound : (wordPattern text.toList).node.Sound := by
    refine Node.sound_ofList fun node member => ?_
    obtain ⟨c, -, rfl⟩ := List.mem_map.mp member
    exact Node.sound_char _
  refine Reader.compile_eq_ok closed ran ?_ rfl rfl sound
  simp [sourceOf]

/-! ## Finding a word -/

/-- The cursor behind some characters. -/
def Cursor.beyond (cursor : Cursor) (passed rest : List Char) : Cursor :=
  ⟨passed.reverse ++ cursor.past, rest, cursor.position + passed.length, cursor.groups⟩

private theorem run_char (next : Next) : (Node.char (.one false c.toNat .exact)).run next cursor =
    match cursor.rest with
    | [] => none
    | d :: rest => if d = c then next (cursor.beyond [c] rest) else none := by
  simp only [Node.run, Cursor.advance?]
  cases cursor.rest with
  | nil => rfl
  | cons d rest =>
    have same : CharTest.accepts d (.one false c.toNat .exact) = true ↔ d = c := by
      simp [CharTest.accepts, Fold.equal, Char.toNat_inj]
    by_cases equal : d = c
    · subst equal
      simp [same, Cursor.beyond]
    · simp [same, equal]

private theorem run_ofList_cons (node : Node) (nodes : List Node) (next : Next) :
    (Node.ofList (node :: nodes)).run next = node.run ((Node.ofList nodes).run next) := by
  cases nodes with
  | nil => rfl
  | cons second rest => rfl

/-- A word is passed where it stands. -/
theorem run_word (next : Next) :
    (wordPattern word).node.run next cursor =
      if word <+: cursor.rest then next (cursor.beyond word (cursor.rest.drop word.length))
      else none := by
  unfold wordPattern
  induction word generalizing cursor with
  | nil => simp [Node.ofList, Node.run, Cursor.beyond]
  | cons c word ih =>
    rw [List.map_cons, run_ofList_cons, run_char]
    cases shape : cursor.rest with
    | nil => simp
    | cons d rest =>
      by_cases same : d = c
      · subst same
        simp [ih, Cursor.beyond, Nat.add_comm, Nat.add_left_comm]
      · simp [same, Ne.symm same]

private theorem matchAt_word {accept : Cursor → Bool} (filled : word ≠ [])
    (accepts : ∀ after, after.position ≠ cursor.position → accept after = true) :
    matchAt (wordPattern word) accept cursor = if word <+: cursor.rest then
      some { cursor.beyond word (cursor.rest.drop word.length) with groups := [] } else none := by
  unfold matchAt
  rw [run_word]
  by_cases found : word <+: cursor.rest
  · have further : 0 < word.length := List.length_pos_of_ne_nil filled
    rw [if_pos found, if_pos found, if_pos]
    · rfl
    · refine accepts _ ?_
      change cursor.position + word.length ≠ cursor.position
      omega
  · rw [if_neg found, if_neg found]

private theorem since_beyond (passed rest : List Char) :
    (cursor.beyond passed rest).since cursor.position = passed := by
  simp [Cursor.since, Cursor.beyond]

private theorem since_beyond_single (c : Char) (rest : List Char)
    (earlier : origin ≤ cursor.position) :
    (cursor.beyond [c] rest).since origin = cursor.since origin ++ [c] := by
  have one : cursor.position + 1 - origin = cursor.position - origin + 1 := by omega
  simp [Cursor.since, Cursor.beyond, one]

/-- By induction on what is ahead: a character at which the word does not stand is skipped. -/
private theorem searchFrom_word {accept : Cursor → Bool} {steps : Nat} (filled : word ≠ [])
    (accepts : ∀ after, after.position ≠ cursor.position → accept after = true)
    (room : cursor.rest.length < steps) (earlier : origin ≤ cursor.position) :
    searchFrom (wordPattern word) origin accept steps cursor =
      (cutAround? word cursor.rest).map fun (before, behind) =>
        ⟨word, [], cursor.since origin ++ before,
          { cursor.beyond (before ++ word) behind with groups := [] }⟩ := by
  induction shape : cursor.rest generalizing cursor accept steps with
  | nil =>
    obtain ⟨steps, rfl⟩ : ∃ left, steps = left + 1 := ⟨steps - 1, by omega⟩
    have absent : ¬ word <+: cursor.rest := by simpa [shape] using filled
    have stops : cursor.advance? = none := by rw [Cursor.advance?, shape]
    have nowhere : cutAround? word [] = none := by simpa [cutAround?] using filled
    rw [searchFrom, matchAt_word filled accepts, if_neg absent, stops, nowhere]
    rfl
  | cons c rest ih =>
    obtain ⟨steps, rfl⟩ : ∃ left, steps = left + 1 := ⟨steps - 1, by omega⟩
    rw [searchFrom, matchAt_word filled accepts]
    by_cases found : word <+: cursor.rest
    · obtain ⟨behind, whole⟩ := found
      rw [if_pos ⟨behind, whole⟩, ← shape, ← whole, cutAround?_append filled, List.drop_left]
      change some (Match.mk ((cursor.beyond word behind).since cursor.position) _ _ _) = _
      rw [since_beyond]
      simp
    · have onward : cursor.advance? = some (c, cursor.beyond [c] rest) := by
        rw [Cursor.advance?, shape]
        rfl
      have shorter : (cursor.beyond [c] rest).rest.length < steps := by
        rw [shape] at room
        exact Nat.lt_of_succ_lt_succ room
      rw [if_neg found, onward, cutAround?_cons (shape ▸ found)]
      dsimp only
      rw [ih (fun _ _ => rfl) shorter (Nat.le_succ_of_le earlier) rfl,
        since_beyond_single c rest earlier]
      cases cutAround? word rest with
      | none => rfl
      | some around =>
        simp [Cursor.beyond]
        omega

/-! ## Replacing a word -/

/-- The next match is around the next occurrence. -/
private theorem searchNext_word (filled : word ≠ []) (advance : Bool) :
    searchNext (wordPattern word) advance cursor =
      (cutAround? word cursor.rest).map fun (before, behind) =>
        ⟨word, [], before, { cursor.beyond (before ++ word) behind with groups := [] }⟩ := by
  unfold searchNext
  rw [searchFrom_word filled (by simp +contextual) (Nat.lt_succ_self _) (Nat.le_refl _)]
  simp [Cursor.since]

/-- Around the matches, one after another, the text stays. -/
private theorem matchesFrom_word {limit : Nat} {replacement : Match → List Char}
    (filled : word ≠ []) (constant : ∀ found, replacement found = new)
    (room : cursor.rest.length < limit) :
    (matchesFrom (wordPattern word) limit false cursor).1.flatMap
        (fun found => found.skipped ++ replacement found) ++
      (matchesFrom (wordPattern word) limit false cursor).2 =
      replaceFrom word new 0 cursor.rest := by
  induction limit generalizing cursor with
  | zero => omega
  | succ limit ih =>
    rw [matchesFrom, searchNext_word filled, replaceFrom_eq_cutAround? filled]
    cases around : cutAround? word cursor.rest with
    | none => rfl
    | some parts =>
      obtain ⟨before, behind⟩ := parts
      have whole := eq_of_cutAround? around
      have shorter : behind.length < limit := by
        have more : 0 < word.length := List.length_pos_of_ne_nil filled
        rw [whole] at room
        simp only [List.length_append] at room
        omega
      have bare : word.isEmpty = false := by simpa using filled
      have onward := @ih { cursor.beyond (before ++ word) behind with groups := [] } shorter
      dsimp only [Option.map_some]
      rw [bare, List.flatMap_cons, constant]
      simp only [List.append_assoc]
      rw [onward]
      rfl

/-- Replacing the matches of a word is replacing the word. -/
theorem replace_word {word new : String} {replacement : Match → List Char} (filled : word ≠ "")
    (constant : ∀ found, replacement found = new.toList) (all : Bool) (text : String) :
    (wordPattern word.toList).replace all replacement text =
      if all then replaceAll word new text else replaceFirst word new text := by
  have inhabited : word.toList ≠ [] := by simpa using filled
  unfold Pattern.replace
  cases all with
  | true =>
    have room : (Cursor.start text.toList).rest.length < 2 * text.toList.length + 2 := by
      change text.toList.length < _
      omega
    exact congrArg String.ofList (matchesFrom_word inhabited constant room)
  | false =>
    have found : searchNext (wordPattern word.toList) false (.start text.toList) = _ :=
      searchNext_word inhabited false
    have ahead : (Cursor.start text.toList).rest = text.toList := rfl
    rw [ahead] at found
    simp only [Bool.false_eq_true, if_false, matchesFrom, found, replaceFirst]
    cases cutAround? word.toList text.toList with
    | none => simp [ahead]
    | some parts => simp [constant, Cursor.beyond]

/-! ## Replacements -/

private theorem sealed_guarded {text : List Char} (closed : Sealed text) :
    Sealed (guarded ['\\'] text) := by
  rcases List.eq_nil_or_concat text with rfl | ⟨front, c, rfl⟩
  · exact closed
  · have plain : c ≠ '\\' := by simpa [Sealed] using closed
    simp [Sealed, guarded, plain]

namespace Reader

/-- By induction on the text: a guarded backslash is one escape, and stands for one. -/
private theorem readPieces_guarded (pattern : Pattern) {text : List Char}
    (shape : source.rest = guarded ['\\'] text) (closed : Sealed source.rest)
    (room : source.rest.length < fuel) : ∃ pieces after,
      readPieces pattern fuel source = .ok (pieces, after) ∧
      ∀ found, Replacement.expand pieces found = text := by
  induction text generalizing source fuel with
  | nil =>
    obtain ⟨fuel, rfl⟩ : ∃ left, fuel = left + 1 := ⟨fuel - 1, by omega⟩
    refine ⟨[], source, ?_, fun _ => rfl⟩
    rw [readPieces, position_bind, bind_ok (next_nil shape)]
    rfl
  | cons c rest ih =>
    obtain ⟨fuel, rfl⟩ : ∃ left, fuel = left + 1 := ⟨fuel - 1, by omega⟩
    by_cases backslash : c = '\\'
    · subst backslash
      have front : source.rest = '\\' :: '\\' :: guarded ['\\'] rest := shape
      obtain ⟨pieces, after, ran, tells⟩ := @ih (source.skip 2) fuel
        (by simp [front]) (closed.skip 2) (by simp [front] at room ⊢; omega)
      refine ⟨.literal ['\\'] :: pieces, after, ?_, fun found => ?_⟩
      · rw [readPieces, position_bind, bind_ok (next_escaped front closed)]
        exact (bind_ok (rfl : readEscapePiece pattern _ '\\' _ = _)).trans (bind_ok ran)
      · exact congrArg ('\\' :: ·) (tells found)
    · have front : source.rest = c :: guarded ['\\'] rest := by
        rwa [guarded_cons_of_notMem (by simpa using backslash)] at shape
      obtain ⟨pieces, after, ran, tells⟩ := @ih (source.skip 1) fuel
        (by simp [front]) (closed.skip 1) (by simp [front] at room ⊢; omega)
      refine ⟨.literal [c] :: pieces, after, ?_, fun found => ?_⟩
      · rw [readPieces, position_bind, bind_ok (next_plain front backslash closed)]
        exact bind_ok ran
      · exact congrArg (c :: ·) (tells found)

end Reader

/-- With its backslashes guarded a text that does not end in one is a replacement for itself. -/
theorem read_guarded (pattern : Pattern) {text : List Char} (closed : Sealed text) :
    ∃ replacement,
      Replacement.read pattern (String.ofList (guarded ['\\'] text)) = .ok replacement ∧
      ∀ found, replacement.expand found = text := by
  unfold Replacement.read
  rw [String.toList_ofList]
  by_cases escapes : '\\' ∈ guarded ['\\'] text
  · set script := String.ofList (guarded ['\\'] text)
    have shape : (sourceOf .none script).rest = guarded ['\\'] text := String.toList_ofList
    have sealing : Sealed (sourceOf .none script).rest := by
      rw [shape]
      exact sealed_guarded closed
    obtain ⟨pieces, after, ran, tells⟩ :=
      Reader.readPieces_guarded pattern shape sealing (Nat.lt_succ_self script.length)
    have whole : (do
        Reader.checkBackslash
        Reader.readPieces pattern (script.length + 1)) (sourceOf .none script) =
        .ok (pieces, after) := (Reader.bind_ok (Reader.checkBackslash_ok sealing)).trans ran
    refine ⟨pieces, ?_, tells⟩
    rw [if_neg (by simpa using escapes)]
    exact congrArg (Except.map Prod.fst) whole
  · have plain : ∀ c ∈ text, c ∉ ['\\'] := by
      intro c member slash
      rw [List.mem_singleton] at slash
      subst slash
      exact escapes (List.mem_flatMap.mpr ⟨'\\', member, by simp⟩)
    refine ⟨[.literal text], ?_, fun _ => List.append_nil _⟩
    rw [if_pos (by simpa using escapes), guarded_of_free plain]

end PocketShell.Pattern
