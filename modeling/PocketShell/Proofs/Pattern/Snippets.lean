import PocketShell.Pattern.Glob
import PocketShell.Proofs.Pattern.Sets

/-! Texts that are read snippet by snippet. A snippet becomes one item of a pattern, and nothing in
it is refused, neither while it is read nor when the whole tree is checked. -/
namespace PocketShell.Pattern

variable {source : Source} {flags : Flags} {c : Char} {front text more : List Char} {fuel : Nat}
  {start : Bool} {items : List Item} {item : Item} {node : Node} {nodes : List Node}

/-! ## Trees -/

/-- Nothing in the tree is refused. -/
def Node.Sound (node : Node) : Prop := ∀ groups, node.check false groups = .ok ()

theorem Node.sound_char (test : CharTest) : (Node.char test).Sound := fun _ => rfl

theorem Node.Sound.seq {first second : Node} (sound : first.Sound) (also : second.Sound) :
    (Node.seq first second).Sound := by
  intro groups
  rw [check, sound groups]
  exact also groups

theorem Node.Sound.repeat (sound : node.Sound) (mode : Mode) (least : Nat) (most : Option Nat) :
    (Node.repeat mode least most node).Sound := by
  intro groups
  rw [check, if_neg (by decide)]
  exact sound groups

theorem Node.Sound.ahead (sound : node.Sound) (negated : Bool) :
    (Node.look .ahead negated node).Sound :=
  sound

theorem Node.sound_ofList (sound : ∀ node ∈ nodes, Node.Sound node) :
    (Node.ofList nodes).Sound := by
  induction nodes with
  | nil => exact fun _ => rfl
  | cons first rest ih =>
    cases rest with
    | nil => exact sound first (by simp)
    | cons second rest =>
      exact .seq (sound first (by simp)) (ih fun node member => sound node (by simp [member]))

/-! ## Snippets -/

/-- No quantifier goes on with the text. -/
def Calm (more : List Char) : Prop := more.head? ≠ some '?' ∧ more.head? ≠ some '+'

/-- The text is read as one item, whatever calm text comes behind it. -/
structure Snippet (text : List Char) : Prop where
  inhabited : text ≠ []
  calm : ∀ more, Calm (text ++ more)
  reads : ∀ {source : Source} {flags : Flags} {more : List Char} {fuel : Nat} (start : Bool)
    (items : List Item), flags.verbose = false → source.rest = text ++ more →
    Sealed source.rest → Calm more → text.length < fuel →
    ∃ item left, fuel ≤ text.length + left ∧ item.node.Sound ∧
      Reader.readItems fuel flags start items source =
        Reader.readItems left flags start (item :: items) (source.skip text.length)

/-- Snippets one after another. -/
inductive Snippets : List Char → Prop
  | nil : Snippets []
  | cons {front text : List Char} (snippet : Snippet front) (snippets : Snippets text) :
      Snippets (front ++ text)

theorem Snippets.append (snippets : Snippets front) (others : Snippets text) :
    Snippets (front ++ text) := by
  induction snippets with
  | nil => exact others
  | cons snippet _ ih =>
    rw [List.append_assoc]
    exact .cons snippet ih

theorem Snippets.calm (snippets : Snippets text) (calm : Calm more) : Calm (text ++ more) := by
  cases snippets with
  | nil => exact calm
  | cons snippet _ =>
    rw [List.append_assoc]
    exact snippet.calm _

namespace Reader

/-- By induction on the snippets, as they are read; the fuel outlasts them. -/
theorem readItems_snippets (start : Bool) (snippets : Snippets text) (bare : flags.verbose = false)
    (shape : source.rest = text ++ ')' :: more) (closed : Sealed source.rest)
    (room : text.length < fuel) (sound : ∀ item ∈ items, item.node.Sound) :
    ∃ node, node.Sound ∧
      readItems fuel flags start items source = .ok (node, source.skip text.length) := by
  induction snippets generalizing source fuel items with
  | nil =>
    obtain ⟨fuel, rfl⟩ : ∃ left, fuel = left + 1 := ⟨fuel - 1, by simp at room; omega⟩
    refine ⟨.ofList (items.reverse.map (·.node)), Node.sound_ofList ?_, ?_⟩
    · intro node member
      obtain ⟨item, inside, rfl⟩ := List.mem_map.mp member
      exact sound item (List.mem_reverse.mp inside)
    · rw [readItems, position_bind, bind_ok (nextIs_plain shape (by decide) (by decide)),
        if_pos rfl]
      rfl
  | @cons front text snippet snippets ih =>
    rw [List.append_assoc] at shape
    rw [List.length_append] at room ⊢
    obtain ⟨item, left, enough, healthy, ran⟩ := snippet.reads start items bare
      shape closed (snippets.calm (by simp [Calm])) (by omega : front.length < fuel)
    obtain ⟨node, whole, ends⟩ := ih (Source.rest_skip shape) (closed.skip _)
      (by omega : text.length < left)
      (by simpa using ⟨healthy, sound⟩ : ∀ other ∈ item :: items, other.node.Sound)
    exact ⟨node, whole, by rw [ran, ends, Source.skip_skip]⟩

/-- The inside of a group, and the parenthesis that closes it. -/
theorem inside_ok (opening : Nat) (snippets : Snippets text) (bare : flags.verbose = false)
    (shape : source.rest = text ++ ')' :: more) (closed : Sealed source.rest)
    (room : text.length + 1 < fuel) :
    ∃ node, node.Sound ∧ readAlternatives fuel flags false false source =
        .ok ([node], source.skip text.length) ∧
      close opening (source.skip text.length) = .ok ((), source.skip (text.length + 1)) := by
  obtain ⟨fuel, rfl⟩ : ∃ left, fuel = left + 1 := ⟨fuel - 1, by omega⟩
  obtain ⟨node, sound, ran⟩ := readItems_snippets false snippets bare shape closed
    (by omega : text.length < fuel) (by simp : ∀ item ∈ ([] : List Item), item.node.Sound)
  have front := Source.rest_skip shape
  have ends : accept '|' (source.skip text.length) = .ok (false, source.skip text.length) :=
    accept_other (by rw [front]; simp)
  refine ⟨node, sound, ?_, ?_⟩
  · rw [readAlternatives, get_bind]
    exact (bind_ok ran).trans (bind_ok ends)
  · unfold close
    rw [bind_ok (accept_plain front (by decide) (closed.skip _)), Source.skip_skip]
    rfl

private theorem sign_ok (shape : source.rest = '?' :: c :: more) (closed : Sealed source.rest)
    (bare : c ≠ '\\') : accept '?' source = .ok (true, source.skip 1) ∧
      next (source.skip 1) = .ok (some (.plain c), source.skip 2) := by
  have second : (source.skip 1).rest = c :: more := by simp [shape]
  exact ⟨accept_plain shape (by decide) closed, by
    rw [next_plain second bare (closed.skip 1), Source.skip_skip]⟩

/-! ## Whole patterns -/

/-- Items that end with the text are the whole pattern. -/
private theorem readPattern_ok {after : Source} (closed : Sealed source.rest)
    (ran : readItems (3 * source.rest.length + 2) source.flags true [] source = .ok (node, after))
    (ends : after.rest = []) (untyped : after.flags.plain = false)
    (conditions : after.conditions = []) : readPattern source = .ok (node, after) := by
  have alone : readAlternatives (3 * source.rest.length + 3) source.flags true true source =
      .ok ([node], after) := by
    rw [readAlternatives, get_bind, if_pos rfl]
    refine (bind_ok ran).trans ((bind_ok (accept_other ?_)).trans rfl)
    rw [ends]
    simp
  unfold readPattern
  rw [bind_ok (checkBackslash_ok closed), remaining_bind, get_bind, bind_ok (map_ok alone),
    get_bind, if_neg (by simp [untyped])]
  dsimp only
  rw [ends, if_neg (by decide), conditions]
  rfl

/-- A text whose items are read to its end, and are sound, is a pattern. -/
theorem compile_eq_ok {script : String} {after : Source} (closed : Sealed script.toList)
    (ran : readItems (3 * script.toList.length + 2) flags true [] (sourceOf flags script) =
      .ok (node, after))
    (ends : after.rest = []) (same : after.flags = .none) (conditions : after.conditions = [])
    (sound : node.Sound) :
    compile flags script = .ok ⟨node, after.widths.length, after.names⟩ := by
  have read : readPattern (sourceOf flags script) = .ok (node, after) :=
    readPattern_ok closed ran ends (by rw [same]; rfl) conditions
  unfold compile
  change (readPattern (sourceOf flags script) >>= _) = _
  rw [read]
  change (node.check after.flags.template _ >>= _) = _
  rw [same]
  change (node.check false _ >>= _) = _
  rw [sound]
  rfl

/-! ## One step each -/

section Steps

variable (closed : Sealed source.rest)

include closed

private theorem readItems_next (shape : source.rest = c :: more) (bare : c ≠ '\\')
    (inner : c ≠ '|' ∧ c ≠ ')') :
    nextIs (fun c => c == '|' || c == ')') source = .ok (false, source) ∧
      next source = .ok (some (.plain c), source.skip 1) := by
  refine ⟨nextIs_none fun d first => ?_, next_plain shape bare closed⟩
  rw [shape] at first
  cases first
  simpa using inner

private theorem readItems_any (shape : source.rest = '.' :: more) (bare : flags.verbose = false) :
    readItems (fuel + 1) flags start items source =
      readItems fuel flags start (.of (.char (.any flags.dotAll)) :: items) (source.skip 1) := by
  obtain ⟨inner, taken⟩ := readItems_next closed shape (by decide) (by decide)
  rw [readItems, position_bind, bind_ok inner, if_neg (by decide), bind_ok taken]
  dsimp only
  rw [bare]
  rfl

theorem readItems_group (shape : source.rest = '(' :: more) (bare : flags.verbose = false) :
    readItems (fuel + 1) flags start items source =
      readGroup fuel flags start source.position items (source.skip 1) := by
  obtain ⟨inner, taken⟩ := readItems_next closed shape (by decide) (by decide)
  rw [readItems, position_bind, bind_ok inner, if_neg (by decide), bind_ok taken]
  dsimp only
  rw [bare]
  rfl

private theorem readItems_set (shape : source.rest = '[' :: more) (bare : flags.verbose = false)
    {after : Source} (ran : readSet flags source.position (source.skip 1) = .ok (item, after)) :
    readItems (fuel + 1) flags start items source =
      readItems fuel flags start (item :: items) after := by
  obtain ⟨inner, taken⟩ := readItems_next closed shape (by decide) (by decide)
  rw [readItems, position_bind, bind_ok inner, if_neg (by decide), bind_ok taken]
  dsimp only
  rw [bare]
  exact bind_ok ran

private theorem readItems_star (shape : source.rest = '*' :: more) (bare : flags.verbose = false)
    {mode : Mode} {after : Source} (ran : readMode (source.skip 1) = .ok (mode, after)) :
    readItems (fuel + 1) flags start (.of node :: items) source =
      readItems fuel flags start (⟨.repeat mode 0 none node, .repetition⟩ :: items) after := by
  obtain ⟨inner, taken⟩ := readItems_next closed shape (by decide) (by decide)
  rw [readItems, position_bind, bind_ok inner, if_neg (by decide), bind_ok taken]
  dsimp only
  rw [bare]
  have repeated : repeatLast source.position 0 none (.of node :: items) (source.skip 1) =
      .ok (⟨.repeat mode 0 none node, .repetition⟩ :: items, after) := bind_ok ran
  exact (bind_ok (rfl : boundsOf '*' (source.skip 1) = _)).trans (bind_ok repeated)

theorem readItems_literal (shape : source.rest = c :: more) (bare : flags.verbose = false)
    (ordinary : Glob.isSpecial c = false) :
    readItems (fuel + 1) flags start items source =
      readItems fuel flags start (literal flags c.toNat :: items) (source.skip 1) := by
  have other : ∀ d, Glob.isSpecial d = true → c ≠ d := by
    rintro d special rfl
    rw [ordinary] at special
    cases special
  obtain ⟨inner, taken⟩ := readItems_next closed shape (other _ (by decide))
    ⟨other _ (by decide), other _ (by decide)⟩
  rw [readItems, position_bind, bind_ok inner, if_neg (by decide), bind_ok taken]
  dsimp only
  rw [bare]
  simp only [Bool.false_and, Bool.false_eq_true, ↓reduceIte]
  split
  iterate 5 exact absurd rfl (other _ (by decide))
  rw [if_neg]
  simp [other '*' (by decide), other '+' (by decide), other '?' (by decide),
    other '\x7b' (by decide)]

private theorem readItems_escaped (shape : source.rest = '\\' :: c :: more)
    (odd : c.isAlphanum = false) :
    readItems (fuel + 1) flags start items source =
      readItems fuel flags start (literal flags c.toNat :: items) (source.skip 2) := by
  have inner : nextIs (fun c => c == '|' || c == ')') source = .ok (false, source) := by
    refine nextIs_none fun d first => ?_
    rw [shape] at first
    cases first
    rfl
  rw [readItems, position_bind, bind_ok inner, if_neg (by decide),
    bind_ok (next_escaped shape closed)]
  exact bind_ok (readEscape_of_odd odd _)

end Steps

private theorem readMode_greedy (calm : Calm source.rest) :
    readMode source = .ok (.greedy, source) := by
  unfold readMode
  rw [bind_ok (accept_other calm.1)]
  exact bind_ok (accept_other calm.2)

private theorem readMode_lazy (shape : source.rest = '?' :: more) (closed : Sealed source.rest) :
    readMode source = .ok (.lazy, source.skip 1) := by
  unfold readMode
  rw [bind_ok (accept_plain shape (by decide) closed)]
  rfl

end Reader

private theorem calm_of_head (first : c ≠ '?') (also : c ≠ '+') (more : List Char) :
    Calm (c :: more) := by
  simp [Calm, first, also]

namespace Snippet

open Reader

/-- A dot stands for any character. -/
theorem any : Snippet ['.'] where
  inhabited := by decide
  calm := fun _ => calm_of_head (by decide) (by decide) _
  reads := by
    intro source flags more fuel start items bare shape closed _ room
    obtain ⟨fuel, rfl⟩ : ∃ left, fuel = left + 1 := ⟨fuel - 1, by simp at room; omega⟩
    refine ⟨_, fuel, by simp only [List.length_cons]; omega, ?_, readItems_any closed shape bare⟩
    exact Node.sound_char _

/-- A character without a meaning in patterns stands for itself. -/
theorem literal (ordinary : Glob.isSpecial c = false) : Snippet [c] where
  inhabited := by simp
  calm := fun _ => calm_of_head (by rintro rfl; exact absurd ordinary (by decide))
    (by rintro rfl; exact absurd ordinary (by decide)) _
  reads := by
    intro source flags more fuel start items bare shape closed _ room
    obtain ⟨fuel, rfl⟩ : ∃ left, fuel = left + 1 := ⟨fuel - 1, by simp at room; omega⟩
    refine ⟨_, fuel, by simp only [List.length_cons]; omega,
      ?_, readItems_literal closed shape bare ordinary⟩
    exact Node.sound_char _

/-- Behind a backslash a character that is no letter or digit stands for itself. -/
theorem escaped (odd : c.isAlphanum = false) : Snippet ['\\', c] where
  inhabited := by simp
  calm := fun _ => calm_of_head (by decide) (by decide) _
  reads := by
    intro source flags more fuel start items bare shape closed _ room
    obtain ⟨fuel, rfl⟩ : ∃ left, fuel = left + 1 := ⟨fuel - 1, by simp at room; omega⟩
    refine ⟨_, fuel, by simp only [List.length_cons]; omega, ?_, readItems_escaped closed shape odd⟩
    exact Node.sound_char _

theorem set {sign chunk : List Char} {chunks : List (List Char)}
    (spells : Spells (chunk :: chunks) text) (tidy : Tidy (chunk :: chunks))
    (signed : sign = ['^'] ∨ sign = [] ∧ text.head? ≠ some '^') (inhabited : text ≠ [])
    (inside : ']' ∉ chunk.tail ++ chunks.flatten) : Snippet ('[' :: (sign ++ (text ++ [']']))) where
  inhabited := by simp
  calm := fun _ => calm_of_head (by decide) (by decide) _
  reads := by
    intro source flags more fuel start items bare shape closed _ room
    obtain ⟨fuel, rfl⟩ : ∃ left, fuel = left + 1 := ⟨fuel - 1, by simp at room; omega⟩
    have onward : (source.skip 1).rest = sign ++ (text ++ ']' :: more) := by
      rw [Source.skip_rest, shape]
      simp
    obtain ⟨test, ran⟩ := readSet_ok flags source.position spells tidy
      onward signed (closed.skip 1) inhabited inside
    refine ⟨.of (.char test), fuel, by simp only [List.length_cons]; omega, Node.sound_char test,
      (readItems_set closed shape bare ran).trans ?_⟩
    simp [Nat.add_comm, Nat.add_left_comm]

private theorem reads_repeated (fuel : Nat) (start : Bool) (items : List Item)
    (closed : Sealed source.rest) (bare : flags.verbose = false)
    (shape : source.rest = '.' :: '*' :: more) {mode : Mode} {after : Source}
    (ran : readMode (source.skip 2) = .ok (mode, after)) :
    ∃ item, item.node.Sound ∧ readItems (fuel + 2) flags start items source =
      readItems fuel flags start (item :: items) after := by
  refine ⟨⟨.repeat mode 0 none (.char (.any flags.dotAll)), .repetition⟩,
    (Node.sound_char _).repeat mode 0 none, ?_⟩
  have behind : (source.skip 1).rest = '*' :: more := by simp [shape]
  rw [readItems_any closed shape bare]
  exact readItems_star (closed.skip 1) behind bare (by rw [Source.skip_skip]; exact ran)

/-- Any text, as much as possible. -/
theorem many : Snippet ['.', '*'] where
  inhabited := by decide
  calm := fun _ => calm_of_head (by decide) (by decide) _
  reads := by
    intro source flags more fuel start items bare shape closed calm room
    obtain ⟨fuel, rfl⟩ : ∃ left, fuel = left + 2 := ⟨fuel - 2, by simp at room; omega⟩
    obtain ⟨item, sound, ran⟩ := reads_repeated fuel start items closed
      bare shape (readMode_greedy (by simpa [shape] using calm : Calm (source.skip 2).rest))
    exact ⟨item, fuel, by simp only [List.length_cons]; omega, sound, ran⟩

/-- Any text, as little as possible. -/
theorem few : Snippet ['.', '*', '?'] where
  inhabited := by decide
  calm := fun _ => calm_of_head (by decide) (by decide) _
  reads := by
    intro source flags more fuel start items bare shape closed _ room
    obtain ⟨fuel, rfl⟩ : ∃ left, fuel = left + 2 := ⟨fuel - 2, by simp at room; omega⟩
    have behind : (source.skip 2).rest = '?' :: more := by simp [shape]
    obtain ⟨item, sound, ran⟩ := reads_repeated fuel start items closed bare shape
      (readMode_lazy behind (closed.skip 2))
    exact ⟨item, fuel, by simp only [List.length_cons]; omega,
      sound, by rw [ran, Source.skip_skip]; rfl⟩

/-- Nothing at all. -/
theorem never : Snippet ['(', '?', '!', ')'] where
  inhabited := by decide
  calm := fun _ => calm_of_head (by decide) (by decide) _
  reads := by
    intro source flags more fuel start items bare shape closed _ room
    obtain ⟨fuel, rfl⟩ : ∃ left, fuel = left + 2 := ⟨fuel - 2, by simp at room; omega⟩
    have opened : readOpening flags source.position (source.skip 1) =
        .ok (.look false true, source.skip 3) := by
      have behind : (source.skip 1).rest = '?' :: '!' :: ')' :: more := by simp [shape]
      obtain ⟨asked, taken⟩ := sign_ok behind (closed.skip 1) (by decide)
      unfold readOpening
      rw [bind_ok asked]
      exact (bind_ok taken).trans (by rw [Source.skip_skip]; rfl)
    obtain ⟨node, sound, ran, ends⟩ := inside_ok source.position .nil bare
      (by simp [shape] : (source.skip 3).rest = [] ++ ')' :: more) (closed.skip 3)
      (by simp at room ⊢; omega : [].length + 1 < fuel)
    refine ⟨.of (.look .ahead true node), fuel, by simp only [List.length_cons]; omega,
      sound.ahead true, ?_⟩
    rw [readItems_group closed shape bare, readGroup, bind_ok opened]
    dsimp only
    rw [get_bind]
    simp only [Bool.false_eq_true, ↓reduceIte]
    refine (bind_ok (rfl : groupCount _ = _)).trans ((bind_ok (map_ok ran)).trans
      ((bind_ok ends).trans ?_))
    rw [get_bind, Source.skip_skip]
    rfl

/-- Snippets that are kept to. -/
theorem atomic (snippets : Snippets text) : Snippet ('(' :: '?' :: '>' :: (text ++ [')'])) where
  inhabited := by simp
  calm := fun _ => calm_of_head (by decide) (by decide) _
  reads := by
    intro source flags more fuel start items bare shape closed _ room
    obtain ⟨fuel, rfl⟩ : ∃ left, fuel = left + 2 := ⟨fuel - 2, by simp at room; omega⟩
    have opened : readOpening flags source.position (source.skip 1) =
        .ok (.atomic, source.skip 3) := by
      have behind : (source.skip 1).rest = '?' :: '>' :: (text ++ ')' :: more) := by simp [shape]
      obtain ⟨asked, taken⟩ := sign_ok behind (closed.skip 1) (by decide)
      unfold readOpening
      rw [bind_ok asked]
      exact (bind_ok taken).trans (by rw [Source.skip_skip]; rfl)
    obtain ⟨node, sound, ran, ends⟩ := inside_ok source.position snippets bare
      (by simp [shape] : (source.skip 3).rest = text ++ ')' :: more) (closed.skip 3)
      (by simp at room; omega : text.length + 1 < fuel)
    refine ⟨.of (.atomic node), fuel, by simp only [List.length_cons]; omega, sound, ?_⟩
    rw [readItems_group closed shape bare, readGroup, bind_ok opened]
    refine (bind_ok (map_ok ran)).trans ((bind_ok ends).trans ?_)
    rw [Source.skip_skip]
    simp [Node.oneOf, Nat.add_comm, Nat.add_left_comm]

end Snippet

end PocketShell.Pattern
