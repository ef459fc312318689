import PocketShell.Proofs.Fs.Components
import PocketShell.Proofs.Pattern.Snippets

/-! Every glob is a pattern. A bracket of a glob becomes a set: it is cut at the hyphens that make
ranges, ranges that would go down are taken out, and what is left is written so that it is read as
it is meant. -/
namespace PocketShell.Pattern.Glob

variable {c : Char} {cs chunk first body text after : List Char} {chunks rest : List (List Char)}
  {hold least : Nat}

/-! ## The chunks of a set -/

/-- All chunks hold characters, and all but the last one hold several. -/
inductive Wide : List (List Char) → Prop
  | nil : Wide []
  | last {chunk : List Char} (inhabited : chunk ≠ []) : Wide [chunk]
  | cons {chunk next : List Char} {rest : List (List Char)} (several : 2 ≤ chunk.length)
      (wide : Wide (next :: rest)) : Wide (chunk :: next :: rest)

theorem Wide.inhabited (wide : Wide chunks) : ∀ chunk ∈ chunks, chunk ≠ [] := by
  induction wide with
  | nil => simp
  | last inhabited => simpa using inhabited
  | @cons chunk next rest several _ ih =>
    intro other member
    rcases List.mem_cons.mp member with rfl | member
    · rintro rfl
      simp at several
    · exact ih other member

/-- The number of characters in front of a set before the first one that can end a range. -/
def leading (body : List Char) : Nat := if body.head? = some '!' then 2 else 1

/-- What the chunks of a set are like: a closing bracket stands at the front of the first one. -/
structure Chunked (least : Nat) (front first : List Char) (rest : List (List Char)) : Prop where
  inhabited : first ≠ []
  several : rest ≠ [] → least ≤ first.length
  wide : Wide rest
  front : ∃ tail, first = front ++ tail ∧ ']' ∉ tail
  shut : ']' ∉ rest.flatten

private theorem Chunked.wide_cons {front : List Char} (chunked : Chunked 2 front first rest) :
    Wide (first :: rest) := by
  cases rest with
  | nil => exact .last chunked.inhabited
  | cons => exact .cons (chunked.several (List.cons_ne_nil _ _)) chunked.wide

private theorem keepLastHyphen_cons (other : chunks ≠ [[]]) :
    keepLastHyphen (chunk :: chunks) = chunk :: keepLastHyphen chunks := by
  rw [keepLastHyphen]
  rintro rfl
  exact other rfl

/-- By the recursion of the chunks; `hold` characters of the next one are yet to come. -/
theorem chunks_spec (enough : least ≤ chunk.length + hold) (some : chunk ≠ [] ∨ cs ≠ [])
    (positive : 1 ≤ least) (shut : ']' ∉ cs.drop hold) :
    ∃ first rest, keepLastHyphen (chunksFrom hold chunk cs) = first :: rest ∧
      Chunked least (chunk ++ cs.take hold) first rest := by
  fun_induction chunksFrom hold chunk cs generalizing least with
  | case1 hold chunk =>
    have inhabited : chunk ≠ [] := by simpa using some
    exact ⟨chunk, [], rfl, inhabited, by simp, .nil, ⟨[], by simp⟩, by simp⟩
  | case2 chunk rest ih =>
    have inhabited : chunk ≠ [] := by
      rintro rfl
      simp at enough
      omega
    have unclosed : ']' ∉ rest := by simpa using shut
    cases rest with
    | nil =>
      exact ⟨chunk ++ ['-'], [], rfl, by simp, by simp, .nil, ⟨['-'], by simp, by decide⟩,
        by simp⟩
    | cons c rest =>
      obtain ⟨first, more, ran, chunked⟩ := ih (by simp : 2 ≤ ([] : List Char).length + 2)
        (by simp) (by decide) (fun member => unclosed (List.mem_of_mem_drop member))
      obtain ⟨tail, front, free⟩ := chunked.front
      refine ⟨chunk, first :: more, ?_, inhabited, fun _ => by simpa using enough,
        chunked.wide_cons, ⟨[], by simp⟩, ?_⟩
      · rw [keepLastHyphen_cons, ran]
        intro bare
        rw [bare] at ran
        cases ran
        exact chunked.inhabited rfl
      · rw [List.flatten_cons, List.mem_append, front, List.nil_append, List.mem_append]
        rintro ((early | late) | further)
        · exact unclosed (List.mem_of_mem_take early)
        · exact free late
        · exact chunked.shut further
  | case3 chunk c rest other ih =>
    have apart : ']' ≠ c ∧ ']' ∉ rest := by simpa [not_or] using shut
    obtain ⟨first, more, ran, chunked⟩ := ih (by simp at enough ⊢; omega) (by simp)
      positive (by simpa using apart.2)
    obtain ⟨tail, front, free⟩ := chunked.front
    exact ⟨first, more, ran, chunked.inhabited, chunked.several, chunked.wide,
      ⟨c :: tail, by simpa using front, by simpa [not_or] using ⟨apart.1, free⟩⟩, chunked.shut⟩
  | case4 hold chunk c rest ih =>
    obtain ⟨first, more, ran, chunked⟩ := ih (by simp at enough ⊢; omega) (by simp)
      positive (by simpa using shut)
    exact ⟨first, more, ran, by simpa using chunked⟩

/-! ## Ranges that go down -/

/-- A chunk stays as it is before the next one, or their ends are taken out and they become one. -/
private theorem dropEmptyRanges_cons (some : chunk ≠ [])
    (inhabited : ∀ next ∈ dropEmptyRanges rest, next ≠ []) :
    (dropEmptyRanges (chunk :: rest) = chunk :: dropEmptyRanges rest ∧
        ∀ next ∈ (dropEmptyRanges rest).head?, Ascends chunk next) ∨
      ∃ next more, dropEmptyRanges rest = next :: more ∧ next ≠ [] ∧
        dropEmptyRanges (chunk :: rest) = (chunk.dropLast ++ next.tail) :: more := by
  rw [dropEmptyRanges]
  cases dropped : dropEmptyRanges rest with
  | nil => exact .inl ⟨rfl, by simp⟩
  | cons next more =>
    have filled : next ≠ [] := inhabited next (by simp [dropped])
    obtain ⟨low, last⟩ := Option.isSome_iff_exists.mp (List.getLast?_isSome.mpr some)
    obtain ⟨high, rest, rfl⟩ := List.exists_cons_of_ne_nil filled
    simp only [last, List.head?_cons]
    split
    · exact .inr ⟨_, _, rfl, by simp, rfl⟩
    · rename_i ascends
      refine .inl ⟨rfl, fun next first => ?_⟩
      cases first
      intro low' last' high' first'
      cases last.symm.trans last'
      cases first'
      exact ascends

/-- What comes before the first chunk does not matter to the range behind it. -/
private theorem ascends_joined {front : List Char} (wide : Wide (first :: rest))
    (ascends : (first :: rest).IsChain Ascends) :
    ((front ++ first.tail) :: rest).IsChain Ascends := by
  cases wide with
  | last => exact .singleton _
  | @cons _ next rest several wide =>
    obtain ⟨beside, others⟩ := List.isChain_cons_cons.mp ascends
    refine List.isChain_cons_cons.mpr ⟨fun low last => beside low ?_, others⟩
    match first, several with
    | c :: d :: more, _ =>
      rw [List.tail_cons, List.getLast?_append_of_ne_nil _ (List.cons_ne_nil _ _)] at last
      rwa [List.getLast?_cons_cons]

private theorem subset_behind (held : rest.flatten ⊆ chunks.flatten) :
    first ++ rest.flatten ⊆ first ++ chunks.flatten := by
  intro c member
  rcases List.mem_append.mp member with early | late
  · exact List.mem_append_left _ early
  · exact List.mem_append_right _ (held late)

private theorem subset_joined (first chunk : List Char) (rest : List (List Char)) :
    ((first.dropLast ++ chunk.tail) :: rest).flatten ⊆ first ++ (chunk :: rest).flatten := by
  intro c member
  simp only [List.flatten_cons, List.mem_append] at member ⊢
  rcases member with (early | late) | further
  · exact .inl (List.dropLast_subset _ early)
  · exact .inr (.inl (List.mem_of_mem_tail late))
  · exact .inr (.inr further)

theorem dropEmptyRanges_wide (wide : Wide chunks) : Wide (dropEmptyRanges chunks) ∧
    (dropEmptyRanges chunks).IsChain Ascends ∧
    (dropEmptyRanges chunks).flatten ⊆ chunks.flatten := by
  induction wide with
  | nil => exact ⟨.nil, .nil, by simp [dropEmptyRanges]⟩
  | last inhabited => exact ⟨.last inhabited, .singleton _, by simp [dropEmptyRanges]⟩
  | @cons chunk next rest several wide ih =>
    obtain ⟨inner, ascends, held⟩ := ih
    have some : chunk ≠ [] := by
      rintro rfl
      simp at several
    rcases dropEmptyRanges_cons some inner.inhabited with ⟨ran, beside⟩ |
        ⟨follower, more, ran, filled, joined⟩
    · rw [ran]
      refine ⟨?_, List.isChain_cons.mpr ⟨beside, ascends⟩, ?_⟩
      · cases shape : dropEmptyRanges (next :: rest) with
        | nil => exact .last some
        | cons => exact .cons several (shape ▸ inner)
      · rw [List.flatten_cons, List.flatten_cons]
        exact subset_behind held
    · rw [joined]
      rw [ran] at inner ascends held
      refine ⟨?_, ascends_joined inner ascends,
        fun _ member => subset_behind held (subset_joined _ _ _ member)⟩
      cases inner with
      | last =>
        refine .last fun bare => ?_
        have := congrArg List.length bare
        simp at this
        omega
      | cons wider wide => exact .cons (by simp; omega) wide

/-! ## Sets -/

/-- A closing bracket stands only at the front of the chunk, behind a sign if there is one. -/
def Shut (chunk : List Char) : Prop := ']' ∉ chunk.drop (leading chunk)

theorem Shut.of_tail (free : ']' ∉ chunk.tail) : Shut chunk := by
  unfold Shut leading
  split
  · rw [← List.drop_drop (i := 1) (j := 1)]
    exact fun member => free (by simpa using List.mem_of_mem_drop member)
  · simpa using free

theorem Shut.joined (shut : Shut chunk) {tail : List Char} (free : ']' ∉ tail) :
    Shut (chunk.dropLast ++ tail) := by
  match chunk with
  | [] => exact .of_tail fun member => free (List.mem_of_mem_tail member)
  | [c] => exact .of_tail fun member => free (List.mem_of_mem_tail member)
  | c :: d :: more =>
    have inside : ∀ n, ']' ∉ (c :: d :: more).drop (n + 1) →
        ']' ∉ ((c :: d :: more).dropLast ++ tail).drop (n + 1) := by
      intro n shut member
      rw [List.dropLast_cons_cons, List.cons_append, List.drop_succ_cons, List.drop_append,
        List.mem_append] at member
      rcases member with early | late
      · refine shut ?_
        rw [List.drop_succ_cons]
        rw [List.dropLast_eq_take, List.drop_take] at early
        exact List.mem_of_mem_take early
      · exact free (List.mem_of_mem_drop late)
    unfold Shut leading at shut ⊢
    rw [List.dropLast_cons_cons, List.cons_append, List.head?_cons]
    rw [List.head?_cons] at shut
    split at shut
    · rename_i sign
      rw [if_pos sign]
      exact inside 1 shut
    · rename_i other
      rw [if_neg other]
      exact inside 0 shut

/-- The characters that mean something between the chunks of a set, or beside each other. -/
private def mark (c : Char) : List Char :=
  if c = '&' || c = '~' || c = '|' then ['\\', c] else [c]

/-- A character as it is written in a chunk. -/
private def glyph (c : Char) : List Char :=
  (if c = '-' then ['\\', '-'] else if c = '\\' then ['\\', '\\'] else [c]).flatMap mark

private theorem written_glyph (c : Char) : Written c (glyph c) ∧ glyph c ≠ ['-'] := by
  unfold glyph
  split
  · rename_i same
    subst same
    exact ⟨.escaped (by decide), by decide⟩
  · rename_i other
    split
    · rename_i same
      subst same
      exact ⟨.escaped (by decide), by decide⟩
    · rename_i bare
      rw [List.flatMap_singleton, mark]
      split
      · rename_i sign
        simp only [Bool.or_eq_true, decide_eq_true_eq] at sign
        refine ⟨.escaped ?_, by simp⟩
        rcases sign with (rfl | rfl) | rfl <;> decide
      · exact ⟨.plain bare, by simpa using other⟩

private theorem spells_glyphs (chunks : List (List Char)) :
    Spells (chunk :: chunks) (['-'].intercalate ((chunk :: chunks).map (·.flatMap glyph))) := by
  have chars : ∀ (chunk : List Char) {chunks text}, Spells ([] :: chunks) text →
      Spells (chunk :: chunks) (chunk.flatMap glyph ++ text) := by
    intro chunk chunks text behind
    induction chunk with
    | nil => exact behind
    | cons c chunk ih =>
      rw [List.flatMap_cons, List.append_assoc]
      exact .char (written_glyph c).1 (written_glyph c).2 ih
  induction chunks generalizing chunk with
  | nil => simpa [List.intercalate] using chars chunk .done
  | cons next chunks ih =>
    rw [List.map_cons, List.map_cons, List.intercalate_cons_cons, List.append_assoc]
    exact chars chunk (.hyphen ih)

private theorem flatMap_intercalate {f : Char → List Char} (chunks : List (List Char)) :
    (['-'].intercalate chunks).flatMap f =
      (f '-').intercalate (chunks.map (·.flatMap f)) := by
  induction chunks with
  | nil => rfl
  | cons chunk chunks ih =>
    cases chunks with
    | nil => simp [List.intercalate]
    | cons next chunks =>
      rw [List.map_cons, List.map_cons, List.intercalate_cons_cons, List.intercalate_cons_cons,
        List.flatMap_append, List.flatMap_append, ih, List.flatMap_singleton]
      rfl

private theorem setBody_eq (body : List Char) : setBody body = ['-'].intercalate
    ((if '-' ∈ body then dropEmptyRanges (keepLastHyphen (chunksFrom (leading body) [] body))
      else [body]).map (·.flatMap glyph)) := by
  have marked : ∀ chunks : List (List Char),
      ((chunks.map (·.flatMap fun c => if c = '-' then ['\\', '-'] else
        if c = '\\' then ['\\', '\\'] else [c])).map (·.flatMap mark)) =
        chunks.map (·.flatMap glyph) := by
    intro chunks
    rw [List.map_map]
    refine List.map_congr_left fun chunk _ => ?_
    exact List.flatMap_assoc
  by_cases some : '-' ∈ body
  · rw [if_pos some, ← marked]
    have contained : (!body.contains '-') = false := by simpa using some
    unfold setBody
    rw [contained]
    exact flatMap_intercalate _
  · rw [if_neg some]
    have free : (!body.contains '-') = true := by simpa using some
    unfold setBody
    rw [free]
    dsimp only
    rw [if_pos rfl, List.map_singleton, List.intercalate_singleton, List.flatMap_assoc]
    refine List.flatMap_congr fun c member => ?_
    have other : c ≠ '-' := by
      rintro rfl
      exact some member
    rw [glyph, if_neg other]
    rfl

private theorem Chunked.shut_first (chunked : Chunked least (body.take (leading body)) first rest)
    (some : body ≠ []) : Shut first := by
  obtain ⟨tail, front, free⟩ := chunked.front
  have same : leading first = leading body := by
    obtain ⟨c, body, rfl⟩ := List.exists_cons_of_ne_nil some
    rw [front]
    unfold leading
    split <;> simp_all
  unfold Shut
  rw [same, front, List.drop_append, List.drop_eq_nil_of_le (List.length_take_le _ _),
    List.nil_append]
  exact fun member => free (List.mem_of_mem_drop member)

/-- What is read in the set of a glob. -/
theorem setBody_spells (body : List Char) (shut : Shut body) : ∃ first rest,
    Spells (first :: rest) (setBody body) ∧ Tidy (first :: rest) ∧ Shut first ∧
      ']' ∉ rest.flatten := by
  rw [setBody_eq]
  split
  · rename_i some
    have inhabited : body ≠ [] := List.ne_nil_of_mem some
    have positive : 1 ≤ leading body := by
      unfold leading
      split <;> decide
    have enough : 1 ≤ ([] : List Char).length + leading body := by simpa using positive
    obtain ⟨first, rest, ran, chunked⟩ := chunks_spec enough (.inr inhabited) (by decide) shut
    have opens := chunked.shut_first inhabited
    obtain ⟨wide, ascends, held⟩ := dropEmptyRanges_wide chunked.wide
    rw [ran]
    rcases dropEmptyRanges_cons chunked.inhabited wide.inhabited with ⟨same, beside⟩ |
        ⟨next, more, shape, -, joined⟩
    · rw [same]
      exact ⟨_, _, spells_glyphs _, ⟨wide.inhabited, List.isChain_cons.mpr ⟨beside, ascends⟩⟩,
        opens, fun member => chunked.shut (held member)⟩
    · rw [shape] at wide ascends held
      have free : ']' ∉ (next :: more).flatten := fun member => chunked.shut (held member)
      rw [List.flatten_cons, List.mem_append, not_or] at free
      rw [joined]
      exact ⟨_, _, spells_glyphs _,
        ⟨fun chunk member => wide.inhabited chunk (List.mem_cons_of_mem _ member),
          ascends_joined wide ascends⟩,
        opens.joined fun member => free.1 (List.mem_of_mem_tail member), free.2⟩
  · exact ⟨body, [], spells_glyphs [], ⟨by simp, .singleton _⟩, shut, by simp⟩

private theorem Spells.front (spells : Spells (first :: rest) (c :: text))
    (bare : c ≠ '\\') (other : c ≠ '-') :
    ∃ chunk, first = c :: chunk ∧ Spells (chunk :: rest) text := by
  generalize shape : c :: text = whole at spells
  cases spells with
  | done => cases shape
  | char written visible behind =>
    cases written with
    | plain =>
      cases shape
      exact ⟨_, rfl, behind⟩
    | escaped =>
      cases shape
      exact absurd rfl bare
  | hyphen behind =>
    cases shape
    exact absurd rfl other

/-- Nothing but the sign at its front makes a set one of the other characters. -/
private theorem Spells.sign (spells : Spells (('!' :: chunk) :: rest) text) :
    text.head? = some '!' := by
  cases spells with
  | char written => cases written with
    | plain => rfl
    | escaped sign => exact absurd sign (by decide)

/-- A set of a glob is read as one item. -/
theorem setText_snippet (body : List Char) (shut : Shut body) : Snippet (setText body) := by
  obtain ⟨first, rest, spells, tidy, opens, free⟩ := setBody_spells body shut
  unfold setText
  split
  · exact .never
  · exact .any
  · rename_i text other shape
    rw [shape] at spells
    obtain ⟨chunk, rfl, behind⟩ := Spells.front spells (by decide) (by decide)
    have turned : Snippet ('[' :: (['^'] ++ (text ++ [']']))) := by
      refine .set behind tidy.behind_char (.inl rfl) other ?_
      rw [List.mem_append, not_or]
      exact ⟨fun member => opens (by simpa [leading] using member), free⟩
    exact turned
  · rename_i c text _ other shape
    rw [shape] at spells
    have plain : ']' ∉ first.tail ++ rest.flatten := by
      rw [List.mem_append, not_or]
      refine ⟨fun member => ?_, free⟩
      cases first with
      | nil => cases member
      | cons d chunk =>
        by_cases sign : d = '!'
        · subst sign
          cases Spells.sign spells
          exact (other rfl).elim
        · exact opens (by simpa [leading, sign] using member)
    split
    · rename_i special
      simp only [Bool.or_eq_true, decide_eq_true_eq] at special
      obtain ⟨chunk, rfl, behind⟩ := Spells.front spells
        (by rcases special with rfl | rfl <;> decide) (by rcases special with rfl | rfl <;> decide)
      have kept : Snippet ('[' :: ([] ++ (('\\' :: c :: text) ++ [']']))) := by
        refine .set (.char (.escaped ?_) (by simp) behind) tidy (.inr ⟨rfl, by simp⟩)
          (by simp) plain
        rcases special with rfl | rfl <;> decide
      exact kept
    · rename_i special
      have whole : Snippet ('[' :: ([] ++ ((c :: text) ++ [']']))) := by
        refine .set spells tidy (.inr ⟨rfl, ?_⟩) (by simp) plain
        simp only [Bool.or_eq_true, decide_eq_true_eq, not_or] at special
        simpa using special.1
      exact whole

/-! ## Whole globs -/

private theorem bracket_shut (found : bracket? cs = some (body, after)) : Shut body := by
  unfold bracket? at found
  split at found
  rename_i front rest shape
  obtain ⟨⟨inner, behind⟩, cut, same⟩ := Option.map_eq_some_iff.mp found
  cases same
  have free := (Path.cutAt_spec cut).2
  split at shape <;> cases shape
  · simpa [Shut, leading] using free
  · exact .of_tail free
  · exact .of_tail free
  · exact .of_tail fun member => free (List.mem_of_mem_tail member)

private theorem escape_snippet (c : Char) : Snippet (escape c) := by
  have odd : "()[]\x7b\x7d?*+-|^$\\.&~# \t\n\r\x0b\x0c".toList.all (fun c => !c.isAlphanum) =
      true := by
    decide
  unfold escape
  split
  · rename_i special
    exact .escaped (by simpa using List.all_eq_true.mp odd c (List.contains_iff_mem.mp special))
  · rename_i ordinary
    exact .literal (by simpa using ordinary)

/-- Every part of a glob that is fixed is read as one item. -/
theorem parts_fixed (cs : List Char) : ∀ text, Part.fixed text ∈ parts cs → Snippet text := by
  fun_induction parts cs with
  | case1 => simp
  | case2 rest more same ih => simpa [same] using ih
  | case3 rest other ih => simpa using ih
  | case4 rest ih =>
    intro text member
    rcases List.mem_cons.mp member with same | member
    · cases same
      exact .any
    · exact ih text member
  | case5 rest body after found ih =>
    intro text member
    rcases List.mem_cons.mp member with same | member
    · cases same
      exact setText_snippet body (bracket_shut found)
    · exact ih text member
  | case6 rest found ih =>
    intro text member
    rcases List.mem_cons.mp member with same | member
    · cases same
      exact .escaped (by decide)
    · exact ih text member
  | case7 c rest _ _ _ ih =>
    intro text member
    rcases List.mem_cons.mp member with same | member
    · cases same
      exact escape_snippet c
    · exact ih text member

/-- The parts up to the next star are read snippet by snippet. -/
theorem spanFixed_snippets {parts : List Part}
    (fixed : ∀ text, Part.fixed text ∈ parts → Snippet text) : Snippets (spanFixed parts).1 ∧
      ∀ text, Part.fixed text ∈ (spanFixed parts).2 → Snippet text := by
  fun_induction spanFixed parts with
  | case1 text rest more after same ih =>
    rw [same] at ih
    obtain ⟨snippets, behind⟩ := ih fun text member => fixed text (List.mem_cons_of_mem _ member)
    exact ⟨.cons (fixed text (by simp)) snippets, behind⟩
  | case2 => exact ⟨.nil, fixed⟩

theorem starsText_snippets (limit : Nat) {parts : List Part}
    (fixed : ∀ text, Part.fixed text ∈ parts → Snippet text) :
    Snippets (starsText limit parts) := by
  fun_induction starsText limit parts with
  | case1 limit rest text after same last =>
    obtain ⟨snippets, -⟩ :=
      spanFixed_snippets fun text member => fixed text (List.mem_cons_of_mem _ member)
    rw [same] at snippets
    exact .cons .many snippets
  | case2 limit rest text after same more ih =>
    obtain ⟨snippets, behind⟩ :=
      spanFixed_snippets fun text member => fixed text (List.mem_cons_of_mem _ member)
    rw [same] at snippets behind
    have kept : Snippet ('(' :: '?' :: '>' :: ((".*?".toList ++ text) ++ [')'])) :=
      .atomic (.cons .few snippets)
    have whole := Snippets.cons kept (ih behind)
    simpa using whole
  | case3 => exact .nil

section Reading

open Reader

variable {source : Source} {flags : Flags} {more : List Char}

/-- The options in front of the text let a dot stand for a newline too. -/
private theorem readOpening_options (shape : source.rest = '?' :: 's' :: ':' :: more)
    (closed : Sealed source.rest) (opening : Nat) : readOpening flags opening source =
      .ok (.plain { Flags.none with dotAll := true } .none, source.skip 3) := by
  have second : (source.skip 1).rest = 's' :: ':' :: more := by simp [shape]
  have third : ((source.skip 1).skip 1).rest = ':' :: more := by simp [shape]
  unfold readOpening
  rw [bind_ok (accept_plain shape (by decide) closed)]
  refine (bind_ok (next_plain second (by decide) (closed.skip 1))).trans ?_
  have added : readAdded .none (.plain 's') (((source.skip 1).skip 1).rest.length + 1)
      ((source.skip 1).skip 1) =
      .ok (({ Flags.none with dotAll := true }, .plain ':'), source.skip 3) := by
    rw [readAdded]
    refine (bind_ok (next_plain third (by decide) ((closed.skip 1).skip 1))).trans ?_
    rw [Source.skip_skip, Source.skip_skip]
    rfl
  change readFlags (.plain 's') _ = _
  unfold readFlags
  rw [remaining_bind]
  exact bind_ok added

/-- The place behind the text ends the pattern. -/
private theorem readItems_end (fuel : Nat) (flags : Flags) (start : Bool) {node : Node}
    (sound : node.Sound) (shape : source.rest = ['\\', 'Z'])
    (closed : Sealed source.rest) :
    ∃ whole, whole.Sound ∧ readItems (fuel + 2) flags start [.of node] source =
      .ok (whole, source.skip 2) := by
  have inner : nextIs (fun c => c == '|' || c == ')') source = .ok (false, source) := by
    refine nextIs_none fun d first => ?_
    rw [shape] at first
    cases first
    rfl
  have bare : (source.skip 2).rest = [] := by simp [shape]
  have ends : nextIs (fun c => c == '|' || c == ')') (source.skip 2) =
      .ok (false, source.skip 2) := nextIs_none fun d first => by
    rw [bare] at first
    cases first
  refine ⟨.ofList [node, .anchor .textEnd], .seq sound fun _ => rfl, ?_⟩
  rw [readItems, position_bind, bind_ok inner, if_neg (by decide),
    bind_ok (next_escaped shape closed)]
  refine (bind_ok (rfl : readEscape _ 'Z' _ = .ok (.textEnd, _))).trans ?_
  rw [readItems, position_bind, bind_ok ends, if_neg (by decide), bind_ok (next_nil bare)]
  rfl

/-- The items of the text of a glob are read to its end. -/
private theorem readItems_glob (source : Source) (snippets : Snippets text)
    (shape : source.rest = '(' :: '?' :: 's' :: ':' :: (text ++ [')', '\\', 'Z']))
    (closed : Sealed source.rest) : ∃ node after, node.Sound ∧ after.rest = [] ∧
      after.flags = source.flags ∧ after.conditions = source.conditions ∧
      readItems (3 * source.rest.length + 2) .none true [] source = .ok (node, after) := by
  obtain ⟨fuel, enough⟩ : ∃ fuel, 3 * source.rest.length + 2 = fuel + 3 ∧ text.length + 1 < fuel :=
    ⟨3 * source.rest.length - 1, by rw [shape]; simp; omega⟩
  have sign : (source.skip 1).rest = '?' :: 's' :: ':' :: (text ++ [')', '\\', 'Z']) := by
    simp [shape]
  have inside : (source.skip 4).rest = text ++ ')' :: ['\\', 'Z'] := by simp [shape]
  have bareInside :
      (Flags.none.within { Flags.none with dotAll := true } .none).verbose = false := rfl
  obtain ⟨body, healthy, ran, ends⟩ := inside_ok source.position snippets bareInside inside
    (closed.skip 4) (by omega : text.length + 1 < fuel + 1)
  have place : ((source.skip 4).skip (text.length + 1)).rest = ['\\', 'Z'] := by
    rw [Source.skip_rest, inside, ← List.drop_drop, List.drop_left]
    rfl
  obtain ⟨node, sound, whole⟩ :=
    readItems_end (fuel - 1) .none true healthy place ((closed.skip 4).skip _)
  refine ⟨node, ((source.skip 4).skip (text.length + 1)).skip 2, sound, ?_, rfl, rfl, ?_⟩
  · rw [Source.skip_rest, place]
    rfl
  · rw [enough.1, readItems_group closed shape rfl, readGroup,
      bind_ok (readOpening_options sign (closed.skip 1) _), Source.skip_skip]
    refine (bind_ok (map_ok ran)).trans ((bind_ok ends).trans ?_)
    rw [← whole, show fuel - 1 + 2 = fuel + 1 by omega]
    rfl

/-- Every glob is a pattern. -/
theorem compile_ok (glob : String) : ∃ pattern, compile glob = .ok pattern := by
  have snippets := spanFixed_snippets (parts_fixed glob.toList)
  have whole := snippets.1.append (starsText_snippets (parts glob.toList).length snippets.2)
  have shape : (patternText glob).toList = '(' :: '?' :: 's' :: ':' ::
      ((spanFixed (parts glob.toList)).1 ++ starsText (parts glob.toList).length
        (spanFixed (parts glob.toList)).2 ++ [')', '\\', 'Z']) := by
    have front : "(?s:".toList = ['(', '?', 's', ':'] := rfl
    have back : ")\\Z".toList = [')', '\\', 'Z'] := rfl
    unfold patternText
    dsimp only
    rw [String.toList_ofList, front, back]
    simp only [List.cons_append, List.nil_append, List.append_assoc]
  have closed : Sealed (patternText glob).toList := by
    rw [shape]
    simp [Sealed, List.getLast?_cons, List.getLast?_append]
  obtain ⟨node, after, sound, ends, same, conditions, ran⟩ :=
    readItems_glob (sourceOf .none (patternText glob)) whole shape closed
  exact ⟨_, compile_eq_ok closed ran ends same conditions sound⟩

end Reading

end PocketShell.Pattern.Glob
