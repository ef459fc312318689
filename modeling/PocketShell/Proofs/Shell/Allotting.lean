import Mathlib.Data.List.Nodup
import Mathlib.Data.List.Range
import PocketShell.Proofs.Shell.Protection
import PocketShell.Shell.Parse

/-!
Where the tokens of a stage go. A redirection takes a mark and the word behind it; whatever no
redirection takes is a word of the action, other marks included. No token goes two ways and none is
lost, and a mark is never made of characters that quotes or a backslash protect.
-/
namespace PocketShell.Shell

/-! ## What a redirection takes -/

/-- The mark stands at the index and a word behind it. `place` says which token stands where. -/
structure Targets (place : ℕ → Option Token) (mark : Mark) (index : ℕ) (path : String) : Prop where
  marked : place index = some (.mark mark)
  followed : place (index + 1) = some (.word path)

/-- No mark of the kind that stands before has a word behind it. -/
structure FirstTarget (place : ℕ → Option Token) (mark : Mark) (index : ℕ) (path : String) : Prop
    extends Targets place mark index path where
  first : ∀ earlier < index, ∀ other, ¬ Targets place mark earlier other

/-- Of two redirections of output in a stage the first one counts, wherever they stand. -/
def Redirect.Precedes (first second : Redirect) : Prop :=
  byPrecedence.idxOf first < byPrecedence.idxOf second

/-- The redirection of output and the index of its mark: the first mark with a word behind it, of
the kind that precedes every other kind that has such a mark. -/
inductive TakesOutput (place : ℕ → Option Token) :
    Option ℕ → Option (Redirect × String) → Prop
  | nothing : (∀ redirect index path, ¬ Targets place (.output redirect) index path) →
      TakesOutput place none none
  | pair {redirect index path} : FirstTarget place (.output redirect) index path →
      (∀ other, other.Precedes redirect →
        ∀ index path, ¬ Targets place (.output other) index path) →
      TakesOutput place (some index) (some (redirect, path))

/-- The redirection of input and the index of its mark, the first with a word behind it. -/
inductive TakesInput (place : ℕ → Option Token) : Option ℕ → Option String → Prop
  | nothing : (∀ index path, ¬ Targets place .input index path) → TakesInput place none none
  | pair {index path} : FirstTarget place .input index path →
      TakesInput place (some index) (some path)

/-- The indices of a mark that is taken and of the word behind it. -/
def pairAt : Option ℕ → List ℕ
  | none => []
  | some index => [index, index + 1]

/-- Where the tokens of a stage go: the indices of the words, and those of the marks of its
redirections. -/
structure Allotment where
  words : List ℕ
  output : Option ℕ
  input : Option ℕ

/-- The texts of the tokens at the indices. -/
def textsAt (tokens : List Token) (indices : List ℕ) : List String :=
  indices.filterMap fun index => tokens[index]?.map Token.text

/-- Every token goes one way, and the action is what they make up. -/
structure Allotment.Yields (allotment : Allotment) (tokens : List Token) (action : Action) :
    Prop where
  partition : (allotment.words ++ (pairAt allotment.output ++ pairAt allotment.input)).Perm
    (List.range tokens.length)
  ordered : allotment.words.Pairwise (· < ·)
  name : action.name = (textsAt tokens allotment.words).head?.getD ""
  args : action.args = (textsAt tokens allotment.words).tail
  output : TakesOutput (tokens[·]?) allotment.output action.output
  input : TakesInput (tokens[·]?) allotment.input action.input

variable {place : ℕ → Option Token} {mark : Mark} {index : ℕ} {path : String}

/-! ## One way only -/

theorem Targets.unique {other : Mark} {target : String} (targets : Targets place mark index path)
    (again : Targets place other index target) : mark = other ∧ path = target := by
  have marks := targets.marked.symm.trans again.marked
  have words := targets.followed.symm.trans again.followed
  simpa using And.intro marks words

/-- A mark and the word behind it are apart from every other mark and the word behind that. -/
theorem Targets.apart {other : Mark} {position : ℕ} {target : String}
    (targets : Targets place mark index path) (others : Targets place other position target)
    (distinct : mark ≠ other) : index ≠ position ∧ index + 1 ≠ position ∧ index ≠ position + 1 := by
  refine ⟨?_, ?_, ?_⟩
  · rintro rfl
    exact distinct (targets.unique others).1
  · rintro rfl
    simpa using targets.followed.symm.trans others.marked
  · rintro rfl
    simpa using targets.marked.symm.trans others.followed

theorem FirstTarget.unique {position : ℕ} {target : String}
    (first : FirstTarget place mark index path) (again : FirstTarget place mark position target) :
    index = position ∧ path = target := by
  have same : index = position := by
    rcases Nat.lt_trichotomy index position with before | same | behind
    · exact absurd first.toTargets (again.first _ before _)
    · exact same
    · exact absurd again.toTargets (first.first _ behind _)
  subst same
  exact ⟨rfl, (first.toTargets.unique again.toTargets).2⟩

theorem Redirect.precedes_or_eq (first second : Redirect) :
    first.Precedes second ∨ first = second ∨ second.Precedes first := by
  unfold Precedes
  cases first <;> cases second <;> decide

theorem TakesOutput.unique {taken again : Option ℕ} {output other : Option (Redirect × String)}
    (takes : TakesOutput place taken output) (repeated : TakesOutput place again other) :
    taken = again ∧ output = other := by
  cases takes with
  | nothing lacking =>
    cases repeated with
    | nothing => exact ⟨rfl, rfl⟩
    | pair first => exact absurd first.toTargets (lacking _ _ _)
  | @pair redirect _ _ first ahead =>
    cases repeated with
    | nothing lacking => exact absurd first.toTargets (lacking _ _ _)
    | @pair another _ _ later before =>
      have same : redirect = another := by
        rcases Redirect.precedes_or_eq redirect another with precedes | same | precedes
        · exact absurd first.toTargets (before _ precedes _ _)
        · exact same
        · exact absurd later.toTargets (ahead _ precedes _ _)
      subst same
      obtain ⟨rfl, rfl⟩ := first.unique later
      exact ⟨rfl, rfl⟩

theorem TakesInput.unique {taken again : Option ℕ} {input other : Option String}
    (takes : TakesInput place taken input) (repeated : TakesInput place again other) :
    taken = again ∧ input = other := by
  cases takes with
  | nothing lacking =>
    cases repeated with
    | nothing => exact ⟨rfl, rfl⟩
    | pair first => exact absurd first.toTargets (lacking _ _)
  | pair first =>
    cases repeated with
    | nothing lacking => exact absurd first.toTargets (lacking _ _)
    | pair later =>
      obtain ⟨rfl, rfl⟩ := first.unique later
      exact ⟨rfl, rfl⟩

/-- The tokens leave no choice: they make up one action at most. -/
theorem Allotment.Yields.unique {allotment other : Allotment} {tokens : List Token}
    {action second : Action} (yields : allotment.Yields tokens action)
    (again : other.Yields tokens second) : action = second := by
  obtain ⟨words, output, input⟩ := allotment
  obtain ⟨others, _, _⟩ := other
  obtain ⟨rfl, outputs⟩ := yields.output.unique again.output
  obtain ⟨rfl, inputs⟩ := yields.input.unique again.input
  have same : words = others :=
    List.Perm.eq_of_pairwise (fun _ _ _ _ less more => absurd less (Nat.lt_asymm more))
      yields.ordered again.ordered
      ((List.perm_append_right_iff _).mp (yields.partition.trans again.partition.symm))
  subst same
  obtain ⟨name, args, _, _⟩ := action
  obtain ⟨_, _, _, _⟩ := second
  obtain rfl : name = _ := yields.name.trans again.name.symm
  obtain rfl : args = _ := yields.args.trans again.args.symm
  cases outputs
  cases inputs
  rfl

/-! ## Taking -/

/-- The token in a slot; none in a gap, and none behind the end. -/
private def slotAt (slots : List (Option Token)) (index : ℕ) : Option Token := slots[index]?.join

@[simp] private theorem slotAt_nil (index : ℕ) : slotAt [] index = none := rfl

@[simp] private theorem slotAt_zero (slot : Option Token) (slots : List (Option Token)) :
    slotAt (slot :: slots) 0 = slot := rfl

@[simp] private theorem slotAt_succ (slot : Option Token) (slots : List (Option Token))
    (index : ℕ) : slotAt (slot :: slots) (index + 1) = slotAt slots index := rfl

private theorem slotAt_tokens (tokens : List Token) : slotAt (tokens.map some) = (tokens[·]?) := by
  funext index
  simp only [slotAt, List.getElem?_map]
  cases tokens[index]? <;> rfl

/-- The taken slots are gaps, and the others are as before. -/
private structure Vacates (slots : List (Option Token)) (taken : List ℕ)
    (left : List (Option Token)) : Prop where
  length : left.length = slots.length
  slot : ∀ index, slotAt left index = if index ∈ taken then none else slotAt slots index

private theorem vacates_nothing (slots : List (Option Token)) : Vacates slots [] slots :=
  ⟨rfl, fun _ => by simp⟩

private theorem Vacates.trans {slots left last : List (Option Token)} {taken more : List ℕ}
    (vacates : Vacates slots taken left) (next : Vacates left more last) :
    Vacates slots (taken ++ more) last where
  length := next.length.trans vacates.length
  slot index := by
    rw [next.slot, vacates.slot]
    by_cases here : index ∈ taken <;> simp [here]

/-- What is left, read by index. -/
private theorem Vacates.filterMap {tokens : List Token} {taken : List ℕ}
    {left : List (Option Token)} (vacates : Vacates (tokens.map some) taken left) :
    (left.filterMap fun slot => slot.map Token.text) =
      textsAt tokens ((List.range tokens.length).filter (· ∉ taken)) := by
  have listed : left = (List.range tokens.length).map (slotAt left) := by
    have size : left.length = tokens.length := by simpa using vacates.length
    refine List.ext_getElem (by simp [size]) fun index inside _ => ?_
    simp [slotAt, inside]
  rw [textsAt, listed, List.filterMap_map, List.filterMap_filter]
  refine List.filterMap_congr fun index _ => ?_
  rw [Function.comp_apply, vacates.slot, slotAt_tokens]
  by_cases here : index ∈ taken <;> simp [here]

/-- What `takeRedirect` is to make of the slots. -/
private inductive Takes (mark : Mark) (slots : List (Option Token)) :
    Option (String × List (Option Token)) → Prop
  | nothing : (∀ index path, ¬ Targets (slotAt slots) mark index path) → Takes mark slots none
  | pair {index path left} : FirstTarget (slotAt slots) mark index path →
      Vacates slots [index, index + 1] left → Takes mark slots (some (path, left))

private theorem targets_succ {slot : Option Token} {slots : List (Option Token)} :
    Targets (slotAt (slot :: slots)) mark (index + 1) path ↔
      Targets (slotAt slots) mark index path :=
  ⟨fun targets => ⟨targets.marked, targets.followed⟩,
    fun targets => ⟨targets.marked, targets.followed⟩⟩

/-- A slot with no mark to take stays in front. -/
private theorem Takes.skip {slot : Option Token} {slots : List (Option Token)}
    {result : Option (String × List (Option Token))}
    (idle : ∀ path, ¬ Targets (slotAt (slot :: slots)) mark 0 path)
    (takes : Takes mark slots result) :
    Takes mark (slot :: slots) (result.map fun (path, left) => (path, slot :: left)) := by
  cases takes with
  | nothing lacking =>
    refine .nothing fun index path targets => ?_
    cases index with
    | zero => exact idle path targets
    | succ index => exact lacking index path (targets_succ.mp targets)
  | @pair index path left first vacates =>
    have next : FirstTarget (slotAt (slot :: slots)) mark (index + 1) path := by
      refine ⟨targets_succ.mpr first.toTargets, fun earlier before other targets => ?_⟩
      cases earlier with
      | zero => exact idle other targets
      | succ earlier =>
        exact first.first earlier (Nat.lt_of_succ_lt_succ before) other (targets_succ.mp targets)
    refine .pair next ⟨congrArg (· + 1) vacates.length, fun position => ?_⟩
    cases position with
    | zero => simp
    | succ position => simp [vacates.slot]

private theorem takeRedirect_takes (mark : Mark) (slots : List (Option Token)) :
    Takes mark slots (takeRedirect mark slots) := by
  induction slots with
  | nil => exact .nothing fun _ _ targets => nomatch targets.marked
  | cons slot rest ih =>
    by_cases adjoining :
        ∃ found path more, slot = some (.mark found) ∧ rest = some (.word path) :: more
    · obtain ⟨found, path, more, rfl, rfl⟩ := adjoining
      rw [takeRedirect]
      by_cases same : found = mark
      · subst same
        have targets : Targets (slotAt (some (.mark found) :: some (.word path) :: more)) found 0
            path := ⟨rfl, rfl⟩
        rw [if_pos rfl]
        refine .pair ⟨targets, nofun⟩ ⟨rfl, fun index => ?_⟩
        rcases index with _ | _ | index <;> simp
      · rw [if_neg same]
        exact ih.skip fun _ targets => same (by simpa using targets.marked)
    · rw [takeRedirect]
      · refine ih.skip fun path targets => ?_
        cases rest with
        | nil => cases targets.followed
        | cons next more =>
          exact adjoining ⟨_, _, more, targets.marked, congrArg (· :: more) targets.followed⟩
      · exact fun found path more marked followed =>
          adjoining ⟨found, path, more, marked, followed⟩

private theorem not_targets {slots : List (Option Token)} (took : takeRedirect mark slots = none) :
    ∀ index path, ¬ Targets (slotAt slots) mark index path := by
  have takes := takeRedirect_takes mark slots
  rw [took] at takes
  cases takes with
  | nothing lacking => exact lacking

private theorem Redirect.mem_of_precedes {front back : List Redirect} {redirect other : Redirect}
    (whole : byPrecedence = front ++ redirect :: back) (precedes : other.Precedes redirect) :
    other ∈ front := by
  by_contra absent
  unfold Precedes at precedes
  rw [whole, List.idxOf_append_of_notMem absent, List.idxOf_append] at precedes
  split at precedes
  · have := List.idxOf_lt_length_of_mem ‹redirect ∈ front›
    omega
  · rw [List.idxOf_cons_self] at precedes
    omega

private theorem takeOutput_takes (slots : List (Option Token)) :
    ∃ taken, TakesOutput (slotAt slots) taken ((takeOutput slots).map (·.1)) ∧
      Vacates slots (pairAt taken) (((takeOutput slots).map (·.2)).getD slots) := by
  cases took : takeOutput slots with
  | none =>
    refine ⟨none, .nothing fun redirect => ?_, vacates_nothing slots⟩
    have listed : redirect ∈ Redirect.byPrecedence := by cases redirect <;> decide
    exact not_targets (Option.map_eq_none_iff.mp (List.findSome?_eq_none_iff.mp took _ listed))
  | some out =>
    obtain ⟨front, redirect, back, whole, found, before⟩ := List.findSome?_eq_some_iff.mp took
    obtain ⟨⟨path, left⟩, taking, rfl⟩ := Option.map_eq_some_iff.mp found
    have takes := takeRedirect_takes (.output redirect) slots
    rw [taking] at takes
    cases takes with
    | pair first vacates =>
      refine ⟨_, .pair first fun other precedes => ?_, vacates⟩
      exact not_targets
        (Option.map_eq_none_iff.mp (before _ (Redirect.mem_of_precedes whole precedes)))

private theorem takeInput_takes (slots : List (Option Token)) :
    ∃ taken, TakesInput (slotAt slots) taken ((takeRedirect .input slots).map (·.1)) ∧
      Vacates slots (pairAt taken) (((takeRedirect .input slots).map (·.2)).getD slots) := by
  have takes := takeRedirect_takes .input slots
  generalize takeRedirect .input slots = result at takes ⊢
  cases takes with
  | nothing lacking => exact ⟨none, .nothing lacking, vacates_nothing slots⟩
  | pair first vacates => exact ⟨_, .pair first, vacates⟩

/-- First the redirection of output is taken from the slots, then that of input from the rest. -/
private theorem parseAction_takes (stage : String) : ∃ taken more output input left last,
    TakesOutput (slotAt ((lex true none none stage.toList).map some)) taken output ∧
      Vacates ((lex true none none stage.toList).map some) (pairAt taken) left ∧
      TakesInput (slotAt left) more input ∧ Vacates left (pairAt more) last ∧
      parseAction stage = match last.filterMap fun slot => slot.map Token.text with
        | name :: args => some ⟨name, args, output, input⟩
        | [] => if output.isNone && input.isNone then none else some ⟨"", [], output, input⟩ := by
  unfold parseAction
  generalize (lex true none none stage.toList).map some = slots
  dsimp only
  obtain ⟨taken, outputs, vacates⟩ := takeOutput_takes slots
  cases first : takeOutput slots with
  | none =>
    rw [first] at outputs vacates
    obtain ⟨more, inputs, next⟩ := takeInput_takes slots
    cases second : takeRedirect .input slots <;> rw [second] at inputs next <;>
      exact ⟨_, _, _, _, _, _, outputs, vacates, inputs, next, rfl⟩
  | some out =>
    rw [first] at outputs vacates
    obtain ⟨more, inputs, next⟩ := takeInput_takes out.2
    cases second : takeRedirect .input out.2 <;> rw [second] at inputs next <;>
      exact ⟨_, _, _, _, _, _, outputs, vacates, inputs, next, rfl⟩

/-! ## Allotting -/

private theorem TakesOutput.targets {taken : Option ℕ} {output : Option (Redirect × String)}
    (takes : TakesOutput place taken output) :
    ∀ index ∈ taken, ∃ redirect path, Targets place (.output redirect) index path := by
  cases takes with
  | nothing => exact nofun
  | pair first =>
    rintro _ ⟨⟩
    exact ⟨_, _, first.toTargets⟩

private theorem TakesInput.targets {taken : Option ℕ} {input : Option String}
    (takes : TakesInput place taken input) :
    ∀ index ∈ taken, ∃ path, Targets place .input index path := by
  cases takes with
  | nothing => exact nofun
  | pair first =>
    rintro _ ⟨⟩
    exact ⟨_, first.toTargets⟩

private theorem mem_pairAt {taken : Option ℕ} {position : ℕ} :
    position ∈ pairAt taken ↔ ∃ index ∈ taken, position = index ∨ position = index + 1 := by
  cases taken <;> simp [pairAt]

/-- The gaps of the redirection of output hide no redirection of input. -/
private theorem targets_of_vacates {slots left : List (Option Token)} {taken : Option ℕ}
    {output : Option (Redirect × String)} (takes : TakesOutput (slotAt slots) taken output)
    (vacates : Vacates slots (pairAt taken) left) :
    Targets (slotAt left) .input index path ↔ Targets (slotAt slots) .input index path := by
  constructor
  · intro targets
    have shown {position : ℕ} {token : Token} (held : slotAt left position = some token) :
        slotAt slots position = some token := by
      rw [vacates.slot] at held
      split at held
      · cases held
      · exact held
    exact ⟨shown targets.marked, shown targets.followed⟩
  · intro targets
    have apart : index ∉ pairAt taken ∧ index + 1 ∉ pairAt taken := by
      simp only [mem_pairAt, not_exists, not_and]
      constructor <;>
        · intro other member
          obtain ⟨redirect, target, held⟩ := takes.targets other member
          have := held.apart targets nofun
          omega
    constructor
    · rw [vacates.slot, if_neg apart.1, targets.marked]
    · rw [vacates.slot, if_neg apart.2, targets.followed]

private theorem TakesInput.congr {other : ℕ → Option Token} {taken : Option ℕ}
    {input : Option String}
    (same : ∀ index path, Targets place .input index path ↔ Targets other .input index path)
    (takes : TakesInput place taken input) : TakesInput other taken input := by
  cases takes with
  | nothing lacking =>
    exact .nothing fun index path => (same index path).not.mp (lacking index path)
  | pair first =>
    exact .pair ⟨(same _ _).mp first.toTargets,
      fun earlier before path => (same earlier path).not.mp (first.first earlier before path)⟩

/-- What is not taken completes what is. -/
private theorem filter_range_perm {size : ℕ} {taken : List ℕ} (distinct : taken.Nodup)
    (inside : ∀ index ∈ taken, index < size) :
    ((List.range size).filter (· ∉ taken) ++ taken).Perm (List.range size) := by
  have apart : ((List.range size).filter (· ∉ taken)).Disjoint taken := by
    intro index left
    simpa using (List.mem_filter.mp left).2
  refine (List.perm_ext_iff_of_nodup ?_ List.nodup_range).mpr fun index => ?_
  · exact (List.nodup_range.filter _).append distinct apart
  · by_cases here : index ∈ taken
    · simp [here, inside index here]
    · simp [here]

private theorem pairs_nodup {taken more : Option ℕ} {output : Option (Redirect × String)}
    {input : Option String} (outputs : TakesOutput place taken output)
    (inputs : TakesInput place more input) : (pairAt taken ++ pairAt more).Nodup := by
  have nodup (taken : Option ℕ) : (pairAt taken).Nodup := by cases taken <;> simp [pairAt]
  refine (nodup taken).append (nodup more) fun position here there => ?_
  obtain ⟨index, member, placed⟩ := mem_pairAt.mp here
  obtain ⟨other, among, coincides⟩ := mem_pairAt.mp there
  obtain ⟨redirect, path, targets⟩ := outputs.targets index member
  obtain ⟨target, others⟩ := inputs.targets other among
  have := targets.apart others nofun
  omega

private theorem Targets.inside {tokens : List Token}
    (targets : Targets (tokens[·]?) mark index path) : index + 1 < tokens.length :=
  (List.getElem?_eq_some_iff.mp targets.followed).1

private theorem pairAt_inside {tokens : List Token} {taken : Option ℕ}
    (held : ∀ index ∈ taken, ∃ mark path, Targets (tokens[·]?) mark index path) :
    ∀ position ∈ pairAt taken, position < tokens.length := by
  intro position member
  obtain ⟨index, among, placed⟩ := mem_pairAt.mp member
  obtain ⟨_, _, targets⟩ := held index among
  have := targets.inside
  omega

/-- Every token has a text. -/
private theorem eq_nil_of_textsAt {tokens : List Token} {indices : List ℕ}
    (inside : ∀ index ∈ indices, index < tokens.length)
    (empty : textsAt tokens indices = []) : indices = [] := by
  refine List.eq_nil_iff_forall_not_mem.mpr fun index member => ?_
  have gone := List.filterMap_eq_nil_iff.mp empty index member
  simp [inside index member] at gone

/-- Where there is a token it shows in the action. -/
private theorem Allotment.Yields.eq_nil_iff {allotment : Allotment} {tokens : List Token}
    {action : Action} (yields : allotment.Yields tokens action) :
    tokens = [] ↔
      textsAt tokens allotment.words = [] ∧ action.output = none ∧ action.input = none := by
  obtain ⟨partition, -, -, -, outputs, inputs⟩ := yields
  obtain ⟨words, taken, more⟩ := allotment
  constructor
  · rintro rfl
    refine ⟨by simp [textsAt], ?_, ?_⟩
    · generalize action.output = output at outputs
      cases outputs with
      | nothing => rfl
      | pair first => cases first.marked
    · generalize action.input = input at inputs
      cases inputs with
      | nothing => rfl
      | pair first => cases first.marked
  · rintro ⟨texts, untaken, unread⟩
    rw [untaken] at outputs
    rw [unread] at inputs
    cases outputs
    cases inputs
    have inside : ∀ index ∈ words, index < tokens.length := fun index member =>
      List.mem_range.mp (partition.mem_iff.mp (List.mem_append_left _ member))
    obtain rfl : words = [] := eq_nil_of_textsAt inside texts
    exact List.length_eq_zero_iff.mp (by simpa [pairAt] using partition.length_eq.symm)

private theorem parseAction_yields (stage : String) : ∃ (allotment : Allotment) (action : Action),
    allotment.Yields (lex true none none stage.toList) action ∧
      parseAction stage =
        if lex true none none stage.toList = [] then none else some action := by
  obtain ⟨taken, more, output, input, left, last, outputs, vacates, inputs, next, shape⟩ :=
    parseAction_takes stage
  -- the input was looked for among the gaps, but stands where it would without them
  replace inputs := inputs.congr fun _ _ => targets_of_vacates outputs vacates
  rw [slotAt_tokens] at outputs inputs
  rw [(vacates.trans next).filterMap] at shape
  generalize lex true none none stage.toList = tokens at outputs inputs shape ⊢
  have inside : ∀ position ∈ pairAt taken ++ pairAt more, position < tokens.length := by
    intro position member
    rcases List.mem_append.mp member with member | member
    · exact pairAt_inside (fun index among =>
        have ⟨_, path, targets⟩ := outputs.targets index among
        ⟨_, path, targets⟩) position member
    · exact pairAt_inside (fun index among => ⟨_, inputs.targets index among⟩) position member
  generalize listed : textsAt tokens _ = texts at shape
  have yields : Allotment.Yields ⟨_, taken, more⟩ tokens
      ⟨texts.head?.getD "", texts.tail, output, input⟩ :=
    ⟨filter_range_perm (pairs_nodup outputs inputs) inside, List.pairwise_lt_range.filter _,
      by rw [listed], by rw [listed], outputs, inputs⟩
  refine ⟨_, _, yields, shape.trans ?_⟩
  have empty : tokens = [] ↔ texts = [] ∧ output = none ∧ input = none :=
    listed ▸ yields.eq_nil_iff
  cases texts <;> simp [empty]

/-! ## Bare marks -/

/-- The token at the index is a mark that stands in the text, and each of its characters is outside
quotes, not behind a backslash and outside substitutions. -/
def StandsBare (lexemes : List Lexeme) (mark : Mark) (index : ℕ) : Prop :=
  ∃ front back, lexemes = front ++ .marking mark :: back ∧ (assemble none front).length = index ∧
    ∀ k < mark.text.length, ExposedAt lexemes ((front.flatMap Lexeme.source).length + k)

/-- A word that is complete is no mark. -/
private theorem split_flush {word : Option (List Char)} {rest before after : List Token}
    (whole : flush word ++ rest = before ++ .mark mark :: after) :
    ∃ others, before = flush word ++ others ∧ rest = others ++ .mark mark :: after := by
  cases word with
  | none => exact ⟨before, rfl, whole⟩
  | some text =>
    cases before with
    | nil => simp [flush] at whole
    | cons token before =>
      simp only [flush, List.cons_append, List.nil_append, List.cons.injEq] at whole ⊢
      obtain ⟨rfl, rest⟩ := whole
      exact ⟨before, ⟨rfl, rfl⟩, rest⟩

/-- A mark among the tokens is read from a lexeme of its own; the lexemes before it make up the
tokens before it. -/
private theorem exists_marking {word : Option (List Char)} {lexemes : List Lexeme}
    {before after : List Token} (whole : assemble word lexemes = before ++ .mark mark :: after) :
    ∃ front back, lexemes = front ++ .marking mark :: back ∧ assemble word front = before := by
  induction lexemes generalizing word before with
  | nil =>
    obtain ⟨others, -, impossible⟩ := split_flush ((List.append_nil _).trans whole)
    simp at impossible
  | cons lexeme lexemes ih =>
    have later {others : List Token}
        (split : before = lexeme.tokens word ++ others)
        (rest : assemble (lexeme.extend word) lexemes = others ++ .mark mark :: after) :
        ∃ front back, lexeme :: lexemes = front ++ .marking mark :: back ∧
          assemble word front = before := by
      obtain ⟨front, back, rfl, same⟩ := ih rest
      exact ⟨lexeme :: front, back, rfl, by rw [assemble, same, split]⟩
    cases lexeme with
    | blank c =>
      obtain ⟨others, split, rest⟩ := split_flush whole
      exact later split rest
    | marking found =>
      rw [assemble, Lexeme.tokens, List.append_assoc] at whole
      obtain ⟨others, split, rest⟩ := split_flush whole
      rw [List.singleton_append] at rest
      cases others with
      | nil =>
        obtain rfl : found = mark := by simpa using (List.cons.inj rest).1
        exact ⟨[], lexemes, rfl, by simpa [assemble] using split.symm⟩
      | cons token others =>
        obtain ⟨rfl, behind⟩ := List.cons.inj rest
        exact later (by simpa [Lexeme.tokens] using split) behind
    | _ => exact later rfl whole

private theorem standsBare_of_mark {lexemes : List Lexeme}
    (marked : (assemble none lexemes)[index]? = some (.mark mark)) :
    StandsBare lexemes mark index := by
  obtain ⟨inside, here⟩ := List.getElem?_eq_some_iff.mp marked
  have whole : assemble none lexemes = (assemble none lexemes).take index ++
      .mark mark :: (assemble none lexemes).drop (index + 1) := by
    rw [← here, List.getElem_cons_drop, List.take_append_drop]
  obtain ⟨front, back, split, before⟩ := exists_marking whole
  refine ⟨front, back, split, ?_, fun k inside => ?_⟩
  · rw [before, List.length_take]
    omega
  · refine ⟨.marking mark, ⟨front, back, split, Nat.le_add_right _ _, ?_⟩, rfl⟩
    exact Nat.add_lt_add_left inside _

/-! ## The whole stage -/

/-- A stage has an action unless it has no tokens. Its tokens fall into the words of the action, in
their order, and a pair for each redirection, of a mark and the word behind it; this alone says
which action it is. Marks are read from bare characters only. -/
theorem tokens_allotted (stage : String) :
    let tokens := lex true none none stage.toList
    ((parseAction stage).isSome = true ↔ tokens ≠ []) ∧
      (∀ action, parseAction stage = some action ↔
        tokens ≠ [] ∧ ∃ allotment : Allotment, allotment.Yields tokens action) ∧
      (∃ lexemes, Reading true none false stage.toList lexemes) ∧
      ∀ lexemes, Reading true none false stage.toList lexemes → tokens = assemble none lexemes ∧
        ∀ index mark, tokens[index]? = some (.mark mark) → StandsBare lexemes mark index := by
  intro tokens
  have quoting : ∀ q ∈ (none : Option Char), isQuote q = true := nofun
  obtain ⟨allotment, action, yields, result⟩ := parseAction_yields stage
  rw [result]
  refine ⟨by split <;> simp_all [tokens], fun other => ⟨fun parsed => ?_, ?_⟩,
    exists_reading true false none _ quoting, fun lexemes reading => ?_⟩
  · split at parsed
    · cases parsed
    · rename_i inhabited
      cases parsed
      exact ⟨inhabited, allotment, yields⟩
  · rintro ⟨inhabited, _, again⟩
    rw [if_neg inhabited, yields.unique again]
  · have whole : tokens = assemble none lexemes := reading.lex_eq rfl
    exact ⟨whole, fun index mark marked => standsBare_of_mark (whole ▸ marked)⟩

/-- Of three marks that a word follows, and one at the end, the stage takes the two that count. The
marks between quotes stay in their word. -/
theorem both_streams_allotted :
    (∃ allotment : Allotment, allotment.Yields
      (lex true none none "cmd > one &> two < in 'x>y' >".toList)
      ⟨"cmd", [">", "one", "x>y", ">"], some (.both, "two"), some "in"⟩) ∧
    ∃ lexemes, Reading true none false "cmd > one &> two < in 'x>y' >".toList lexemes ∧
      StandsBare lexemes (.output .both) 3 ∧ StandsBare lexemes .input 5 := by
  obtain ⟨-, allotted, ⟨lexemes, reading⟩, bare⟩ :=
    tokens_allotted "cmd > one &> two < in 'x>y' >"
  refine ⟨((allotted _).mp (by decide +kernel)).2, lexemes, reading, ?_, ?_⟩
  · exact (bare lexemes reading).2 _ _ (by decide +kernel)
  · exact (bare lexemes reading).2 _ _ (by decide +kernel)

end PocketShell.Shell
