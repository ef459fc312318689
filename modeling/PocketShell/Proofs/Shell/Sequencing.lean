import PocketShell.Proofs.Fs.Runs
import PocketShell.Proofs.Shell.Joining
import PocketShell.Proofs.Text.Lines
import PocketShell.Shell.Execution

/-! Running two lines joined by a semicolon. The line that is put together runs the first one and then,
in the workspace that this leaves, the second one, unless an operator of the first ends it before its
last segment: then the second one does not run at all. -/
namespace PocketShell.Shell

/-- Runs segments and tells whether an operator has ended the line before the last of them. -/
def watchSegments (run : Pipeline → Command.Job) (mayMove : Bool) (progress : Progress) :
    List Segment → Run Command (Progress × Bool)
  | [] => return (progress, false)
  | segment :: rest => do
    let outcome ← run segment.pipeline
    let moved := moveOf mayMove segment.pipeline outcome
    moved.forM move
    let progress := progress.add segment.pipeline outcome moved
    if endsLine segment.operator outcome.code then return (progress, true)
    watchSegments run false progress rest

/-- Runs a line and tells whether an operator has ended it early. -/
def watchLineWith (inner : Inner) (top : Bool) (line : String) : Run Command (Transcript × Bool) := do
  let (progress, ended) ← watchSegments (runPipelineWith inner) top ⟨[], [], 0, none⟩ (parseLine line)
  return (progress.transcript, ended)

/-- Runs a line in which as many levels of substitutions may nest, and tells whether an operator has
ended it early. -/
def watchLine : (levels : Nat) → String → Run Command (Transcript × Bool)
  | 0 => watchLineWith none (nestingLimit = 0)
  | levels + 1 => watchLineWith (some (runLine levels)) (levels + 1 = nestingLimit)

/-- What two lines leave together if the second one cannot move: their outputs and their errors, one
below the other, the code of the second and the directory that the first one has moved to. -/
def Transcript.andThen (first second : Transcript) : Transcript where
  output := Text.unlines ([first.output, second.output].filter (!·.isEmpty))
  error :=
    let errors := first.error.toList ++ second.error.toList
    if errors.isEmpty then none else some (Text.unlines errors)
  code := second.code
  moved := first.moved

/-- What two runs of segments leave together. -/
def Progress.andThen (first second : Progress) : Progress where
  outputs := first.outputs ++ second.outputs
  errors := first.errors ++ second.errors
  code := second.code
  moved := second.moved <|> first.moved

/-- No output and no error is empty. -/
structure Progress.Inhabited (progress : Progress) : Prop where
  outputs : ∀ output ∈ progress.outputs, output ≠ ""
  errors : ∀ error ∈ progress.errors, error ≠ ""

variable {run : Pipeline → Command.Job} {mayMove : Bool} {progress first second : Progress}
  {segment : Segment} {segments front back : List Segment}

/-! ## Segments -/

/-- Watching changes nothing. -/
theorem runSegments_eq (run : Pipeline → Command.Job) (mayMove : Bool) (progress : Progress)
    (segments : List Segment) : runSegments run mayMove progress segments =
      Prod.fst <$> watchSegments run mayMove progress segments := by
  induction segments generalizing mayMove progress with
  | nil => simp [runSegments, watchSegments]
  | cons segment segments ih =>
    simp only [runSegments, watchSegments, map_bind]
    refine bind_congr fun outcome => bind_congr fun _ => ?_
    split
    · simp
    · exact ih _ _

/-- Neither a semicolon nor the end of the line ends it early. -/
private theorem watchSegments_endWith (run : Pipeline → Command.Job) (mayMove : Bool)
    (progress : Progress) (segments : List Segment) :
    watchSegments run mayMove progress (endWith .sequence segments) =
      watchSegments run mayMove progress (endWith .done segments) := by
  induction segments generalizing mayMove progress with
  | nil => rfl
  | cons segment segments ih =>
    by_cases last : segments = []
    · subst last
      rfl
    · rw [endWith_cons _ _ last, endWith_cons _ _ last, watchSegments, watchSegments]
      refine bind_congr fun outcome => bind_congr fun _ => ?_
      split
      · rfl
      · exact ih _ _

/-- More segments run unless an operator has ended the line. -/
private theorem runSegments_append (run : Pipeline → Command.Job) (mayMove : Bool)
    (progress : Progress) (inhabited : front ≠ []) (back : List Segment) :
    runSegments run mayMove progress (front ++ back) = (do
      let (between, ended) ← watchSegments run mayMove progress front
      if ended then return between else runSegments run false between back) := by
  induction front generalizing mayMove progress with
  | nil => exact absurd rfl inhabited
  | cons segment front ih =>
    rw [List.cons_append, runSegments, watchSegments, bind_assoc]
    refine bind_congr fun outcome => ?_
    rw [bind_assoc]
    refine bind_congr fun _ => ?_
    split
    · simp
    · by_cases last : front = []
      · subst last
        simp [watchSegments]
      · exact ih _ _ last

/-- What has been left before does not change what the segments do. -/
private theorem runSegments_andThen (run : Pipeline → Command.Job) (mayMove : Bool)
    (first second : Progress) (segments : List Segment) :
    runSegments run mayMove (first.andThen second) segments =
      first.andThen <$> runSegments run mayMove second segments := by
  have adds (second : Progress) (pipeline : Pipeline) (outcome : Outcome) (moved : Option String) :
      (first.andThen second).add pipeline outcome moved =
        first.andThen (second.add pipeline outcome moved) := by
    cases moved <;> simp [Progress.add, Progress.andThen]
  induction segments generalizing mayMove second with
  | nil => simp [runSegments]
  | cons segment segments ih =>
    simp only [runSegments, map_bind, adds]
    refine bind_congr fun outcome => bind_congr fun _ => ?_
    split
    · simp
    · exact ih _ _

/-- Segments that begin with no move run behind others as they do on their own. -/
private theorem runSegments_behind (run : Pipeline → Command.Job) (mayMove : Bool)
    (progress : Progress) (inhabited : segments ≠ [])
    (stays : ∀ segment ∈ segments.head?, isMove segment.pipeline = false) :
    runSegments run false progress segments =
        progress.andThen <$> runSegments run mayMove ⟨[], [], 0, none⟩ segments ∧
      runSegments run mayMove ⟨[], [], 0, none⟩ segments =
        runSegments run false ⟨[], [], 0, none⟩ segments := by
  obtain ⟨segment, segments, rfl⟩ := List.exists_cons_of_ne_nil inhabited
  have unmoved (mayMove : Bool) (outcome : Outcome) :
      moveOf mayMove segment.pipeline outcome = none := by
    simp [moveOf, stays segment rfl]
  have coded : runSegments run false progress (segment :: segments) =
      runSegments run false (progress.andThen ⟨[], [], 0, none⟩) (segment :: segments) := by
    simp [runSegments, Progress.add, Progress.andThen]
  have alike : runSegments run mayMove ⟨[], [], 0, none⟩ (segment :: segments) =
      runSegments run false ⟨[], [], 0, none⟩ (segment :: segments) := by
    simp only [runSegments, unmoved]
  rw [coded, runSegments_andThen, alike]
  exact ⟨rfl, rfl⟩

/-! ## Transcripts -/

/-- Texts below each other are the lines of both; empty ones are left out. -/
private theorem unlines_filter {lines others : List String} (inhabited : ∀ line ∈ lines, line ≠ "")
    (filled : ∀ line ∈ others, line ≠ "") :
    Text.unlines ([Text.unlines lines, Text.unlines others].filter (!·.isEmpty)) =
      Text.unlines (lines ++ others) := by
  have empty : (Text.unlines []).isEmpty = true := by simp [Text.unlines]
  by_cases some : lines = [] <;> by_cases more : others = []
  · simp [some, more, empty]
  · simp [some, empty, Text.isEmpty_unlines more filled, Text.unlines_singleton]
  · simp [more, empty, Text.isEmpty_unlines some inhabited, Text.unlines_singleton]
  · simp [Text.isEmpty_unlines some inhabited, Text.isEmpty_unlines more filled,
      Text.unlines_append some more]

private theorem transcript_andThen (inhabited : first.Inhabited) (filled : second.Inhabited)
    (unmoved : second.moved = none) :
    (first.andThen second).transcript = first.transcript.andThen second.transcript := by
  have outputs := unlines_filter inhabited.outputs filled.outputs
  have errors : (first.andThen second).transcript.error =
      (first.transcript.andThen second.transcript).error := by
    simp only [Progress.transcript, Progress.andThen, Transcript.andThen]
    by_cases some : first.errors = [] <;> by_cases more : second.errors = []
    · simp [some, more]
    · simp [some, more, Text.unlines_singleton]
    · simp [some, more, Text.unlines_singleton]
    · simp [some, more, Text.unlines_append some more]
  have whole : (first.andThen second).transcript = ⟨Text.unlines (first.outputs ++ second.outputs),
      (first.andThen second).transcript.error, second.code, second.moved <|> first.moved⟩ := rfl
  rw [whole, errors, unmoved, ← outputs]
  rfl

private theorem Progress.Inhabited.add (inhabited : progress.Inhabited) (pipeline : Pipeline)
    (outcome : Outcome) (moved : Option String) :
    (progress.add pipeline outcome moved).Inhabited := by
  have filled (text : String) : ∀ line ∈ [text].filter (!·.isEmpty), line ≠ "" := by
    simp
  constructor
  · intro output listed
    rcases List.mem_append.mp listed with before | added
    · exact inhabited.outputs output before
    · split at added
      · cases added
      · exact filled _ output added
  · intro error listed
    rcases List.mem_append.mp listed with before | added
    · exact inhabited.errors error before
    · exact filled _ error added

/-- What every step keeps holds of what the segments leave. -/
private theorem watchSegments_congr {β : Type} {next onward : Progress × Bool → Run Command β}
    (keeps : Progress → Prop) (start : keeps progress)
    (adds : ∀ movable, (movable = true → mayMove = true) → ∀ progress pipeline outcome,
      keeps progress → keeps (progress.add pipeline outcome (moveOf movable pipeline outcome)))
    (same : ∀ progress ended, keeps progress → next (progress, ended) = onward (progress, ended)) :
    watchSegments run mayMove progress segments >>= next =
      watchSegments run mayMove progress segments >>= onward := by
  induction segments generalizing mayMove progress with
  | nil => simpa [watchSegments] using same progress false start
  | cons segment segments ih =>
    simp only [watchSegments, bind_assoc]
    refine bind_congr fun outcome => bind_congr fun _ => ?_
    have added := adds mayMove id progress segment.pipeline outcome start
    split
    · simpa using same _ true added
    · exact ih added fun movable only => adds movable fun may => absurd (only may) (by decide)

/-! ## Lines -/

section

variable {one other : String} {inner : Inner} {top : Bool}

private theorem runLineWith_eq (inner : Inner) (top : Bool) (line : String) :
    runLineWith inner top line = Prod.fst <$> watchLineWith inner top line := by
  simp only [runLineWith, watchLineWith, runSegments_eq, map_bind, bind_map_left]
  rfl

private theorem inhabited_start : Progress.Inhabited ⟨[], [], 0, none⟩ := ⟨by simp, by simp⟩

private theorem runLineWith_join (continuable : Continuable one) (uncommented : ¬ Commented other)
    (stays : ∀ segment ∈ (parseLine other).head?, isMove segment.pipeline = false) :
    runLineWith inner top (one ++ ";" ++ other) = (do
      let (first, ended) ← watchLineWith inner top one
      if ended ∨ parseLine other = [] then return first
      let second ← runLineWith inner top other
      return first.andThen second) := by
  have joined := parseLine_join continuable uncommented
  by_cases empty : parseLine other = []
  · rw [if_pos empty] at joined
    have alone : runLineWith inner top (one ++ ";" ++ other) = runLineWith inner top one := by
      rw [runLineWith, runLineWith, joined]
    rw [alone, runLineWith_eq]
    simp [empty]
  · rw [if_neg empty] at joined
    have inhabited : endWith .sequence (parseLine one) ≠ [] :=
      mt endWith_eq_nil_iff.mp (parseLine_ne_nil continuable)
    rw [runLineWith, joined, runSegments_append _ _ _ inhabited, watchSegments_endWith,
      endWith_parseLine, watchLineWith, bind_assoc, bind_assoc]
    -- what the first line has left has no empty texts, and neither has the second line's
    refine watchSegments_congr Progress.Inhabited inhabited_start
      (fun _ _ progress pipeline outcome kept => kept.add pipeline outcome _)
      (fun between ended kept => ?_)
    cases ended with
    | true => simp
    | false =>
      obtain ⟨behind, unmoving⟩ :=
        runSegments_behind (runPipelineWith inner) top between empty stays
      simp only [Bool.false_eq_true, ↓reduceIte, pure_bind, empty, or_self, behind, bind_map_left,
        runLineWith, unmoving, runSegments_eq, bind_assoc]
      refine watchSegments_congr (fun progress => progress.Inhabited ∧ progress.moved = none)
        ⟨inhabited_start, rfl⟩ (fun movable only progress pipeline outcome still => ?_)
        (fun progress _ still => ?_)
      · obtain rfl : movable = false := by simpa using only
        exact ⟨still.1.add pipeline outcome _, by simpa [Progress.add, moveOf] using still.2⟩
      · rw [transcript_andThen kept still.1 still.2]

end

/-- A line behind another one and a semicolon: its segments follow those of the other line, and it runs
in the workspace that the other line has left, unless that one has been ended early by an operator. -/
theorem sequence_composes {first second : String} (continuable : Continuable first)
    (uncommented : ¬ Commented second)
    (stays : ∀ segment ∈ (parseLine second).head?, isMove segment.pipeline = false) :
    (parseLine (first ++ ";" ++ second) = if parseLine second = [] then parseLine first
      else endWith .sequence (parseLine first) ++ parseLine second) ∧
    ∀ levels : Nat,
      runLine levels first = Prod.fst <$> watchLine levels first ∧
      runLine levels (first ++ ";" ++ second) = (do
        let (left, ended) ← watchLine levels first
        if ended ∨ parseLine second = [] then return left
        let more ← runLine levels second
        return left.andThen more) := by
  refine ⟨parseLine_join continuable uncommented, fun levels => ?_⟩
  cases levels with
  | zero => exact ⟨runLineWith_eq _ _ _, runLineWith_join continuable uncommented stays⟩
  | succ levels => exact ⟨runLineWith_eq _ _ _, runLineWith_join continuable uncommented stays⟩

private theorem finished_echoes : Finished none "a||echo \";\"$(b)".toList := by
  have letter {c : Char} {rest : List Char} (idle : inert c = true)
      (unmarked : separator? lineMarks (c :: rest) = none) (finished : Finished none rest) :
      Finished none (c :: rest) := by
    simp only [inert, Bool.and_eq_true, Bool.not_eq_true', bne_iff_ne, ne_eq] at idle
    exact .plain idle.1.1 idle.1.2 (fun same => absurd same idle.2) unmarked finished
  have either (rest : List Char) :
      separator? lineMarks ('|' :: '|' :: rest) = some (['|', '|'], rest) := rfl
  have span : substitution? ['$', '(', 'b', ')'] = some (['b'], []) := by decide
  change Finished none ['a', '|', '|', 'e', 'c', 'h', 'o', ' ', '"', ';', '"', '$', '(', 'b', ')']
  refine letter rfl rfl (.cut (either _) ?_)
  refine letter rfl rfl (letter rfl rfl (letter rfl rfl (letter rfl rfl (letter rfl rfl ?_))))
  exact .quote rfl (.quoted (by decide) (.quoted (by decide) (.span span .done)))

/-- What a line leaves in a workspace with nothing around it. -/
private def leaves (line : String) : Option Transcript :=
  (runLine nestingLimit line ⟨"guest", some Command.standardRegistry, "host"⟩
    ⟨bareMachine, "/", [], [], [], none, []⟩).1.toOption

/-- Operators, quotes and substitutions may stand before the semicolon. -/
theorem sequence_of_echoes : Continuable "a||echo \";\"$(b)" ∧ ¬ Commented "echo c" ∧
    (∀ segment ∈ (parseLine "echo c").head?, isMove segment.pipeline = false) ∧
    leaves ("a||echo \";\"$(b)" ++ ";" ++ "echo c") =
      some ⟨";\nc", some "a: command not found\nb: command not found", 0, none⟩ := by
  have continuable : Continuable "a||echo \";\"$(b)" :=
    ⟨finished_echoes, by decide +kernel, by decide +kernel⟩
  have uncommented : ¬ Commented "echo c" := by decide +kernel
  have stays : ∀ segment ∈ (parseLine "echo c").head?, isMove segment.pipeline = false := by
    decide +kernel
  refine ⟨continuable, uncommented, stays, ?_⟩
  obtain ⟨-, runs⟩ := sequence_composes continuable uncommented stays
  rw [leaves, (runs nestingLimit).2]
  decide +kernel

/-- A mark behind a blank makes a line a comment, but not what follows a semicolon. -/
theorem comment_behind_semicolon : Continuable "a" ∧ " #b".toList.head? ≠ some '#' ∧
    parseLine " #b" = [] ∧ parseLine "a" = [⟨[⟨"a", [], none, none⟩], .done⟩] ∧
    parseLine ("a" ++ ";" ++ " #b") =
      [⟨[⟨"a", [], none, none⟩], .sequence⟩, ⟨[⟨"#b", [], none, none⟩], .done⟩] := by
  have finished : Finished none "a".toList := .plain rfl (by decide) nofun rfl .done
  exact ⟨⟨finished, by decide +kernel, by decide +kernel⟩, by decide +kernel⟩

end PocketShell.Shell
