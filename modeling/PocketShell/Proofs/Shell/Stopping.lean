import PocketShell.Proofs.Shell.Moving
import PocketShell.Proofs.Shell.Reaching

/-! Where a run stops. A pipeline stops at the first stage whose command fails without a redirection
that takes its errors, a line at the first segment behind which its operator ends it. What such a run
leaves can be told without anything that stands behind, and what stands behind is never reached. -/
namespace PocketShell.Shell

variable {inner : Inner} {caller : Caller Command} {action : Action} {point : AtStage}
  {prepared : Prepared} {outcome : Outcome} {workspace after : Workspace} {levels : Nat}

/-- The stage is prepared and its command exits with another code than zero, and no redirection of
the stage takes errors. -/
inductive Fails (inner : Inner) (caller : Caller Command) (point : AtStage) (action : Action)
    (prepared : Prepared) (outcome : Outcome) (after : Workspace) : Prop
  | mk {between : Workspace}
      (prepares : prepare inner action caller point.workspace = (.ok prepared, between))
      (goes : prepared.tooDeep = false)
      (ran : prepared.execute point.stdin caller between = (.ok outcome, after))
      (code : outcome.code ≠ 0) (kept : takesErrors (action.output.map (·.1)) = false) :
      Fails inner caller point action prepared outcome after

/-- The workspace in which a pipeline stops at such a stage: it is put on record, and nothing else
is done. -/
def Prepared.aborted (prepared : Prepared) (index : Nat) (outcome : Outcome) (after : Workspace) :
    Workspace :=
  after.step (.report (prepared.abortion index (withWarnings prepared.warnings outcome)))

@[simp] theorem withWarnings_code (warnings : List String) (outcome : Outcome) :
    (withWarnings warnings outcome).code = outcome.code := by
  unfold withWarnings
  split <;> rfl

/-- Such a stage is the last one. -/
theorem Fails.stage (fails : Fails inner caller point action prepared outcome after) :
    point.stage inner caller action =
      (.ok (.stop (withWarnings prepared.warnings outcome)),
        prepared.aborted point.index outcome after) := by
  obtain ⟨prepares, goes, ran, code, kept⟩ := fails
  have aborts : ((withWarnings prepared.warnings outcome).code != 0 &&
      !takesErrors (action.output.map (·.1))) = true := by
    simp [code, kept]
  unfold AtStage.stage
  rw [runStage_eq, Task.bind_run, prepares]
  simp only [goes, Bool.false_eq_true, ↓reduceIte]
  rw [Task.bind_run, ran]
  unfold Prepared.finish
  simp only [aborts, ↓reduceIte]
  rfl

theorem Fails.next (fails : Fails inner caller point action prepared outcome after) :
    AtStage.next inner caller point action = none := by
  unfold AtStage.next
  rw [fails.stage]

/-- A line that its operator ends, or in which nothing follows, is left as behind the segment. -/
private theorem run_of_ends {here : AtSegment} {segment : Segment} {rest : List Segment}
    (ran : runPipeline levels segment.pipeline caller here.workspace = (.ok outcome, after))
    (ends : endsLine segment.operator outcome.code = true ∨ rest = []) :
    here.run levels caller (segment :: rest) =
      (.ok (here.behind segment.pipeline outcome after).progress,
        (here.behind segment.pipeline outcome after).workspace) := by
  have last : segment.onward outcome.code rest = [] := by
    unfold Segment.onward
    rcases ends with ends | rfl
    · rw [if_pos ends]
    · rw [ite_self]
  rw [AtSegment.run_cons, ran]
  dsimp only
  rw [last]
  rfl

private theorem next_of_ends {here : AtSegment} {segment : Segment} {rest : List Segment}
    (ran : runPipeline levels segment.pipeline caller here.workspace = (.ok outcome, after))
    (ends : endsLine segment.operator outcome.code = true ∨ rest = []) :
    AtSegment.next levels caller here segment = none ∨ rest = [] := by
  refine ends.imp_left fun ends => ?_
  unfold AtSegment.next
  rw [ran]
  exact if_pos ends

/-- If a stage that is reached fails, the pipeline leaves what its command has left and the record of
the failure, and of the stages only this one and those before it are reached, whatever follows. If an
operator ends a line behind a segment that is reached, the line leaves what the segments up to this
one have left, as it does if there are no more, and nothing is reached behind it. -/
theorem stops_for_good (levels : Nat) (caller : Caller Command) (workspace : Workspace) :
    (∀ front action point prepared outcome after,
      front.foldlM (AtStage.next (innerAt levels) caller) (.first workspace) = some point →
      Fails (innerAt levels) caller point action prepared outcome after →
      ∀ back : List Action,
        runPipeline levels (front ++ action :: back) caller workspace =
          (.ok (withWarnings prepared.warnings outcome),
            prepared.aborted point.index outcome after) ∧
        (prepared.aborted point.index outcome after).machine.volume = after.machine.volume ∧
        ∀ there stage, Reaches (AtStage.next (innerAt levels) caller) (.first workspace)
            (front ++ action :: back) there stage ↔
          Reaches (AtStage.next (innerAt levels) caller) (.first workspace) front there stage ∨
            there = point ∧ stage = action) ∧
    ∀ front here pipeline outcome after,
      front.foldlM (AtSegment.next levels caller) (.first levels workspace) = some here →
      runPipeline levels pipeline caller here.workspace = (.ok outcome, after) →
      ∀ line operator rest, parseLine line = front ++ ⟨pipeline, operator⟩ :: rest →
        endsLine operator outcome.code = true ∨ rest = [] →
        runLine levels line caller workspace =
          (.ok (here.behind pipeline outcome after).progress.transcript,
            (here.behind pipeline outcome after).workspace) ∧
        ∀ there stage, LineReaches levels caller line workspace there stage ↔
          (∃ before segment, Reaches (AtSegment.next levels caller) (.first levels workspace) front
              before segment ∧ Reaches (AtStage.next (innerAt levels) caller)
                (.first before.workspace) segment.pipeline there stage) ∨
            Reaches (AtStage.next (innerAt levels) caller) (.first here.workspace) pipeline there
              stage := by
  constructor
  · intro front action point prepared outcome after passes fails back
    refine ⟨?_, rfl, fun there stage => reaches_of_stop passes (.inl fails.next)⟩
    rw [runPipeline_eq_run, AtStage.run_of_passes passes, AtStage.run_cons, fails.stage]
  · intro front here pipeline outcome after passes ran line operator rest parsed ends
    refine ⟨?_, fun there stage => ?_⟩
    · rw [runLine_eq_run, parsed, AtSegment.run_of_passes passes, run_of_ends ran ends]
    · have stops : AtSegment.next levels caller here ⟨pipeline, operator⟩ = none ∨ rest = [] :=
        next_of_ends ran ends
      unfold LineReaches
      rw [parsed]
      simp only [reaches_of_stop passes stops, or_and_right, exists_or, and_assoc, exists_and_left,
        exists_eq_left]

private def greeting : Action := ⟨"echo", ["hi"], none, none⟩

private def missing : Action := ⟨"cat", ["gone"], some (.overwrite, "/tmp/f"), none⟩

/-- Between the two. -/
private def greeted : AtStage :=
  ([greeting].foldlM (AtStage.next (innerAt nestingLimit) visitor)
    (.first (plainWorkspace sharedMachine))).get (by decide +kernel)

private def missed : Prepared := ⟨["cat", "gone"], some "/tmp/f", none, []⟩

private def told : Outcome := ⟨"", some "cat: gone: No such file or directory", 1⟩

/-- The second stage of three fails: its redirection is not written, and the third stage does not
matter. Nor does a segment behind one that fails. -/
theorem stopped_by_missing_file : ∃ after,
    Fails (innerAt nestingLimit) visitor greeted missing missed told after ∧
    (runPipeline nestingLimit [greeting, missing, ⟨"touch", ["/tmp/g"], none, none⟩] visitor
      (plainWorkspace sharedMachine)).1 = .ok told ∧
    (runPipeline nestingLimit [greeting, missing, ⟨"touch", ["/tmp/g"], none, none⟩] visitor
      (plainWorkspace sharedMachine)).2.machine.volume = after.machine.volume ∧
    runLine nestingLimit "cat gone && touch /tmp/g" visitor (plainWorkspace sharedMachine) =
      runLine nestingLimit "cat gone" visitor (plainWorkspace sharedMachine) := by
  have passes : [greeting].foldlM (AtStage.next (innerAt nestingLimit) visitor)
      (.first (plainWorkspace sharedMachine)) = some greeted := (Option.some_get _).symm
  have fails : Fails (innerAt nestingLimit) visitor greeted missing missed told
      (missed.execute greeted.stdin visitor
        (prepare (innerAt nestingLimit) missing visitor greeted.workspace).2).2 :=
    .mk (Prod.ext (toOption_eq_some.mp (by decide +kernel)) rfl) rfl
      (Prod.ext (toOption_eq_some.mp (by decide +kernel)) rfl) (by decide) rfl
  obtain ⟨pipelines, lines⟩ := stops_for_good nestingLimit visitor (plainWorkspace sharedMachine)
  obtain ⟨runs, kept, -⟩ := pipelines _ _ _ _ _ _ passes fails [⟨"touch", ["/tmp/g"], none, none⟩]
  refine ⟨_, fails, congrArg Prod.fst runs, ?_, ?_⟩
  · rw [← kept]
    exact congrArg (fun ending => ending.2.machine.volume) runs
  · have ran : runPipeline nestingLimit [⟨"cat", ["gone"], none, none⟩] visitor
        (AtSegment.first nestingLimit (plainWorkspace sharedMachine)).workspace =
          (.ok told, (runPipeline nestingLimit [⟨"cat", ["gone"], none, none⟩] visitor
            (plainWorkspace sharedMachine)).2) :=
      Prod.ext (toOption_eq_some.mp (by decide +kernel)) rfl
    have ends := lines [] _ _ _ _ rfl ran
    rw [(ends "cat gone && touch /tmp/g" .and [⟨[⟨"touch", ["/tmp/g"], none, none⟩], .done⟩]
        (by decide +kernel) (.inl rfl)).1,
      (ends "cat gone" .done [] (by decide +kernel) (.inr rfl)).1]

end PocketShell.Shell
