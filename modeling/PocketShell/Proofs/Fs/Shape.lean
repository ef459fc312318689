import PocketShell.Proofs.Fs.Runs

/-! The shape of the filesystem along a run. If no snapshot from outside has a directory with the
empty id, the volume stays a rooted tree whatever is asked of it. Where one has, all but one part of
this still holds, and the one request that breaks it is a move which the test of the lineage lets
pass although it hangs a directory below itself. -/
namespace PocketShell

open Volume

variable {actor : Actor} {machine : Machine} {request : Request} {volume : Volume}

/-- The caller gets a value or a refusal, and no fault. -/
def Machine.Answers (machine : Machine) (actor : Actor) (request : Request) : Prop :=
  ∃ reply, (machine.ask actor request.run).1 = .ok reply

private theorem ask_eq : (machine.ask actor request.run).1 = match (machine.serve actor request).1 with
    | .ok value => .ok (.ok value)
    | .error failure => failure.settle.map .error := by
  unfold Machine.ask Machine.serve
  cases machine.perform actor request.run with
  | mk result after => cases result <;> rfl

private theorem settle_of_refuses {failure : FsFailure} (refuses : failure.Refuses) :
    ∃ reason, failure.settle = .ok reason := by
  cases failure with
  | refused reason => exact ⟨reason, rfl⟩
  | denied path action => exact ⟨.permissionDenied, rfl⟩
  | missing id => cases refuses
  | childless => cases refuses
  | endless => cases refuses

/-- A refusal is an answer. -/
private theorem answers_of_refuses (refuses : ∀ failure,
    (machine.serve actor request).1 = .error failure → failure.Refuses) :
    machine.Answers actor request := by
  unfold Machine.Answers
  rw [ask_eq]
  cases served : (machine.serve actor request).1 with
  | ok value => exact ⟨.ok value, rfl⟩
  | error failure =>
    obtain ⟨reason, settled⟩ := settle_of_refuses (refuses failure served)
    refine ⟨.error reason, ?_⟩
    dsimp only
    rw [settled]
    rfl

/-- Every request but that for a copy is answered. -/
theorem Machine.answers_of_not_copies (linked : machine.volume.Linked) (fresh : machine.IdsFresh)
    (actor : Actor) (copies : ¬ request.Copies) : machine.Answers actor request :=
  answers_of_refuses fun _ => machine.serve_refuses linked fresh copies

/-- Every request is answered, unless a copy does not end because the way up misses a directory. -/
private theorem answers_or_endless (linked : machine.volume.Linked) (fresh : machine.IdsFresh)
    (actor : Actor) (request : Request) : machine.Answers actor request ∨
      ((machine.ask actor request.run).1 = .error .endless ∧
        (machine.volume.Traceable → machine.volume.rootId = "")) := by
  by_cases endless : (machine.serve actor request).1 = .error .endless
  · rcases machine.serve_failed linked fresh endless with ⟨⟨⟩, -⟩ | ⟨⟨⟩, -⟩ | ⟨-, rootless⟩
    exact .inr ⟨by rw [ask_eq, endless]; rfl, rootless⟩
  · refine .inl (answers_of_refuses fun failure failed => ?_)
    rcases machine.serve_failed linked fresh failed with ⟨refuses, -⟩ | ⟨refuses, -⟩ | ⟨rfl, -⟩
    · exact refuses
    · exact refuses
    · exact absurd failed endless

/-- A linked volume that is a rooted tree has all its inodes below the root. -/
theorem rooted_of_tree (linked : volume.Linked) (tree : volume.RootedTree) :
    volume.Rooted := by
  refine ⟨linked, fun id inode found => ?_⟩
  rw [← id_of_inode? found]
  exact tree.reached inode (mem_of_inode? found)

/-- Where every directory that is taken over from outside has an id, a run keeps the volume a rooted
tree, and every request is answered; only where the root has the empty id a copy can fail to end. In
any run directories and their entries agree, and a request turns a tree into something else exactly
if it makes a directory an entry of one that lay below it. -/
theorem reachable_rootedTree (machine : Machine) (actor : Actor) (request : Request) :
    (Reachable Snapshot.KeyedTraceable machine → machine.volume.RootedTree ∧
      (machine.Answers actor request ∨
        ((machine.ask actor request.run).1 = .error .endless ∧ machine.volume.rootId = ""))) ∧
    (Reachable Snapshot.Keyed machine → machine.volume.Linked ∧
      (machine.volume.RootedTree → ((machine.serve actor request).2.volume.RootedTree ↔
        ¬ machine.volume.Swallows (machine.serve actor request).2.volume))) := by
  constructor
  · intro reachable
    have sound := reachable.sound Snapshot.keyedTraceable_closed
    refine ⟨(sound.rooted fun _ kept => kept.2).rootedTree, ?_⟩
    rcases answers_or_endless sound.linked sound.fresh actor request with answers | ⟨ran, rootless⟩
    · exact .inl answers
    · exact .inr ⟨ran, rootless sound.kept.2⟩
  · intro reachable
    have sound := reachable.sound Snapshot.keyed_closed
    refine ⟨sound.linked, fun tree => ?_⟩
    have step := machine.serve_step sound.linked sound.fresh actor request
    have rooted := rooted_of_tree sound.linked tree
    rw [← step.edit.rooted_iff rooted]
    exact ⟨rooted_of_tree (step.edit.linked sound.linked), Rooted.rootedTree⟩

/-- Below a bare root a directory is made, which swallows nothing, and can be moved. -/
theorem rootedTree_of_mkdir :
    (bareMachine.serve ⟨rootUser, "/"⟩ (.mkdir "/a" none)).2.volume.inodes.length = 2 ∧
      (bareMachine.serve ⟨rootUser, "/"⟩ (.mkdir "/a" none)).2.volume.RootedTree ∧
      ¬ bareMachine.volume.Swallows
        (bareMachine.serve ⟨rootUser, "/"⟩ (.mkdir "/a" none)).2.volume ∧
      (bareMachine.serve ⟨rootUser, "/"⟩ (.mkdir "/a" none)).2.Answers ⟨rootUser, "/"⟩
        (.mv "/a" "/b") := by
  have reachable : Reachable Snapshot.KeyedTraceable _ :=
    (bareMachine_reachable _).serve ⟨rootUser, "/"⟩ (.mkdir "/a" none)
  obtain ⟨first, exactly⟩ :=
    reachable_rootedTree bareMachine ⟨rootUser, "/"⟩ (.mkdir "/a" none)
  obtain ⟨bare, -⟩ := first (bareMachine_reachable _)
  obtain ⟨tree, answers⟩ :=
    (reachable_rootedTree _ ⟨rootUser, "/"⟩ (.mv "/a" "/b")).1 reachable
  refine ⟨by decide +kernel, tree, ((exactly (bareMachine_reachable _)).2 bare).mp tree, ?_⟩
  rcases answers with answered | ⟨-, rootless⟩
  · exact answered
  · exact absurd rootless (by decide +kernel)

/-! ## A directory with the empty id -/

section Untraceable

/-- A directory of root's. -/
private def directory (id name : String) (children : List String) (parent : Option String) : Inode :=
  { id, name, mode := Mode.newDirectory, owner := rootUser, group := rootUser, size := 0,
    created := .zero, modified := .zero, payload := .directory children, parent }

/-- A snapshot with the directories `/a` and `/a/b`, the first of which has the empty id. -/
def untraceable : Snapshot :=
  ⟨"r", [directory "r" "/" [""] none, directory "" "a" ["b"] none, directory "b" "b" [] none]⟩

/-- The machine that starts from it. -/
def untraceableMachine : Machine where
  volume := ⟨[directory "r" "/" [""] none, directory "" "a" ["b"] (some "r"),
    directory "b" "b" [] (some "")], "r", Machine.initialUmask⟩
  now := .zero
  nextId := 0
  log := .atLevel .critical

private theorem untraceable_started :
    Machine.start (.snapshot untraceable) (.string "022") .zero 0 (.atLevel .critical) =
      .ok untraceableMachine := rfl

theorem untraceable_reachable : Reachable Snapshot.Keyed untraceableMachine := by
  have keyed : untraceable.Keyed := by
    unfold Snapshot.Keyed
    decide
  refine .adopt keyed untraceable_started fun n _ => inode?_eq_none_iff.mpr fun taken => ?_
  have listed : inodeId n ∈ ["r", "", "b"] := taken
  have head := head_inodeId n
  simp only [List.mem_cons, List.not_mem_nil, or_false] at listed
  rcases listed with same | same | same <;> simp [same] at head

/-- The snapshot is accepted, and then `/a` can be moved to `/a/b/c`, where it is not reached any
more. -/
theorem detached_by_move : Reachable Snapshot.Keyed untraceableMachine ∧
    (untraceableMachine.serve ⟨rootUser, "/"⟩ (.mv "/a" "/a/b/c")).1.isOk = true ∧
    ¬ (untraceableMachine.serve ⟨rootUser, "/"⟩ (.mv "/a" "/a/b/c")).2.volume.RootedTree := by
  refine ⟨untraceable_reachable, by decide +kernel, fun tree => ?_⟩
  have moved : (untraceableMachine.serve ⟨rootUser, "/"⟩ (.mv "/a" "/a/b/c")).2.volume =
      ⟨[directory "r" "/" [] none, directory "" "c" ["b"] (some "b"),
        directory "b" "b" [""] (some "")], "r", Machine.initialUmask⟩ := rfl
  rw [moved] at tree
  have gone := tree.reached (directory "" "c" ["b"] (some "b")) (by simp)
  have top : Volume.inode? ⟨[directory "r" "/" [] none, directory "" "c" ["b"] (some "b"),
      directory "b" "b" [""] (some "")], "r", Machine.initialUmask⟩ "r" =
    some (directory "r" "/" [] none) := rfl
  rcases (below_iff top _).mp gone with same | ⟨entry, listed, -⟩
  · exact absurd same (by decide)
  · cases listed

end Untraceable

end PocketShell
