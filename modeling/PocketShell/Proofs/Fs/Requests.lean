import PocketShell.Fs.Query
import PocketShell.Proofs.Fs.Transfers
import PocketShell.Proofs.Fs.Writing

/-! Requests to the filesystem. Whatever is asked, by whom and from where, the machine takes at most
one step, and it tells the caller why if it does not do what was asked. The two ways in which a
request can fail after a change are named here, and there are no others. -/
namespace PocketShell

variable {actor : Actor} {before machine : Machine}

/-- What a caller can ask for. -/
inductive Request
  | stat (path : String)
  | lstat (path : String)
  | resolve (follow : Bool) (depth : Int) (start : Option String) (path : String)
  | listChildren (path : String)
  | readText (path : String)
  | mkdir (path : String) (mode : Option String)
  | touch (path : String)
  | ln (target path : String)
  | writeText (path content : String)
  | appendText (path content : String)
  | rm (path : String) (recursive : Bool)
  | chmod (path mode : String)
  | chown (path owner : String) (group : Option String)
  | cp (source dest : String) (recursive : Bool)
  | mv (source dest : String)
  deriving Repr, DecidableEq

/-- What a caller gets. -/
inductive Request.Value
  | inode (inode : Inode)
  | entries (inodes : List Inode)
  | text (content : String)
  | done

/-- The operation that is asked for. -/
def Request.run : Request → Fs Request.Value
  | stat path => .inode <$> Fs.stat path
  | lstat path => .inode <$> Fs.lstat path
  | resolve follow depth start path => .inode <$> Fs.resolve follow depth start path
  | listChildren path => .entries <$> Fs.listChildren path
  | readText path => .text <$> Fs.readText path
  | mkdir path mode => .inode <$> Fs.mkdir path mode
  | touch path => .inode <$> Fs.touch path
  | ln target path => .inode <$> Fs.ln target path
  | writeText path content => .inode <$> Fs.writeText path content
  | appendText path content => .inode <$> Fs.appendText path content
  | rm path recursive => (fun _ => .done) <$> Fs.rm path recursive
  | chmod path mode => .inode <$> Fs.chmod path mode
  | chown path owner group => .inode <$> Fs.chown path owner group
  | cp source dest recursive => .inode <$> Fs.cp source dest recursive
  | mv source dest => .inode <$> Fs.mv source dest

/-- The answer to an actor's request and the machine after it. -/
def Machine.serve (actor : Actor) (request : Request) (machine : Machine) :
    Except FsFailure Request.Value × Machine :=
  machine.perform actor request.run

/-- The inode in an answer, if there is one. -/
def Request.inode? (answer : Except FsFailure Request.Value) : Option Inode :=
  match answer with
  | .ok (.inode inode) => some inode
  | _ => none

theorem Request.answer_of_inode? {answer : Except FsFailure Request.Value} {inode : Inode}
    (found : Request.inode? answer = some inode) : answer = .ok (.inode inode) := by
  unfold Request.inode? at found
  split at found
  · rw [Option.some.inj found]
  · cases found

namespace Fs

variable {α β : Type} {operation : Fs α} {f : α → β} {P : α → Prop}
  {spoils further : FsFailure → Machine → Prop}

theorem map_run : (f <$> operation) actor machine =
    match operation actor machine with
    | (.ok value, after) => (.ok (f value), after)
    | (.error failure, after) => (.error failure, after) := by
  rw [map_eq_pure_bind, run_bind]
  rfl

/-- What is made of the value does not matter to how an operation ends. -/
theorem Ends.map (ends : Ends operation actor machine before spoils) :
    Ends (f <$> operation) actor machine before spoils := by
  unfold Ends at ends ⊢
  rw [map_run]
  cases ran : operation actor machine with
  | mk result after =>
    rw [ran] at ends
    cases ends with
    | refused refuses => exact .refused refuses
    | done step => exact .done step
    | spoilt step spoilt => exact .spoilt step spoilt

theorem Ends.imp (ends : Ends operation actor machine before spoils)
    (weaker : ∀ failure after, spoils failure after → further failure after) :
    Ends operation actor machine before further := by
  unfold Ends at ends ⊢
  generalize operation actor machine = outcome at ends
  obtain ⟨result, after⟩ := outcome
  cases ends with
  | refused refuses => exact .refused refuses
  | done step => exact .done step
  | spoilt step spoilt => exact .spoilt step (weaker _ _ spoilt)

/-- To read is no change. -/
theorem Reads.done (reads : Reads operation actor before P) :
    Ends operation actor before before spoils := by
  obtain ⟨result, ran, settled⟩ := reads
  unfold Ends
  rw [ran]
  cases settled with
  | ok here => exact .done .refl
  | error refuses => exact .refused refuses

/-! ## Looking -/

theorem resolve_reads (linked : machine.volume.Linked) (follow : Bool) (depth : Int)
    (start : Option String) (path : String) :
    Reads (resolve follow depth start path) actor machine fun _ => True := by
  refine Reads.volume (Reads.read (Reads.answer ?_))
  have settled : Settled _ (machine.volume.resolve actor.user follow depth start path) :=
    linked.enclosed_held.resolve depth fun id inode _ found => Volume.inode?_self found
  exact settled.imp fun _ _ => trivial

theorem listChildren_reads (linked : machine.volume.Linked) (path : String) :
    Reads (listChildren path) actor machine fun _ => True := by
  refine (Reads.lookup linked true path).bind fun directory _ => Reads.check fun _ => ?_
  exact Reads.demand.bind fun _ _ => Reads.volume ((Reads.pure _).imp fun _ _ => trivial)

theorem readText_reads (linked : machine.volume.Linked) (path : String) :
    Reads (readText path) actor machine fun _ => True := by
  refine (Reads.lookup linked true path).bind fun inode _ => ?_
  cases inode.payload with
  | directory entries => exact Reads.refuse .isADirectory
  | symlink target => exact Reads.refuse .isASymlink
  | file content => exact Reads.demand.bind fun _ _ => (Reads.pure content).imp fun _ _ => trivial

end Fs

/-! ## Serving -/

/-- A request that is refused only after it has left a trace: a write to a path that strands it. -/
def Request.Strands (before : Machine) (actor : Actor) : Request → Prop
  | .writeText path _ => Stranded before actor path
  | .appendText path _ => Stranded before actor path
  | _ => False

/-- How a request can fail after a change: by a stranded write, or by a copy without end, which
takes a volume where the way up misses a directory. -/
def Request.Spoils (request : Request) (before : Machine) (actor : Actor) (failure : FsFailure)
    (_ : Machine) : Prop :=
  (failure.Refuses ∧ request.Strands before actor) ∨
    (failure = .endless ∧ (before.volume.Traceable → before.volume.rootId = ""))

/-- A copy is asked for. -/
def Request.Copies : Request → Prop
  | .cp _ _ _ => True
  | _ => False

/-- A request other than a copy fails after a change only by a stranded write. -/
theorem Request.run_ends_of_not_copies (linked : before.volume.Linked) (fresh : before.IdsFresh)
    {request : Request} (copies : ¬ request.Copies) :
    Fs.Ends request.run actor before before
      fun failure _ => failure.Refuses ∧ request.Strands before actor := by
  cases request with
  | stat path => exact (Fs.Reads.lookup linked true path).done.map
  | lstat path => exact (Fs.Reads.lookup linked false path).done.map
  | resolve follow depth start path =>
    exact (Fs.resolve_reads linked follow depth start path).done.map
  | listChildren path => exact (Fs.listChildren_reads linked path).done.map
  | readText path => exact (Fs.readText_reads linked path).done.map
  | mkdir path mode => exact (Fs.mkdir_ends linked fresh path mode).map
  | touch path => exact (Fs.touch_ends linked fresh path).map
  | ln target path => exact (Fs.ln_ends linked fresh target path).map
  | writeText path content => exact (Fs.rewrite_ends linked fresh path _).map
  | appendText path content => exact (Fs.rewrite_ends linked fresh path _).map
  | rm path recursive => exact (Fs.rm_ends linked path recursive).map
  | chmod path mode => exact (Fs.chmod_ends linked path mode).map
  | chown path owner group => exact (Fs.chown_ends linked path owner group).map
  | cp source dest recursive => exact absurd trivial copies
  | mv source dest => exact (Fs.mv_ends linked source dest).map

theorem Request.run_ends (linked : before.volume.Linked) (fresh : before.IdsFresh)
    (request : Request) :
    Fs.Ends request.run actor before before (request.Spoils before actor) := by
  by_cases copies : request.Copies
  · cases request with
    | cp source dest recursive =>
      exact ((Fs.cp_ends linked fresh source dest recursive).imp fun _ _ => .inr).map
    | _ => exact copies.elim
  · exact (request.run_ends_of_not_copies linked fresh copies).imp fun _ _ => .inl

namespace Machine

section Asked

variable {α : Type} {operation : Fs α} {request : Request} {value : α → Request.Value}

/-- A request ends as the operation that it asks for. -/
theorem serve_eq (asked : request.run = value <$> operation) : machine.serve actor request =
    match operation actor machine with
    | (.ok given, after) => (.ok (value given), after)
    | (.error failure, after) => (.error failure, after) := by
  unfold serve perform
  rw [asked, Fs.map_run]
  generalize operation actor machine = outcome
  obtain ⟨result, after⟩ := outcome
  cases result <;> rfl

/-- A request that succeeds has the value of its operation. -/
theorem serve_ok (asked : request.run = value <$> operation) {result : Request.Value}
    (served : (machine.serve actor request).1 = .ok result) :
    ∃ given, operation actor machine = (.ok given, (machine.serve actor request).2) ∧
      value given = result := by
  rw [serve_eq asked] at served ⊢
  generalize operation actor machine = outcome at served
  obtain ⟨result, after⟩ := outcome
  cases result with
  | ok given =>
    cases served
    exact ⟨given, rfl, rfl⟩
  | error failure => cases served

end Asked

/-- What is left after asking is what is left after the request. -/
theorem ask_left {α : Type} {operation : Fs α} {request : Request} {value : α → Request.Value}
    (machine : Machine) (asked : request.run = value <$> operation) :
    (machine.ask actor operation).2 = (machine.serve actor request).2 := by
  unfold ask serve perform
  rw [asked, Fs.map_run]
  generalize operation actor machine = outcome
  obtain ⟨result, after⟩ := outcome
  cases result with
  | ok given => rfl
  | error failure => cases failure <;> rfl

variable (linked : machine.volume.Linked) (fresh : machine.IdsFresh)

include linked fresh

/-- A request takes the machine at most one step further, whether it is refused or not. -/
theorem serve_step (actor : Actor) (request : Request) :
    machine.Step actor.user (machine.serve actor request).2 := by
  have ends : Fs.Ends request.run actor machine machine _ := request.run_ends linked fresh
  unfold serve perform
  unfold Fs.Ends at ends
  generalize request.run actor machine = outcome at ends
  obtain ⟨result, after⟩ := outcome
  cases ends with
  | refused refuses => exact .record .refl
  | done step => exact step
  | spoilt step spoilt => exact step

omit linked fresh in
/-- A request fails as its operation may end. -/
private theorem failed_of_ends {request : Request} {failure : FsFailure} {ways : FsFailure → Prop}
    (ends : Fs.Ends request.run actor machine machine fun failure _ => ways failure)
    (failed : (machine.serve actor request).1 = .error failure) :
    (failure.Refuses ∧ (machine.serve actor request).2.volume = machine.volume) ∨ ways failure := by
  unfold serve perform at failed ⊢
  unfold Fs.Ends at ends
  generalize request.run actor machine = outcome at ends failed
  obtain ⟨result, after⟩ := outcome
  cases ends with
  | refused refuses =>
    cases failed
    exact .inl ⟨refuses, record_volume⟩
  | done step => cases failed
  | spoilt step spoilt =>
    cases failed
    exact .inr spoilt

/-- A request that fails is refused with the volume as it was, or fails in one of the ways that are
allowed for. -/
theorem serve_failed {request : Request} {failure : FsFailure}
    (failed : (machine.serve actor request).1 = .error failure) :
    (failure.Refuses ∧ (machine.serve actor request).2.volume = machine.volume) ∨
      request.Spoils machine actor failure machine :=
  failed_of_ends (request.run_ends linked fresh) failed

/-- A request other than a copy fails only by being refused. -/
theorem serve_refuses {request : Request} (copies : ¬ request.Copies) {failure : FsFailure}
    (failed : (machine.serve actor request).1 = .error failure) : failure.Refuses := by
  rcases failed_of_ends (request.run_ends_of_not_copies linked fresh copies) failed with
    ⟨refuses, -⟩ | ⟨refuses, -⟩
  · exact refuses
  · exact refuses

end Machine

/-- A stranded request is refused, and the volume is not what it was. -/
theorem Machine.serve_stranded (fresh : machine.IdsFresh) {request : Request}
    (strands : request.Strands machine actor) :
    ∃ failure, (machine.serve actor request).1 = .error failure ∧ failure.Refuses ∧
      (machine.serve actor request).2.volume ≠ machine.volume := by
  unfold serve perform
  have rewrites : ∀ {path rule}, Stranded machine actor path →
      ∃ failure, (((Request.Value.inode <$> Fs.rewrite path rule : Fs Request.Value)) actor machine).1 =
        .error failure ∧ failure.Refuses ∧
        ((Request.Value.inode <$> Fs.rewrite path rule : Fs Request.Value) actor machine).2.volume ≠
          machine.volume := by
    intro path rule stranded
    obtain ⟨failure, after, ran, refuses, changed⟩ := Fs.rewrite_stranded fresh stranded rule
    rw [Fs.map_run, ran]
    exact ⟨failure, rfl, refuses, changed⟩
  cases request with
  | writeText path content => exact rewrites strands
  | appendText path content => exact rewrites strands
  | _ => exact strands.elim

end PocketShell
