import PocketShell.Proofs.Fs.Following
import PocketShell.Proofs.Fs.Runs

/-! Chains of links. Where each link of a chain is given by its absolute path, and no other link lies on
these paths, every link takes up one level of depth and nothing else does. So such a chain can be
followed exactly as far as the depth allows, and a cycle of such links never leads anywhere. -/
namespace PocketShell

namespace Volume

variable {volume : Volume} {link inode goal current : Inode} {user path : String} {count : Nat}
  {follow : Bool} {depth : Int} {place : Option String} {before rest : List String}
  {cycle links : List Inode} {result : Except FsFailure Inode} {calls : Nat}

/-- The components lead from one inode to another through directories that the user may search, and
to no link. -/
inductive Passage (volume : Volume) (user : String) : List String → Inode → Inode → Prop
  | here {inode : Inode} : Passage volume user [] inode inode
  | dot {rest : List String} {directory inode : Inode} (shape : directory.isDirectory = true)
      (search : directory.permits user .execute = true)
      (further : Passage volume user rest directory inode) :
      Passage volume user ("." :: rest) directory inode
  | up {rest : List String} {directory parent inode : Inode}
      (shape : directory.isDirectory = true) (search : directory.permits user .execute = true)
      (above : volume.parentOf directory = .ok parent)
      (further : Passage volume user rest parent inode) :
      Passage volume user (".." :: rest) directory inode
  | down {name : String} {rest : List String} {directory child inode : Inode}
      (shape : directory.isDirectory = true) (search : directory.permits user .execute = true)
      (ordinary : name ≠ "." ∧ name ≠ "..")
      (named : volume.childNamed? directory name = some child) (plain : child.isSymlink = false)
      (further : Passage volume user rest child inode) :
      Passage volume user (name :: rest) directory inode

/-- The absolute path is that of an entry, and no link lies on the way to its directory. -/
inductive Lies (volume : Volume) (user path : String) (inode : Inode) : Prop
  | mk {root directory : Inode} {before : List String} {name : String}
      (absolute : Path.isAbsolute path = true) (top : volume.root = .ok root)
      (cut : Path.componentsOf path = before ++ [name])
      (way : volume.Passage user before root directory) (shape : directory.isDirectory = true)
      (search : directory.permits user .execute = true) (ordinary : name ≠ "." ∧ name ≠ "..")
      (named : volume.childNamed? directory name = some inode) : Lies volume user path inode

/-- The absolute path is that of the first of so many links, of which each holds the absolute path of
the next one and the last one that of something which is no link. Without any link the path is that
of the goal. -/
inductive Chain (volume : Volume) (user : String) : Nat → String → Inode → Prop
  | goal {path : String} {root goal : Inode} (absolute : Path.isAbsolute path = true)
      (top : volume.root = .ok root)
      (way : volume.Passage user (Path.componentsOf path) root goal)
      (plain : goal.isSymlink = false) : Chain volume user 0 path goal
  | link {count : Nat} {path : String} {link goal : Inode} (lies : volume.Lies user path link)
      (symlink : link.isSymlink = true) (further : Chain volume user count link.target goal) :
      Chain volume user (count + 1) path goal

/-- Links each of which holds the absolute path of one of them. -/
def Cycle (volume : Volume) (user : String) (links : List Inode) : Prop :=
  ∀ link ∈ links, link.isSymlink = true ∧ ∃ next ∈ links, volume.Lies user link.target next

/-! ## Walking without links -/

/-- A walk goes on from where the passage leads. -/
theorem Passage.advance (way : volume.Passage user before current inode) (rest : List String) :
    volume.advance user path follow (before ++ rest) current =
      volume.advance user path follow rest inode := by
  induction way with
  | here => rfl
  | dot shape search further ih =>
    rw [← ih, List.cons_append, Volume.advance]
    simp only [shape, search, Bool.not_true, Bool.false_eq_true, ↓reduceIte]
  | up shape search above further ih =>
    rw [← ih, List.cons_append, Volume.advance]
    simp [shape, search, above]
  | down shape search ordinary named plain further ih =>
    rw [← ih, List.cons_append, Volume.advance]
    simp [shape, search, ordinary, named, plain]

/-- An absolute path begins at the root, whatever else is given. -/
private theorem beginning_root {root : Inode} (absolute : Path.isAbsolute path = true)
    (top : volume.root = .ok root) : volume.beginning place path = .ok root := by
  unfold beginning
  rw [top]
  cases place with
  | none => rfl
  | some id => simp only [bind, Except.bind, absolute, ↓reduceIte]; rfl

/-- A link at its absolute path is followed by one call more. -/
private theorem Lies.resolve (lies : volume.Lies user path link) (symlink : link.isSymlink = true)
    (near : depth ≤ linkDepth) (place : Option String) :
    ∃ directory : Inode, volume.resolve user true depth place path =
      volume.resolve user true (depth + 1) (some directory.id) link.target := by
  obtain @⟨root, directory, before, name, absolute, top, cut, way, shape, search, ordinary, named⟩ :=
    lies
  refine ⟨directory, ?_⟩
  have comes : volume.advance user path true (before ++ [name]) root = .link directory link [] := by
    rw [way.advance, advance]
    simp [shape, search, ordinary, named, symlink]
  rw [resolve_eq_advance near, beginning_root absolute top, cut]
  simp only [bind, Except.bind, comes, Stop.resume]
  cases volume.resolve user true (depth + 1) (some directory.id) link.target <;> rfl

/-! ## Chains and cycles -/

/-- By induction on the chain: every link of it takes up one level. -/
private theorem Chain.resolve (chain : volume.Chain user count path goal) (depth : Int)
    (place : Option String) : volume.resolve user true depth place path =
      if depth + count ≤ linkDepth then .ok goal else .error (.refused .symlinkLoop) := by
  induction chain generalizing depth place with
  | @goal path root goal absolute top way plain =>
    split
    · have ends : volume.advance user path true (Path.componentsOf path ++ []) root =
          .ended (.ok goal) := way.advance []
      rw [List.append_nil] at ends
      rw [resolve_eq_advance (by omega), beginning_root absolute top]
      simp only [bind, Except.bind, ends]
      rfl
    · exact resolve_deep (by omega)
  | @link count path link goal lies symlink further ih =>
    by_cases near : depth ≤ linkDepth
    · obtain ⟨directory, goes⟩ := lies.resolve symlink near place
      have level : depth + 1 + (count : Int) = depth + (count + 1 : Nat) := by omega
      rw [goes, ih, level]
    · rw [if_neg (by omega)]
      exact resolve_deep (by omega)

/-- By induction on the levels that are left: a link of a cycle leads to another one. -/
private theorem Cycle.resolve (cyclic : volume.Cycle user cycle) (member : link ∈ cycle)
    (lies : volume.Lies user path link) (depth : Int) (place : Option String) :
    volume.resolve user true depth place path = .error (.refused .symlinkLoop) := by
  induction left : levelsAt depth generalizing depth place path link with
  | zero => exact resolve_deep (by unfold levelsAt at left; omega)
  | succ levels ih =>
    obtain ⟨symlink, next, among, onward⟩ := cyclic link member
    have near : depth ≤ linkDepth := by
      unfold levelsAt at left
      omega
    obtain ⟨directory, goes⟩ := lies.resolve symlink near place
    rw [goes]
    exact ih among onward _ _ (by unfold levelsAt at left ⊢; omega)

/-- Nothing is found once a link of a cycle has been followed: by induction on the calls. -/
private theorem Cycle.entered (cyclic : volume.Cycle user cycle)
    (resolves : volume.Resolves user depth follow place path links calls result)
    (enters : ∃ link ∈ links, link ∈ cycle) : result = .error (.refused .symlinkLoop) := by
  have inside {depth : Int} {place : Option String} {link : Inode} {links : List Inode}
      {calls : Nat} {result : Except FsFailure Inode} (member : link ∈ cycle)
      (inner : volume.Resolves user depth true place link.target links calls result) :
      result = .error (.refused .symlinkLoop) := by
    obtain ⟨-, next, among, lies⟩ := cyclic link member
    rw [inner.eq_resolve, cyclic.resolve among lies]
  induction resolves with
  | deep far => rfl
  | nowhere near lost => simp at enters
  | straight near begins ends => simp at enters
  | broken near begins comes inner ih =>
    obtain ⟨link, listed, member⟩ := enters
    rcases List.mem_cons.mp listed with rfl | further
    · exact inside member inner
    · exact ih ⟨link, further, member⟩
  | last near begins comes inner ih =>
    obtain ⟨link, listed, member⟩ := enters
    rcases List.mem_cons.mp listed with rfl | further
    · exact inside member inner
    · exact ih ⟨link, further, member⟩
  | onward near begins comes more inner behind ih next =>
    obtain ⟨link, listed, member⟩ := enters
    rcases List.mem_append.mp listed with first | later
    · rcases List.mem_cons.mp first with rfl | further
      · cases inside member inner
      · cases ih ⟨link, further, member⟩
    · exact next ⟨link, later, member⟩

end Volume

open Volume

/-- A path is resolved, whatever the table holds, by a bounded number of calls, in one way; in the
table of a run that ends at an inode of the table or is refused. A smaller depth makes a difference
only to what the depth has stopped. A chain of links can be followed as far as the depth allows, and
nothing is found once a link of a cycle has been followed. -/
theorem resolution_ends (machine : Machine) (user : String) (follow : Bool) (depth : Int)
    (place : Option String) (path : String) :
    (∃ links calls, machine.volume.Resolves user depth follow place path links calls
        (machine.volume.resolve user follow depth place path) ∧
      calls < 2 ^ (levelsAt depth + 1)) ∧
    (∀ links calls result,
      machine.volume.Resolves user depth follow place path links calls result →
        result = machine.volume.resolve user follow depth place path) ∧
    (Reachable Snapshot.Keyed machine →
      Settled (fun inode => machine.volume.inode? inode.id = some inode)
        (machine.volume.resolve user follow depth place path)) ∧
    (∀ less ≤ depth,
      machine.volume.resolve user follow depth place path ≠ .error (.refused .symlinkLoop) →
        machine.volume.resolve user follow less place path =
          machine.volume.resolve user follow depth place path) ∧
    (∀ count goal, machine.volume.Chain user count path goal →
      machine.volume.resolve user true 0 place path =
        if count ≤ 20 then .ok goal else .error (.refused .symlinkLoop)) ∧
    ∀ cycle links calls result, machine.volume.Cycle user cycle →
      machine.volume.Resolves user depth follow place path links calls result →
        (∃ link ∈ links, link ∈ cycle) → result = .error (.refused .symlinkLoop) := by
  refine ⟨Resolves.exists_calls .., fun _ _ _ resolves => resolves.eq_resolve, ?_, ?_, ?_, ?_⟩
  · intro reachable
    exact (reachable.sound Snapshot.keyed_closed).linked.enclosed_held.resolve depth
      fun id inode _ found => inode?_self found
  · intro less fewer stays
    obtain ⟨links, calls, resolves, -⟩ :=
      Resolves.exists_calls machine.volume user follow depth place path
    exact (resolves.shallower stays fewer).eq_resolve.symm
  · intro count goal chain
    have limit : (0 : Int) + count ≤ linkDepth ↔ count ≤ 20 := by
      unfold linkDepth
      omega
    rw [chain.resolve, if_congr limit rfl rfl]
  · intro cycle links calls result cyclic resolves enters
    exact cyclic.entered resolves enters

/-- A machine with a link to a link to a directory, and a link to itself. -/
def ringedMachine : Machine :=
  let near := (sharedMachine.serve ⟨"guest", "/tmp"⟩ (.ln "/tmp/far" "near")).2
  let far := (near.serve ⟨"guest", "/tmp"⟩ (.ln "/tmp" "far")).2
  (far.serve ⟨"guest", "/tmp"⟩ (.ln "/tmp/ring" "ring")).2

/-- An inode of that machine, by the number of its id. -/
private def ringed (number : Nat) : Inode :=
  (ringedMachine.volume.inode? (inodeId number)).getD (Layout.freshRoot .zero "")

private theorem ringed_passage : ringedMachine.volume.Passage "guest" ["tmp"] (ringed 0) (ringed 1) :=
  .down (by decide +kernel) (by decide +kernel) (by decide) (by decide +kernel) (by decide +kernel)
    .here

private theorem ringed_top : ringedMachine.volume.root = .ok (ringed 0) := by decide +kernel

private theorem ringed_lies {path : String} {link : Inode} (name : String)
    (absolute : Path.isAbsolute path = true) (cut : Path.componentsOf path = ["tmp", name])
    (ordinary : name ≠ "." ∧ name ≠ "..")
    (named : ringedMachine.volume.childNamed? (ringed 1) name = some link) :
    ringedMachine.volume.Lies "guest" path link :=
  ⟨absolute, ringed_top, cut, ringed_passage, by decide +kernel, by decide +kernel, ordinary, named⟩

/-- Two links lead to the directory at any depth that leaves room for two; who enters the link to
itself, though in the middle of a path, does not get anywhere. -/
theorem ringed_resolutions : Reachable Snapshot.Keyed ringedMachine ∧
    ringedMachine.volume.Chain "guest" 2 "/tmp/near" (ringed 1) ∧
    (∀ less ≤ (18 : Int),
      ringedMachine.volume.resolve "guest" true less none "/tmp/near" = .ok (ringed 1)) ∧
    ringedMachine.volume.resolve "guest" true 0 none "/tmp/near" = .ok (ringed 1) ∧
    ringedMachine.volume.Cycle "guest" [ringed 4] ∧
    ∃ links calls result, ringed 4 ∈ links ∧
      ringedMachine.volume.Resolves "guest" 0 false none "/tmp/ring/x" links calls result ∧
      result = .error (.refused .symlinkLoop) := by
  have reachable : Reachable Snapshot.Keyed ringedMachine :=
    (((sharedMachine_reachable _).serve _ _).serve _ _).serve _ _
  have further : ringedMachine.volume.Chain "guest" 0 (ringed 3).target (ringed 1) := by
    have same : Path.componentsOf (ringed 3).target = ["tmp"] := by decide +kernel
    exact .goal (by decide +kernel) ringed_top (same ▸ ringed_passage) (by decide +kernel)
  have second : ringedMachine.volume.Chain "guest" 1 (ringed 2).target (ringed 1) :=
    .link (ringed_lies "far" (by decide +kernel) (by decide +kernel) (by decide)
      (by decide +kernel)) (by decide +kernel) further
  have chain : ringedMachine.volume.Chain "guest" 2 "/tmp/near" (ringed 1) :=
    .link (ringed_lies "near" (by decide +kernel) (by decide +kernel) (by decide)
      (by decide +kernel)) (by decide +kernel) second
  have cyclic : ringedMachine.volume.Cycle "guest" [ringed 4] := by
    intro link member
    obtain rfl := List.mem_singleton.mp member
    exact ⟨by decide +kernel, _, member, ringed_lies "ring" (by decide +kernel)
      (by decide +kernel) (by decide) (by decide +kernel)⟩
  have reached : ringedMachine.volume.resolve "guest" true 18 none "/tmp/near" =
    .ok (ringed 1) := by decide +kernel
  refine ⟨reachable, chain, ?_, ?_, cyclic, ?_⟩
  · intro less fewer
    rw [← reached]
    exact (resolution_ends ringedMachine "guest" true 18 none "/tmp/near").2.2.2.1 less fewer
      (by rw [reached]; nofun)
  · exact (resolution_ends ringedMachine "guest" true 0 none "/tmp/near").2.2.2.2.1 2 _ chain
  · obtain ⟨links, calls, inner, -⟩ :=
      (resolution_ends ringedMachine "guest" true 1 (some (ringed 1).id) (ringed 4).target).1
    have lost : ringedMachine.volume.resolve "guest" true 1 (some (ringed 1).id)
      (ringed 4).target = .error (.refused .symlinkLoop) := by decide +kernel
    rw [lost] at inner
    have comes : ringedMachine.volume.advance "guest" "/tmp/ring/x" false
        (Path.componentsOf "/tmp/ring/x") (ringed 0) = .link (ringed 1) (ringed 4) ["x"] := by
      decide +kernel
    have enters : ringedMachine.volume.Resolves "guest" 0 false none "/tmp/ring/x"
        (ringed 4 :: links) (calls + 1) (.error (.refused .symlinkLoop)) :=
      .broken (by decide) (by decide +kernel) comes inner
    exact ⟨_, _, _, List.mem_cons_self, enters,
      (resolution_ends ringedMachine "guest" false 0 none "/tmp/ring/x").2.2.2.2.2 _ _ _ _ cyclic
        enters ⟨_, List.mem_cons_self, List.mem_singleton_self _⟩⟩

end PocketShell
