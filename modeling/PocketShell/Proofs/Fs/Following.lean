import Mathlib.Algebra.Group.Nat.Defs
import PocketShell.Proofs.Fs.Resolution

/-! Following links. A call of resolution walks along its path until the walk ends or comes to a link
that it has to follow; then it calls itself twice at most, for the target of the link and for what is
left behind it. Nothing but the depth keeps these calls from going on for ever, and that is enough:
every call returns, and the depth has no other part in the answer. -/
namespace PocketShell.Volume

variable {volume : Volume} {directory link current inode start : Inode} {user path : String}
  {follow : Bool} {depth : Int} {place : Option String} {components rest : List String}
  {result : Except FsFailure Inode}

/-! ## One call -/

/-- Where a walk along components stops: it has come to an end, or to a link in a directory that it
has to follow, with components left. -/
inductive Stop
  | ended (result : Except FsFailure Inode)
  | link (directory link : Inode) (rest : List String)
  deriving DecidableEq

/-- Walks along components up to the first link that has to be followed. -/
def advance (volume : Volume) (user path : String) (follow : Bool) : List String → Inode → Stop
  | [], current => .ended (.ok current)
  | component :: rest, current =>
    if !current.isDirectory then .ended (.error (.refused .notADirectory))
    else if !current.permits user .execute then .ended (.error (.denied path "execute"))
    else if component = "." then volume.advance user path follow rest current
    else if component = ".." then
      match volume.parentOf current with
      | .error failure => .ended (.error failure)
      | .ok parent => volume.advance user path follow rest parent
    else match volume.childNamed? current component with
      | none => .ended (.error (.refused .notFound))
      | some child =>
        if child.isSymlink && (follow || !rest.isEmpty) then .link current child rest
        else volume.advance user path follow rest child

/-- What becomes of a stop: an end is the result, and a link is resolved, and what is behind it from
there. -/
def Stop.resume (follow : Bool)
    (go : (follow : Bool) → (start : Inode) → (path : String) → Except FsFailure Inode) :
    Stop → Except FsFailure Inode
  | .ended result => result
  | .link directory link rest => do
    let target ← go true directory link.target
    if rest.isEmpty then return target
    go follow target ("/".intercalate rest)

/-- To walk along components is to advance to the first link and to go on from there. -/
theorem descend_eq_advance {go : Bool → Inode → String → Except FsFailure Inode}
    (components : List String) (current : Inode) :
    volume.descend user path follow go components current =
      (volume.advance user path follow components current).resume follow go := by
  induction components generalizing current with
  | nil => rfl
  | cons component rest ih =>
    unfold descend advance
    split
    · rfl
    split
    · rfl
    split
    · exact ih current
    split
    · cases volume.parentOf current with
      | error failure => rfl
      | ok parent => exact ih parent
    cases volume.childNamed? current component with
    | none => rfl
    | some child =>
      dsimp only
      split
      · rfl
      · exact ih child

/-- The stop is at inodes of the table. -/
def Stop.Held (volume : Volume) : Stop → Prop
  | .ended result => ∀ inode, result = .ok inode → volume.inode? inode.id = some inode
  | .link directory _ _ => volume.inode? directory.id = some directory

private theorem held_of_parentOf {parent : Inode} (above : volume.parentOf current = .ok parent) :
    volume.inode? parent.id = some parent := by
  unfold parentOf at above
  split at above <;> exact inode?_self (inode?_of_inode above)

private theorem advance_held (held : volume.inode? current.id = some current) :
    (volume.advance user path follow components current).Held volume := by
  induction components generalizing current with
  | nil => exact fun inode same => Except.ok.inj same ▸ held
  | cons component rest ih =>
    have refused (failure : FsFailure) : (Stop.ended (.error failure)).Held volume :=
      fun inode impossible => nomatch impossible
    unfold advance
    split
    · exact refused _
    split
    · exact refused _
    split
    · exact ih held
    split
    · cases above : volume.parentOf current with
      | error failure => exact refused failure
      | ok parent => exact ih (held_of_parentOf above)
    cases named : volume.childNamed? current component with
    | none => exact refused _
    | some child =>
      dsimp only
      split
      · exact held
      · obtain ⟨id, -, found, -⟩ := childNamed?_mem named
        exact ih (inode?_self found)

/-- The inode where a path begins: the root, unless the path is relative and an id is given. -/
def beginning (volume : Volume) (place : Option String) (path : String) : Except FsFailure Inode := do
  let root ← volume.root
  match place with
  | none => return root
  | some id =>
    match if Path.isAbsolute path then some root else volume.inode? id with
    | none => throw (.refused .notFound)
    | some start => return start

private theorem beginning_held (begins : volume.beginning place path = .ok current) :
    volume.inode? current.id = some current := by
  obtain ⟨root, top, begins⟩ := bind_eq_ok.mp begins
  have held := inode?_self (inode?_of_inode top)
  cases place with
  | none =>
    cases begins
    exact held
  | some id =>
    dsimp only at begins
    split at begins
    · cases begins
    · rename_i found
      cases begins
      split at found
      · cases found
        exact held
      · exact inode?_self found

/-- An absolute path begins at the root whatever is given. -/
private theorem beginning_absolute {root : Inode} (top : volume.root = .ok root)
    (begins : volume.beginning place path = .ok current) :
    (if Path.isAbsolute path then root else current) = current := by
  obtain ⟨again, same, begins⟩ := bind_eq_ok.mp begins
  rw [top] at same
  cases same
  split
  · rename_i absolute
    cases place <;> simpa [absolute, pure, Except.pure] using begins
  · rfl

/-- A path that is resolved within some levels leads from the table into the table. -/
private theorem resolveWithin_held {levels : Nat} (held : volume.inode? start.id = some start)
    (leads : volume.resolveWithin user levels follow start path = .ok inode) :
    volume.inode? inode.id = some inode := by
  induction levels generalizing follow start path inode with
  | zero => cases leads
  | succ levels ih =>
    unfold resolveWithin at leads
    obtain ⟨root, top, leads⟩ := bind_eq_ok.mp leads
    have begins : volume.inode? (if Path.isAbsolute path then root else start).id =
        some (if Path.isAbsolute path then root else start) := by
      split
      · exact inode?_self (inode?_of_inode top)
      · exact held
    rw [descend_eq_advance] at leads
    have stops : (volume.advance user path follow (Path.componentsOf path)
        (if Path.isAbsolute path then root else start)).Held volume := advance_held begins
    generalize volume.advance user path follow _ _ = stop at leads stops
    cases stop with
    | ended result => exact stops inode leads
    | link directory link rest =>
      obtain ⟨target, reached, leads⟩ := bind_eq_ok.mp leads
      have there := ih stops reached
      split at leads
      · cases leads
        exact there
      · exact ih there leads

/-- Within the levels that are left, a path is resolved from an inode by its id. -/
private theorem resolve_of_id {root : Inode} (top : volume.root = .ok root)
    (held : volume.inode? start.id = some start) :
    volume.resolve user follow depth (some start.id) path =
      volume.resolveWithin user (levelsAt depth) follow start path := by
  unfold resolve
  cases left : levelsAt depth with
  | zero => rfl
  | succ levels =>
    rw [if_neg (Nat.succ_ne_zero levels), top, resolveWithin_succ top]
    simp only [bind, Except.bind, held]
    cases absolute : Path.isAbsolute path <;>
      simp only [Bool.false_eq_true, ↓reduceIte, resolveWithin_succ top, absolute]

/-- To resolve a path is to make one call, and the calls that come of it one link deeper. -/
theorem resolve_eq_advance (near : depth ≤ linkDepth) :
    volume.resolve user follow depth place path =
      volume.beginning place path >>= fun current =>
        (volume.advance user path follow (Path.componentsOf path) current).resume follow
          fun follow start => volume.resolve user follow (depth + 1) (some start.id) := by
  obtain ⟨levels, left⟩ : ∃ levels, levelsAt depth = levels + 1 :=
    Nat.exists_eq_succ_of_ne_zero (by unfold levelsAt; omega)
  have deeper : levelsAt (depth + 1) = levels := by
    unfold levelsAt at left ⊢
    omega
  cases top : volume.root with
  | error failure => simp only [resolve, beginning, left, top, Nat.succ_ne_zero, ↓reduceIte]; rfl
  | ok root =>
    have calls : volume.resolve user follow depth place path =
        volume.beginning place path >>= fun current =>
          volume.resolveWithin user (levels + 1) follow current path := by
      simp only [resolve, beginning, left, top, Nat.succ_ne_zero, ↓reduceIte]
      cases place with
      | none => rfl
      | some id =>
        simp only [bind, Except.bind]
        cases (if Path.isAbsolute path then some root else volume.inode? id) <;> rfl
    rw [calls]
    cases begins : volume.beginning place path with
    | error failure => rfl
    | ok current =>
      have held := beginning_held begins
      simp only [bind, Except.bind]
      rw [resolveWithin_succ top, beginning_absolute top begins, descend_eq_advance]
      have stops : (volume.advance user path follow (Path.componentsOf path) current).Held volume :=
        advance_held held
      generalize volume.advance user path follow _ _ = stop at stops
      cases stop with
      | ended result => rfl
      | link directory link rest =>
        simp only [Stop.resume, resolve_of_id top stops, deeper]
        cases reached : volume.resolveWithin user levels true directory link.target with
        | error failure => rfl
        | ok target =>
          change (if rest.isEmpty then _ else _) = (if rest.isEmpty then _ else _)
          rw [resolve_of_id top (resolveWithin_held stops reached), deeper]

/-! ## All the calls -/

/-- A call of resolution with the links that are followed in it, one after the other, the number of
calls that it takes, itself included, and the answer. A call that has come too deep answers at once,
and so does one that begins nowhere or walks to its end without a link. Any other goes on as the
target of the link does that it comes to, and then behind it. -/
inductive Resolves (volume : Volume) (user : String) : (depth : Int) → (follow : Bool) →
    (place : Option String) → (path : String) → (links : List Inode) → (calls : Nat) →
    Except FsFailure Inode → Prop
  | deep {depth : Int} {follow : Bool} {place : Option String} {path : String}
      (far : linkDepth < depth) :
      Resolves volume user depth follow place path [] 1 (.error (.refused .symlinkLoop))
  | nowhere {depth : Int} {follow : Bool} {place : Option String} {path : String}
      {failure : FsFailure} (near : depth ≤ linkDepth)
      (lost : volume.beginning place path = .error failure) :
      Resolves volume user depth follow place path [] 1 (.error failure)
  | straight {depth : Int} {follow : Bool} {place : Option String} {path : String}
      {current : Inode} {result : Except FsFailure Inode} (near : depth ≤ linkDepth)
      (begins : volume.beginning place path = .ok current)
      (ends : volume.advance user path follow (Path.componentsOf path) current = .ended result) :
      Resolves volume user depth follow place path [] 1 result
  | broken {depth : Int} {follow : Bool} {place : Option String} {path : String}
      {current directory link : Inode} {rest : List String} {links : List Inode} {calls : Nat}
      {failure : FsFailure} (near : depth ≤ linkDepth)
      (begins : volume.beginning place path = .ok current)
      (comes : volume.advance user path follow (Path.componentsOf path) current =
        .link directory link rest)
      (inner : Resolves volume user (depth + 1) true (some directory.id) link.target links calls
        (.error failure)) :
      Resolves volume user depth follow place path (link :: links) (calls + 1) (.error failure)
  | last {depth : Int} {follow : Bool} {place : Option String} {path : String}
      {current directory link target : Inode} {links : List Inode} {calls : Nat}
      (near : depth ≤ linkDepth) (begins : volume.beginning place path = .ok current)
      (comes : volume.advance user path follow (Path.componentsOf path) current =
        .link directory link [])
      (inner : Resolves volume user (depth + 1) true (some directory.id) link.target links calls
        (.ok target)) :
      Resolves volume user depth follow place path (link :: links) (calls + 1) (.ok target)
  | onward {depth : Int} {follow : Bool} {place : Option String} {path : String}
      {current directory link target : Inode} {rest : List String} {links others : List Inode}
      {calls further : Nat} {result : Except FsFailure Inode} (near : depth ≤ linkDepth)
      (begins : volume.beginning place path = .ok current)
      (comes : volume.advance user path follow (Path.componentsOf path) current =
        .link directory link rest) (more : rest ≠ [])
      (inner : Resolves volume user (depth + 1) true (some directory.id) link.target links calls
        (.ok target))
      (behind : Resolves volume user (depth + 1) follow (some target.id) ("/".intercalate rest)
        others further result) :
      Resolves volume user depth follow place path (link :: links ++ others) (calls + further + 1)
        result

/-- Too deep a path is not resolved, whatever it is. -/
theorem resolve_deep (far : linkDepth < depth) :
    volume.resolve user follow depth place path = .error (.refused .symlinkLoop) := by
  have none : levelsAt depth = 0 := by
    unfold levelsAt
    omega
  unfold resolve
  rw [none]
  rfl

namespace Resolves

variable {links cycle : List Inode} {calls : Nat}

/-- The answer is that of resolution: by induction on the calls. -/
theorem eq_resolve (resolves : volume.Resolves user depth follow place path links calls result) :
    result = volume.resolve user follow depth place path := by
  induction resolves with
  | deep far => exact (resolve_deep far).symm
  | nowhere near lost => rw [resolve_eq_advance near, lost]; rfl
  | straight near begins ends =>
    rw [resolve_eq_advance near, begins]
    simp only [bind, Except.bind, ends, Stop.resume]
  | broken near begins comes inner ih =>
    rw [resolve_eq_advance near, begins]
    simp only [bind, Except.bind, comes, Stop.resume, ← ih]
  | last near begins comes inner ih =>
    rw [resolve_eq_advance near, begins]
    simp only [bind, Except.bind, comes, Stop.resume, ← ih]
    rfl
  | onward near begins comes more inner behind ih next =>
    rw [resolve_eq_advance near, begins]
    simp only [bind, Except.bind, comes, Stop.resume, ← ih, ← next]
    simp [more]

/-- Every path is resolved in fewer calls than there are in a full tree of the levels that are left:
by induction on these. -/
theorem exists_calls (volume : Volume) (user : String) (follow : Bool) (depth : Int)
    (place : Option String) (path : String) : ∃ links calls,
      volume.Resolves user depth follow place path links calls
        (volume.resolve user follow depth place path) ∧ calls < 2 ^ (levelsAt depth + 1) := by
  induction left : levelsAt depth generalizing follow depth place path with
  | zero =>
    have far : linkDepth < depth := by
      unfold levelsAt at left
      omega
    exact ⟨[], 1, resolve_deep far ▸ .deep far, by decide⟩
  | succ levels ih =>
    have near : depth ≤ linkDepth := by
      unfold levelsAt at left
      omega
    have deeper : levelsAt (depth + 1) = levels := by
      unfold levelsAt at left ⊢
      omega
    have one : 1 < 2 ^ (levels + 1 + 1) := Nat.one_lt_two_pow (by omega)
    have double : 2 ^ (levels + 1 + 1) = 2 ^ (levels + 1) + 2 ^ (levels + 1) := by
      rw [Nat.pow_succ]
      omega
    rw [resolve_eq_advance near]
    cases begins : volume.beginning place path with
    | error failure => exact ⟨[], 1, .nowhere near begins, one⟩
    | ok current =>
      simp only [bind, Except.bind]
      cases comes : volume.advance user path follow (Path.componentsOf path) current with
      | ended result => exact ⟨[], 1, .straight near begins comes, one⟩
      | link directory link rest =>
        obtain ⟨links, calls, inner, few⟩ :=
          ih true (depth + 1) (some directory.id) link.target deeper
        simp only [Stop.resume]
        generalize volume.resolve user true (depth + 1) (some directory.id) link.target = reached
          at inner
        cases reached with
        | error failure => exact ⟨_, _, .broken near begins comes inner, by omega⟩
        | ok target =>
          by_cases more : rest = []
          · subst more
            exact ⟨_, _, .last near begins comes inner, by omega⟩
          · obtain ⟨others, further, behind, less⟩ :=
              ih follow (depth + 1) (some target.id) ("/".intercalate rest) deeper
            simp only [bind, Except.bind, List.isEmpty_iff, more, ↓reduceIte]
            exact ⟨_, _, .onward near begins comes more inner behind, by omega⟩

/-- Where resolution is not stopped by the depth, a smaller depth makes no difference to it: by
induction on the calls. -/
theorem shallower (resolves : volume.Resolves user depth follow place path links calls result)
    (stays : result ≠ .error (.refused .symlinkLoop)) {less : Int} (fewer : less ≤ depth) :
    volume.Resolves user less follow place path links calls result := by
  induction resolves generalizing less with
  | deep far => exact absurd rfl stays
  | nowhere near lost => exact .nowhere (Int.le_trans fewer near) lost
  | straight near begins ends => exact .straight (Int.le_trans fewer near) begins ends
  | broken near begins comes inner ih =>
    exact .broken (Int.le_trans fewer near) begins comes (ih stays (by omega))
  | last near begins comes inner ih =>
    exact .last (Int.le_trans fewer near) begins comes (ih stays (by omega))
  | onward near begins comes more inner behind ih next =>
    exact .onward (Int.le_trans fewer near) begins comes more (ih (by simp) (by omega))
      (next stays (by omega))

end Resolves

end PocketShell.Volume
