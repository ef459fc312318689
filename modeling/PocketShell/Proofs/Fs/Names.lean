import PocketShell.Proofs.Fs.Running

/-! Names that paths can spell. Where no inode has an empty id and every entry has a proper name, the
path of an inode leads back to it; operations keep it so, because an entry only gets a name that was
cut off a path or that another entry has. -/
namespace PocketShell

namespace Volume

variable {volume after : Volume} {inode ancestor directory root : Inode} {id name user path : String}
  {trail : List Inode} {rest : List String}
  {go : Bool → Inode → String → Except FsFailure Inode}

/-- Every inode but the root has a name that a path can spell. -/
def Proper (volume : Volume) : Prop :=
  ∀ id inode, volume.inode? id = some inode → id ≠ volume.rootId → Path.IsEntryName inode.name

/-- A name that an entry can get is a proper one where all names are. -/
theorem NameFor.isEntryName (named : volume.NameFor user name) (linked : volume.Linked)
    (numbered : volume.Numbered) (proper : volume.Proper) : Path.IsEntryName name := by
  rcases named with plain | ⟨source, held, rfl, place⟩
  · exact plain
  refine proper _ _ held fun top => ?_
  rcases place with ⟨holder, listed⟩ | ⟨trail, gate, route, apart⟩
  · exact linked.root_unlisted (top ▸ listed)
  · obtain ⟨root, found, shape, -⟩ := linked.root
    rw [top, found] at held
    cases held
    have within := isWithin_of_below linked numbered.traceable route (top ▸ route.below_root)
      fun _ => numbered _ _ found
    rw [apart shape] at within
    cases within

/-! ## What operations keep -/

/-- A change within what the user may do gives only proper names. -/
theorem Accounts.proper (accounts : Accounts user volume after) (root : after.rootId = volume.rootId)
    (linked : volume.Linked) (numbered : volume.Numbered) (proper : volume.Proper) :
    after.Proper := by
  intro id inode found inner
  rw [root] at inner
  cases before : volume.inode? id with
  | none => exact (accounts.created id inode before found).2.isEntryName linked numbered proper
  | some old =>
    rcases (accounts.altered id old inode before found).named with same | named
    · rw [same]
      exact proper id old before inner
    · exact named.isEntryName linked numbered proper

end Volume

namespace Machine.Step

variable {user : String} {before after : Machine}

/-- No operation gives an inode the empty id. -/
theorem numbered (step : before.Step user after) (numbered : before.volume.Numbered) :
    after.volume.Numbered := by
  intro id inode found
  cases old : before.volume.inode? id with
  | none => exact step.supplied.named old (by rw [found]; simp)
  | some old => exact numbered id _ old

/-- No operation gives a directory the empty id. -/
theorem traceable (step : before.Step user after) (linked : before.volume.Linked)
    (traceable : before.volume.Traceable) : after.volume.Traceable := by
  intro id directory found shape inner
  rw [step.edit.rootId_eq] at inner
  cases before' : before.volume.inode? id with
  | none => exact step.supplied.named before' (by rw [found]; simp)
  | some old =>
    refine traceable id old before' ?_ inner
    have type := ((step.edit.accounts linked).altered id old directory before' found).type
    simpa only [Record.isDirectory, type] using shape

theorem proper (step : before.Step user after) (linked : before.volume.Linked)
    (numbered : before.volume.Numbered) (proper : before.volume.Proper) : after.volume.Proper :=
  (step.edit.accounts linked).proper step.edit.rootId_eq linked numbered proper

end Machine.Step

namespace Volume

variable {volume after : Volume} {inode ancestor directory root : Inode} {id name user path : String}
  {trail : List Inode} {rest : List String}
  {go : Bool → Inode → String → Except FsFailure Inode}

/-! ## The way back -/

/-- Every name on a route is one that an entry can have. -/
theorem Route.isEntryName (linked : volume.Linked) (proper : volume.Proper)
    (route : volume.Route user trail inode) : ∀ name ∈ routeNames trail inode,
      Path.IsEntryName name := by
  induction route with
  | root found => simp [routeNames]
  | @entry trail directory inode id above search listed found ih =>
    have inner : id ≠ volume.rootId := by
      rintro rfl
      exact linked.root_unlisted (above.lists listed)
    intro name member
    rcases List.mem_cons.mp member with rfl | further
    · exact proper id inode found inner
    · exact ih name further

/-- So it is a component of a path. -/
theorem Route.isComponent (linked : volume.Linked) (proper : volume.Proper)
    (route : volume.Route user trail inode) :
    ∀ name ∈ routeNames trail inode, Path.IsComponent name :=
  fun name member => (route.isEntryName linked proper name member).1

/-- Walking along the names on a route leads along the route. -/
theorem Route.descend (linked : volume.Linked) {follow : Bool}
    (top : volume.inode? volume.rootId = some root) (route : volume.Route user trail inode)
    (proper : ∀ name ∈ routeNames trail inode, Path.IsEntryName name)
    (plain : inode.isSymlink = false ∨ follow = false ∧ rest = []) :
    volume.descend user path follow go ((routeNames trail inode).reverse ++ rest) root =
      volume.descend user path follow go rest inode := by
  induction route generalizing rest with
  | root found =>
    rw [found] at top
    cases top
    rfl
  | @entry trail directory inode id above search listed found ih =>
    obtain ⟨-, dot, up⟩ := proper inode.name List.mem_cons_self
    have shape := isDirectory_of_mem_children listed
    have kind : directory.type = .directory := by simpa [Record.isDirectory] using shape
    have followed : (inode.isSymlink && (follow || !rest.isEmpty)) = false := by
      rcases plain with other | ⟨stays, none⟩
      · simp [other]
      · simp [stays, none]
    rw [routeNames, List.reverse_cons, List.append_assoc, List.singleton_append,
      ih (fun name member => proper name (List.mem_cons_of_mem _ member))
        (.inl (by simp [Record.isSymlink, kind]))]
    conv_lhs => unfold Volume.descend
    simp only [shape, search, dot, up, childNamed?_of_mem linked above.held listed found, followed,
      Bool.not_true, Bool.false_eq_true, ↓reduceIte]

/-- Whoever can take the route to an inode gets there by its path, a link at its end not being
followed. -/
theorem Route.resolve_path {follow : Bool} (linked : volume.Linked) (numbered : volume.Numbered)
    (proper : volume.Proper) (route : volume.Route user trail inode)
    (plain : inode.isSymlink = false ∨ follow = false) :
    volume.resolve user follow 0 none (volume.pathOf inode.id) = .ok inode := by
  obtain ⟨root, top, -⟩ := linked.root
  have names : ∀ name ∈ (routeNames trail inode).reverse, Path.IsComponent name := by
    intro name member
    exact route.isComponent linked proper name (List.mem_reverse.mp member)
  have walk : volume.descend user (volume.pathOf inode.id) follow
      (volume.resolveWithin user linkDepth) ((routeNames trail inode).reverse ++ []) root = _ :=
    route.descend linked top (route.isEntryName linked proper)
      (plain.imp_right fun stays => ⟨stays, rfl⟩)
  rw [List.append_nil, ← Path.componentsOf_toText names,
    ← route.pathOf_eq linked numbered] at walk
  rw [resolve_of_root (root_of_inode? top)]
  exact walk

theorem Route.resolve_pathOf (linked : volume.Linked) (numbered : volume.Numbered)
    (proper : volume.Proper) (route : volume.Route user trail inode) :
    volume.resolve user false 0 none (volume.pathOf inode.id) = .ok inode :=
  route.resolve_path linked numbered proper (.inr rfl)

/-- In a directory that the user may search, the dot leads back to the directory. -/
private theorem descend_onlyDot (shape : inode.isDirectory = true)
    (search : inode.permits user .execute = true) :
    volume.descend user "." true go (Path.componentsOf ".") inode = .ok inode := by
  rw [show Path.componentsOf "." = ["."] by decide]
  simp only [Volume.descend, shape, search, Bool.not_true, Bool.false_eq_true, ↓reduceIte]

/-- Whoever works in a directory by its own path is there. -/
theorem Route.lookup_dot (linked : volume.Linked) (numbered : volume.Numbered)
    (proper : volume.Proper) (route : volume.Route user trail inode)
    (shape : inode.isDirectory = true) (search : inode.permits user .execute = true) :
    volume.lookup ⟨user, volume.pathOf inode.id⟩ true "." = .ok inode := by
  have kind : inode.type = .directory := by simpa [Record.isDirectory] using shape
  have plain : inode.isSymlink = false := by simp [Record.isSymlink, kind]
  have here : volume.resolve user true 0 none (volume.pathOf inode.id) = .ok inode :=
    route.resolve_path linked numbered proper (.inl plain)
  obtain ⟨root, found, -⟩ := linked.root
  have top := root_of_inode? found
  have relative : Path.isAbsolute "." = false := by decide
  rw [lookup_eq, relative]
  split
  · rename_i atTop
    have slash : volume.pathOf inode.id = "/" := by
      have absolute : Path.isAbsolute (volume.pathOf inode.id) = true := by
        rw [route.pathOf_eq linked numbered]
        exact Path.isAbsolute_toText
      simp only [Bool.false_or, Bool.or_eq_true, decide_eq_true_eq] at atTop
      rcases atTop with empty | slash
      · rw [empty] at absolute
        exact absurd absolute (by decide)
      · exact slash
    have same : root = inode := by
      rw [slash, resolve_of_root top, show Path.componentsOf "/" = [] by decide] at here
      exact Except.ok.inj here
    rw [resolve_of_root top, same]
    exact descend_onlyDot shape search
  · rw [here]
    simp only [bind, Except.bind, shape, ↓reduceIte]
    rw [resolve_of_held top route.held relative]
    exact descend_onlyDot shape search

end Volume

end PocketShell
