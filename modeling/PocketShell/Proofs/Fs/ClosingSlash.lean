import Mathlib.Data.List.DropRight
import PocketShell.Proofs.Fs.Entries
import PocketShell.Proofs.Fs.Heedless

/-! Slashes at the end of a path. Only writing looks at them, and it never takes such a path for that of
a file. To every other request that names an entry the path is what it is without them: the request
is answered in the same way, leaves the same table, and is refused for the same reason. -/
namespace PocketShell

variable {α β : Type} {path other : String} {actor : Actor} {machine twin : Machine} {volume : Volume}

/-! ## Paths that are taken apart in the same way -/

/-- The two paths begin alike, and have the same components and the same name at their end. -/
structure Path.SameParts (path other : String) : Prop where
  absolute : isAbsolute other = isAbsolute path
  components : componentsOf other = componentsOf path
  cut : splitParent other = splitParent path

/-- A path with a component keeps its parts when it loses its closing slashes. -/
theorem Path.sameParts_dropSlashes (some : componentsOf path ≠ []) :
    SameParts path (dropSlashes path) := by
  have kept : dropSlashes path ≠ "" := by
    intro empty
    rw [← componentsOf_dropSlashes, empty] at some
    exact some rfl
  have twice : dropSlashes (dropSlashes path) = dropSlashes path := by
    simp [dropSlashes, Text.trimRightWhere, List.dropWhile_idempotent]
  refine ⟨isAbsolute_dropSlashes kept, componentsOf_dropSlashes, ?_⟩
  have nonempty : ¬ (dropSlashes path).isEmpty = true := by simpa using kept
  unfold splitParent
  simp only [twice, nonempty, Bool.false_eq_true, ↓reduceIte]

/-! ## Answers but for a path -/

/-- The same failure, though it may name another path. -/
inductive FsFailure.Echoes : FsFailure → FsFailure → Prop
  | same (failure : FsFailure) : Echoes failure failure
  | denied (path other action : String) : Echoes (.denied path action) (.denied other action)

/-- The same value, or the same failure, though it may name another path. -/
inductive Echoes : Except FsFailure α → Except FsFailure α → Prop
  | ok (value : α) : Echoes (.ok value) (.ok value)
  | error {failure another : FsFailure} (echoes : failure.Echoes another) :
      Echoes (.error failure) (.error another)

namespace Echoes

variable {first second : Except FsFailure α}

theorem refl (result : Except FsFailure α) : Echoes result result := by
  cases result with
  | ok value => exact .ok value
  | error failure => exact .error (.same failure)

theorem denied (path other action : String) :
    Echoes (.error (.denied path action) : Except FsFailure α) (.error (.denied other action)) :=
  .error (.denied path other action)

theorem bind {next onward : α → Except FsFailure β} (echoes : Echoes first second)
    (continues : ∀ value, Echoes (next value) (onward value)) :
    Echoes (first >>= next) (second >>= onward) := by
  cases echoes with
  | ok value => exact continues value
  | error same => exact .error same

/-- A value is the same in both. -/
theorem ok_iff {value : α} (echoes : Echoes first second) :
    first = .ok value ↔ second = .ok value := by
  cases echoes with
  | ok other => exact Iff.rfl
  | error same => simp

end Echoes

/-! ## Searches -/

namespace Volume

variable {user : String} {follow : Bool} {start current : Inode} {place : Option String}

/-- By induction on the components: only the want of permission names the path. -/
private theorem descend_echoes {go : Bool → Inode → String → Except FsFailure Inode}
    (components : List String) : Echoes (volume.descend user path follow go components current)
      (volume.descend user other follow go components current) := by
  induction components generalizing current with
  | nil => exact .ok current
  | cons component rest ih =>
    unfold descend
    split
    · exact .refl _
    split
    · exact .denied path other "execute"
    split
    · exact ih
    split
    · exact (Echoes.refl _).bind fun parent => ih
    split
    · exact .refl _
    split
    · exact .refl _
    · exact ih

section Parts

variable (absolute : Path.isAbsolute other = Path.isAbsolute path)
  (components : Path.componentsOf other = Path.componentsOf path)

include absolute components

private theorem resolveWithin_echoes (levels : Nat) :
    Echoes (volume.resolveWithin user levels follow start path)
      (volume.resolveWithin user levels follow start other) := by
  cases levels with
  | zero => exact .refl _
  | succ levels =>
    unfold resolveWithin
    rw [absolute, components]
    exact (Echoes.refl _).bind fun root => descend_echoes _

private theorem resolve_echoes (depth : Int) :
    Echoes (volume.resolve user follow depth place path)
      (volume.resolve user follow depth place other) := by
  unfold resolve
  by_cases deep : levelsAt depth = 0
  · cases place <;> simp only [deep, ↓reduceIte] <;> exact .refl _
  cases place with
  | none =>
    simp only [deep, ↓reduceIte]
    exact (Echoes.refl _).bind fun root => resolveWithin_echoes absolute components _
  | some id =>
    simp only [deep, ↓reduceIte, absolute]
    refine (Echoes.refl _).bind fun root => ?_
    split
    · exact .refl _
    · exact resolveWithin_echoes absolute components _

/-- A search goes by the components of the path and by whether it begins at the root. -/
theorem lookup_echoes :
    Echoes (volume.lookup actor follow path) (volume.lookup actor follow other) := by
  unfold lookup
  rw [absolute]
  split
  · exact resolve_echoes absolute components 0
  refine (Echoes.refl _).bind fun base => ?_
  split
  · exact .refl _
  · exact resolve_echoes absolute components 0

end Parts

theorem lookupParent_same (parts : Path.SameParts path other) :
    volume.lookupParent actor other = volume.lookupParent actor path := by
  unfold lookupParent
  rw [parts.cut]

end Volume

/-! ## Operations -/

namespace Fs

/-- The two operations come to the same on machines that differ in their logs at most, but for the
path that a failure names. -/
def Likewise (operation another : Fs α) : Prop :=
  ∀ actor machine twin, machine.Mirrors twin →
    Echoes (operation actor machine).1 (another actor twin).1 ∧
      (operation actor machine).2.Mirrors (another actor twin).2

namespace Likewise

variable {operation another : Fs α} {next onward : α → Fs β}

theorem of_heedless (heedless : Heedless operation) : Likewise operation operation := by
  intro actor machine twin mirrors
  obtain ⟨results, states⟩ := heedless actor machine twin mirrors
  exact ⟨results.eq ▸ .refl _, states⟩

theorem bind (first : Likewise operation another)
    (continues : ∀ value, Likewise (next value) (onward value)) :
    Likewise (operation >>= next) (another >>= onward) := by
  intro actor machine twin mirrors
  obtain ⟨echoes, states⟩ := first actor machine twin mirrors
  rw [run_bind, run_bind]
  generalize operation actor machine = outcome at echoes states
  generalize another actor twin = ending at echoes states
  obtain ⟨result, after⟩ := outcome
  obtain ⟨image, later⟩ := ending
  cases echoes with
  | ok value => exact continues value actor after later states
  | error same => exact ⟨.error same, states⟩

/-- What begins with the same. -/
theorem after (first : Heedless operation)
    (continues : ∀ value, Likewise (next value) (onward value)) :
    Likewise (operation >>= next) (operation >>= onward) :=
  (of_heedless first).bind continues

theorem map {f : α → β} (likewise : Likewise operation another) :
    Likewise (f <$> operation) (f <$> another) := by
  rw [map_eq_pure_bind, map_eq_pure_bind]
  exact likewise.bind fun value => of_heedless (.pure (f value))

theorem read {next onward : Actor → Fs β} (continues : ∀ actor, Likewise (next actor) (onward actor)) :
    Likewise (MonadReader.read >>= next) (MonadReader.read >>= onward) :=
  fun actor => continues actor actor

theorem seen {next onward : Volume → Fs β}
    (continues : ∀ volume, Likewise (next volume) (onward volume)) :
    Likewise (Fs.volume >>= next) (Fs.volume >>= onward) := by
  rintro actor machine _ ⟨log⟩
  exact continues machine.volume actor _ _ (.mk log)

/-- What is seen of the machine is not the log. -/
theorem get {next onward : Machine → Fs β}
    (unseen : ∀ machine log, onward { machine with log } = onward machine)
    (continues : ∀ machine, Likewise (next machine) (onward machine)) :
    Likewise (MonadState.get >>= next) (MonadState.get >>= onward) := by
  rintro actor machine _ ⟨log⟩
  have goes := continues machine actor machine _ (.mk log)
  rw [← unseen machine log] at goes
  exact goes

theorem check {condition : Prop} [Decidable condition] {reason : FsError} {rest others : PUnit → Fs β}
    (continues : Likewise (rest ⟨⟩) (others ⟨⟩)) :
    Likewise (if condition then Fs.refuse reason >>= rest else rest ⟨⟩)
      (if condition then Fs.refuse reason >>= others else others ⟨⟩) := by
  split
  · exact after (.refuse reason) fun _ => continues
  · exact continues

theorem fail {failure another : FsFailure} (echoes : failure.Echoes another) :
    Likewise (Fs.fail failure : Fs α) (Fs.fail another) := by
  cases echoes with
  | same => exact of_heedless (.fail failure)
  | denied path other action =>
    rintro actor machine _ ⟨log⟩
    exact ⟨.denied path other action, .mk _⟩

theorem answer {first second : Except FsFailure α} (echoes : Echoes first second) :
    Likewise (Fs.answer first) (Fs.answer second) := by
  cases echoes with
  | ok value => exact of_heedless (.pure value)
  | error same => exact fail same

theorem lookup (parts : Path.SameParts path other) (follow : Bool) :
    Likewise (Fs.lookup follow path) (Fs.lookup follow other) :=
  seen fun _ => read fun _ => answer (Volume.lookup_echoes parts.absolute parts.components)

theorem lookupParent (parts : Path.SameParts path other) :
    Likewise (Fs.lookupParent path) (Fs.lookupParent other) := by
  refine seen fun volume => read fun actor => ?_
  rw [Volume.lookupParent_same parts]
  exact answer (.refl _)

theorem demand (inode : Inode) (access : Access) (action : String) :
    Likewise (Fs.demand inode access path action) (Fs.demand inode access other action) := by
  refine read fun actor => ?_
  split
  · exact of_heedless (.pure _)
  · exact fail (.denied path other action)

/-- A note ends up in the log. -/
theorem note (message : String) (context others : List (String × Json)) :
    Likewise (Fs.note message context) (Fs.note message others) := by
  rintro actor machine _ ⟨log⟩
  exact ⟨.ok _, .mk _⟩

theorem readText (parts : Path.SameParts path other) :
    Likewise (Fs.readText path) (Fs.readText other) := by
  refine (lookup parts true).bind fun inode => ?_
  cases inode.payload with
  | directory entries => exact of_heedless (.refuse _)
  | symlink target => exact of_heedless (.refuse _)
  | file content => exact (demand inode .read "read").bind fun _ => of_heedless (.pure _)

theorem touch (parts : Path.SameParts path other) : Likewise (Fs.touch path) (Fs.touch other) := by
  refine (lookupParent parts).bind fun (parent, name) => seen fun volume => ?_
  cases volume.childNamed? parent name with
  | some existing =>
    exact of_heedless (.get (fun _ _ => rfl) fun _ => (Heedless.put _).bind fun _ => .pure _)
  | none =>
    refine (demand parent .write "write").bind fun _ => seen fun _ => ?_
    exact after (.attach _ _ _ _ _) fun _ => (note _ _ _).bind fun _ => of_heedless (.pure _)

theorem ln (target : String) (parts : Path.SameParts path other) :
    Likewise (Fs.ln target path) (Fs.ln target other) := by
  have claims : Likewise (Fs.claimName path) (Fs.claimName other) :=
    (lookupParent parts).bind fun (parent, name) => seen fun _ => check <|
      (demand parent .write "write").bind fun _ => of_heedless (.pure _)
  exact claims.bind fun _ => after (.attach _ _ _ _ _) fun _ => (note _ _ _).bind fun _ =>
    of_heedless (.pure _)

theorem destination (parts : Path.SameParts path other) (source : Inode) :
    Likewise (Fs.destination path source) (Fs.destination other source) := by
  refine seen fun volume => read fun actor => ?_
  have echoes : Echoes (volume.lookup actor true path) (volume.lookup actor true other) :=
    volume.lookup_echoes parts.absolute parts.components
  generalize volume.lookup actor true path = first at echoes
  generalize volume.lookup actor true other = second at echoes
  cases echoes with
  | ok existing =>
    dsimp only
    split
    · exact of_heedless (.pure _)
    · exact lookupParent parts
  | error same =>
    cases same with
    | denied path other action => exact fail (.denied path other action)
    | same failure =>
      split
      · contradiction
      · exact lookupParent parts
      · exact fail (.same _)

theorem cp (source : String) (recursive : Bool) (parts : Path.SameParts path other) :
    Likewise (Fs.cp source path recursive) (Fs.cp source other recursive) := by
  refine after (.lookup true source) fun inode => check ?_
  refine after (.demandReadable source inode) fun _ => ?_
  refine (destination parts inode).bind fun (parent, name) => seen fun volume => ?_
  cases volume.childNamed? parent name with
  | some existing =>
    dsimp only
    refine check ?_
    split
    · refine (demand existing .write "write").bind fun _ => of_heedless ?_
      exact .get (fun _ _ => rfl) fun _ => (Heedless.put _).bind fun _ => .pure _
    · exact of_heedless (.check (.refuse _))
  | none =>
    refine (demand parent .write "write").bind fun _ => seen fun volume => check ?_
    refine after (.copyTree _ inode parent name) fun copy => (note _ _ _).bind fun _ => ?_
    exact of_heedless (.seen fun _ => .lift _)

theorem mv (source : String) (parts : Path.SameParts path other) :
    Likewise (Fs.mv source path) (Fs.mv source other) := by
  refine after (.lookup false source) fun inode => seen fun _ => check ?_
  refine (destination parts inode).bind fun (parent, name) => seen fun before => check (check ?_)
  refine after (.lift _) fun oldParent => after (.demandUnlink oldParent inode) fun _ => ?_
  refine (demand parent .write "write").bind fun _ => ?_
  refine get (fun _ _ => rfl) fun machine => ?_
  dsimp only
  cases oldParent.removeChild machine.now inode.id with
  | none => exact of_heedless (.throw _)
  | some oldParent =>
    refine after (.put oldParent) fun _ => seen fun _ => after (.lift _) fun there => ?_
    cases there.addChild machine.now inode.id with
    | none => exact of_heedless (.throw _)
    | some parent =>
      refine after (.put parent) fun _ => after (.put _) fun _ => ?_
      exact (note _ _ _).bind fun _ => of_heedless (.pure _)

end Likewise

/-! ## Writing -/

/-- Nothing at a path with a closing slash is taken for a file. -/
private theorem demandFile_closed (closing : Path.endsInSlash path = true) (inode : Inode)
    (actor : Actor) (machine : Machine) :
    ∃ reason, demandFile path inode actor machine = (.error (.refused reason), machine) := by
  unfold demandFile
  by_cases directory : inode.isDirectory = true
  · rw [if_pos directory]
    exact ⟨.isADirectory, rfl⟩
  · rw [if_neg directory, if_pos closing]
    exact ⟨.notADirectory, rfl⟩

theorem rewrite_bare {rule : Inode → String} {written : Inode} {after : Machine}
    (ran : rewrite path rule actor machine = (.ok written, after)) :
    Path.endsInSlash path = false := by
  obtain ⟨_, _, opened, -⟩ := bind_ok ran
  obtain ⟨inode, between, -, checked⟩ := bind_ok opened
  obtain ⟨_, _, passed, -⟩ := bind_ok checked
  by_contra closing
  obtain ⟨reason, refused⟩ :=
    demandFile_closed (Bool.eq_true_of_not_eq_false closing) inode actor between
  rw [refused] at passed
  cases passed

end Fs

/-! ## Requests that name an entry -/

/-- What can be asked of the entry at a path, or for one. -/
inductive Naming
  | stat
  | lstat
  | readText
  | touch
  | ln (target : String)
  | cp (source : String) (recursive : Bool)
  | mv (source : String)
  | writeText (content : String)
  | appendText (content : String)
  deriving DecidableEq

namespace Naming

/-- The request for a path. -/
def request : Naming → String → Request
  | stat, path => .stat path
  | lstat, path => .lstat path
  | readText, path => .readText path
  | touch, path => .touch path
  | ln target, path => .ln target path
  | cp source recursive, path => .cp source path recursive
  | mv source, path => .mv source path
  | writeText content, path => .writeText path content
  | appendText content, path => .appendText path content

/-- The request only looks the entry up. -/
def Looks : Naming → Prop
  | stat | lstat | readText => True
  | _ => False

/-- The request writes to the entry. -/
def Writes : Naming → Prop
  | writeText _ | appendText _ => True
  | _ => False

/-- The request is answered for something at the path that is no directory, or makes it. A link to
a directory may be looked up. -/
def Misnames (naming : Naming) (machine : Machine) (actor : Actor) (path : String) : Prop :=
  (naming.Looks ∧ (∃ answer, (machine.serve actor (naming.request path)).1 = .ok answer) ∧
    ∀ inode, machine.volume.lookup actor.asRoot true path = .ok inode →
      inode.isDirectory = false) ∨
  ¬ naming.Looks ∧ ∃ inode,
    (machine.serve actor (naming.request path)).2.volume.lookup actor.asRoot false path = .ok inode ∧
      inode.isDirectory = false ∧
      ((machine.serve actor (naming.request path)).1 = .ok (.inode inode) ∨
        machine.volume.inode? inode.id = none)

variable {naming : Naming}

/-- What is no write comes to the same by a path with the same parts. -/
private theorem likewise (plain : ¬ naming.Writes) (parts : Path.SameParts path other) :
    Fs.Likewise (naming.request path).run (naming.request other).run := by
  cases naming with
  | stat => exact (Fs.Likewise.lookup parts true).map
  | lstat => exact (Fs.Likewise.lookup parts false).map
  | readText => exact (Fs.Likewise.readText parts).map
  | touch => exact (Fs.Likewise.touch parts).map
  | ln target => exact (Fs.Likewise.ln target parts).map
  | cp source recursive => exact (Fs.Likewise.cp source recursive parts).map
  | mv source => exact (Fs.Likewise.mv source parts).map
  | writeText content => exact absurd trivial plain
  | appendText content => exact absurd trivial plain

/-- A write to a path with a closing slash is refused, and nothing is made. -/
private theorem refused_closed (linked : machine.volume.Linked) (fresh : machine.IdsFresh)
    (actor : Actor) (writes : naming.Writes) (closing : Path.endsInSlash path = true) :
    ∃ failure, (machine.serve actor (naming.request path)).1 = .error failure ∧
      (machine.serve actor (naming.request path)).2.volume = machine.volume := by
  have bare (stranded : Stranded machine actor path) : False := by
    cases stranded with
    | link nowhere bare => exact nomatch closing.symm.trans bare
    | masked nowhere bare => exact nomatch closing.symm.trans bare
  have ends {rule : Inode → String} (asked : (naming.request path).run =
      .inode <$> Fs.rewrite path rule) (copies : ¬ (naming.request path).Copies)
      (strands : (naming.request path).Strands machine actor → Stranded machine actor path) :
      ∃ failure, (machine.serve actor (naming.request path)).1 = .error failure ∧
        (machine.serve actor (naming.request path)).2.volume = machine.volume := by
    cases served : (machine.serve actor (naming.request path)).1 with
    | ok answer =>
      obtain ⟨written, ran, -⟩ := Machine.serve_ok asked served
      rw [Fs.rewrite_bare ran] at closing
      cases closing
    | error failure =>
      have refuses := Machine.serve_refuses linked fresh copies served
      rcases Machine.serve_failed linked fresh served with ⟨-, left⟩ | ⟨-, strand⟩ | ⟨rfl, -⟩
      · exact ⟨failure, rfl, left⟩
      · exact (bare (strands strand)).elim
      · cases refuses
  cases naming with
  | writeText content => exact ends rfl not_false id
  | appendText content => exact ends rfl not_false id
  | _ => exact writes.elim

private theorem misnames_iff (plain : ¬ naming.Writes) (parts : Path.SameParts path other) :
    naming.Misnames machine actor path ↔ naming.Misnames machine actor other := by
  have same : Echoes (machine.serve actor (naming.request path)).1
      (machine.serve actor (naming.request other)).1 ∧
      (machine.serve actor (naming.request path)).2.Mirrors
        (machine.serve actor (naming.request other)).2 :=
    likewise plain parts actor machine machine (.refl machine)
  have left : (machine.serve actor (naming.request other)).2.volume =
      (machine.serve actor (naming.request path)).2.volume := same.2.volume
  unfold Misnames
  simp only [same.1.ok_iff, left, (Volume.lookup_echoes parts.absolute parts.components).ok_iff]

end Naming

/-- At a path that closes with a slash nothing is written, and nothing is made for a write. What else
is asked for there is done as by the path without its closing slashes, so that it misnames an entry
exactly if it does so there. -/
theorem closing_slash_iff (reachable : Reachable Snapshot.Keyed machine) (actor : Actor)
    (naming : Naming) (closing : Path.endsInSlash path = true)
    (some : Path.componentsOf path ≠ []) :
    (naming.Writes → (∃ failure, (machine.serve actor (naming.request path)).1 = .error failure) ∧
      (machine.serve actor (naming.request path)).2.volume = machine.volume ∧
      ¬ naming.Misnames machine actor path) ∧
    (¬ naming.Writes →
      Echoes (machine.serve actor (naming.request path)).1
        (machine.serve actor (naming.request (Path.dropSlashes path))).1 ∧
      (machine.serve actor (naming.request path)).2.Mirrors
        (machine.serve actor (naming.request (Path.dropSlashes path))).2 ∧
      (naming.Misnames machine actor path ↔
        naming.Misnames machine actor (Path.dropSlashes path))) := by
  have parts := Path.sameParts_dropSlashes some
  constructor
  · intro writes
    have sound := reachable.sound Snapshot.keyed_closed
    obtain ⟨failure, failed, left⟩ :=
      Naming.refused_closed sound.linked sound.fresh actor writes closing
    refine ⟨⟨failure, failed⟩, left, ?_⟩
    rintro (⟨looks, -⟩ | ⟨-, inode, there, -, answered | made⟩)
    · cases naming with
      | writeText content => exact looks
      | appendText content => exact looks
      | _ => exact writes
    · rw [failed] at answered
      cases answered
    · rw [left] at there
      have held : Settled _ (machine.volume.lookup actor.asRoot false path) :=
        sound.linked.enclosed_held.lookup
      rw [there] at held
      cases held with
      | ok found =>
        rw [found] at made
        cases made
  · intro plain
    obtain ⟨echoes, mirrors⟩ := Naming.likewise plain parts actor machine machine (.refl machine)
    exact ⟨echoes, mirrors, Naming.misnames_iff plain parts⟩

/-- A machine with a file. -/
def filedMachine : Machine :=
  (sharedMachine.serve ⟨"guest", "/tmp"⟩ (.writeText "f" "one")).2

theorem filedMachine_reachable : Reachable Snapshot.Keyed filedMachine :=
  (sharedMachine_reachable _).serve _ _

/-- Nothing is put behind the file by a path that closes with a slash, and a new file is made by such
a path as it is without the slashes. -/
theorem closed_append_and_touch : Reachable Snapshot.Keyed filedMachine ∧
    Path.endsInSlash "../tmp/f/" = true ∧ Path.componentsOf "../tmp/f/" ≠ [] ∧
    (filedMachine.serve ⟨"guest", "/tmp"⟩ (.appendText "../tmp/f/" "two")).2.volume =
      filedMachine.volume ∧
    Path.endsInSlash "new//" = true ∧ Path.componentsOf "new//" ≠ [] ∧
    (Naming.touch.Misnames filedMachine ⟨"guest", "/tmp"⟩ "new//" ↔
      Naming.touch.Misnames filedMachine ⟨"guest", "/tmp"⟩ "new") := by
  have there : Path.endsInSlash "../tmp/f/" = true := by decide
  have some : Path.componentsOf "../tmp/f/" ≠ [] := by decide +kernel
  have closing : Path.endsInSlash "new//" = true := by decide
  have named : Path.componentsOf "new//" ≠ [] := by decide +kernel
  refine ⟨filedMachine_reachable, there, some, ?_, closing, named, ?_⟩
  · exact ((closing_slash_iff filedMachine_reachable ⟨"guest", "/tmp"⟩ (.appendText "two") there
      some).1 trivial).2.1
  · have bare : Path.dropSlashes "new//" = "new" := by decide +kernel
    have same := ((closing_slash_iff filedMachine_reachable ⟨"guest", "/tmp"⟩ .touch closing
      named).2 id).2.2
    rw [bare] at same
    exact same

/-- A file is looked up, and a link is made, by paths that only a directory should have. -/
theorem file_under_closing_slash : Reachable Snapshot.Keyed filedMachine ∧
    Path.endsInSlash "/tmp/f/" = true ∧ Path.componentsOf "/tmp/f/" ≠ [] ∧
    Naming.stat.Misnames filedMachine ⟨"guest", "/"⟩ "/tmp/f/" ∧
    Path.endsInSlash "/tmp/l/" = true ∧ Path.componentsOf "/tmp/l/" ≠ [] ∧
    (Naming.ln "f").Misnames filedMachine ⟨"guest", "/"⟩ "/tmp/l/" := by
  refine ⟨filedMachine_reachable, by decide, by decide +kernel, .inl ⟨trivial, ⟨_, rfl⟩, ?_⟩,
    by decide, by decide +kernel, .inr ⟨id, _, rfl, rfl, .inl rfl⟩⟩
  intro inode there
  cases there
  rfl

end PocketShell
