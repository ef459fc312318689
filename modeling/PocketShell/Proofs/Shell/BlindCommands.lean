import PocketShell.Proofs.Shell.Beside

/-! Every command of a user's does the same in two workspaces that differ in what one file holds, if
the file is kept from the user. -/
namespace PocketShell.Command

open Shell

variable {β : Type} {caller : Caller Command} {secret : String} {stdin : Option String}

/-! ## What is shown of inodes that are alike -/

section

variable {veil : Veil} {inode other : Inode} (alike : veil.Alike inode other)

include alike

private theorem statusText_of_alike (path : String) :
    statusText path other = statusText path inode := by
  simp only [statusText, typeText, modeText, typeLetter, alike.id, alike.type, alike.isSymlink,
    alike.target, alike.mode, alike.owner, alike.group, alike.size, alike.created, alike.modified]

private theorem longEntry_of_alike (name : String) :
    longEntry name other = longEntry name inode := by
  simp only [longEntry, modeText, typeLetter, linkCount, alike.type, alike.isDirectory,
    alike.isSymlink, alike.children, alike.target, alike.mode, alike.owner, alike.group,
    alike.size, alike.modified]

/-- What begins alike is told to be of one kind. -/
private theorem kindOf_of_alike (kinds : veil.kinds) : kindOf other = kindOf inode := by
  cases alike with
  | same => rfl
  | @hidden content another secret held foreign closed size start =>
    have starts := start kinds ""
    rw [String.append_empty, String.append_empty] at starts
    have empty : another.isEmpty = content.isEmpty := by
      simp only [byteSize, Int.ofNat_inj] at size
      simp only [String.isEmpty, size]
    simp only [kindOf, held, starts, empty]

end

private theorem listing_of_alike {veil : Veil} (style : ListStyle) (path : String)
    (directory : Bool) {entries others : List (String × Inode)}
    (alike : List.Forall₂ veil.SameRow entries others) :
    listing style path directory others = listing style path directory entries := by
  have lines : others.mapM (fun row => longEntry row.1 row.2) =
      entries.mapM (fun row => longEntry row.1 row.2) := by
    induction alike with
    | nil => rfl
    | cons head tail ih =>
      rw [List.mapM_cons, List.mapM_cons, ih, ← head.1, longEntry_of_alike head.2]
  have names : others.map (·.1) = entries.map (·.1) := by
    clear lines
    induction alike with
    | nil => rfl
    | cons head tail ih => rw [List.map_cons, List.map_cons, ← head.1, ih]
  simp only [listing, names, lines, alike.length_eq]

/-- The entries that a listing shows are the same but for what they hold. -/
private theorem shownEntries_of_alike {veil : Veil} {volume twin : Volume}
    {directory other : Inode} {children others : List Inode} (beside : veil.Beside volume twin)
    (alike : veil.Alike directory other) (inside : List.Forall₂ veil.Alike children others)
    (style : ListStyle) : List.Forall₂ veil.SameRow
      (shownEntries style volume directory children) (shownEntries style twin other others) := by
  have entries : List.Forall₂ veil.SameRow (children.map fun child => (child.name, child))
      (others.map fun child => (child.name, child)) := by
    rw [List.forall₂_map_left_iff, List.forall₂_map_right_iff]
    exact inside.imp fun child another alike => ⟨alike.name.symm, alike⟩
  unfold shownEntries
  dsimp only
  split
  · refine .cons ⟨rfl, alike⟩ (.cons ⟨rfl, ?_⟩ entries)
    have above := beside.above? alike
    generalize volume.above? directory = first at above
    generalize twin.above? other = second at above
    cases above with
    | none => exact alike
    | some around => exact around
  · exact List.rel_filter (fun row another same => by simp only [same.1]) entries

/-- A search finds the same and is kept out of the same. -/
private theorem visit_of_alike {veil : Veil} {volume twin : Volume}
    (beside : veil.Beside volume twin) {inode other : Inode} (alike : veil.Alike inode other)
    (user : String) (filter : Find.Filter) (levels : Nat) (path name : String) :
    Find.visit twin user filter levels path name other =
      Find.visit volume user filter levels path name inode := by
  have passes : ∀ name, filter.passes name other = filter.passes name inode := by
    intro name
    simp only [Find.Filter.passes, alike.type]
  induction levels generalizing inode other path name with
  | zero =>
    unfold Find.visit
    simp only [passes, alike.isDirectory, alike.permits]
  | succ levels ih =>
    unfold Find.visit
    simp only [passes, alike.isDirectory, alike.permits]
    split
    · rfl
    split
    · rfl
    congr 1
    have inside := beside.listed alike
    generalize inode.children.filterMap volume.inode? = xs at inside
    generalize other.children.filterMap twin.inode? = ys at inside
    induction inside with
    | nil => rfl
    | cons head tail follow =>
      rw [List.flatMap_cons, List.flatMap_cons, follow, head.name, ih head]
      intro name
      simp only [Find.Filter.passes, head.type]

private theorem setUmask_twins {machine twin : Machine} {veil : Veil}
    (twins : veil.Twins machine twin) (text : String) :
    (twin.setUmask text).1 = (machine.setUmask text).1 ∧
      veil.Twins (machine.setUmask text).2 (twin.setUmask text).2 := by
  obtain ⟨⟨alike⟩⟩ := twins
  unfold Machine.setUmask
  cases Mode.parse? true text with
  | none => exact ⟨rfl, .mk (.mk alike)⟩
  | some mode => exact ⟨rfl, .mk (.mk alike)⟩

/-! ## The filesystem -/

section

variable (plain : caller.user ≠ rootUser)

include plain

private theorem stat_alongside (path : String) :
    caller.Alongside secret (Results (caller.veil secret).Alike) (Run.fs (Fs.stat path))
      (Run.fs (Fs.stat path)) :=
  Caller.fs_alongside plain (.stat path) .inode rfl fun _ _ twins =>
    Fs.lookup_alongside (Veil.keeps _ _) true path _ _ twins

private theorem lstat_alongside (path : String) :
    caller.Alongside secret (Results (caller.veil secret).Alike) (Run.fs (Fs.lstat path))
      (Run.fs (Fs.lstat path)) :=
  Caller.fs_alongside plain (.lstat path) .inode rfl fun _ _ twins =>
    Fs.lookup_alongside (Veil.keeps _ _) false path _ _ twins

theorem readText_blind (path : String) :
    caller.Blind secret (Run.fs (Fs.readText path)) :=
  (Caller.fs_alongside plain (.readText path) .text rfl fun acts _ twins =>
    Fs.readText_alongside acts path _ _ twins).imp fun _ _ => Results.eq

theorem writeText_alongside (path content : String) :
    caller.Alongside secret (Results (caller.veil secret).Alike) (Run.fs (Fs.writeText path content))
      (Run.fs (Fs.writeText path content)) :=
  Caller.fs_alongside plain (.writeText path content) .inode rfl fun _ _ twins =>
    Fs.writeText_alongside path content _ _ twins

theorem appendText_alongside (path content : String) :
    caller.Alongside secret (Results (caller.veil secret).Alike)
      (Run.fs (Fs.appendText path content)) (Run.fs (Fs.appendText path content)) :=
  Caller.fs_alongside plain (.appendText path content) .inode rfl fun _ _ twins =>
    Fs.appendText_alongside path content _ _ twins

private theorem rm_blind (path : String) (recursive : Bool) :
    caller.Blind secret (Run.fs (Fs.rm path recursive)) :=
  (Caller.fs_alongside plain (.rm path recursive) (fun _ => .done) rfl fun _ _ twins =>
    Fs.rm_alongside path recursive _ _ twins).imp fun _ _ => Results.eq

end

/-! ## What commands share -/

/-- What is gathered stands in the relation in which the steps leave it, and the errors are the
same. -/
theorem gather_alongside {values : β → β → Prop} {step : String → Run Command (Except String β)}
    (steps : ∀ arg, caller.Alongside secret (Results values) (step arg) (step arg))
    (args : List String) : caller.Alongside secret
      (fun gathered other => List.Forall₂ values gathered.values other.values ∧
        gathered.errors = other.errors) (gather step args) (gather step args) := by
  induction args with
  | nil => exact .pure ⟨.nil, rfl⟩
  | cons arg rest ih =>
    refine (steps arg).bind fun result other results => ?_
    refine ih.bind fun gathered others ⟨inside, errors⟩ => ?_
    cases results with
    | ok related => exact .pure ⟨.cons related inside, errors⟩
    | error message => exact .pure ⟨inside, congrArg (message :: ·) errors⟩

theorem gather_blind {step : String → Run Command (Except String β)}
    (steps : ∀ arg, caller.Blind secret (step arg)) (args : List String) :
    caller.Blind secret (gather step args) := by
  have exactly : ∀ arg, caller.Alongside secret (Results Eq) (step arg) (step arg) :=
    fun arg => (steps arg).imp fun result other same => same ▸ .refl result
  refine (gather_alongside exactly args).imp ?_
  rintro ⟨gathered, errors⟩ ⟨others, _⟩ ⟨inside, rfl⟩
  rw [List.forall₂_eq_eq_eq] at inside
  dsimp only at inside
  rw [inside]

private theorem each_blind {step : String → Run Command (Except String Unit)}
    (steps : ∀ arg, caller.Blind secret (step arg)) (args : List String) :
    caller.Blind secret (each step args) :=
  (gather_blind steps args).thenSame fun _ => .pure rfl

/-- A refusal is worded the same. -/
theorem explain_results {values : β → β → Prop} {result other : Except FsError β}
    (results : Results values result other) (wording : FsError → String) :
    Results values (explain wording result) (explain wording other) := by
  cases results with
  | ok related => exact .ok related
  | error reason => exact .error _

/-- An operation of which only a refusal is told. -/
private theorem told_blind {values : β → β → Prop} {operation : Fs β}
    (asks : caller.Alongside secret (Results values) (Run.fs operation) (Run.fs operation))
    (wording : FsError → String) :
    caller.Blind secret (do
      return (explain wording (← Run.fs operation)).map fun _ => ()) := by
  refine asks.bind fun result other results => ?_
  cases results <;> exact .pure rfl

section

variable (plain : caller.user ≠ rootUser)

include plain

theorem readArg_blind (arg : String) : caller.Blind secret (readArg stdin arg) := by
  unfold readArg
  split
  · exact .pure rfl
  · exact (Caller.path_blind arg).thenSame fun path => readText_blind plain path

private theorem readArgs_blind (command : String) (args : List String) :
    caller.Blind secret (readArgs command stdin args) := by
  induction args with
  | nil => exact .pure rfl
  | cons arg rest ih =>
    refine (readArg_blind plain arg).thenSame fun result => ?_
    cases result with
    | error reason => exact .pure rfl
    | ok content => exact ih.thenSame fun _ => .pure rfl

theorem withInput_blind (command : String) (files : List String) {work : String → Job}
    (works : ∀ text, caller.Blind secret (work text)) :
    caller.Blind secret (withInput command files stdin work) := by
  unfold withInput
  split
  · exact works _
  · refine (readArgs_blind plain command files).thenSame fun result => ?_
    cases result with
    | error failure => exact .pure rfl
    | ok contents => exact works _

theorem filterLines_blind (command : String) (files : List String)
    (work : List String → Except Outcome (List String)) :
    caller.Blind secret (filterLines command files stdin work) := by
  refine withInput_blind plain command files fun text => ?_
  cases work (Text.lines text) <;> exact .pure rfl

/-! ## Files -/

private theorem makeParent_blind {wording : FsError → String} {rest : List String}
    (goesOn : ∀ made, caller.Blind secret (makeParents wording made rest)) (next : String) :
    caller.Blind secret (do
      match ← Run.fs (Fs.mkdir next none) with
      | .ok _ => makeParents wording next rest
      | .error reason => return .error (wording reason)) := by
  refine (Caller.fs_alongside plain (.mkdir next none) .inode rfl fun _ _ twins =>
    Fs.mkdir_alongside next none _ _ twins).bind fun result other results => ?_
  cases results with
  | ok alike => exact goesOn next
  | error reason => exact .pure rfl

private theorem makeParents_blind (wording : FsError → String) (made : String)
    (components : List String) : caller.Blind secret (makeParents wording made components) := by
  induction components generalizing made with
  | nil => exact .pure rfl
  | cons component rest ih =>
    refine (stat_alongside plain _).bind fun result other results => ?_
    cases results with
    | error reason => exact makeParent_blind plain ih _
    | ok alike =>
      dsimp only
      rw [alike.isDirectory]
      split
      · exact ih _
      · exact makeParent_blind plain ih _

theorem mkdir_blind (args : List String) : caller.Blind secret (mkdir args) := by
  unfold mkdir
  dsimp only
  split
  · exact .pure rfl
  refine each_blind (fun path => (Caller.path_blind path).thenSame fun target => ?_) _
  split
  · exact makeParents_blind plain _ _ _
  · exact told_blind (Caller.fs_alongside plain (.mkdir target none) .inode rfl fun _ _ twins =>
      Fs.mkdir_alongside target none _ _ twins) _

theorem touch_blind (args : List String) : caller.Blind secret (touch args) := by
  unfold touch
  split
  · exact .pure rfl
  refine each_blind (fun path => (Caller.path_blind path).thenSame fun target => ?_) _
  exact told_blind (Caller.fs_alongside plain (.touch target) .inode rfl fun _ _ twins =>
    Fs.touch_alongside target _ _ twins) _

theorem cat_blind (args : List String) : caller.Blind secret (cat args stdin) := by
  unfold cat
  split
  · exact .pure rfl
  refine (gather_blind (fun path => ?_) args).thenSame fun _ => .pure rfl
  exact (readArg_blind plain path).thenSame fun _ => .pure rfl

theorem rm_command_blind (args : List String) : caller.Blind secret (rm args) := by
  unfold rm
  dsimp only
  split
  · exact .pure rfl
  refine each_blind (fun path => (Caller.path_blind path).thenSame fun target => ?_) _
  refine (rm_blind plain target _).thenSame fun result => ?_
  cases result with
  | ok done => exact .pure rfl
  | error reason =>
    dsimp only
    split <;> exact .pure rfl

theorem cp_blind (args : List String) : caller.Blind secret (cp args) := by
  unfold cp
  dsimp only
  cases sourcesAndGoal "cp" (splitFlags args).operands with
  | error failure => exact .pure rfl
  | ok found =>
    obtain ⟨sources, goal⟩ := found
    refine (Caller.path_blind goal).thenSame fun goal => ?_
    refine each_blind (fun source => (Caller.path_blind source).thenSame fun path => ?_) _
    exact told_blind (Caller.fs_alongside plain (.cp path goal _) .inode rfl
      fun acts linked twins => Fs.cp_matched acts linked twins path goal _) _

theorem mv_blind (args : List String) : caller.Blind secret (mv args) := by
  unfold mv
  cases sourcesAndGoal "mv" (splitFlags args).operands with
  | error failure => exact .pure rfl
  | ok found =>
    obtain ⟨sources, goal⟩ := found
    refine (Caller.path_blind goal).thenSame fun target => ?_
    refine each_blind (fun source => (Caller.path_blind source).thenSame fun path => ?_) _
    exact told_blind (Caller.fs_alongside plain (.mv path target) .inode rfl fun _ _ twins =>
      Fs.mv_alongside path target _ _ twins) _

theorem ln_blind (args : List String) : caller.Blind secret (ln args) := by
  unfold ln
  dsimp only
  split
  · exact .pure rfl
  split
  · rename_i target link _
    refine (Caller.path_blind link).thenSame fun path => ?_
    refine (Caller.fs_alongside plain (.ln target path) .inode rfl fun _ _ twins =>
      Fs.ln_alongside target path _ _ twins).bind fun result other results => ?_
    cases results <;> exact .pure rfl
  · exact .pure rfl

private theorem chmodEach_blind (mode : String) (errors paths : List String) :
    caller.Blind secret (chmodEach mode errors paths) := by
  induction paths generalizing errors with
  | nil => exact .pure rfl
  | cons path rest ih =>
    refine (Caller.path_blind path).thenSame fun target => ?_
    refine (Caller.fs_alongside plain (.chmod target mode) .inode rfl fun acts _ twins =>
      Fs.chmod_alongside acts target mode _ _ twins).bind fun result other results => ?_
    cases results with
    | ok alike => exact ih errors
    | error reason =>
      dsimp only
      split
      · exact .pure rfl
      · exact ih _

theorem chmod_blind (args : List String) : caller.Blind secret (chmod args) := by
  unfold chmod
  split
  · exact chmodEach_blind plain _ _ _
  · exact .pure rfl

theorem chown_blind (args : List String) : caller.Blind secret (chown args) := by
  unfold chown
  split
  · rename_i names path rest
    refine each_blind (fun path => (Caller.path_blind path).thenSame fun target => ?_) _
    exact told_blind (Caller.fs_alongside plain (.chown target _ _) .inode rfl
      fun acts _ twins => Fs.chown_alongside (acts ▸ plain) target _ _ _ _ twins) _
  · exact .pure rfl

/-! ## Looking at files -/

omit plain in
theorem umask_blind (args : List String) : caller.Blind secret (umask args) := by
  cases args with
  | nil =>
    refine Alongside.get.bind ?_
    rintro first _ ⟨⟨⟨⟨_⟩⟩⟩, _⟩
    exact .pure rfl
  | cons mask rest =>
    refine Alongside.get.bind ?_
    rintro first _ ⟨⟨twins⟩, keeps⟩
    obtain ⟨accepted, left⟩ := setUmask_twins twins mask
    dsimp only
    rw [accepted]
    exact (Alongside.set ⟨.mk left, keeps.setUmask mask⟩).bind fun _ _ _ => .pure rfl

theorem stat_blind (args : List String) : caller.Blind secret (stat args) := by
  unfold stat
  split
  · exact .pure rfl
  refine (gather_blind (fun path => (Caller.path_blind path).thenSame fun target => ?_)
    args).thenSame fun _ => .pure rfl
  refine (lstat_alongside plain target).bind fun result other results => ?_
  cases results with
  | error reason => exact .pure rfl
  | ok alike =>
    dsimp only
    rw [statusText_of_alike alike]
    exact (Alongside.lift (.refl _)).thenSame fun _ => .pure rfl

theorem file_blind (offers : caller.Offers .file) (args : List String) :
    caller.Blind secret (file args) := by
  unfold file
  split
  · exact .pure rfl
  refine (Alongside.mapM fun path => ?_).thenSame fun _ => .pure rfl
  refine (Caller.path_blind path).thenSame fun target => ?_
  refine (lstat_alongside plain target).bind fun result other results => ?_
  cases results with
  | error reason => exact .pure rfl
  | ok alike =>
    dsimp only
    rw [kindOf_of_alike alike offers]
    exact .pure rfl

/-! ## Moving around -/

omit plain in
theorem pwd_blind : caller.Blind secret pwd := Caller.get_blind fun _ _ => rfl

omit plain in
private theorem destination_blind (args : List String) :
    caller.Blind secret (destination args) := by
  unfold destination
  split
  · exact Caller.home_blind
  · refine Alongside.get.bind ?_
    rintro first _ ⟨⟨_⟩, _⟩
    exact .pure rfl
  · exact Caller.path_blind _

theorem cd_blind (args : List String) : caller.Blind secret (cd args) := by
  unfold cd
  split
  · exact .pure rfl
  refine (destination_blind args).thenSame fun target => ?_
  refine (stat_alongside plain target).bind fun result other results => ?_
  cases results with
  | error reason => exact .pure rfl
  | ok alike =>
    dsimp only
    rw [alike.isDirectory]
    split
    · exact .pure rfl
    refine Caller.user_blind.thenSame fun user => ?_
    rw [alike.permits]
    split
    · exact .pure rfl
    refine Alongside.get.bind ?_
    rintro first _ ⟨⟨twins⟩, _⟩
    rw [alike.id, twins.beside.pathOf]
    exact .pure rfl

private theorem listPath_blind (style : ListStyle) (path : String) :
    caller.Blind secret (listPath style path) := by
  refine (Caller.path_blind path).thenSame fun target => ?_
  refine (stat_alongside plain target).bind fun result other results => ?_
  cases results with
  | error reason => exact .pure rfl
  | @ok inode another alike =>
    dsimp only
    rw [alike.isDirectory]
    split
    · have single : List.Forall₂ (caller.veil secret).SameRow [(path, inode)] [(path, another)] :=
        .cons ⟨rfl, alike⟩ .nil
      rw [listing_of_alike style path false single]
      exact (Alongside.lift (.refl _)).thenSame fun _ => .pure rfl
    refine (Caller.fs_alongside plain (.listChildren target) .entries rfl fun _ _ twins =>
      Fs.listChildren_alongside target _ _ twins).bind fun result other results => ?_
    cases results with
    | error reason => exact .pure rfl
    | ok inside =>
      refine Alongside.get.bind ?_
      rintro first _ ⟨⟨twins⟩, _⟩
      dsimp only
      rw [listing_of_alike style path true
        (shownEntries_of_alike twins.beside alike inside style)]
      exact (Alongside.lift (.refl _)).thenSame fun _ => .pure rfl

theorem ls_blind (args : List String) : caller.Blind secret (ls args) :=
  (gather_blind (fun path => listPath_blind plain _ path) _).thenSame fun _ => .pure rfl

theorem find_blind (args : List String) : caller.Blind secret (find args) := by
  unfold find
  cases Find.startOf args with
  | mk start tests =>
    dsimp only
    cases Find.Query.read ⟨none, none⟩ tests with
    | error option => exact .pure rfl
    | ok query =>
      dsimp only
      split
      · exact .pure rfl
      refine (Caller.path_blind start).thenSame fun target => ?_
      refine (stat_alongside plain target).bind fun result other results => ?_
      cases results with
      | error reason => exact .pure rfl
      | ok alike =>
        refine (Alongside.lift (.refl _)).thenSame fun filter => ?_
        refine Alongside.get.bind ?_
        rintro first _ ⟨⟨twins⟩, _⟩
        refine Caller.user_blind.thenSame fun user => ?_
        dsimp only
        rw [twins.beside.length, visit_of_alike twins.beside alike]
        exact .pure rfl

end

end PocketShell.Command
