import PocketShell.Proofs.Fs.Runs
import PocketShell.Proofs.Shell.BlindStandard
import PocketShell.Shell.Execution

/-! Lines that a user runs in two workspaces that differ in what one file holds. If the file is kept
from the user, the line leaves the same transcript and two workspaces that again differ in nothing
else, whatever it pipes, redirects and substitutes. -/
namespace PocketShell.Shell

variable {caller : Caller Command} {secret : String} {inner : Inner}

/-! ## Words -/

/-- Lines within substitutions do the same in both workspaces. -/
def Caller.Withholds (caller : Caller Command) (secret : String) (inner : Inner) : Prop :=
  ∀ run, inner = some run → ∀ text, caller.Blind secret (run text)

section

variable (within : caller.Withholds secret inner)

include within

private theorem fillPart_blind (part : Part) : caller.Blind secret (fillPart inner part) := by
  cases part with
  | literal text => exact .pure rfl
  | command text =>
    cases inner with
    | none => exact .pure rfl
    | some run => exact (within run rfl _).thenSame fun _ => .pure rfl

private theorem fillWord_blind (word : String) : caller.Blind secret (fillWord inner word) := by
  unfold fillWord
  dsimp only
  split
  · exact .pure rfl
  · exact (Alongside.mapM (fillPart_blind within)).thenSame fun _ => .pure rfl

private theorem fillWords_blind (words : List String) :
    caller.Blind secret (fillWords inner words) := by
  induction words with
  | nil => exact .pure rfl
  | cons word rest ih =>
    refine (fillWord_blind within word).thenSame fun filled => Alongside.get.bind ?_
    rintro first _ ⟨⟨_⟩, _⟩
    refine ih.thenSame fun gathered => ?_
    obtain ⟨words, warnings⟩ := gathered
    dsimp only
    split <;> exact .pure rfl

private theorem fillPath_blind (path : String) : caller.Blind secret (fillPath inner path) := by
  refine (fillWord_blind within path).thenSame fun filled => Alongside.get.bind ?_
  rintro first _ ⟨⟨_⟩, _⟩
  dsimp only
  generalize (expandWord first.env filled.word).toList = text
  split
  · exact Caller.home_blind.thenSame fun _ => .pure rfl
  · exact Caller.home_blind.thenSame fun _ => .pure rfl
  · exact .pure rfl

private theorem fillOptional_blind (path : Option String) :
    caller.Blind secret (fillPath? inner path) := by
  cases path with
  | none => exact .pure rfl
  | some path => exact (fillPath_blind within path).thenSame fun _ => .pure rfl

end

/-! ## Stages -/

section

variable (plain : caller.user ≠ rootUser)

include plain

private theorem runNamed_blind (rootless : ¬ caller.Offers .asRoot) (name : String)
    (args : List String) (stdin : Option String) :
    caller.Blind secret (runNamed name args stdin) := by
  refine (Caller.named_alongside name).bind ?_
  rintro found _ ⟨rfl, runs⟩
  cases found with
  | none => exact (Caller.report_blind _).thenSame fun _ => .pure rfl
  | some command =>
    refine (Command.run_blind plain rootless (runs command rfl) args stdin).tryCatch fun fault => ?_
    exact .guard (.throw _) ((Caller.report_blind _).thenSame fun _ => .pure rfl)

omit plain in
/-- What is written to a file is written in both workspaces or refused in both. -/
private theorem keep_blind {operation : Fs Inode} (kept : Outcome)
    (writes : caller.Alongside secret (Results (caller.veil secret).Alike) (Run.fs operation)
      (Run.fs operation)) :
    caller.Blind secret (do return (← Run.fs operation).map fun _ => kept) := by
  refine writes.bind fun result other results => ?_
  cases results <;> exact .pure rfl

private theorem route_blind (redirect : Redirect) (path : String) (outcome : Outcome) :
    caller.Blind secret (route redirect path outcome) := by
  unfold route
  cases redirect with
  | overwrite => exact keep_blind _ (Command.writeText_alongside plain _ _)
  | append => exact keep_blind _ (Command.appendText_alongside plain _ _)
  | errors =>
    dsimp only
    split
    · exact .pure rfl
    · exact keep_blind _ (Command.writeText_alongside plain _ _)
  | both =>
    dsimp only
    split
    · exact .pure rfl
    · exact keep_blind _ (Command.writeText_alongside plain _ _)

private theorem redirectStage_blind (redirect : Option Redirect) (path : Option String)
    (outcome : Outcome) : caller.Blind secret (redirectStage redirect path outcome) := by
  unfold redirectStage
  split
  · refine (route_blind plain _ _ _).thenSame fun routed => ?_
    cases routed <;> exact .pure rfl
  · exact .pure rfl

private theorem stageInput_blind (path before : Option String) :
    caller.Blind secret (stageInput path before) := by
  cases path with
  | none => exact .pure rfl
  | some path =>
    refine (Command.readText_blind plain path).thenSame fun result => ?_
    cases result <;> exact .pure rfl

variable (rootless : ¬ caller.Offers .asRoot) (within : caller.Withholds secret inner)

include rootless within

private theorem runStage_blind (index : Nat) (stdin : Option String) (action : Action) :
    caller.Blind secret (runStage inner index stdin action) := by
  refine (fillWords_blind within _).thenSame fun words => ?_
  refine (fillOptional_blind within _).thenSame fun path => ?_
  refine (fillOptional_blind within _).thenSame fun input => ?_
  dsimp only
  split
  · exact .pure rfl
  refine (stageInput_blind plain _ _).thenSame fun stdin => ?_
  have ends : ∀ outcome : Outcome, caller.Blind secret (do
      if outcome.code != 0 && !takesErrors (action.output.map (·.1)) then
        Run.report (.of .debug executorSubsystem "Pipeline aborted"
          [("stage", .int index), ("command", .string (words.1.headD "")),
            ("exit", .int outcome.code)])
        return .stop outcome
      redirectStage (action.output.map (·.1)) path.1 outcome) := by
    intro outcome
    split
    · exact (Caller.report_blind _).thenSame fun _ => .pure rfl
    · exact redirectStage_blind plain _ _ _
  split
  · exact (runNamed_blind plain rootless _ _ stdin).thenSame fun _ => ends _
  · exact (Alongside.pure rfl).thenSame fun _ => ends _

private theorem runStages_blind (index : Nat) (stdin : Option String) (before : Outcome)
    (pipeline : Pipeline) : caller.Blind secret (runStages inner index stdin before pipeline) := by
  induction pipeline generalizing index stdin before with
  | nil => exact .pure rfl
  | cons action rest ih =>
    refine (runStage_blind plain rootless within index stdin action).thenSame fun ending => ?_
    cases ending with
    | stop outcome => exact .pure rfl
    | proceed outcome => exact ih _ _ _

/-! ## Lines -/

omit plain rootless within in
private theorem move_blind (path : String) : caller.Blind secret (move path) :=
  Caller.modify_blind fun _ _ => rfl

private theorem runSegments_blind (mayMove : Bool) (progress : Progress)
    (segments : List Segment) :
    caller.Blind secret (runSegments (runPipelineWith inner) mayMove progress segments) := by
  induction segments generalizing mayMove progress with
  | nil => exact .pure rfl
  | cons segment rest ih =>
    refine (runStages_blind plain rootless within _ _ _ _).thenSame fun outcome => ?_
    have moves : ∀ moved : Option String, caller.Blind secret (moved.forM move) := by
      intro moved
      cases moved with
      | none => exact .pure rfl
      | some path => exact move_blind path
    refine (moves _).thenSame fun _ => ?_
    dsimp only
    split
    · exact .pure rfl
    · exact ih _ _

private theorem runLineWith_blind (top : Bool) (line : String) :
    caller.Blind secret (runLineWith inner top line) :=
  (runSegments_blind plain rootless within _ _ _).thenSame fun _ => .pure rfl

omit within in
/-- By induction on the levels: what runs within substitutions is a line of one level less. -/
private theorem runLine_blind (levels : Nat) (line : String) :
    caller.Blind secret (runLine levels line) := by
  induction levels generalizing line with
  | zero =>
    refine runLineWith_blind plain rootless (fun run absent => ?_) _ _
    cases absent
  | succ levels ih =>
    refine runLineWith_blind plain rootless (fun run same text => ?_) _ _
    cases same
    exact ih text

end

/-- A user other than root that cannot act for root learns nothing from a line about a file it
neither owns nor may read, and the line leaves no trace of what the file holds. -/
theorem runLine_confidential {first second : Workspace}
    (reachable : Reachable Snapshot.Keyed first.machine) (plain : caller.user ≠ rootUser)
    (rootless : ¬ caller.Offers .asRoot)
    (system : caller.ReadsSystem → first.machine.volume.HoldsSystem (caller.veil secret))
    (twins : caller.Twins secret first second) (levels : Nat) (line : String) :
    (runLine levels line caller first).1 = (runLine levels line caller second).1 ∧
      caller.Twins secret (runLine levels line caller first).2
        (runLine levels line caller second).2 := by
  have sound := reachable.sound Snapshot.keyed_closed
  have beside : caller.Beside secret first second := ⟨twins, sound.linked, sound.fresh, system⟩
  obtain ⟨results, left⟩ := runLine_blind plain rootless levels line _ _ beside
  exact ⟨results.eq, left.twins⟩

/-- A user with every standard command but the one that acts for root. -/
def guest : Caller Command where
  user := "guest"
  registry := some (Command.standardRegistry.unregister "sudo")
  hostname := "host"

/-- A machine with a file of root's that no one else may read, and with a directory of system files
that has the mode. -/
def vaultMachine (mode : String) : Machine :=
  [Request.mkdir "/etc" (some mode), .writeText "/etc/hostname" "far",
    .writeText "/tmp/secret" "ab", .chmod "/tmp/secret" "600"].foldl
      (fun machine request => (machine.serve ⟨rootUser, "/"⟩ request).2) sharedMachine

theorem vaultMachine_reachable (mode : String) : Reachable Snapshot.Keyed (vaultMachine mode) :=
  ((((sharedMachine_reachable _).serve _ _).serve _ _).serve _ _).serve _ _

/-- The file that no one but root may read. -/
def vaultFile (content : String) : Inode where
  id := inodeId 4
  name := "secret"
  mode := 0o600#12
  owner := rootUser
  group := rootUser
  size := 2
  created := .zero
  modified := .zero
  payload := .file content
  parent := some (inodeId 1)

/-- The machine with something else in the file. -/
def refill (content : String) (machine : Machine) : Machine :=
  { machine with volume := machine.volume.put (vaultFile content) }

/-- What a line of the user's leaves. -/
def toldGuest (line : String) (machine : Machine) : Option Transcript :=
  (runLine nestingLimit line guest (plainWorkspace machine)).1.toOption

private theorem guest_rootless : ¬ guest.Offers .asRoot := by
  have others : ∀ row ∈ Command.standardCommands, row.1 ≠ "sudo" → row.2.1 ≠ .asRoot := by
    simp [Command.standardCommands]
  rintro ⟨registry, entry, same, listed, root⟩
  cases same
  obtain ⟨mapped, differs⟩ := List.mem_filter.mp listed
  obtain ⟨row, standard, rfl⟩ := List.mem_map.mp mapped
  exact others row standard (by simpa using differs) (Command.builtin.inj root)

private theorem vaultMachine_system :
    (vaultMachine "755").volume.HoldsSystem (guest.veil (inodeId 4)) := by
  have tree : ∀ root ∈ (vaultMachine "755").volume.inode? (vaultMachine "755").volume.rootId,
      Shut "guest" root ∧ ∀ etc ∈ (vaultMachine "755").volume.childNamed? root "etc",
        (etc.isSymlink = false ∧ Shut "guest" etc) ∧ ∀ name ∈ systemNames,
          ∀ file ∈ (vaultMachine "755").volume.childNamed? etc name,
            file.isSymlink = false ∧ file.id ≠ inodeId 4 := by
    decide +kernel
  exact ⟨fun root found => (tree root found).1,
    fun root etc found named => ((tree root found).2 etc named).1,
    fun root etc found named => ((tree root found).2 etc named).2⟩

private theorem held_closed :
    (vaultMachine "755").volume.inode? (inodeId 4) = some (vaultFile "ab") := by
  decide +kernel

private theorem held_open :
    (vaultMachine "777").volume.inode? (inodeId 4) = some (vaultFile "ab") := by
  decide +kernel

/-- Another text of two bytes in the file makes a twin. -/
private theorem refill_twins {machine : Machine} {kinds : Prop} {other : String}
    (reachable : Reachable Snapshot.Keyed machine)
    (held : machine.volume.inode? (inodeId 4) = some (vaultFile "ab"))
    (size : byteSize "ab" = byteSize other) (start : kinds → SameStart "ab" other) :
    (Veil.mk "guest" (inodeId 4) kinds).Twins machine (refill other machine) := by
  have keyed := (reachable.sound Snapshot.keyed_closed).linked.keyed
  have foreign : rootUser ≠ "guest" := by decide
  have closed : (vaultFile "ab").permits "guest" .read = false := rfl
  have alike : (Veil.mk "guest" (inodeId 4) kinds).Alike (vaultFile "ab") (vaultFile other) :=
    .hidden rfl rfl foreign closed size start
  exact .of_put keyed held alike

private theorem refilled_twins {machine : Machine} (reachable : Reachable Snapshot.Keyed machine)
    (held : machine.volume.inode? (inodeId 4) = some (vaultFile "ab")) :
    guest.Twins (inodeId 4) (plainWorkspace machine) (plainWorkspace (refill "cd" machine)) := by
  have start : SameStart "ab" "cd" :=
    (sameStart_iff (by decide) (by decide)).mpr (by decide +kernel)
  exact .mk (refill_twins reachable held rfl fun _ => start)

/-- The user runs into the file, tells its kind, writes what it has learned and reads it again. -/
theorem guest_learns_nothing :
    guest.Twins (inodeId 4) (plainWorkspace (vaultMachine "755"))
        (plainWorkspace (refill "cd" (vaultMachine "755"))) ∧
      toldGuest "cat /tmp/secret; file /tmp/secret > /tmp/k; echo $(hostname) $(cat /tmp/k)"
          (vaultMachine "755") =
        some ⟨"far /tmp/secret: ASCII text", some "cat: /tmp/secret: Permission denied", 0, none⟩ ∧
      toldGuest "cat /tmp/secret; file /tmp/secret > /tmp/k; echo $(hostname) $(cat /tmp/k)"
          (refill "cd" (vaultMachine "755")) =
        toldGuest "cat /tmp/secret; file /tmp/secret > /tmp/k; echo $(hostname) $(cat /tmp/k)"
          (vaultMachine "755") := by
  have twins := refilled_twins (vaultMachine_reachable "755") held_closed
  refine ⟨twins, by decide +kernel, ?_⟩
  have tells : ∀ {machine : Machine}, Reachable Snapshot.Keyed machine →
      machine.volume.HoldsSystem (guest.veil (inodeId 4)) →
      guest.Twins (inodeId 4) (plainWorkspace machine) (plainWorkspace (refill "cd" machine)) →
      ∀ line, toldGuest line (refill "cd" machine) = toldGuest line machine := by
    intro machine reachable system twins line
    obtain ⟨same, -⟩ := runLine_confidential reachable (by decide) guest_rootless
      (fun _ => system) twins nestingLimit line
    exact congrArg Except.toOption same.symm
  exact tells (vaultMachine_reachable "755") vaultMachine_system twins _

/-- Where files differ in whether they begin as scripts do, their kind tells them apart. Where the
user may write to the directory of the system's files, the name of the host tells everything. -/
theorem guest_learns_secret :
    ((Veil.mk "guest" (inodeId 4) False).Twins (vaultMachine "755")
        (refill "#!" (vaultMachine "755")) ∧
      toldGuest "file /tmp/secret" (vaultMachine "755") ≠
        toldGuest "file /tmp/secret" (refill "#!" (vaultMachine "755"))) ∧
    (guest.Twins (inodeId 4) (plainWorkspace (vaultMachine "777"))
        (plainWorkspace (refill "cd" (vaultMachine "777"))) ∧
      toldGuest "rm /etc/hostname; ln -s /tmp/secret /etc/hostname; hostname"
          (vaultMachine "777") ≠
        toldGuest "rm /etc/hostname; ln -s /tmp/secret /etc/hostname; hostname"
          (refill "cd" (vaultMachine "777"))) := by
  refine ⟨⟨?_, by decide +kernel⟩, ?_, by decide +kernel⟩
  · exact refill_twins (vaultMachine_reachable "755") held_closed rfl False.elim
  · exact refilled_twins (vaultMachine_reachable "777") held_open

end PocketShell.Shell
