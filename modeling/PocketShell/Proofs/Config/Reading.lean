import Mathlib.Data.List.Basic
import PocketShell.Config.Basic
import PocketShell.Proofs.Json.Readable

/-! What comes of reading a configuration. A section that is not given counts as one without
members, so the value of every setting is settled by the data alone; reading breaks off where a
section has no members at all or a number is too long to be written, and reports what fails the
checks. Values that no check looks at come out as they were given. -/
namespace PocketShell.Config

variable {α : Type} {data value : Json} {config : Config}

/-- The value has members. -/
def HasMembers (value : Json) : Prop := ∃ members, value = .object members

/-- A section of the data; one that is not given has no members. -/
def part (data : Json) (name : String) : Json := data.memberD name (.object [])

/-- The value of a setting in a section of the data. -/
def setting (data : Json) (section_ name : String) (usual : Json) : Json :=
  (part data section_).memberD name usual

/-- The value that is written for the mask. -/
def umaskOf (data : Json) : Json :=
  setting data "filesystem" "umask" (.string usual.filesystem.umask)

/-- The value that is written for the size of the history. -/
def historySizeOf (data : Json) : Json :=
  setting data "shell" "history_size" usual.shell.historySize

/-- The value that is written for the level of the log. -/
def levelOf (data : Json) : Json := setting data "logging" "level" (.string usual.logging.level)

/-- The configuration that data settles, checked or not. -/
def settle (data : Json) : Config where
  filesystem := ⟨(umaskOf data).plain,
    setting data "filesystem" "initial_snapshot" usual.filesystem.initialSnapshot⟩
  shell := ⟨setting data "shell" "hostname" usual.shell.hostname,
    setting data "shell" "prompt" usual.shell.prompt, historySizeOf data⟩
  users := ⟨setting data "users" "default_user" usual.users.defaultUser,
    setting data "users" "home_prefix" usual.users.homePrefix⟩
  logging := ⟨Text.upper (levelOf data).plain,
    setting data "logging" "log_file" usual.logging.logFile,
    setting data "logging" "console_output" usual.logging.consoleOutput⟩

/-- The mask has three or four octal digits. -/
def Masks (text : String) : Prop :=
  (text.length = 3 ∨ text.length = 4) ∧ ∀ c ∈ text.toList, '0' ≤ c ∧ c ≤ '7'

/-- What the checks ask of a configuration; truth values count as numbers. -/
structure Checked (config : Config) : Prop where
  umask : Masks config.filesystem.umask
  historySize : (∃ n : Nat, config.shell.historySize = .int n) ∨
    ∃ b, config.shell.historySize = .bool b
  level : config.logging.level ∈ ["DEBUG", "INFO", "NOTICE", "WARNING", "ERROR", "CRITICAL"]

/-- The value is a text. -/
def IsText (value : Json) : Prop := ∃ text, value = .string text

/-- What every user of a configuration relies on. -/
structure Valid (config : Config) : Prop where
  umask : Masks config.filesystem.umask
  historySize : ∃ n : Nat, config.shell.historySize = .int n
  level : config.logging.level ∈ ["DEBUG", "INFO", "NOTICE", "WARNING", "ERROR", "CRITICAL"]
  initialSnapshot : IsText config.filesystem.initialSnapshot
  hostname : IsText config.shell.hostname
  prompt : IsText config.shell.prompt
  defaultUser : IsText config.users.defaultUser
  homePrefix : IsText config.users.homePrefix

/-- The settings that no check looks at are of their kinds, and the size of the history is not a
truth value. -/
structure Typed (data : Json) : Prop where
  initialSnapshot :
    IsText (setting data "filesystem" "initial_snapshot" usual.filesystem.initialSnapshot)
  hostname : IsText (setting data "shell" "hostname" usual.shell.hostname)
  prompt : IsText (setting data "shell" "prompt" usual.shell.prompt)
  defaultUser : IsText (setting data "users" "default_user" usual.users.defaultUser)
  homePrefix : IsText (setting data "users" "home_prefix" usual.users.homePrefix)
  historySize : ∀ b, historySizeOf data ≠ .bool b

/-- What makes the reading break off: a section without members, a number too long to be written in
the mask or in the level, or one in the size of a history that is then to be refused by its text. -/
inductive BreaksOff (data : Json) : Prop
  | section_ {name : String} (named : name ∈ ["filesystem", "shell", "users", "logging"])
      (bare : ¬ HasMembers (part data name))
  | umask (long : (umaskOf data).overlong)
  | level (long : (levelOf data).overlong)
  | historySize (masks : Masks (umaskOf data).plain)
      (uncounted : limit? (historySizeOf data) = none)
      (long : (historySizeOf data).overlong)

/-! ## Sections -/

/-- Where it is clear one reading ends like the other; where it is not it breaks off. -/
private def Follows (result target : Except Failure α) (clear : Prop) : Prop :=
  (clear → result = target) ∧ (¬ clear → ∃ fault, result = .error (.fault fault))

private theorem Follows.refl (result : Except Failure α) : Follows result result True :=
  ⟨fun _ => rfl, fun never => absurd trivial never⟩

private theorem Follows.bind {β : Type} {first : Except Failure α} {next : α → Except Failure β}
    {value : α} {target : Except Failure β} {clear further : Prop}
    (here : Follows first (.ok value) clear) (there : Follows (next value) target further) :
    Follows (first >>= next) target (clear ∧ further) := by
  by_cases holds : clear
  · rw [here.1 holds]
    exact ⟨fun both => there.1 both.2, fun missed => there.2 fun also => missed ⟨holds, also⟩⟩
  · obtain ⟨fault, failed⟩ := here.2 holds
    rw [failed]
    exact ⟨fun both => absurd both.1 holds, fun _ => ⟨fault, rfl⟩⟩

private theorem Follows.of_iff {result target : Except Failure α} {clear also : Prop}
    (follows : Follows result target clear) (same : clear ↔ also) : Follows result target also := by
  rw [← same]
  exact follows

private theorem valueIn_follows (section_ : Json) (name : String) (usual : Json) :
    Follows (valueIn section_ name usual) (.ok (section_.memberD name usual))
      (HasMembers section_) := by
  cases section_ with
  | object members => exact ⟨fun _ => rfl, fun bare => absurd ⟨members, rfl⟩ bare⟩
  | _ =>
    refine ⟨fun held => ?_, fun _ => ⟨.noMember, rfl⟩⟩
    obtain ⟨members, same⟩ := held
    cases same

private theorem textOf_follows (value : Json) :
    Follows (textOf value) (.ok value.plain) (value.overlong = false) := by
  unfold textOf Json.shown
  cases long : value.overlong with
  | false => exact ⟨fun _ => rfl, fun never => absurd rfl never⟩
  | true => exact ⟨fun short => Bool.noConfusion short, fun _ => ⟨_, rfl⟩⟩

private theorem filesystem_follows (data : Json) :
    Follows (Filesystem.ofJson (part data "filesystem")) (.ok (settle data).filesystem)
      (HasMembers (part data "filesystem") ∧ (umaskOf data).overlong = false) := by
  apply Follows.of_iff
  · apply (valueIn_follows _ _ _).bind
    apply (textOf_follows _).bind
    apply (valueIn_follows _ _ _).bind
    apply Follows.refl
  · unfold umaskOf setting
    tauto

private theorem shell_follows (data : Json) :
    Follows (Shell.ofJson (part data "shell")) (.ok (settle data).shell)
      (HasMembers (part data "shell")) := by
  apply Follows.of_iff
  · apply (valueIn_follows _ _ _).bind
    apply (valueIn_follows _ _ _).bind
    apply (valueIn_follows _ _ _).bind
    apply Follows.refl
  · tauto

private theorem users_follows (data : Json) :
    Follows (Users.ofJson (part data "users")) (.ok (settle data).users)
      (HasMembers (part data "users")) := by
  apply Follows.of_iff
  · apply (valueIn_follows _ _ _).bind
    apply (valueIn_follows _ _ _).bind
    apply Follows.refl
  · tauto

private theorem logging_follows (data : Json) :
    Follows (Logging.ofJson (part data "logging")) (.ok (settle data).logging)
      (HasMembers (part data "logging") ∧ (levelOf data).overlong = false) := by
  apply Follows.of_iff
  · apply (valueIn_follows _ _ _).bind
    apply (textOf_follows _).bind
    apply (valueIn_follows _ _ _).bind
    apply (valueIn_follows _ _ _).bind
    apply Follows.refl
  · unfold levelOf setting
    tauto

/-- A section that is not given is read like one without members. -/
private theorem readSection_eq (name : String) (usual : α) (read : Json → Except Failure α)
    (empty : read (.object []) = .ok usual) :
    readSection data name usual read = read (part data name) := by
  unfold readSection part Json.memberD
  cases data.member? name with
  | none => exact empty.symm
  | some section_ => rfl

/-- All sections have members, and what is read as text can be written. -/
private def Clear (data : Json) : Prop :=
  (HasMembers (part data "filesystem") ∧ (umaskOf data).overlong = false) ∧
    HasMembers (part data "shell") ∧ HasMembers (part data "users") ∧
    HasMembers (part data "logging") ∧ (levelOf data).overlong = false

/-- Reading comes to the checks where every section is clear. -/
private theorem ofJson_follows (members : List (String × Json)) :
    Follows (ofJson (.object members)) (check (settle (.object members)))
      (Clear (.object members)) := by
  apply Follows.of_iff
  · unfold ofJson
    dsimp only
    rw [readSection_eq "filesystem" usual.filesystem Filesystem.ofJson rfl,
      readSection_eq "shell" usual.shell Shell.ofJson rfl,
      readSection_eq "users" usual.users Users.ofJson rfl,
      readSection_eq "logging" usual.logging Logging.ofJson rfl]
    apply (filesystem_follows _).bind
    apply (shell_follows _).bind
    apply (users_follows _).bind
    apply (logging_follows _).bind
    apply Follows.refl
  · unfold Clear
    tauto

/-! ## Checks -/

theorem isSome_parse?_iff {text : String} : (Mode.parse? true text).isSome ↔ Masks text := by
  unfold Mode.parse? Masks
  have octal : text.toList.all Mode.isOctal = true ↔ ∀ c ∈ text.toList, '0' ≤ c ∧ c ≤ '7' := by
    simp only [List.all_eq_true, Mode.isOctal, Bool.and_eq_true, decide_eq_true_eq]
  rw [← octal, ← String.length_toList]
  dsimp only
  split
  · rename_i holds
    simpa using holds
  · rename_i fails
    simpa using fails

theorem isSome_limit?_iff {value : Json} : (limit? value).isSome ↔
    (∃ n : Nat, value = .int n) ∨ ∃ b, value = .bool b := by
  unfold limit?
  cases value with
  | int i => 
    dsimp only
    split
    · rename_i whole
      exact ⟨fun _ => .inl ⟨i.toNat, by rw [Int.toNat_of_nonneg whole]⟩, fun _ => rfl⟩
    · rename_i below
      refine ⟨nofun, ?_⟩
      rintro (⟨n, same⟩ | ⟨b, same⟩)
      · cases same
        omega
      · cases same
  | bool b => simp
  | _ => simp

theorem isSome_ofName?_iff {name : String} : (Log.Level.ofName? name).isSome ↔
    name ∈ ["DEBUG", "INFO", "NOTICE", "WARNING", "ERROR", "CRITICAL"] := by
  unfold Log.Level.ofName?
  rw [List.find?_isSome]
  simp only [Log.Level.all, Log.Level.name, List.mem_cons, beq_iff_eq,
    @eq_comm _ _ name]
  simp

theorem checked_iff : Checked config ↔ (Mode.parse? true config.filesystem.umask).isSome ∧
    (limit? config.shell.historySize).isSome ∧
    (Log.Level.ofName? config.logging.level).isSome := by
  rw [isSome_parse?_iff, isSome_limit?_iff, isSome_ofName?_iff]
  exact ⟨fun ⟨umask, historySize, level⟩ => ⟨umask, historySize, level⟩,
    fun ⟨umask, historySize, level⟩ => ⟨umask, historySize, level⟩⟩

/-- The size of the history is refused, and its text cannot be written. -/
def Unwritable (config : Config) : Prop :=
  Masks config.filesystem.umask ∧ limit? config.shell.historySize = none ∧
    config.shell.historySize.overlong = true

/-- A value of the configuration is refused. -/
def Refused (result : Except Failure Config) : Prop :=
  ∃ report, result = .error (.reported report) ∧ report.family = .configValue

/-- The checks let a configuration through as it is, or refuse it, unless the refusal has to tell
what cannot be written. -/
theorem check_spec (config : Config) :
    (Checked config ∧ check config = .ok config) ∨
    (Unwritable config ∧ ∃ fault, check config = .error (.fault fault)) ∨
    (¬ Checked config ∧ ¬ Unwritable config ∧ Refused (check config)) := by
  unfold check Unwritable
  rw [checked_iff, ← isSome_parse?_iff]
  cases masks : Mode.parse? true config.filesystem.umask with
  | none => exact .inr (.inr ⟨by simp, by simp, _, rfl, rfl⟩)
  | some mask =>
    cases counted : limit? config.shell.historySize with
    | none =>
      have follows := textOf_follows config.shell.historySize
      cases long : config.shell.historySize.overlong with
      | true =>
        obtain ⟨fault, failed⟩ := follows.2 (by simp [long])
        rw [failed]
        exact .inr (.inl ⟨by simp, fault, rfl⟩)
      | false =>
        rw [follows.1 long]
        exact .inr (.inr ⟨by simp, by simp, _, rfl, rfl⟩)
    | some limit =>
      cases known : Log.Level.ofName? config.logging.level with
      | none => exact .inr (.inr ⟨by simp, by simp, _, rfl, rfl⟩)
      | some level => exact .inl ⟨by simp, rfl⟩

/-! ## The whole reading -/

private theorem not_clear_iff : ¬ Clear data ↔
    (∃ name ∈ ["filesystem", "shell", "users", "logging"], ¬ HasMembers (part data name)) ∨
      (umaskOf data).overlong = true ∨ (levelOf data).overlong = true := by
  unfold Clear
  simp only [List.mem_cons, List.not_mem_nil, or_false, exists_eq_or_imp, exists_eq_left,
    ← Bool.not_eq_true]
  tauto

private theorem breaksOff_of_not_clear (unclear : ¬ Clear data) : BreaksOff data := by
  rcases not_clear_iff.mp unclear with ⟨name, named, bare⟩ | long | long
  · exact .section_ named bare
  · exact .umask long
  · exact .level long

private theorem breaksOff_iff_of_clear (clear : Clear data) :
    BreaksOff data ↔ Unwritable (settle data) := by
  constructor
  · intro breaks
    cases breaks with
    | section_ named bare => exact absurd clear (not_clear_iff.mpr (.inl ⟨_, named, bare⟩))
    | umask long => exact absurd clear (not_clear_iff.mpr (.inr (.inl long)))
    | level long => exact absurd clear (not_clear_iff.mpr (.inr (.inr long)))
    | historySize masks uncounted long => exact ⟨masks, uncounted, long⟩
  · rintro ⟨masks, uncounted, long⟩
    exact .historySize masks uncounted long

/-- Data that is no object has no section that could break the reading off. -/
private theorem not_breaksOff_of_not_hasMembers (bare : ¬ HasMembers data) : ¬ BreaksOff data := by
  have absent : ∀ name, part data name = .object [] := by
    intro name
    cases data with
    | object members => exact absurd ⟨members, rfl⟩ bare
    | _ => rfl
  have usually : ∀ section_ name usual, setting data section_ name usual = usual := by
    intro section_ name usual
    unfold setting
    rw [absent]
    rfl
  rintro (⟨-, lacking⟩ | long | long | ⟨-, uncounted, -⟩)
  · exact lacking ⟨[], absent _⟩
  · rw [umaskOf, usually] at long
    cases long
  · rw [levelOf, usually] at long
    cases long
  · rw [historySizeOf, usually] at uncounted
    cases uncounted

/-- The three ways in which reading ends. -/
theorem ofJson_spec (data : Json) :
    (BreaksOff data ∧ ∃ fault, ofJson data = .error (.fault fault)) ∨
    (¬ BreaksOff data ∧ ¬ (HasMembers data ∧ Checked (settle data)) ∧ Refused (ofJson data)) ∨
    (¬ BreaksOff data ∧ HasMembers data ∧ Checked (settle data) ∧
      ofJson data = .ok (settle data)) := by
  by_cases held : HasMembers data
  · obtain ⟨members, rfl⟩ := held
    have follows := ofJson_follows members
    by_cases clear : Clear (.object members)
    · rw [breaksOff_iff_of_clear clear, follows.1 clear]
      obtain ⟨checked, ran⟩ | ⟨unwritable, broken⟩ | ⟨unchecked, writable, refused⟩ :=
        check_spec (settle (.object members))
      · have writable : ¬ Unwritable (settle (.object members)) := by
          rintro ⟨-, uncounted, -⟩
          have counted := (checked_iff.mp checked).2.1
          rw [uncounted] at counted
          cases counted
        exact .inr (.inr ⟨writable, ⟨members, rfl⟩, checked, ran⟩)
      · exact .inl ⟨unwritable, broken⟩
      · exact .inr (.inl ⟨writable, fun both => unchecked both.2, refused⟩)
    · exact .inl ⟨breaksOff_of_not_clear clear, follows.2 clear⟩
  · refine .inr (.inl ⟨not_breaksOff_of_not_hasMembers held, fun both => held both.1, ?_⟩)
    cases data with
    | object members => exact absurd ⟨members, rfl⟩ held
    | _ => exact ⟨_, rfl, rfl⟩

/-- What passes the checks is valid if the settings that they pass over are of their kinds. -/
theorem valid_iff_typed (checked : Checked (settle data)) : Valid (settle data) ↔ Typed data := by
  constructor
  · intro valid
    refine ⟨valid.initialSnapshot, valid.hostname, valid.prompt, valid.defaultUser,
      valid.homePrefix, fun b same => ?_⟩
    obtain ⟨n, number⟩ := valid.historySize
    have both : Json.bool b = .int n := same.symm.trans number
    cases both
  · intro typed
    refine ⟨checked.umask, ?_, checked.level, typed.initialSnapshot, typed.hostname, typed.prompt,
      typed.defaultUser, typed.homePrefix⟩
    rcases checked.historySize with number | ⟨b, same⟩
    · exact number
    · exact absurd same (typed.historySize b)

/-- Reading breaks off exactly on what is listed, and gives a configuration exactly where the data
settles one that passes the checks; else it reports a value of the configuration. So it ends in a
report or in a valid configuration unless it breaks off or leaves a setting of the wrong kind. -/
theorem reading_outcome (data : Json) :
    ((∃ fault, ofJson data = .error (.fault fault)) ↔ BreaksOff data) ∧
    (∀ config, ofJson data = .ok config ↔
      ¬ BreaksOff data ∧ HasMembers data ∧ Checked (settle data) ∧ settle data = config) ∧
    (∀ report, ofJson data = .error (.reported report) → report.family = .configValue) ∧
    ((Refused (ofJson data) ∨ ∃ config, ofJson data = .ok config ∧ Valid config) ↔
      ¬ BreaksOff data ∧ (HasMembers data → Checked (settle data) → Typed data)) := by
  obtain ⟨breaks, fault, ran⟩ | ⟨continues, unsettled, report, ran, family⟩ |
    ⟨continues, held, checked, ran⟩ := ofJson_spec data
  · rw [ran]
    refine ⟨⟨fun _ => breaks, fun _ => ⟨fault, rfl⟩⟩, fun config => ?_, nofun, ?_⟩
    · exact ⟨nofun, fun holds => absurd breaks holds.1⟩
    · refine ⟨?_, fun holds => absurd breaks holds.1⟩
      rintro (⟨report, same, -⟩ | ⟨config, same, -⟩)
      · cases same
      · cases same
  · rw [ran]
    refine ⟨⟨nofun, fun breaks => absurd breaks continues⟩, fun config => ?_, ?_, ?_⟩
    · exact ⟨nofun, fun holds => absurd ⟨holds.2.1, holds.2.2.1⟩ unsettled⟩
    · intro other same
      cases same
      exact family
    · exact ⟨fun _ => ⟨continues, fun held checked => absurd ⟨held, checked⟩ unsettled⟩,
        fun _ => .inl ⟨report, rfl, family⟩⟩
  · rw [ran]
    refine ⟨⟨nofun, fun breaks => absurd breaks continues⟩, fun config => ?_, nofun, ?_⟩
    · exact ⟨fun same => ⟨continues, held, checked, Except.ok.inj same⟩,
        fun holds => congrArg Except.ok holds.2.2.2⟩
    · constructor
      · rintro (⟨report, same, -⟩ | ⟨config, same, valid⟩)
        · cases same
        · cases same
          exact ⟨continues, fun _ _ => (valid_iff_typed checked).mp valid⟩
      · rintro ⟨-, typed⟩
        exact .inr ⟨_, rfl, (valid_iff_typed checked).mpr (typed held checked)⟩

/-- A section that is a list is neither reported nor read, and a name that is no text is let
through. -/
theorem unchecked_sections :
    ofJson (.object [("shell", .array [])]) = .error (.fault .noMember) ∧
    (∃ config, ofJson (.object [("shell", .object [("hostname", .null)])]) = .ok config ∧
      ¬ Valid config) ∧
    ¬ ∀ data, Refused (ofJson data) ∨ ∃ config, ofJson data = .ok config ∧ Valid config := by
  have broken : ofJson (.object [("shell", .array [])]) = .error (.fault .noMember) := rfl
  refine ⟨broken, ⟨_, rfl, fun valid => ?_⟩, fun claim => ?_⟩
  · obtain ⟨text, same⟩ := valid.hostname
    cases same
  · obtain ⟨report, same, -⟩ | ⟨config, same, -⟩ := claim (.object [("shell", .array [])])
    · rw [broken] at same
      cases same
    · rw [broken] at same
      cases same

/-! ## Data from a file -/

private theorem overlongItems_eq_any (items : List Json) :
    Json.overlongItems items = items.any Json.overlong := by
  induction items with
  | nil => rfl
  | cons item rest ih => rw [Json.overlongItems, ih, List.any_cons]

private theorem overlongMembers_eq_any (members : List (String × Json)) :
    Json.overlongMembers members = members.any fun member => member.2.overlong := by
  induction members with
  | nil => rfl
  | cons member rest ih => rw [Json.overlongMembers, ih, List.any_cons]

/-- What is read from a text holds no number that is too long to be written again. -/
theorem not_overlong_of_readable {levels : Nat} (readable : Json.Readable levels value) :
    value.overlong = false := by
  induction readable with
  | @int _ i short =>
    have count : (toString i.natAbs).length = Binary64.digitCount i.natAbs := by
      simp [Binary64.digitCount, Nat.repr_eq_ofList_toDigits]
    simp only [Json.overlong, count, decide_eq_false_iff_not]
    omega
  | array each ih =>
    rw [Json.overlong, overlongItems_eq_any]
    simpa using ih
  | object once each ih =>
    rw [Json.overlong, overlongMembers_eq_any]
    simpa using ih
  | _ => rfl

private theorem memberD_not_overlong {usual : Json} (short : value.overlong = false)
    (also : usual.overlong = false) (name : String) :
    (value.memberD name usual).overlong = false := by
  unfold Json.memberD
  cases found : value.member? name with
  | none => exact also
  | some held =>
    cases value with
    | object members =>
      obtain ⟨before, after, rfl, -⟩ := List.lookup_eq_some_iff.mp found
      rw [Json.overlong, overlongMembers_eq_any, List.any_eq_false] at short
      simpa using short (name, held) (by simp)
    | _ => cases found

/-- Of the data of a file only a section without members breaks the reading off. -/
theorem breaksOff_of_read_iff {text : String} (ran : Json.read text = .ok data) : BreaksOff data ↔
    ∃ name ∈ ["filesystem", "shell", "users", "logging"], ¬ HasMembers (part data name) := by
  have short := not_overlong_of_readable (Json.read_readable ran)
  have settled : ∀ section_ name usual, usual.overlong = false →
      (setting data section_ name usual).overlong = false := fun section_ name usual also =>
    memberD_not_overlong (memberD_not_overlong short rfl section_) also name
  constructor
  · rintro (⟨named, bare⟩ | long | long | ⟨-, -, long⟩)
    · exact ⟨_, named, bare⟩
    · exact absurd long (Bool.eq_false_iff.mp (settled _ _ _ (by decide)))
    · exact absurd long (Bool.eq_false_iff.mp (settled _ _ _ (by decide)))
    · exact absurd long (Bool.eq_false_iff.mp (settled _ _ _ (by decide)))
  · rintro ⟨name, named, bare⟩
    exact .section_ named bare

end PocketShell.Config
