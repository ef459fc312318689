import Mathlib.Data.Nat.Digits.Defs
import PocketShell.Lab.Verification
import PocketShell.Proofs.Shell.Completion

/-! When a condition on permissions is met. A mode is expected as a text of octal digits, which
stands for its value however many zeros come first; a text of another kind is never met. But a mode
that is not given, or given as an empty text, is taken for zero. -/
namespace PocketShell

/-! ## Octal texts -/

/-- The text is a number in octal digits. -/
structure Octal (text : String) : Prop where
  inhabited : text ≠ ""
  digits : ∀ c ∈ text.toList, Mode.isOctal c = true

/-- The number that octal digits stand for, the most significant one first. -/
def octalValue (digits : List Char) : Nat :=
  Nat.ofDigits 8 (digits.reverse.map fun c => c.toNat - '0'.toNat)

variable {c : Char} {digits : List Char} {mode : Mode}

theorem octalValue_cons (c : Char) (digits : List Char) :
    octalValue (c :: digits) = octalValue digits + 8 ^ digits.length * (c.toNat - '0'.toNat) := by
  rw [octalValue, List.reverse_cons, List.map_append, Nat.ofDigits_append]
  simp [octalValue]

theorem foldl_octal (n : Nat) (digits : List Char) :
    digits.foldl (fun n c => 8 * n + (c.toNat - 48)) n =
      octalValue digits + 8 ^ digits.length * n := by
  induction digits generalizing n with
  | nil => simp [octalValue]
  | cons c digits ih =>
    rw [List.foldl_cons, ih, octalValue_cons, List.length_cons, pow_succ]
    change _ = octalValue digits + 8 ^ digits.length * (c.toNat - 48) + _
    ring

theorem octalValue_zeros (count : Nat) (digits : List Char) :
    octalValue (List.replicate count '0' ++ digits) = octalValue digits := by
  simp [octalValue]

theorem octal_zeros_iff (count : Nat) (digits : List Char) :
    (∀ c ∈ List.replicate count '0' ++ digits, Mode.isOctal c = true) ↔
      ∀ c ∈ digits, Mode.isOctal c = true := by
  have zero : Mode.isOctal '0' = true := rfl
  rw [List.forall_mem_append, and_iff_right]
  intro c member
  rw [List.eq_of_mem_replicate member, zero]

/-- Digits are zeros followed by what is left without those in front. -/
theorem exists_zeros (digits : List Char) :
    ∃ count, digits = List.replicate count '0' ++ digits.dropWhile (· == '0') := by
  induction digits with
  | nil => exact ⟨0, rfl⟩
  | cons c digits ih =>
    by_cases zero : c = '0'
    · obtain ⟨count, whole⟩ := ih
      refine ⟨count + 1, ?_⟩
      rw [zero, List.dropWhile_cons_of_pos rfl, List.replicate_succ, List.cons_append, ← whole]
    · refine ⟨0, ?_⟩
      rw [List.dropWhile_cons_of_neg (by simpa using zero), List.replicate_zero, List.nil_append]

private theorem digit_bounds (octal : Mode.isOctal c = true) :
    '0'.toNat ≤ c.toNat ∧ c.toNat ≤ '7'.toNat := by
  simpa [Mode.isOctal, Char.le_def, UInt32.le_iff_toNat_le] using octal

theorem octalValue_lt (octal : ∀ c ∈ digits, Mode.isOctal c = true) :
    octalValue digits < 8 ^ digits.length := by
  have small : ∀ d ∈ digits.reverse.map (fun c => c.toNat - '0'.toNat), d < 8 := by
    intro d listed
    obtain ⟨c, member, rfl⟩ := List.mem_map.mp listed
    have := digit_bounds (octal c (List.mem_reverse.mp member))
    simp only [Char.reduceToNat] at this ⊢
    omega
  simpa [octalValue] using Nat.ofDigits_lt_base_pow_length (by decide) small

/-- Without zeros in front, the digits of a mode are four at most. -/
theorem length_le_of_octalValue (octal : ∀ c ∈ digits, Mode.isOctal c = true)
    (trimmed : digits.head? ≠ some '0') (bounded : octalValue digits < 8 ^ 4) :
    digits.length ≤ 4 := by
  cases digits with
  | nil => simp
  | cons c digits =>
    have positive : 1 ≤ c.toNat - '0'.toNat := by
      have bounds := digit_bounds (octal c List.mem_cons_self)
      have other : c.toNat ≠ '0'.toNat := fun same => trimmed (by rw [Char.toNat_inj.mp same]; rfl)
      omega
    have least : 8 ^ digits.length ≤ octalValue (c :: digits) := by
      rw [octalValue_cons]
      exact (Nat.le_mul_of_pos_right _ positive).trans (Nat.le_add_left _ _)
    exact (Nat.pow_lt_pow_iff_right (by decide)).mp (least.trans_lt bounded)

/-! ## The expected mode -/

/-- Three or four digits are read as a mode by their value. -/
theorem parse?_eq_some_iff (digits : List Char) (mode : Mode) :
    Mode.parse? true (String.ofList digits) = some mode ↔
      (digits.length = 3 ∨ digits.length = 4) ∧ (∀ c ∈ digits, Mode.isOctal c = true) ∧
        octalValue digits = mode.toNat := by
  unfold Mode.parse?
  simp only [String.toList_ofList, Bool.true_and, foldl_octal, mul_zero, add_zero]
  split
  · rename_i accepted
    have shape : (digits.length = 3 ∨ digits.length = 4) ∧ ∀ c ∈ digits, Mode.isOctal c = true := by
      simpa using accepted
    have short : digits.length ≤ 4 := by omega
    have bounded : octalValue digits < 2 ^ 12 :=
      (octalValue_lt shape.2).trans_le (Nat.pow_le_pow_right (n := 8) (by decide) short)
    rw [Option.some.injEq, ← BitVec.toNat_inj, BitVec.toNat_ofNat, Nat.mod_eq_of_lt bounded]
    exact ⟨fun same => ⟨shape.1, shape.2, same⟩, fun all => all.2.2⟩
  · rename_i refused
    refine iff_of_false nofun fun all => refused ?_
    simpa using ⟨all.1, all.2.1⟩

/-- The text as the expected mode is read: without the zeros in front, but with three digits. -/
def padded (text : String) : String :=
  let digits := text.toList.dropWhile (· == '0')
  String.ofList (List.replicate (3 - digits.length) '0' ++ digits)

/-- A padded text is read as the value of its digits. -/
theorem parse?_padded_iff (text : String) (mode : Mode) :
    Mode.parse? true (padded text) = some mode ↔
      (∀ c ∈ text.toList, Mode.isOctal c = true) ∧ octalValue text.toList = mode.toNat := by
  obtain ⟨count, whole⟩ := exists_zeros text.toList
  have trimmed : (text.toList.dropWhile (· == '0')).head? ≠ some '0' := fun zero => by
    simpa [zero] using List.head?_dropWhile_not (· == '0') text.toList
  unfold padded
  dsimp only
  generalize text.toList.dropWhile (· == '0') = digits at whole trimmed
  rw [parse?_eq_some_iff, octal_zeros_iff, octalValue_zeros, whole, octal_zeros_iff,
    octalValue_zeros, and_iff_right_iff_imp]
  rintro ⟨octal, same⟩
  have short := length_le_of_octalValue octal trimmed (same ▸ mode.isLt)
  rw [List.length_append, List.length_replicate]
  omega

theorem expectedMode_ofOption (mode : Option String) :
    expectedMode (Json.ofOption mode) = .ok (Mode.parse? true (padded (mode.getD ""))) := by
  cases mode with
  | none => rfl
  | some text =>
    by_cases empty : text = ""
    · subst empty
      rfl
    · have truthy : (Json.string text).truthy = true := by simpa [Json.truthy] using empty
      simp only [expectedMode, Json.ofOption, truthy, ↓reduceIte]
      rfl

/-! ## The check -/

/-- A condition that asks for the permissions of what a path leads to. -/
def Condition.onPermissions (path : String) (mode : Option String) (other : Condition) :
    Condition :=
  { other with kind := .permissionEquals, path := .string path, mode := Json.ofOption mode }

variable {machine : Machine} {user path : String} {given : Option String} {other : Condition}

/-- To look is to ask the machine, from its root. -/
theorem look_run {α : Type} (operation : Fs α) :
    Inspection.look operation user machine = machine.ask ⟨user, "/"⟩ operation := by
  change (do
    set (machine.ask ⟨user, "/"⟩ operation).2
    (machine.ask ⟨user, "/"⟩ operation).1 : Inspection (Except FsError α)) user machine = _
  generalize machine.ask ⟨user, "/"⟩ operation = outcome
  obtain ⟨result, after⟩ := outcome
  cases result <;> rfl

theorem leadsTo_result (lookup : Fs Inode) (test : Inode → Bool) :
    (leadsTo lookup test user machine).1 =
      (machine.ask ⟨user, "/"⟩ lookup).1.map fun reply => reply.toOption.any test := by
  rw [leadsTo, Task.bind_run, look_run]
  generalize machine.ask ⟨user, "/"⟩ lookup = outcome
  obtain ⟨result, after⟩ := outcome
  rcases result with fault | reason | inode <;> rfl

private theorem any_toOption_iff {test : Inode → Bool} {reply : Except FsError Inode} :
    reply.toOption.any test = true ↔ ∃ inode, reply = .ok inode ∧ test inode = true := by
  cases reply <;> simp [Except.toOption]

theorem check_onPermissions : ((other.onPermissions path given).check user machine).1 =
    (machine.ask ⟨user, "/"⟩ (Fs.stat path)).1.map fun reply =>
      reply.toOption.any fun inode =>
        Mode.parse? true (padded (given.getD "")) = some inode.mode := by
  rw [← leadsTo_result]
  unfold Condition.check
  simp only [Condition.onPermissions, expectedMode_ofOption, Json.toText]
  rfl

/-- The path leads the user to an inode with the bits. -/
def Machine.ShowsMode (machine : Machine) (user path : String) (bits : Nat) : Prop :=
  ∃ inode, (machine.ask ⟨user, "/"⟩ (Fs.stat path)).1 = .ok (.ok inode) ∧ inode.mode.toNat = bits

/-- A condition on permissions is met if the inode has the value of the expected mode, which for a
mode that is missing or empty is zero. -/
private theorem met_iff : ((other.onPermissions path given).check user machine).1 = .ok true ↔
    (∀ c ∈ (given.getD "").toList, Mode.isOctal c = true) ∧
      machine.ShowsMode user path (octalValue (given.getD "").toList) := by
  rw [check_onPermissions, map_eq_ok]
  constructor
  · rintro ⟨reply, asked, met⟩
    obtain ⟨inode, rfl, same⟩ := any_toOption_iff.mp met
    obtain ⟨octal, value⟩ := (parse?_padded_iff _ _).mp (of_decide_eq_true same)
    exact ⟨octal, inode, asked, value.symm⟩
  · rintro ⟨octal, inode, asked, value⟩
    have same := (parse?_padded_iff (given.getD "") inode.mode).mpr ⟨octal, value.symm⟩
    exact ⟨_, asked, any_toOption_iff.mpr ⟨inode, rfl, decide_eq_true same⟩⟩

/-- A condition on permissions is met exactly if the expected mode is a text of octal digits and the
path leads the user to an inode whose mode has their value; or if no mode is given, or an empty one,
and the mode of the inode is zero. It fails only where looking up the path does, which it never does
along a run. -/
theorem permissions_met_iff (machine : Machine) (user path : String) (given : Option String)
    (other : Condition) :
    let verdict := ((other.onPermissions path given).check user machine).1
    (verdict = .ok true ↔
      (∃ text, given = some text ∧ Octal text ∧
        machine.ShowsMode user path (octalValue text.toList)) ∨
      (given.getD "" = "" ∧ machine.ShowsMode user path 0)) ∧
    (∀ fault, verdict = .error fault ↔
      (machine.ask ⟨user, "/"⟩ (Fs.stat path)).1 = .error fault) ∧
    (Reachable Snapshot.Keyed machine → ∃ met, verdict = .ok met) := by
  intro verdict
  have judged : verdict = _ := check_onPermissions
  refine ⟨met_iff.trans ?_, fun fault => ?_, fun reachable => ?_⟩
  · constructor
    · rintro ⟨octal, shows⟩
      by_cases empty : given.getD "" = ""
      · rw [empty] at shows
        exact .inr ⟨empty, shows⟩
      · cases given with
        | none => exact absurd rfl empty
        | some text => exact .inl ⟨text, rfl, ⟨empty, octal⟩, shows⟩
    · rintro (⟨text, rfl, octal, shows⟩ | ⟨empty, shows⟩)
      · exact ⟨octal.digits, shows⟩
      · rw [empty]
        exact ⟨by simp, shows⟩
  · rw [judged]
    cases (machine.ask ⟨user, "/"⟩ (Fs.stat path)).1 <;> simp [Except.map]
  · have sound := reachable.sound Snapshot.keyed_closed
    have answers : machine.Answers ⟨user, "/"⟩ (.stat path) :=
      machine.answers_of_not_copies sound.linked sound.fresh _ nofun
    have asked : (Request.stat path).run = Request.Value.inode <$> Fs.stat path := rfl
    obtain ⟨reply, answered⟩ := not_fails_iff.mp ((Machine.answers_iff asked).mp answers)
    exact ⟨_, judged.trans (map_eq_ok.mpr ⟨reply, answered, rfl⟩)⟩

/-- A condition of which only the permissions will count. -/
private def blank : Condition := ⟨.fileExists, .null, .null, .null, .null, .null, .null⟩

/-- Zeros in front of the expected mode make no difference, and a run has led to the machine. -/
theorem permissions_met_zeros : Reachable Snapshot.Keyed sharedMachine ∧
    ((blank.onPermissions "/tmp" (some "0000777")).check "guest" sharedMachine).1 = .ok true ∧
    ∃ met, ((blank.onPermissions "/tmp" none).check "guest" sharedMachine).1 = .ok met := by
  have octal : Octal "0000777" := ⟨by decide, List.all_eq_true.mp rfl⟩
  have shows : sharedMachine.ShowsMode "guest" "/tmp" (octalValue "0000777".toList) := ⟨_, rfl, rfl⟩
  have reachable : Reachable Snapshot.Keyed sharedMachine := sharedMachine_reachable _
  have met := permissions_met_iff sharedMachine "guest" "/tmp" (some "0000777") blank
  have unasked := permissions_met_iff sharedMachine "guest" "/tmp" none blank
  exact ⟨reachable, met.1.mpr (.inl ⟨_, rfl, octal, shows⟩), unasked.2.2 reachable⟩

/-- Where nobody has a permission, a condition without a mode is met, and so is one with an empty
mode. -/
theorem permissions_met_unasked :
    let machine := (sharedMachine.serve ⟨rootUser, "/"⟩ (.chmod "/tmp" "000")).2
    ((blank.onPermissions "/tmp" none).check "guest" machine).1 = .ok true ∧
      ((blank.onPermissions "/tmp" (some "")).check "guest" machine).1 = .ok true :=
  ⟨rfl, rfl⟩

end PocketShell
