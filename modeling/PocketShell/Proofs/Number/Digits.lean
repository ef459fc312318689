import Mathlib.Data.List.Basic
import Mathlib.Data.List.Induction
import Mathlib.Data.List.TakeDrop
import Mathlib.Tactic.Ring
import PocketShell.Json.Reader
import PocketShell.Number.Shortest

/-! Digits and what is read from them. A text of digits stands for a number; zeros in front do not
change it and zeros at the end only scale it. A number in a text ends where no digit, point or mark
of an exponent follows. -/
namespace PocketShell.Decimal

variable {ds after : List Char} {n : ℕ}

/-! ## Values of digits -/

theorem digitsToNat_append (first second : List Char) :
    digitsToNat (first ++ second) =
      digitsToNat first * 10 ^ second.length + digitsToNat second := by
  change Nat.ofDigitChars 10 (first ++ second) 0 = _
  rw [Nat.ofDigitChars_append, Nat.ofDigitChars_eq_ofDigitChars_zero, Nat.mul_comm]
  rfl

@[simp] theorem digitsToNat_nil : digitsToNat [] = 0 := rfl

@[simp] theorem digitsToNat_zero : digitsToNat ['0'] = 0 := rfl

@[simp] theorem digitsToNat_replicate (k : ℕ) : digitsToNat (List.replicate k '0') = 0 := by
  change Nat.ofDigitChars 10 (List.replicate k '0') 0 = 0
  rw [Nat.ofDigitChars_replicate_zero, Nat.mul_zero]

@[simp] theorem digitsToNat_toDigits (n : ℕ) : digitsToNat (Nat.toDigits 10 n) = n :=
  Nat.ofDigitChars_ten_toDigits

theorem isDigit_of_mem_replicate {k : ℕ} {c : Char} (member : c ∈ List.replicate k '0') :
    c.isDigit = true := by
  rw [List.eq_of_mem_replicate member]
  decide

theorem isDigit_of_mem_zero {c : Char} (member : c ∈ ['0']) : c.isDigit = true := by
  rw [List.mem_singleton.mp member]
  decide

theorem isDigit_of_mem_toDigits {c : Char} (member : c ∈ Nat.toDigits 10 n) : c.isDigit = true :=
  Nat.isDigit_of_mem_toDigits (by decide) (by decide) member

/-- Only zero is written with a zero in front. -/
theorem head_toDigits (positive : 0 < n) : (Nat.toDigits 10 n).head? ≠ some '0' := by
  induction n using Nat.strongRecOn with
  | ind n ih =>
    rw [Nat.toDigits_eq_if (by decide)]
    by_cases short : n < 10
    · rw [if_pos short]
      simp only [List.head?_cons, ne_eq, Option.some.injEq, Nat.digitChar_eq_zero]
      omega
    · rw [if_neg short, List.head?_append_of_ne_nil _ Nat.toDigits_ne_nil]
      exact ih (n / 10) (by omega) (by omega)

/-- A number has no more digits than it is written with. -/
theorem ofDigits_lt {digits : List ℕ} (small : ∀ d ∈ digits, d < 10) :
    Text.ofDigits digits < 10 ^ digits.length := by
  induction digits using List.reverseRecOn with
  | nil => exact Nat.one_pos
  | append_singleton front d ih =>
    have bound := ih fun d member => small d (List.mem_append_left _ member)
    have last : d < 10 := small d (by simp)
    have value : Text.ofDigits (front ++ [d]) = 10 * Text.ofDigits front + d := by
      simp [Text.ofDigits]
    rw [value, List.length_append, List.length_singleton, pow_succ]
    omega

theorem digitsToNat_lt {cs : List Char} (digits : ∀ c ∈ cs, c.isDigit = true) :
    digitsToNat cs < 10 ^ cs.length := by
  have value : digitsToNat cs = Text.ofDigits (cs.map (·.toNat - 48)) := by
    rw [Text.ofDigits, List.foldl_map]
    rfl
  rw [value, ← List.length_map (·.toNat - 48)]
  refine ofDigits_lt fun d member => ?_
  obtain ⟨c, inside, rfl⟩ := List.mem_map.mp member
  have range := digits c inside
  simp only [Char.isDigit, Bool.and_eq_true, decide_eq_true_eq] at range
  have high : c.toNat ≤ 57 := range.2
  omega

theorem digitCount_le {k : ℕ} (positive : 0 < k) (short : n < 10 ^ k) :
    Binary64.digitCount n ≤ k :=
  (Nat.length_toDigits_le_iff (by decide) positive).mpr short

theorem digitsToNat_padDigits (width n : ℕ) :
    digitsToNat (Text.padDigits 10 width n).toList = n := by
  rw [Text.padDigits, String.toList_ofList, digitsToNat_append, digitsToNat_replicate,
    digitsToNat_toDigits]
  omega

theorem isDigit_of_mem_padDigits {width : ℕ} {c : Char}
    (member : c ∈ (Text.padDigits 10 width n).toList) : c.isDigit = true := by
  rw [Text.padDigits, String.toList_ofList] at member
  rcases List.mem_append.mp member with zero | digit
  · exact isDigit_of_mem_replicate zero
  · exact isDigit_of_mem_toDigits digit

theorem padDigits_ne_nil (width n : ℕ) : (Text.padDigits 10 width n).toList ≠ [] := by
  rw [Text.padDigits, String.toList_ofList]
  exact List.append_ne_nil_of_right_ne_nil _ Nat.toDigits_ne_nil

/-! ## Where digits end -/

/-- No digit follows. -/
def NoDigit (cs : List Char) : Prop := ∀ c, cs.head? = some c → c.isDigit = false

theorem spanDigits_append (digits : ∀ c ∈ ds, c.isDigit = true) (stops : NoDigit after) :
    spanDigits (ds ++ after) = (ds, after) := by
  unfold spanDigits
  rw [List.span_eq_takeWhile_dropWhile]
  have tail : after.takeWhile Char.isDigit = [] ∧ after.dropWhile Char.isDigit = after := by
    cases after with
    | nil => exact ⟨rfl, rfl⟩
    | cons c rest =>
      have plain : c.isDigit = false := stops c rfl
      simp [plain]
  rw [List.takeWhile_append_of_pos digits, List.dropWhile_append_of_pos digits, tail.1, tail.2,
    List.append_nil]

/-- The exponent that is written with a sign and at least one digit. -/
theorem readExponent_append (negative : Bool) (some : ds ≠ [])
    (digits : ∀ c ∈ ds, c.isDigit = true) (stops : NoDigit after) :
    readExponent ('e' :: (if negative then '-' else '+') :: ds ++ after) =
      (if negative then -(digitsToNat ds : ℤ) else digitsToNat ds, after) := by
  have nonempty : ds.isEmpty = false := by simpa using some
  cases negative <;>
    simp [readExponent, spanDigits_append digits stops, nonempty]

theorem readExponent_none (plain : ∀ c, after.head? = some c → c ≠ 'e' ∧ c ≠ 'E') :
    readExponent after = (0, after) := by
  cases after with
  | nil => rfl
  | cons c rest =>
    obtain ⟨small, capital⟩ := plain c rfl
    simp [readExponent, small, capital]

/-- The digits before the point: a single zero, or digits without one in front. -/
def Whole (ds : List Char) : Prop :=
  ds = ['0'] ∨ (ds ≠ [] ∧ (∀ c ∈ ds, c.isDigit = true) ∧ ds.head? ≠ some '0')

theorem Whole.ne_nil (whole : Whole ds) : ds ≠ [] := by
  rcases whole with rfl | ⟨some, -, -⟩
  · simp
  · exact some

theorem Whole.digits (whole : Whole ds) : ∀ c ∈ ds, c.isDigit = true := by
  rcases whole with rfl | ⟨-, digits, -⟩
  · exact fun _ => isDigit_of_mem_zero
  · exact digits

theorem whole_toDigits (n : ℕ) : Whole (Nat.toDigits 10 n) := by
  rcases Nat.eq_zero_or_pos n with rfl | positive
  · exact .inl rfl
  · exact .inr ⟨Nat.toDigits_ne_nil, fun _ => isDigit_of_mem_toDigits, head_toDigits positive⟩

end PocketShell.Decimal

namespace PocketShell.Json

open Decimal

variable (negative : Bool) {ds fs tail rest : List Char} {power : ℤ}

/-- What can follow a value in a text: nothing, a comma or a closing bracket. -/
def Closes (rest : List Char) : Prop :=
  ∀ c, rest.head? = some c → c = ',' ∨ c = ']' ∨ c = '\x7d'

theorem Closes.noDigit (closes : Closes rest) : NoDigit rest := by
  intro c first
  rcases closes c first with rfl | rfl | rfl <;> decide

theorem Closes.readExponent (closes : Closes rest) : readExponent rest = (0, rest) := by
  refine readExponent_none fun c first => ?_
  rcases closes c first with rfl | rfl | rfl <;> decide

/-- The digits behind a point, and what follows them. -/
def pointDigits (cs : List Char) : List Char × List Char :=
  match cs with
  | '.' :: r =>
    let (ds, after) := spanDigits r
    if ds.isEmpty then ([], cs) else (ds, after)
  | _ => ([], cs)

/-- The number that has the digits given, before and behind its point, and perhaps an exponent. -/
def numberOf (negative : Bool) (digits fraction rest : List Char) :
    Except ReadError (Json × List Char) :=
  let (exponent, after) := readExponent rest
  if fraction.isEmpty && after.length == rest.length then
    if digits.length > Text.maxDigits then .error (.longNumeral digits.length)
    else
      let n : ℤ := digitsToNat digits
      .ok (.int (if negative then -n else n), after)
  else
    let n := digitsToNat (digits ++ fraction)
    .ok (.float (.ofDecimal negative n (exponent - fraction.length)), after)

/-- A number is read in two steps: its whole digits, and then the rest. -/
theorem readNumber_append {after : List Char} (whole : Whole ds) (stops : NoDigit after) :
    readNumber negative (ds ++ after) =
      numberOf negative ds (pointDigits after).1 (pointDigits after).2 := by
  have nonempty : ds.isEmpty = false := by simpa using whole.ne_nil
  have split : readNumber negative (ds ++ after) =
      if ds.isEmpty then .error .malformed
      else numberOf negative ds (pointDigits after).1 (pointDigits after).2 := by
    rcases whole with rfl | ⟨-, digits, head⟩
    · rfl
    · have spans := spanDigits_append digits stops
      cases ds with
      | nil => simp at nonempty
      | cons c others =>
        have differs : c ≠ '0' := fun same => head (by simp [same])
        rw [List.cons_append] at spans ⊢
        unfold readNumber
        simp only [List.cons.injEq, differs, false_and, imp_false, not_false_eq_true, implies_true,
          spans]
        rfl
  rw [split, nonempty, if_neg Bool.false_ne_true]

theorem pointDigits_closes (closes : Closes rest) : pointDigits rest = ([], rest) := by
  unfold pointDigits
  split
  · rename_i r
    rcases closes '.' rfl with same | same | same <;> exact absurd same (by decide)
  · rfl

/-- A number with neither point nor exponent is a whole one. -/
theorem readNumber_whole (whole : Whole ds) (short : ds.length ≤ Text.maxDigits)
    (closes : Closes rest) : readNumber negative (ds ++ rest) =
      .ok (.int (if negative then -(digitsToNat ds : ℤ) else digitsToNat ds), rest) := by
  rw [readNumber_append negative whole closes.noDigit, pointDigits_closes closes]
  simp only [numberOf, closes.readExponent, List.isEmpty_nil, Bool.true_and, beq_self_eq_true,
    ↓reduceIte]
  rw [if_neg (by omega)]

/-- A number with digits behind a point and perhaps an exponent. -/
theorem readNumber_fraction (whole : Whole ds) (some : fs ≠ [])
    (digits : ∀ c ∈ fs, c.isDigit = true) (stops : NoDigit tail)
    (exponent : readExponent tail = (power, rest)) :
    readNumber negative (ds ++ '.' :: (fs ++ tail)) =
      .ok (.float (.ofDecimal negative (digitsToNat (ds ++ fs)) (power - fs.length)), rest) := by
  have more : fs.isEmpty = false := by simpa using some
  have point : NoDigit ('.' :: (fs ++ tail)) := by
    intro c first
    cases first
    decide
  have behind : pointDigits ('.' :: (fs ++ tail)) = (fs, tail) := by
    simp only [pointDigits, spanDigits_append digits stops, more, Bool.false_eq_true, ↓reduceIte]
  rw [readNumber_append negative whole point, behind]
  simp only [numberOf, exponent, more, Bool.false_and, Bool.false_eq_true, ↓reduceIte]

/-- A number with an exponent and no point. -/
theorem readNumber_exponent (whole : Whole ds)
    (exponent : readExponent ('e' :: tail) = (power, rest)) (shorter : rest.length ≤ tail.length) :
    readNumber negative (ds ++ 'e' :: tail) =
      .ok (.float (.ofDecimal negative (digitsToNat ds) power), rest) := by
  have letter : NoDigit ('e' :: tail) := by
    intro c first
    cases first
    decide
  have differs : (rest.length == ('e' :: tail).length) = false := by
    simp only [List.length_cons, beq_eq_false_iff_ne]
    omega
  have behind : pointDigits ('e' :: tail) = ([], 'e' :: tail) := rfl
  rw [readNumber_append negative whole letter, behind]
  simp only [numberOf, exponent, differs, Bool.and_false, Bool.false_eq_true, ↓reduceIte,
    List.append_nil, List.length_nil, Nat.cast_zero, sub_zero]

end PocketShell.Json
