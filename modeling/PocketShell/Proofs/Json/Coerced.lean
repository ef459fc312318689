import PocketShell.Json.Coerce
import PocketShell.Proofs.Json.Readable

/-! Numbers that readable data is taken for. Whatever a whole number is written as, it does not get
longer than a number may be; whatever a number is written as, it is rounded to a double. -/
namespace PocketShell

open Json

variable {levels : ℕ} {value data default : Json} {name : String} {members : List (String × Json)}
  {x : Binary64} {i : ℤ}

/-! ## Doubles -/

namespace Binary64

theorem ofInt_proper (i : ℤ) : (ofInt i).Proper := by
  rw [ofInt, ofRatio_eq Nat.one_pos]
  exact round_proper _ _

private theorem proper_of_readFraction {negative : Bool} {cs rest : List Char}
    (ran : Decimal.readFraction negative cs = some (x, rest)) : x.Proper := by
  unfold Decimal.readFraction at ran
  simp only at ran
  repeat' split at ran
  all_goals cases ran
  all_goals exact ofDecimal_proper negative _ _

theorem proper_of_read {s : String} (ran : Decimal.read? s = some x) : x.Proper := by
  unfold Decimal.read? at ran
  obtain ⟨cs, -, ran⟩ := Option.bind_eq_some_iff.mp ran
  simp only at ran
  -- A sign, a word for what is not finite, and else the digits.
  repeat' split at ran
  all_goals cases ran
  all_goals first
    | exact trivial
    | exact proper_of_readFraction (by assumption)

private theorem magnitude_lt {negative : Bool} {significand : ℕ} {exponent : ℤ}
    (proper : Proper (.finite negative significand exponent)) :
    (magnitude significand exponent).1 < 2 ^ (53 + exponent.toNat) := by
  have digits : significand < 2 ^ 53 := proper.1
  unfold magnitude
  split
  · rw [Nat.pow_add]
    exact Nat.mul_lt_mul_of_pos_right digits (Nat.two_pow_pos _)
  · exact lt_of_lt_of_le digits (Nat.pow_le_pow_right two_pos (Nat.le_add_right _ _))

/-- A finite double without its fraction is short. -/
theorem trunc_short (proper : x.Proper) (whole : x.trunc? = some i) :
    digitCount i.natAbs ≤ Text.maxDigits := by
  cases x with
  | nan => cases whole
  | infinity negative => cases whole
  | finite negative significand exponent =>
    cases whole
    have bound := magnitude_lt proper
    have few : 53 + exponent.toNat ≤ Text.maxDigits := by
      have high : exponent ≤ 971 := proper.2.2.1
      unfold Text.maxDigits
      omega
    refine Decimal.digitCount_le (by decide) ?_
    calc (Int.tdiv (if negative then -((magnitude significand exponent).1 : ℤ)
          else (magnitude significand exponent).1) (magnitude significand exponent).2).natAbs
        ≤ (magnitude significand exponent).1 := by
          rw [Int.natAbs_tdiv]
          refine le_trans (Nat.div_le_self _ _) ?_
          cases negative <;> simp
      _ < 2 ^ (53 + exponent.toNat) := bound
      _ ≤ 10 ^ (53 + exponent.toNat) := Nat.pow_le_pow_left (by decide) _
      _ ≤ 10 ^ Text.maxDigits := Nat.pow_le_pow_right (by decide) few

end Binary64

/-! ## Whole numbers -/

namespace Text

theorem decimalValue_lt {c : Char} {d : ℕ} (digit : decimalValue? c = some d) : d < 10 := by
  unfold decimalValue? at digit
  simp only at digit
  split at digit
  · split at digit
    · rename_i range
      cases digit
      simp only [Bool.and_eq_true, decide_eq_true_eq] at range
      omega
    · cases digit
  · obtain ⟨first, found, rfl⟩ := Option.map_eq_some_iff.mp digit
    have range := Array.find?_some found
    simp only [Bool.and_eq_true, decide_eq_true_eq] at range
    omega

theorem numeralDigits_lt {cs : List Char} {digits : List ℕ} (ran : numeralDigits cs = some digits) :
    ∀ d ∈ digits, d < 10 := by
  fun_induction numeralDigits cs generalizing digits with
  | case1 => cases ran
  | case2 c =>
    obtain ⟨d, value, rfl⟩ := Option.map_eq_some_iff.mp ran
    simpa using decimalValue_lt value
  | case3 c rest ih =>
    obtain ⟨d, value, ran⟩ := Option.bind_eq_some_iff.mp ran
    obtain ⟨others, further, ran⟩ := Option.bind_eq_some_iff.mp ran
    cases ran
    exact List.forall_mem_cons.mpr ⟨decimalValue_lt value, ih further⟩
  | case4 c rest _ _ ih =>
    obtain ⟨d, value, ran⟩ := Option.bind_eq_some_iff.mp ran
    obtain ⟨others, further, ran⟩ := Option.bind_eq_some_iff.mp ran
    cases ran
    exact List.forall_mem_cons.mpr ⟨decimalValue_lt value, ih further⟩

theorem readInt_short {s : String} (ran : readInt s = .ok i) :
    Binary64.digitCount i.natAbs ≤ maxDigits := by
  have short {digits : List ℕ} {body : List Char} (numeral : numeralDigits body = some digits)
      (few : ¬ digits.length > maxDigits) : Binary64.digitCount (ofDigits digits) ≤ maxDigits := by
    refine Decimal.digitCount_le (by decide) ?_
    exact lt_of_lt_of_le (Decimal.ofDigits_lt (numeralDigits_lt numeral))
      (Nat.pow_le_pow_right (by decide) (not_lt.mp few))
  unfold readInt at ran
  simp only at ran
  split at ran
  · cases ran
  · rename_i digits numeral
    split at ran
    · cases ran
    · rename_i few
      cases ran
      split <;> simpa using short numeral few

end Text

namespace Json

theorem toInteger_short (readable : Readable levels value) (ran : value.toInteger = .ok i) :
    Binary64.digitCount i.natAbs ≤ Text.maxDigits := by
  cases readable with
  | null => cases ran
  | bool b =>
    cases ran
    cases b <;> decide
  | int short =>
    cases ran
    exact short
  | @float levels x proper =>
    cases x with
    | nan => cases ran
    | infinity negative => cases ran
    | finite negative significand exponent =>
      cases ran
      exact Binary64.trunc_short proper rfl
  | string s =>
    cases read : Text.readInt s with
    | error failure =>
      rw [toInteger, read] at ran
      cases ran
    | ok n =>
      rw [toInteger, read] at ran
      cases ran
      exact Text.readInt_short read
  | array each => cases ran
  | object once each => cases ran

theorem toNumber_proper (readable : Readable levels value) (ran : value.toNumber = .ok x) :
    x.Proper := by
  cases readable with
  | null => cases ran
  | bool b =>
    cases ran
    exact Binary64.ofInt_proper _
  | @int levels i short =>
    have proper := Binary64.ofInt_proper i
    rw [toNumber] at ran
    split at ran
    · cases ran
    · cases ran
      exact proper
  | float proper =>
    cases ran
    exact proper
  | string s =>
    rw [toNumber] at ran
    split at ran
    · rename_i read
      cases ran
      exact Binary64.proper_of_read read
    · cases ran
  | array each => cases ran
  | object once each => cases ran

theorem Readable.member (readable : Readable levels (.object members))
    (found : members.lookup name = some value) : ∃ less, Readable less value := by
  cases readable with
  | @object less _ once each =>
    obtain ⟨before, after, rfl, -⟩ := List.lookup_eq_some_iff.mp found
    exact ⟨less, each (name, value) (by simp)⟩

/-- A member of readable data, or a readable value in its place, is readable. -/
theorem Readable.memberD (readable : Readable levels data) (otherwise : Readable levels default) :
    ∃ less, Readable less (data.memberD name default) := by
  unfold Json.memberD
  cases found : data.member? name with
  | none => exact ⟨levels, otherwise⟩
  | some value =>
    cases data with
    | object members => exact readable.member found
    | _ => cases found

end Json

end PocketShell
