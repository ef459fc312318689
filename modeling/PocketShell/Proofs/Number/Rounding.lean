import Mathlib.Algebra.Order.Field.Power
import Mathlib.Algebra.Order.Floor.Semifield
import Mathlib.Data.Int.Log
import Mathlib.Data.Rat.Floor
import PocketShell.Number.Binary64

/-! Rounding to double precision. What a quotient or a decimal fraction is rounded to depends on its
value alone, however it is written down, and a number that has a representation is rounded to
itself. The rational number that is rounded is the specification; the computation with natural
numbers and its shortcuts for extreme magnitudes are proved equal to it. -/
namespace PocketShell.Binary64

variable {negative : Bool} {num den : ℕ} {exponent : ℤ} {r : ℚ}

/-! ## Whole numbers -/

/-- The whole number nearest to a value, at a tie the even one. -/
def nearest (r : ℚ) : ℕ :=
  if r - ⌊r⌋₊ < 1 / 2 then ⌊r⌋₊
  else if 1 / 2 < r - ⌊r⌋₊ then ⌊r⌋₊ + 1
  else ⌊r⌋₊ + ⌊r⌋₊ % 2

theorem nearest_natCast (n : ℕ) : nearest n = n := by
  simp [nearest]

/-- A value between two whole numbers is rounded to one between them. -/
theorem nearest_mem {low high : ℕ} (above : (low : ℚ) ≤ r) (below : r < high) :
    low ≤ nearest r ∧ nearest r ≤ high := by
  have nonneg : 0 ≤ r := le_trans (Nat.cast_nonneg low) above
  have floor_above : low ≤ ⌊r⌋₊ := Nat.le_floor above
  have floor_below : ⌊r⌋₊ < high := (Nat.floor_lt nonneg).mpr below
  unfold nearest
  split_ifs <;> omega

theorem nearest_eq_zero (small : r < 1 / 2) : nearest r = 0 := by
  have floor : ⌊r⌋₊ = 0 := Nat.floor_eq_zero.mpr (by linarith)
  simp only [nearest, floor, Nat.cast_zero, sub_zero, small, ↓reduceIte]

theorem roundHalfEven_eq (num : ℕ) (positive : 0 < den) :
    roundHalfEven num den = nearest ((num : ℚ) / den) := by
  have positive' : (0 : ℚ) < den := by exact_mod_cast positive
  have floor : ⌊(num : ℚ) / den⌋₊ = num / den := Nat.floor_div_eq_div num den
  have rest : (num : ℚ) / den - (num / den : ℕ) = (num % den : ℕ) / den := by
    have split : (num : ℚ) = den * (num / den : ℕ) + (num % den : ℕ) := by
      exact_mod_cast (Nat.div_add_mod num den).symm
    rw [eq_div_iff positive'.ne', sub_mul, div_mul_cancel₀ _ positive'.ne', split]
    ring
  have below : ((num % den : ℕ) : ℚ) / den < 1 / 2 ↔ 2 * (num % den) < den := by
    rw [div_lt_div_iff₀ positive' two_pos, one_mul, mul_comm]
    exact_mod_cast Iff.rfl
  have above : 1 / 2 < ((num % den : ℕ) : ℚ) / den ↔ den < 2 * (num % den) := by
    rw [div_lt_div_iff₀ two_pos positive', one_mul, mul_comm _ (2 : ℚ)]
    exact_mod_cast Iff.rfl
  unfold roundHalfEven nearest
  simp only [floor, rest, below, above]

/-! ## Doubles -/

/-- The double with a significand that rounding may have carried into a 54th digit. -/
def carry (negative : Bool) (significand : ℕ) (exponent : ℤ) : Binary64 :=
  let (significand, exponent) :=
    if significand = 2 * leastSignificand then (leastSignificand, exponent + 1)
    else (significand, exponent)
  if maxExponent < exponent then .infinity negative else .finite negative significand exponent

/-- The exponent of the doubles around a positive value. -/
def exponentOf (r : ℚ) : ℤ := max minExponent (Int.log 2 r - 52)

/-- The double nearest to a magnitude. -/
def round (negative : Bool) (r : ℚ) : Binary64 :=
  if r ≤ 0 then .finite negative 0 minExponent
  else carry negative (nearest (r / 2 ^ exponentOf r)) (exponentOf r)

theorem two_zpow_pos (exponent : ℤ) : (0 : ℚ) < 2 ^ exponent := zpow_pos two_pos exponent

theorem scale_spec (num : ℕ) (exponent : ℤ) (positive : 0 < den) : 0 < (scale num den exponent).2 ∧
    ((scale num den exponent).1 : ℚ) / (scale num den exponent).2 = num / den / 2 ^ exponent := by
  unfold scale
  by_cases nonneg : 0 ≤ exponent
  · obtain ⟨n, rfl⟩ := Int.eq_ofNat_of_zero_le nonneg
    simp only [nonneg, ↓reduceIte, Int.toNat_natCast, Nat.pow_eq, zpow_natCast]
    refine ⟨Nat.mul_pos positive (Nat.two_pow_pos n), ?_⟩
    push_cast
    rw [div_div]
  · obtain ⟨n, same⟩ : ∃ n : ℕ, exponent = -(n : ℤ) := ⟨(-exponent).toNat, by omega⟩
    subst same
    simp only [nonneg, ↓reduceIte, neg_neg, Int.toNat_natCast, Nat.pow_eq, zpow_neg, zpow_natCast]
    refine ⟨positive, ?_⟩
    push_cast
    rw [div_inv_eq_mul, div_mul_eq_mul_div]

/-- The binary digits of the parts of a quotient tell its magnitude up to one digit. -/
theorem log_of_quotient (numPos : 0 < num) (denPos : 0 < den) :
    (num.log2 : ℤ) - den.log2 - 1 ≤ Int.log 2 ((num : ℚ) / den) ∧
      Int.log 2 ((num : ℚ) / den) ≤ (num.log2 : ℤ) - den.log2 := by
  have numPos' : (0 : ℚ) < num := by exact_mod_cast numPos
  have denPos' : (0 : ℚ) < den := by exact_mod_cast denPos
  have positive : (0 : ℚ) < num / den := div_pos numPos' denPos'
  have num_ge : (2 : ℚ) ^ (num.log2 : ℤ) ≤ num := by
    rw [zpow_natCast]
    exact_mod_cast Nat.log2_self_le numPos.ne'
  have num_lt : (num : ℚ) < 2 ^ ((num.log2 : ℤ) + 1) := by
    have bound : num < 2 ^ (num.log2 + 1) := Nat.lt_log2_self
    exact_mod_cast bound
  have den_ge : (2 : ℚ) ^ (den.log2 : ℤ) ≤ den := by
    rw [zpow_natCast]
    exact_mod_cast Nat.log2_self_le denPos.ne'
  have den_lt : (den : ℚ) < 2 ^ ((den.log2 : ℤ) + 1) := by
    have bound : den < 2 ^ (den.log2 + 1) := Nat.lt_log2_self
    exact_mod_cast bound
  constructor
  · have low : ((2 : ℕ) : ℚ) ^ ((num.log2 : ℤ) - den.log2 - 1) ≤ num / den := by
      rw [le_div_iff₀ denPos']
      calc ((2 : ℕ) : ℚ) ^ ((num.log2 : ℤ) - den.log2 - 1) * den
          ≤ 2 ^ ((num.log2 : ℤ) - den.log2 - 1) * 2 ^ ((den.log2 : ℤ) + 1) := by
            push_cast
            gcongr
        _ = 2 ^ (num.log2 : ℤ) := by
            rw [← zpow_add₀ two_ne_zero]
            congr 1
            ring
        _ ≤ num := num_ge
    exact (Int.zpow_le_iff_le_log one_lt_two positive).mp low
  · have high : (num : ℚ) / den < ((2 : ℕ) : ℚ) ^ ((num.log2 : ℤ) - den.log2 + 1) := by
      rw [div_lt_iff₀ denPos']
      calc (num : ℚ) < 2 ^ ((num.log2 : ℤ) + 1) := num_lt
        _ = 2 ^ ((num.log2 : ℤ) - den.log2 + 1) * 2 ^ (den.log2 : ℤ) := by
            rw [← zpow_add₀ two_ne_zero]
            congr 1
            ring
        _ ≤ ((2 : ℕ) : ℚ) ^ ((num.log2 : ℤ) - den.log2 + 1) * den := by
            push_cast
            gcongr
    have bound := (Int.lt_zpow_iff_log_lt one_lt_two positive).mp high
    omega

/-- The exponent that is tried first is right, or one too high. -/
private theorem guess_spec (numPos : 0 < num) (denPos : 0 < den) :
    (if (scale num den ((num.log2 : ℤ) - den.log2 - 52)).1 <
        leastSignificand * (scale num den ((num.log2 : ℤ) - den.log2 - 52)).2
      then (num.log2 : ℤ) - den.log2 - 52 - 1 else (num.log2 : ℤ) - den.log2 - 52) =
      Int.log 2 ((num : ℚ) / den) - 52 := by
  have numPos' : (0 : ℚ) < num := by exact_mod_cast numPos
  have denPos' : (0 : ℚ) < den := by exact_mod_cast denPos
  have positive : (0 : ℚ) < num / den := div_pos numPos' denPos'
  obtain ⟨low, high⟩ := log_of_quotient numPos denPos
  obtain ⟨bottomPos, scaled⟩ :=
    scale_spec num ((num.log2 : ℤ) - den.log2 - 52) denPos
  have bottomPos' : (0 : ℚ) < (scale num den ((num.log2 : ℤ) - den.log2 - 52)).2 := by
    exact_mod_cast bottomPos
  have short : (scale num den ((num.log2 : ℤ) - den.log2 - 52)).1 <
      leastSignificand * (scale num den ((num.log2 : ℤ) - den.log2 - 52)).2 ↔
      Int.log 2 ((num : ℚ) / den) < (num.log2 : ℤ) - den.log2 := by
    rw [← Int.lt_zpow_iff_log_lt one_lt_two positive]
    have full : ((leastSignificand : ℕ) : ℚ) * 2 ^ ((num.log2 : ℤ) - den.log2 - 52) =
        ((2 : ℕ) : ℚ) ^ ((num.log2 : ℤ) - den.log2) := by
      have digits : ((leastSignificand : ℕ) : ℚ) = 2 ^ (52 : ℤ) := by
        norm_num [leastSignificand]
      rw [digits, ← zpow_add₀ two_ne_zero]
      push_cast
      congr 1
      ring
    rw [← full, ← div_lt_iff₀ (two_zpow_pos _), ← scaled, div_lt_iff₀ bottomPos']
    exact_mod_cast Iff.rfl
  split_ifs with condition
  · have below := short.mp condition
    omega
  · have above := mt short.mpr condition
    omega

/-- A quotient is rounded by its value. -/
theorem ofRatio_eq (denPos : 0 < den) : ofRatio negative num den = round negative (num / den) := by
  by_cases zero : num = 0
  · simp [ofRatio, round, zero]
  have numPos : 0 < num := Nat.pos_of_ne_zero zero
  have numPos' : (0 : ℚ) < num := by exact_mod_cast numPos
  have denPos' : (0 : ℚ) < den := by exact_mod_cast denPos
  have positive : ¬ (num : ℚ) / den ≤ 0 := not_le.mpr (div_pos numPos' denPos')
  obtain ⟨bottomPos, scaled⟩ := scale_spec num (exponentOf ((num : ℚ) / den)) denPos
  have significand :=
    roundHalfEven_eq (scale num den (exponentOf ((num : ℚ) / den))).1 bottomPos
  rw [scaled] at significand
  unfold ofRatio round
  rw [if_neg zero, if_neg positive]
  simp only [guess_spec numPos denPos]
  change carry negative (roundHalfEven (scale num den (exponentOf ((num : ℚ) / den))).1
    (scale num den (exponentOf ((num : ℚ) / den))).2) (exponentOf ((num : ℚ) / den)) = _
  rw [significand]

/-! ## Representations -/

/-- The number is written as doubles are: the significand is of full length unless the exponent is
the least one. -/
def Proper : Binary64 → Prop
  | .finite _ significand exponent => significand < 2 * leastSignificand ∧
      minExponent ≤ exponent ∧ exponent ≤ maxExponent ∧
      (leastSignificand ≤ significand ∨ exponent = minExponent)
  | .infinity _ => True
  | .nan => True

instance : DecidablePred Proper
  | .finite _ _ _ => inferInstanceAs (Decidable (_ ∧ _))
  | .infinity _ => .isTrue trivial
  | .nan => .isTrue trivial

private theorem two_mul_leastSignificand : ((2 * leastSignificand : ℕ) : ℚ) = 2 ^ (53 : ℤ) := by
  norm_num [leastSignificand]

private theorem cast_leastSignificand : ((leastSignificand : ℕ) : ℚ) = 2 ^ (52 : ℤ) := by
  norm_num [leastSignificand]

/-- A positive value lies between the powers of two that its logarithm names. -/
private theorem log_spec (positive : 0 < r) :
    (2 : ℚ) ^ Int.log 2 r ≤ r ∧ r < 2 ^ (Int.log 2 r + 1) :=
  ⟨by exact_mod_cast Int.zpow_log_le_self one_lt_two positive,
    by exact_mod_cast Int.lt_zpow_succ_log_self one_lt_two r⟩

/-- The logarithm is settled by the powers of two around a value. -/
private theorem log_eq {n : ℤ} (above : (2 : ℚ) ^ n ≤ r) (below : r < 2 ^ (n + 1)) :
    Int.log 2 r = n := by
  have positive : 0 < r := lt_of_lt_of_le (two_zpow_pos n) above
  have low : n ≤ Int.log 2 r :=
    (Int.zpow_le_iff_le_log one_lt_two positive).mp (by exact_mod_cast above)
  have high : Int.log 2 r < n + 1 :=
    (Int.lt_zpow_iff_log_lt one_lt_two positive).mp (by exact_mod_cast below)
  omega

/-- The significand has at most its full length, and it has it above the least exponent. -/
private theorem significand_bounds (positive : 0 < r) :
    nearest (r / 2 ^ exponentOf r) ≤ 2 * leastSignificand ∧
      (minExponent < exponentOf r → leastSignificand ≤ nearest (r / 2 ^ exponentOf r)) := by
  obtain ⟨above, below⟩ := log_spec positive
  have scaled_nonneg : 0 ≤ r / 2 ^ exponentOf r := (div_pos positive (two_zpow_pos _)).le
  have scaled_lt : r / 2 ^ exponentOf r < (2 * leastSignificand : ℕ) := by
    rw [two_mul_leastSignificand, div_lt_iff₀ (two_zpow_pos _), ← zpow_add₀ two_ne_zero]
    refine lt_of_lt_of_le below (zpow_le_zpow_right₀ one_le_two ?_)
    have bound : Int.log 2 r - 52 ≤ exponentOf r := le_max_right _ _
    omega
  refine ⟨(nearest_mem (by simpa using scaled_nonneg : ((0 : ℕ) : ℚ) ≤ _) scaled_lt).2, ?_⟩
  intro normal
  have exact_exponent : exponentOf r = Int.log 2 r - 52 := by
    unfold exponentOf at normal ⊢
    omega
  refine (nearest_mem ?_ scaled_lt).1
  rw [cast_leastSignificand, le_div_iff₀ (two_zpow_pos _), ← zpow_add₀ two_ne_zero, exact_exponent]
  have digits : (52 : ℤ) + (Int.log 2 r - 52) = Int.log 2 r := by omega
  rw [digits]
  exact above

theorem round_proper (negative : Bool) (r : ℚ) : (round negative r).Proper := by
  unfold round
  by_cases small : r ≤ 0
  · rw [if_pos small]
    exact ⟨by decide, le_refl _, by decide, .inr rfl⟩
  rw [if_neg small]
  obtain ⟨bound, full⟩ := significand_bounds (not_le.mp small)
  have least : minExponent ≤ exponentOf r := le_max_left _ _
  unfold carry
  by_cases carried : nearest (r / 2 ^ exponentOf r) = 2 * leastSignificand
  · simp only [carried, ↓reduceIte]
    split
    · trivial
    · rename_i inRange
      exact ⟨by decide, by omega, by omega, .inl (le_refl _)⟩
  · simp only [carried, ↓reduceIte]
    split
    · trivial
    · rename_i inRange
      refine ⟨by omega, least, by omega, ?_⟩
      rcases eq_or_lt_of_le least with same | normal
      · exact .inr same.symm
      · exact .inl (full normal)

/-- A double is rounded to itself. -/
theorem round_of_proper {significand : ℕ} (proper : Proper (.finite negative significand exponent)) :
    round negative (significand * 2 ^ exponent) = .finite negative significand exponent := by
  obtain ⟨short, low, high, full⟩ := proper
  unfold round
  by_cases zero : significand = 0
  · subst zero
    have least : exponent = minExponent := full.resolve_left (by decide)
    simp [least]
  have significand_ge : (1 : ℚ) ≤ significand := by
    exact_mod_cast Nat.one_le_iff_ne_zero.mpr zero
  have positive : (0 : ℚ) < significand * 2 ^ exponent :=
    mul_pos (by linarith) (two_zpow_pos exponent)
  have below : (significand : ℚ) * 2 ^ exponent < 2 ^ (53 + exponent) := by
    rw [zpow_add₀ two_ne_zero, ← two_mul_leastSignificand]
    have bound : (significand : ℚ) < (2 * leastSignificand : ℕ) := by exact_mod_cast short
    exact mul_lt_mul_of_pos_right bound (two_zpow_pos exponent)
  have chosen : exponentOf (significand * 2 ^ exponent) = exponent := by
    unfold exponentOf
    rcases full with normal | least
    · have above : (2 : ℚ) ^ (52 + exponent) ≤ significand * 2 ^ exponent := by
        rw [zpow_add₀ two_ne_zero, ← cast_leastSignificand]
        have bound : ((leastSignificand : ℕ) : ℚ) ≤ significand := by exact_mod_cast normal
        exact mul_le_mul_of_nonneg_right bound (two_zpow_pos exponent).le
      rw [log_eq above (by convert below using 2; ring)]
      omega
    · have bound : Int.log 2 ((significand : ℚ) * 2 ^ exponent) < 53 + exponent :=
        (Int.lt_zpow_iff_log_lt one_lt_two positive).mp (by exact_mod_cast below)
      omega
  rw [if_neg (not_le.mpr positive), chosen, mul_div_assoc, div_self (two_zpow_pos exponent).ne',
    mul_one, nearest_natCast]
  unfold carry
  rw [if_neg short.ne]
  exact if_neg (not_lt.mpr high)

/-! ## Extremes -/

theorem round_eq_infinity (large : (2 : ℚ) ^ (1024 : ℤ) ≤ r) :
    round negative r = .infinity negative := by
  have positive : 0 < r := lt_of_lt_of_le (two_zpow_pos _) large
  have far : 1024 ≤ Int.log 2 r :=
    (Int.zpow_le_iff_le_log one_lt_two positive).mp (by rwa [Nat.cast_ofNat])
  have exponent_gt : maxExponent < exponentOf r := by
    unfold exponentOf maxExponent
    omega
  unfold round carry
  rw [if_neg (not_le.mpr positive)]
  split
  rename_i significand exponent same
  refine if_pos ?_
  split at same <;> cases same <;> omega

theorem round_eq_zero (small : r < (2 : ℚ) ^ (-1075 : ℤ)) :
    round negative r = .finite negative 0 minExponent := by
  unfold round
  by_cases nonpos : r ≤ 0
  · exact if_pos nonpos
  have positive : 0 < r := not_le.mp nonpos
  have near : Int.log 2 r < -1075 :=
    (Int.lt_zpow_iff_log_lt one_lt_two positive).mp (by exact_mod_cast small)
  have least : exponentOf r = minExponent := by
    unfold exponentOf minExponent
    omega
  have scaled_lt : r / 2 ^ minExponent < 1 / 2 := by
    have half : (1 : ℚ) / 2 * 2 ^ minExponent = 2 ^ (-1075 : ℤ) := by
      rw [one_div, ← zpow_neg_one, ← zpow_add₀ two_ne_zero]
      rfl
    rw [div_lt_iff₀ (two_zpow_pos _), half]
    exact small
  rw [if_neg nonpos, least, nearest_eq_zero scaled_lt]
  rfl

/-! ## Decimal fractions -/

/-- A natural number lies between the powers of ten that its digits count. -/
private theorem digitCount_spec {n : ℕ} (positive : 0 < n) :
    (10 : ℚ) ^ ((digitCount n : ℤ) - 1) ≤ n ∧ (n : ℚ) < 10 ^ (digitCount n : ℤ) := by
  have some : 0 < digitCount n := Nat.length_toDigits_pos
  constructor
  · obtain ⟨k, same⟩ : ∃ k, digitCount n = k + 1 := ⟨digitCount n - 1, by omega⟩
    rw [same, Nat.cast_add, Nat.cast_one, add_sub_cancel_right, zpow_natCast]
    rcases Nat.eq_zero_or_pos k with zero | more
    · subst zero
      exact_mod_cast positive
    · have few : ¬ digitCount n ≤ k := by omega
      have above := mt (Nat.length_toDigits_le_iff (by decide) more).mpr few
      exact_mod_cast not_lt.mp above
  · rw [zpow_natCast]
    exact_mod_cast (Nat.length_toDigits_le_iff (by decide) some).mp (le_refl (digitCount n))

private theorem pow_ten_ge : (2 : ℕ) ^ 1024 ≤ 10 ^ 400 := by decide +kernel

private theorem pow_ten_gt : (2 : ℕ) ^ 1075 < 10 ^ 400 := by decide +kernel

/-- A decimal fraction is rounded by its value; extreme ones are settled beforehand. -/
theorem ofDecimal_eq (negative : Bool) (n : ℕ) (exponent : ℤ) :
    ofDecimal negative n exponent = round negative (n * 10 ^ exponent) := by
  unfold ofDecimal
  by_cases zero : n = 0
  · simp [zero, round]
  have nPos : 0 < n := Nat.pos_of_ne_zero zero
  have power : (0 : ℚ) < 10 ^ exponent := zpow_pos (by norm_num) exponent
  obtain ⟨above, below⟩ := digitCount_spec nPos
  simp only [zero, decide_false, Bool.false_or, decide_eq_true_eq]
  split_ifs with tiny huge nonneg
  · symm
    apply round_eq_zero
    calc (n : ℚ) * 10 ^ exponent < 10 ^ (digitCount n : ℤ) * 10 ^ exponent := by gcongr
      _ = 10 ^ ((digitCount n : ℤ) + exponent) := (zpow_add₀ (by norm_num) _ _).symm
      _ ≤ 10 ^ (-400 : ℤ) := zpow_le_zpow_right₀ (by norm_num) (by omega)
      _ < 2 ^ (-1075 : ℤ) := by
        rw [zpow_neg, zpow_neg]
        exact inv_strictAnti₀ (by positivity) (by exact_mod_cast pow_ten_gt)
  · symm
    apply round_eq_infinity
    calc (2 : ℚ) ^ (1024 : ℤ) ≤ 10 ^ (400 : ℤ) := by exact_mod_cast pow_ten_ge
      _ ≤ 10 ^ ((digitCount n : ℤ) - 1 + exponent) :=
        zpow_le_zpow_right₀ (by norm_num) (by omega)
      _ = 10 ^ ((digitCount n : ℤ) - 1) * 10 ^ exponent := zpow_add₀ (by norm_num) _ _
      _ ≤ n * 10 ^ exponent := by gcongr
  · obtain ⟨k, rfl⟩ := Int.eq_ofNat_of_zero_le nonneg
    rw [ofRatio_eq Nat.one_pos]
    congr 1
    simp
  · obtain ⟨k, same⟩ : ∃ k : ℕ, exponent = -(k : ℤ) := ⟨(-exponent).toNat, by omega⟩
    subst same
    rw [ofRatio_eq (by simp)]
    congr 1
    simp [div_eq_mul_inv]

end PocketShell.Binary64
