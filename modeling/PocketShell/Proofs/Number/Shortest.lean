import Mathlib.Data.List.TakeWhile
import PocketShell.Proofs.Number.Digits
import PocketShell.Proofs.Number.Rounding

/-! The decimal text of a double reads back as the same double. The digits that are chosen are
tested before they are taken, so that only their layout is to be proved: in each of its forms the
text stands for the same decimal fraction. -/
namespace PocketShell.Binary64

open Decimal

variable {negative : Bool} {significand : ℕ} {exponent : ℤ}

/-! ## Digits that read back -/

theorem ofDecimal_of_mem_gridHits {x : Binary64} {num den digits : ℕ} {step : ℤ}
    (hit : digits ∈ gridHits x negative num den step) : ofDecimal negative digits step = x := by
  unfold gridHits at hit
  exact eq_of_beq (List.mem_filter.mp hit).2

theorem ofDecimal_shortestFrom {x : Binary64} {num den : ℕ} {point : ℤ} {found : ℕ × ℤ}
    (steps count : ℕ) (some : shortestFrom x negative num den point steps count = .some found) :
    ofDecimal negative found.1 found.2 = x := by
  induction steps generalizing count with
  | zero => cases some
  | succ steps ih =>
    unfold shortestFrom at some
    dsimp only at some
    split at some
    · rename_i digits others hits
      cases some
      exact ofDecimal_of_mem_gridHits (hits ▸ List.mem_cons_self)
    · exact ih (count + 1) some

theorem exactDecimal_spec (significand : ℕ) (exponent : ℤ) :
    ((exactDecimal significand exponent).1 : ℚ) * 10 ^ (exactDecimal significand exponent).2 =
      significand * 2 ^ exponent := by
  unfold exactDecimal
  by_cases nonneg : 0 ≤ exponent
  · obtain ⟨n, rfl⟩ := Int.eq_ofNat_of_zero_le nonneg
    simp
  · obtain ⟨n, same⟩ : ∃ n : ℕ, exponent = -(n : ℤ) := ⟨(-exponent).toNat, by omega⟩
    subst same
    have ten : (10 : ℚ) ^ (-(n : ℤ)) = 5 ^ (-(n : ℤ)) * 2 ^ (-(n : ℤ)) := by
      rw [← mul_zpow]
      norm_num
    simp only [nonneg, ↓reduceIte, neg_neg, Int.toNat_natCast, Nat.pow_eq, ten]
    push_cast
    rw [← zpow_natCast, mul_assoc, ← mul_assoc _ _ ((2 : ℚ) ^ _), ← zpow_add₀ (by norm_num)]
    simp

/-- The digits chosen for a double stand for it. -/
theorem ofDecimal_shortest (proper : Proper (.finite negative significand exponent)) :
    ofDecimal negative (shortest negative significand exponent).1
      (shortest negative significand exponent).2 = .finite negative significand exponent := by
  unfold shortest
  dsimp only
  split
  · rename_i found some
    exact ofDecimal_shortestFrom 17 1 some
  · rw [ofDecimal_eq, exactDecimal_spec, round_of_proper proper]

/-! ## Layout -/

/-- The zeros left out are counted by the exponent. -/
theorem dropZeros_spec (digits : List Char) (exponent : ℤ) :
    ∃ k : ℕ, digits = (dropZeros digits exponent).1 ++ List.replicate k '0' ∧
      (dropZeros digits exponent).2 = exponent + k := by
  have split : digits = (dropZeros digits exponent).1 ++
      (digits.reverse.takeWhile (· == '0')).reverse := by
    unfold dropZeros
    rw [← List.reverse_append, List.takeWhile_append_dropWhile, List.reverse_reverse]
  have zeros : ∀ c ∈ (digits.reverse.takeWhile (· == '0')).reverse, c = '0' := by
    intro c member
    simpa using List.mem_takeWhile_imp (List.mem_reverse.mp member)
  have count := congrArg List.length split
  rw [List.length_append] at count
  rw [List.eq_replicate_of_mem zeros] at split
  refine ⟨_, split, ?_⟩
  rw [show (dropZeros digits exponent).2 =
    exponent + (digits.length - (dropZeros digits exponent).1.length : ℕ) from rfl]
  omega

/-- Decimal fractions of one value are rounded alike. -/
theorem ofDecimal_congr {n m : ℕ} {p q : ℤ} (same : (n : ℚ) * 10 ^ p = m * 10 ^ q) :
    ofDecimal negative n p = ofDecimal negative m q := by
  rw [ofDecimal_eq, ofDecimal_eq, same]

/-- Zeros at the end are the same as a larger exponent. -/
theorem ofDecimal_scaled (n k : ℕ) (p : ℤ) :
    ofDecimal negative (n * 10 ^ k) p = ofDecimal negative n (p + k) := by
  apply ofDecimal_congr
  rw [zpow_add₀ (by norm_num), zpow_natCast]
  push_cast
  ring

theorem dropZeros_toDigits (negative : Bool) {n : ℕ} (positive : 0 < n) (p : ℤ) :
    Whole (dropZeros (Nat.toDigits 10 n) p).1 ∧
      (dropZeros (Nat.toDigits 10 n) p).1.head? ≠ some '0' ∧
      ofDecimal negative (digitsToNat (dropZeros (Nat.toDigits 10 n) p).1)
        (dropZeros (Nat.toDigits 10 n) p).2 = ofDecimal negative n p := by
  obtain ⟨k, split, power⟩ := dropZeros_spec (Nat.toDigits 10 n) p
  have value := congrArg digitsToNat split
  rw [digitsToNat_toDigits, digitsToNat_append, digitsToNat_replicate, Nat.add_zero,
    List.length_replicate] at value
  have some : (dropZeros (Nat.toDigits 10 n) p).1 ≠ [] := by
    intro none
    rw [none, digitsToNat_nil, Nat.zero_mul] at value
    exact positive.ne' value
  have head : (dropZeros (Nat.toDigits 10 n) p).1.head? ≠ .some '0' := by
    have first := head_toDigits positive
    rwa [split, List.head?_append_of_ne_nil _ some] at first
  refine ⟨.inr ⟨some, fun c member => ?_, head⟩, head, ?_⟩
  · exact isDigit_of_mem_toDigits (n := n) (split ▸ List.mem_append_left _ member)
  · conv_rhs => rw [value]
    rw [ofDecimal_scaled, power]

end PocketShell.Binary64

namespace PocketShell.Json

open Decimal Binary64

variable (negative : Bool) {ds rest : List Char} {exponent : ℤ}

/-- A fraction below one is written with zeros behind the point. -/
theorem readNumber_below (digits : ∀ c ∈ ds, c.isDigit = true) (some : ds ≠ [])
    (closes : Closes rest) {k : ℕ} (place : (k : ℤ) = -(ds.length + exponent)) :
    readNumber negative ('0' :: '.' :: (List.replicate k '0' ++ ds ++ rest)) =
      .ok (.float (ofDecimal negative (digitsToNat ds) exponent), rest) := by
  have zeros : ∀ c ∈ List.replicate k '0' ++ ds, c.isDigit = true := by
    intro c member
    rcases List.mem_append.mp member with zero | digit
    · exact isDigit_of_mem_replicate zero
    · exact digits c digit
  have read := readNumber_fraction negative (.inl rfl) (by simpa using fun _ => some)
    zeros closes.noDigit closes.readExponent
  rw [List.singleton_append] at read
  rw [read]
  have value : digitsToNat (['0'] ++ (List.replicate k '0' ++ ds)) = digitsToNat ds := by
    rw [digitsToNat_append, digitsToNat_zero, Nat.zero_mul, Nat.zero_add, digitsToNat_append,
      digitsToNat_replicate, Nat.zero_mul, Nat.zero_add]
  have scale : (0 : ℤ) - (List.replicate k '0' ++ ds).length = exponent := by
    rw [List.length_append, List.length_replicate]
    omega
  rw [value, scale]

/-- A number with its point among or behind its digits. -/
theorem readNumber_placed (whole : Whole ds) (head : ds.head? ≠ some '0')
    (closes : Closes rest) {point : ℕ} (positive : 0 < point)
    (place : (point : ℤ) = ds.length + exponent) :
    readNumber negative (ds.take point ++ List.replicate (point - (ds.take point).length) '0' ++
        '.' :: ((if (ds.drop point).isEmpty then ['0'] else ds.drop point) ++ rest)) =
      .ok (.float (ofDecimal negative (digitsToNat ds) exponent), rest) := by
  have digits := whole.digits
  have front : Whole (ds.take point ++ List.replicate (point - (ds.take point).length) '0') := by
    have some : ds.take point ≠ [] := by
      simpa using ⟨positive.ne', whole.ne_nil⟩
    refine .inr ⟨List.append_ne_nil_of_left_ne_nil some _, fun c member => ?_, ?_⟩
    · rcases List.mem_append.mp member with digit | zero
      · exact digits c (List.mem_of_mem_take digit)
      · exact isDigit_of_mem_replicate zero
    · rw [List.head?_append_of_ne_nil _ some, List.head?_take, if_neg positive.ne']
      exact head
  by_cases inside : point < ds.length
  · have behind : (ds.drop point).isEmpty = false := by simpa using inside
    have full : point - (ds.take point).length = 0 := by
      rw [List.length_take]
      omega
    rw [full, List.replicate_zero, List.append_nil] at front
    rw [behind, full, List.replicate_zero, List.append_nil, if_neg Bool.false_ne_true,
      readNumber_fraction negative front (by simpa using inside)
        (fun c member => digits c (List.mem_of_mem_drop member)) closes.noDigit
        closes.readExponent, List.take_append_drop]
    have scale : (0 : ℤ) - (ds.drop point).length = exponent := by
      rw [List.length_drop]
      omega
    rw [scale]
  · have none : (ds.drop point).isEmpty = true := by simpa using inside
    have all : ds.take point = ds := List.take_of_length_le (not_lt.mp inside)
    rw [all] at front
    rw [none, all, if_pos rfl, readNumber_fraction negative front (by simp)
      (fun _ => isDigit_of_mem_zero) closes.noDigit closes.readExponent]
    have value : digitsToNat (ds ++ List.replicate (point - ds.length) '0' ++ ['0']) =
        digitsToNat ds * 10 ^ (point - ds.length + 1) := by
      rw [digitsToNat_append, digitsToNat_append, digitsToNat_replicate, digitsToNat_zero,
        List.length_replicate, Nat.add_zero, Nat.add_zero, pow_succ, ← mul_assoc]
      rfl
    rw [value, ofDecimal_scaled]
    have scale : (0 : ℤ) - ['0'].length + (point - ds.length + 1 : ℕ) = exponent := by
      rw [List.length_singleton]
      omega
    rw [scale]

/-- A number with one digit before its point and an exponent. -/
theorem readNumber_scientific (whole : Whole ds) (closes : Closes rest) (below : Bool)
    {power : ℕ} (place : (if below then -(power : ℤ) else power) = ds.length + exponent - 1) :
    readNumber negative (ds.take 1 ++ ((if (ds.drop 1).isEmpty then [] else '.' :: ds.drop 1) ++
        'e' :: (if below then '-' else '+') :: (Text.padDigits 10 2 power).toList ++ rest)) =
      .ok (.float (ofDecimal negative (digitsToNat ds) exponent), rest) := by
  have read := readExponent_append below (padDigits_ne_nil 2 power)
    (fun _ => isDigit_of_mem_padDigits) closes.noDigit
  rw [digitsToNat_padDigits, place] at read
  cases ds with
  | nil => exact absurd rfl whole.ne_nil
  | cons c others =>
    have lead : Whole [c] := by
      rcases whole with same | ⟨-, digits, head⟩
      · exact .inl (by simpa using (List.cons.inj same).1)
      · exact .inr ⟨by simp, by simpa using digits c List.mem_cons_self, by simpa using head⟩
    rw [List.cons_append, List.cons_append] at read
    by_cases single : others = []
    · subst single
      rw [List.length_singleton, Nat.cast_one, add_sub_cancel_left] at read
      refine readNumber_exponent negative lead read (Nat.le_succ_of_le ?_)
      rw [List.append_eq, List.length_append]
      exact Nat.le_add_left _ _
    · have more : others.isEmpty = false := by simpa using single
      have digits : ∀ d ∈ others, d.isDigit = true := fun d member =>
        whole.digits d (List.mem_cons_of_mem c member)
      have letter : NoDigit ('e' :: (if below then '-' else '+') ::
          ((Text.padDigits 10 2 power).toList ++ rest)) := by
        intro d first
        cases first
        decide
      have number := readNumber_fraction negative lead single digits letter read
      have scale : ((c :: others).length : ℤ) + exponent - 1 - others.length = exponent := by
        rw [List.length_cons]
        omega
      rw [scale] at number
      simpa [more] using number

/-- The text of a magnitude is read as the nearest number to the decimal fraction. -/
theorem readNumber_layOut (n : ℕ) (p : ℤ) (closes : Closes rest) :
    readNumber negative ((layOut n p).toList ++ rest) =
      .ok (.float (ofDecimal negative n p), rest) := by
  unfold layOut
  by_cases zero : n = 0
  · subst zero
    have read := readNumber_fraction negative (.inl rfl) (List.cons_ne_nil '0' [])
      (fun _ => isDigit_of_mem_zero) closes.noDigit closes.readExponent
    have none : ofDecimal negative 0 p = ofDecimal negative 0 (0 - (['0'].length : ℕ)) :=
      ofDecimal_congr (by simp)
    rw [if_pos rfl, none]
    exact read
  rw [if_neg zero]
  obtain ⟨whole, head, value⟩ := dropZeros_toDigits negative (Nat.pos_of_ne_zero zero) p
  rw [← value]
  generalize dropZeros (Nat.toDigits 10 n) p = kept at whole head ⊢
  obtain ⟨ds, exponent⟩ := kept
  dsimp only at whole head ⊢
  by_cases placed : -4 < (ds.length : ℤ) + exponent ∧ (ds.length : ℤ) + exponent ≤ 16
  · rw [if_pos placed]
    by_cases below : (ds.length : ℤ) + exponent ≤ 0
    · have place : ((-(ds.length + exponent)).toNat : ℤ) = -(ds.length + exponent) :=
        Int.toNat_of_nonneg (by omega)
      rw [if_pos below, String.toList_ofList]
      exact readNumber_below negative whole.digits whole.ne_nil closes place
    · have place : (((ds.length : ℤ) + exponent).toNat : ℤ) = ds.length + exponent :=
        Int.toNat_of_nonneg (by omega)
      rw [if_neg below, String.toList_ofList, List.append_assoc]
      exact readNumber_placed negative whole head closes (by omega) place
  · have place : (if decide ((ds.length : ℤ) + exponent - 1 < 0)
        then -(((ds.length : ℤ) + exponent - 1).natAbs : ℤ)
        else ((ds.length : ℤ) + exponent - 1).natAbs) = ds.length + exponent - 1 := by
      simp only [decide_eq_true_eq]
      split <;> omega
    have read := readNumber_scientific negative whole closes _ place
    rw [if_neg placed]
    simpa using read

/-- The digits of a finite number's text are read as that number. -/
theorem readNumber_shortest {significand : ℕ}
    (proper : Proper (.finite negative significand exponent)) (closes : Closes rest) :
    readNumber negative ((layOut (shortest negative significand exponent).1
        (shortest negative significand exponent).2).toList ++ rest) =
      .ok (.float (.finite negative significand exponent), rest) := by
  rw [readNumber_layOut negative _ _ closes, ofDecimal_shortest proper]

end PocketShell.Json
