import Mathlib.Tactic.IntervalCases
import PocketShell.Json.Reader
import PocketShell.Json.Writer

/-! Strings in structured data. What is written for a string reads back as that string: the escape
of a character stands for its code units, which are joined to the character again. -/
namespace PocketShell.Json

/-! ## Hexadecimal digits -/

/-- The last digit of a padded numeral, and those before it. -/
theorem padDigits_succ {base width : Nat} (large : 1 < base) (some : 0 < width) (n : Nat) :
    (Text.padDigits base (width + 1) n).toList =
      (Text.padDigits base width (n / base)).toList ++ [Nat.digitChar (n % base)] := by
  unfold Text.padDigits
  rw [String.toList_ofList, String.toList_ofList, Nat.toDigits_eq_if large]
  split
  · rename_i short
    rw [Nat.div_eq_of_lt short, Nat.mod_eq_of_lt short, Nat.toDigits_zero]
    obtain ⟨k, rfl⟩ : ∃ k, width = k + 1 := ⟨width - 1, by omega⟩
    simp [List.replicate_succ']
  · rw [List.length_append, List.length_singleton, Nat.add_sub_add_right, List.append_assoc]

theorem padDigits_one {base n : Nat} (short : n < base) :
    (Text.padDigits base 1 n).toList = [Nat.digitChar n] := by
  unfold Text.padDigits
  rw [String.toList_ofList, Nat.toDigits_of_lt_base short]
  rfl

theorem hexValue_digitChar {n : Nat} (short : n < 16) : hexValue? (Nat.digitChar n) = some n := by
  interval_cases n <;> rfl

/-- The escape of a code unit is read as that unit. -/
theorem stringUnits_unitEscape {unit : Nat} (small : unit < 0x10000) (rest : List Char) :
    stringUnits (unitEscape unit ++ rest) =
      (stringUnits rest).map fun (units, after) => (unit :: units, after) := by
  have digits : (Text.padDigits 16 4 unit).toList =
      [Nat.digitChar (unit / 16 / 16 / 16), Nat.digitChar (unit / 16 / 16 % 16),
        Nat.digitChar (unit / 16 % 16), Nat.digitChar (unit % 16)] := by
    rw [padDigits_succ (by decide) (by decide), padDigits_succ (by decide) (by decide),
      padDigits_succ (by decide) (by decide), padDigits_one (by omega)]
    rfl
  have value : hex4? (Nat.digitChar (unit / 16 / 16 / 16)) (Nat.digitChar (unit / 16 / 16 % 16))
      (Nat.digitChar (unit / 16 % 16)) (Nat.digitChar (unit % 16)) = some unit := by
    unfold hex4?
    rw [hexValue_digitChar (by omega), hexValue_digitChar (by omega), hexValue_digitChar (by omega),
      hexValue_digitChar (by omega)]
    simp only [bind, Option.bind, pure]
    congr 1
    omega
  rw [unitEscape, digits]
  simp only [List.cons_append, List.nil_append, stringUnits, value]
  cases stringUnits rest <;> rfl

/-! ## Characters and their code units -/

theorem char_range (c : Char) :
    c.toNat < 0xD800 ∨ 0xDFFF < c.toNat ∧ c.toNat < 0x110000 := c.valid

/-- The code units of a character: one, or a high and a low half. -/
def codeUnits (c : Char) : List Nat :=
  if c.toNat < 0x10000 then [c.toNat]
  else [0xD800 + (c.toNat - 0x10000) / 0x400, 0xDC00 + (c.toNat - 0x10000) % 0x400]

/-- An escape of two characters is read as the code unit it stands for. -/
private theorem stringUnits_short {mark c : Char} (stands : shortEscape? mark = some c)
    (rest : List Char) : stringUnits ('\\' :: mark :: rest) =
      (stringUnits rest).map fun (units, after) => (c.toNat :: units, after) := by
  have differs : mark ≠ 'u' := by
    rintro rfl
    cases stands
  rw [stringUnits, stands]
  · cases stringUnits rest <;> rfl
  · intro _ _ _ _ _ same
    exact absurd same differs

/-- A character that stands for itself is read as such. -/
private theorem stringUnits_self {c : Char} (quote : c ≠ '"') (escape : c ≠ '\\')
    (visible : 32 ≤ c.toNat) (rest : List Char) : stringUnits (c :: rest) =
      (stringUnits rest).map fun (units, after) => (c.toNat :: units, after) := by
  have unescaped : (decide (c.toNat < 32) || c == '\\') = false := by
    simp only [Bool.or_eq_false_iff, decide_eq_false_iff_not, beq_eq_false_iff_ne]
    exact ⟨not_lt.mpr visible, escape⟩
  rw [stringUnits, unescaped, if_neg Bool.false_ne_true]
  · exact quote
  · intro _ _ _ _ _ same
    exact absurd same escape
  · exact fun _ _ same => absurd same escape

theorem stringUnits_writeChar (c : Char) (rest : List Char) :
    stringUnits (writeChar c ++ rest) =
      (stringUnits rest).map fun (units, after) => (codeUnits c ++ units, after) := by
  have one : c.toNat < 0x10000 → codeUnits c = [c.toNat] := fun small => if_pos small
  unfold writeChar
  split
  case h_8 quote escape _ _ _ _ _ =>
    split_ifs with visible plain
    · rw [one (by omega)]
      exact stringUnits_self quote escape visible.1 rest
    · rw [one plain]
      exact stringUnits_unitEscape plain rest
    · have range := char_range c
      rw [List.append_assoc, stringUnits_unitEscape (by omega), stringUnits_unitEscape (by omega),
        codeUnits, if_neg plain]
      cases stringUnits rest <;> rfl
  all_goals exact stringUnits_short rfl rest

theorem joinUnits_codeUnits (c : Char) (units : List Nat) :
    joinUnits (codeUnits c ++ units) = c :: joinUnits units := by
  have range := char_range c
  unfold codeUnits
  by_cases plain : c.toNat < 0x10000
  · rw [if_pos plain, List.singleton_append]
    cases units with
    | nil => simp only [joinUnits, Char.ofNat_toNat]
    | cons low others =>
      rw [joinUnits, if_neg (by omega), Char.ofNat_toNat]
  · have value : 0x10000 + (0xD800 + (c.toNat - 0x10000) / 0x400 - 0xD800) * 0x400 +
        (0xDC00 + (c.toNat - 0x10000) % 0x400 - 0xDC00) = c.toNat := by omega
    rw [if_neg plain, List.cons_append, List.singleton_append, joinUnits, if_pos (by omega), value,
      Char.ofNat_toNat]

/-- What is written for a string reads back, and what follows the closing quote remains. -/
theorem readString_writeString (s : String) (rest : List Char) :
    readString (s.toList.flatMap writeChar ++ '"' :: rest) = some (s, rest) := by
  have units : stringUnits (s.toList.flatMap writeChar ++ '"' :: rest) =
      some (s.toList.flatMap codeUnits, rest) := by
    induction s.toList with
    | nil => rfl
    | cons c cs ih =>
      rw [List.flatMap_cons, List.append_assoc, stringUnits_writeChar, ih]
      rfl
  have joined : joinUnits (s.toList.flatMap codeUnits) = s.toList := by
    induction s.toList with
    | nil => rfl
    | cons c cs ih => rw [List.flatMap_cons, joinUnits_codeUnits, ih]
  rw [readString, units, Option.map_some]
  simp only [joined, String.ofList_toList]

end PocketShell.Json
