import Mathlib.Data.List.Nodup
import Mathlib.Data.List.TakeWhile
import PocketShell.Proofs.Number.Digits
import PocketShell.Proofs.Number.Rounding
import PocketShell.Proofs.Outcomes

/-! What is read from a text. Whole numbers are not too long, fractions are rounded to doubles, a
member written twice replaces the first, and brackets do not nest too deep; this holds at every
depth of what the reader gives back. So no object in it names a member twice, at any depth of
objects within objects. -/
namespace PocketShell.Json

open Decimal Binary64

variable {levels : ℕ} {name : String} {value : Json} {members : List (String × Json)}
  {rest cs : List Char}

/-- What the reader can give back: numbers that are not too long, doubles, objects that name a
member once, and no more than some levels of arrays and objects. -/
inductive Readable : (levels : ℕ) → Json → Prop
  | null {levels : ℕ} : Readable levels .null
  | bool {levels : ℕ} (b : Bool) : Readable levels (.bool b)
  | int {levels : ℕ} {i : ℤ} (short : digitCount i.natAbs ≤ Text.maxDigits) :
      Readable levels (.int i)
  | float {levels : ℕ} {x : Binary64} (proper : x.Proper) : Readable levels (.float x)
  | string {levels : ℕ} (s : String) : Readable levels (.string s)
  | array {levels : ℕ} {items : List Json} (each : ∀ item ∈ items, Readable levels item) :
      Readable (levels + 1) (.array items)
  | object {levels : ℕ} {members : List (String × Json)} (once : (members.map (·.1)).Nodup)
      (each : ∀ member ∈ members, Readable levels member.2) : Readable (levels + 1) (.object members)

@[simp] theorem readable_null : Readable levels .null := .null

@[simp] theorem readable_bool (b : Bool) : Readable levels (.bool b) := .bool b

@[simp] theorem readable_string (s : String) : Readable levels (.string s) := .string s

@[simp] theorem readable_int_iff {i : ℤ} :
    Readable levels (.int i) ↔ digitCount i.natAbs ≤ Text.maxDigits :=
  ⟨fun readable => by cases readable; assumption, .int⟩

@[simp] theorem readable_float_iff {x : Binary64} : Readable levels (.float x) ↔ x.Proper :=
  ⟨fun readable => by cases readable; assumption, .float⟩

@[simp] theorem readable_array_iff {items : List Json} :
    Readable (levels + 1) (.array items) ↔ ∀ item ∈ items, Readable levels item :=
  ⟨fun readable => by cases readable; assumption, .array⟩

@[simp] theorem readable_object_iff : Readable (levels + 1) (.object members) ↔
    (members.map (·.1)).Nodup ∧ ∀ member ∈ members, Readable levels member.2 :=
  ⟨fun readable => by cases readable; exact ⟨by assumption, by assumption⟩,
    fun ⟨once, each⟩ => .object once each⟩

/-! ## Members -/

/-- Members that an object may have. -/
private def Sound (levels : ℕ) (members : List (String × Json)) : Prop :=
  (members.map (·.1)).Nodup ∧ ∀ member ∈ members, Readable levels member.2

private theorem mem_insertMember {other : String} {held : Json}
    (member : (other, held) ∈ insertMember name value members) :
    (other = name ∧ held = value) ∨ (other, held) ∈ members := by
  induction members with
  | nil =>
    simp only [insertMember, List.mem_singleton, Prod.mk.injEq] at member
    exact .inl member
  | cons pair tail ih =>
    obtain ⟨first, firstValue⟩ := pair
    unfold insertMember at member
    split at member
    · rename_i same
      rcases List.mem_cons.mp member with new | further
      · cases new
        exact .inl ⟨same, rfl⟩
      · exact .inr (List.mem_cons_of_mem _ further)
    · rcases List.mem_cons.mp member with here | further
      · exact .inr (here ▸ List.mem_cons_self)
      · rcases ih further with new | before
        · exact .inl new
        · exact .inr (List.mem_cons_of_mem _ before)

private theorem sound_insertMember (name : String) (sound : Sound levels members)
    (readable : Readable levels value) : Sound levels (insertMember name value members) := by
  constructor
  · have once := sound.1
    clear sound
    induction members with
    | nil => simp [insertMember]
    | cons pair tail ih =>
      obtain ⟨first, firstValue⟩ := pair
      rw [List.map_cons, List.nodup_cons] at once
      unfold insertMember
      split
      · simpa using once
      · rename_i differs
        rw [List.map_cons, List.nodup_cons]
        refine ⟨?_, ih once.2⟩
        intro again
        obtain ⟨⟨other, held⟩, member, same⟩ := List.mem_map.mp again
        rcases mem_insertMember member with ⟨new, -⟩ | before
        · exact differs (same.symm.trans new)
        · exact once.1 (List.mem_map.mpr ⟨_, before, same⟩)
  · rintro ⟨other, held⟩ member
    rcases mem_insertMember member with ⟨-, rfl⟩ | before
    · exact readable
    · exact sound.2 _ before

/-! ## Numbers -/

private theorem digits_of_spanDigits : ∀ c ∈ (spanDigits cs).1, c.isDigit = true := by
  unfold spanDigits
  rw [List.span_eq_takeWhile_dropWhile]
  exact fun c member => List.mem_takeWhile_imp member

theorem ofDecimal_proper (negative : Bool) (n : ℕ) (exponent : ℤ) :
    (ofDecimal negative n exponent).Proper := by
  rw [ofDecimal_eq]
  exact round_proper negative _

private theorem readable_natCast (negative : Bool) {ds : List Char}
    (digits : ∀ c ∈ ds, c.isDigit = true) (short : ds.length ≤ Text.maxDigits) :
    Readable levels (.int (if negative then -(digitsToNat ds : ℤ) else digitsToNat ds)) := by
  have bound : digitsToNat ds < 10 ^ Text.maxDigits :=
    lt_of_lt_of_le (digitsToNat_lt digits) (Nat.pow_le_pow_right (by decide) short)
  have count := digitCount_le (by decide) bound
  cases negative <;> exact .int (by simpa using count)

private theorem numberOf_readable {negative : Bool} {ds fs : List Char}
    (digits : ∀ c ∈ ds, c.isDigit = true)
    (ran : numberOf negative ds fs cs = .ok (value, rest)) : Readable levels value := by
  unfold numberOf at ran
  simp only at ran
  split at ran
  · split at ran
    · cases ran
    · cases ran
      exact readable_natCast negative digits (by omega)
  · cases ran
    exact .float (ofDecimal_proper negative _ _)

private theorem readNumber_readable {negative : Bool}
    (ran : readNumber negative cs = .ok (value, rest)) : Readable levels value := by
  unfold readNumber at ran
  simp only at ran
  split at ran
  · rename_i after
    have number : numberOf negative ['0'] (pointDigits after).1 (pointDigits after).2 =
      .ok (value, rest) := ran
    exact numberOf_readable (fun _ => isDigit_of_mem_zero) number
  · split at ran
    · cases ran
    · have number : numberOf negative (spanDigits cs).1 (pointDigits (spanDigits cs).2).1
        (pointDigits (spanDigits cs).2).2 = .ok (value, rest) := ran
      exact numberOf_readable digits_of_spanDigits number

/-! ## Values -/

private theorem nested_ok {α : Type} {read : ℕ → Except ReadError α} {result : α}
    (ran : nested levels read = .ok result) : ∃ less, levels = less + 1 ∧ read less = .ok result := by
  cases levels with
  | zero => cases ran
  | succ levels => exact ⟨levels, rfl, ran⟩

/-- What one run of the reader with some fuel gives back is readable. -/
private structure Sane (fuel : ℕ) : Prop where
  value : ∀ {levels cs value rest}, readValue fuel levels cs = .ok (value, rest) →
    Readable levels value
  items : ∀ {levels cs items rest}, readItems fuel levels cs = .ok (items, rest) →
    ∀ item ∈ items, Readable levels item
  members : ∀ {levels before cs after rest}, Sound levels before →
    readMembers fuel levels before cs = .ok (after, rest) → Sound levels after

private theorem readItems_sound {fuel : ℕ} (less : Sane fuel) {items : List Json}
    (ran : readItems (fuel + 1) levels cs = .ok (items, rest)) :
    ∀ item ∈ items, Readable levels item := by
  unfold readItems at ran
  obtain ⟨⟨item, behind⟩, first, ran⟩ := bind_eq_ok.mp ran
  have here := less.value first
  simp only at ran
  split at ran
  · cases ran
    simpa using here
  · obtain ⟨⟨others, after⟩, further, ran⟩ := bind_eq_ok.mp ran
    cases ran
    exact List.forall_mem_cons.mpr ⟨here, less.items further⟩
  · cases ran

private theorem readMembers_sound {fuel : ℕ} (less : Sane fuel)
    {before after : List (String × Json)} (sound : Sound levels before)
    (ran : readMembers (fuel + 1) levels before cs = .ok (after, rest)) : Sound levels after := by
  unfold readMembers at ran
  split at ran
  case h_2 => cases ran
  split at ran
  · cases ran
  rename_i name behind _
  split at ran
  case h_2 => cases ran
  rename_i text _
  obtain ⟨⟨value, remaining⟩, first, ran⟩ := bind_eq_ok.mp ran
  have more := sound_insertMember name sound (less.value first)
  simp only at ran
  split at ran
  · cases ran
    exact more
  · exact less.members more ran
  · cases ran

private theorem readValue_sound {fuel : ℕ} (less : Sane fuel)
    (ran : readValue (fuel + 1) levels cs = .ok (value, rest)) : Readable levels value := by
  unfold readValue at ran
  split at ran
  case h_1 =>
    split at ran
    · cases ran
      exact .string _
    · cases ran
  case h_2 =>
    obtain ⟨levels, rfl, ran⟩ := nested_ok ran
    split at ran
    · cases ran
      exact .array (by simp)
    · obtain ⟨⟨items, after⟩, read, same⟩ := map_eq_ok.mp ran
      cases same
      exact .array (less.items read)
  case h_3 =>
    obtain ⟨levels, rfl, ran⟩ := nested_ok ran
    split at ran
    · cases ran
      exact .object (by simp) (by simp)
    · obtain ⟨⟨members, after⟩, read, same⟩ := map_eq_ok.mp ran
      cases same
      obtain ⟨once, each⟩ := less.members ⟨by simp, by simp⟩ read
      exact .object once each
  case h_4 =>
    cases ran
    exact .null
  case h_5 =>
    cases ran
    exact .bool true
  case h_6 =>
    cases ran
    exact .bool false
  case h_10 => exact readNumber_readable ran
  case h_11 => exact readNumber_readable ran
  all_goals
    cases ran
    exact .float trivial

private theorem sane (fuel : ℕ) : Sane fuel := by
  induction fuel with
  | zero =>
    constructor
    · intro levels cs value rest ran
      unfold readValue at ran
      cases ran
    · intro levels cs items rest ran
      unfold readItems at ran
      cases ran
    · intro levels before cs after rest sound ran
      unfold readMembers at ran
      cases ran
  | succ fuel less =>
    exact ⟨readValue_sound less, readItems_sound less, readMembers_sound less⟩

/-- Whatever is read is readable. -/
theorem read_readable {text : String} (ran : read text = .ok value) :
    Readable nestingLimit value := by
  unfold read at ran
  obtain ⟨⟨found, remaining⟩, first, ran⟩ := bind_eq_ok.mp ran
  simp only at ran
  split at ran
  · cases ran
    exact (sane _).value first
  · cases ran

/-! ## Keys of objects -/

/-- No object names a member twice, and neither do the objects among its members. -/
inductive Keyed : Json → Prop
  | other {value : Json} (other : ∀ members, value ≠ .object members) : Keyed value
  | object {members : List (String × Json)} (once : (members.map (·.1)).Nodup)
      (each : ∀ name value, (name, value) ∈ members → Keyed value) : Keyed (.object members)

theorem Readable.keyed (readable : Readable levels value) : Keyed value := by
  induction readable with
  | object once each ih => exact .object once fun name value member => ih (name, value) member
  | _ => exact .other (by simp)

/-- In what is read from a text every object names a member once. -/
theorem read_keyed {text : String} (ran : read text = .ok value) : Keyed value :=
  (read_readable ran).keyed

/-- The members of an object are themselves keyed. -/
theorem Keyed.member (keyed : Keyed (.object members)) (found : members.lookup name = some value) :
    Keyed value := by
  cases keyed with
  | other other => exact absurd rfl (other members)
  | object once each =>
    obtain ⟨before, after, rfl, -⟩ := List.lookup_eq_some_iff.mp found
    exact each name value (by simp)

theorem Keyed.once (keyed : Keyed (.object members)) : (members.map (·.1)).Nodup := by
  cases keyed with
  | other other => exact absurd rfl (other members)
  | object once each => exact once

end PocketShell.Json
