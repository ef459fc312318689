import Mathlib.Data.List.DropRight
import PocketShell.Log.Buffer

/-! What a buffer recalls. However many entries it has heard, it holds the last of them, as many as
its capacity allows, and a query gives the last of those that match. Only a query for no entries is
answered with all that match. -/
namespace PocketShell.Log

variable {α : Type} {entry : Entry} {level subsystem : Option String} {buffer : Buffer}

/-! ## The last elements of a list -/

@[simp] theorem lastOf_zero (xs : List α) : lastOf 0 xs = xs := rfl

theorem lastOf_natCast {count : Nat} (positive : 0 < count) (xs : List α) :
    lastOf count xs = xs.rtake count := by
  rw [lastOf, if_pos (by omega), Int.toNat_natCast, List.rtake]

theorem rtake_of_length_le {count : Nat} {xs : List α} (fits : xs.length ≤ count) :
    xs.rtake count = xs := by
  rw [List.rtake, Nat.sub_eq_zero_of_le fits, List.drop_zero]

/-- To keep the last elements and go on is to go on and keep the last elements. -/
theorem rtake_rtake_concat (count : Nat) (xs : List α) (x : α) :
    (xs.rtake count ++ [x]).rtake count = (xs ++ [x]).rtake count := by
  cases count with
  | zero => simp
  | succ count =>
    rw [List.rtake_concat_succ, List.rtake_concat_succ]
    simp [List.rtake_eq_reverse_take_reverse, List.take_take]

theorem rtake_min_length (count : Nat) (xs : List α) :
    xs.rtake (min count xs.length) = xs.rtake count := by
  rw [List.rtake, List.rtake]
  congr 1
  omega

/-! ## What is held -/

namespace Buffer

/-- The buffer after entries that come one by one. -/
def hear (entries : List Entry) (buffer : Buffer) : Buffer :=
  entries.foldl (fun buffer entry => buffer.emit entry) buffer

@[simp] theorem capacity_emit (entry : Entry) (buffer : Buffer) :
    (buffer.emit entry).capacity = buffer.capacity := by
  unfold emit
  dsimp only
  split <;> rfl

/-- A buffer of some capacity that holds the last entries of what it was told. -/
structure Recalls (capacity : Nat) (told : List Entry) (buffer : Buffer) : Prop where
  capacity_eq : buffer.capacity = capacity
  entries_eq : buffer.entries = told.rtake capacity

theorem recalls_empty (capacity : Nat) : Recalls capacity [] (empty capacity) :=
  ⟨rfl, (List.rtake_nil capacity).symm⟩

/-- One more entry pushes out the oldest one if the buffer is full. -/
theorem Recalls.emit {capacity : Nat} {told : List Entry} (positive : 0 < capacity)
    (recalls : Recalls capacity told buffer) (entry : Entry) :
    Recalls capacity (told ++ [entry]) (buffer.emit entry) := by
  refine ⟨(capacity_emit entry buffer).trans recalls.capacity_eq, ?_⟩
  rw [← rtake_rtake_concat, ← recalls.entries_eq, Buffer.emit]
  split
  · rw [recalls.capacity_eq, lastOf_natCast positive]
  · rename_i fits
    rw [recalls.capacity_eq, Int.not_lt, Int.ofNat_le] at fits
    exact (rtake_of_length_le fits).symm

theorem Recalls.hear {capacity : Nat} {told : List Entry} (positive : 0 < capacity)
    (recalls : Recalls capacity told buffer) (entries : List Entry) :
    Recalls capacity (told ++ entries) (buffer.hear entries) := by
  induction entries generalizing told buffer with
  | nil => simpa [Buffer.hear] using recalls
  | cons entry entries ih =>
    have later := ih (recalls.emit positive entry)
    rwa [List.append_assoc, List.singleton_append] at later

end Buffer

/-! ## Queries -/

/-- The entry has the level and comes from the subsystem that a query names. What is not given, or
given as an empty text, is no name. -/
@[mk_iff]
structure Entry.Matches (level subsystem : Option String) (entry : Entry) : Prop where
  level_eq : ∀ name ∈ level, name ≠ "" → entry.level = name
  subsystem_eq : ∀ name ∈ subsystem, name ≠ "" → entry.subsystem = some (.string name)

theorem isText_iff {name : String} {value : Json} :
    value.isText name = true ↔ value = .string name := by
  cases value <;> simp [Json.isText]

theorem answers_iff :
    Buffer.answers level subsystem entry = true ↔ entry.Matches level subsystem := by
  have named (name : String) (found : Option Json) :
      (name.isEmpty || found.any (·.isText name)) = true ↔
        (name ≠ "" → found = some (.string name)) := by
    cases found <;> simp [isText_iff, or_iff_not_imp_left]
  unfold Buffer.answers
  rw [Bool.and_eq_true, Entry.matches_iff]
  refine and_congr ?_ ?_
  · cases level with
    | none => simp
    | some name => simpa using named name (some (.string entry.level))
  · cases subsystem with
    | none => simp
    | some name => simpa using named name entry.subsystem

instance (level subsystem : Option String) (entry : Entry) :
    Decidable (entry.Matches level subsystem) :=
  decidable_of_iff _ answers_iff

/-- The entries that match a query among the last as many of those told as the capacity. -/
def matching (capacity : Nat) (level subsystem : Option String) (told : List Entry) : List Entry :=
  (told.rtake capacity).filter fun entry => entry.Matches level subsystem

private theorem Buffer.Recalls.query_eq {capacity : Nat} {told : List Entry}
    (recalls : Recalls capacity told buffer) (limit : Int) :
    buffer.query level subsystem limit = lastOf limit (matching capacity level subsystem told) := by
  rw [Buffer.query, recalls.entries_eq, matching]
  congr 2
  funext entry
  rw [Bool.eq_iff_iff, answers_iff, decide_eq_true_iff]

/-- The answer to a query is the last of the matching entries, in their order and as many as the
limit allows, unless none are asked for: then it is all of them. -/
theorem query_recalls_iff {capacity : Nat} (positive : 1 ≤ capacity) (told : List Entry)
    (level subsystem : Option String) (limit : Nat) :
    let held := matching capacity level subsystem told
    let answer := ((Buffer.empty capacity).hear told).query level subsystem limit
    (answer = held.rtake (min limit held.length) ↔ limit = 0 → held = []) ∧
      (limit = 0 → answer = held) := by
  intro held answer
  have recalled : answer = lastOf limit held :=
    ((Buffer.recalls_empty capacity).hear positive told).query_eq limit
  rw [recalled, rtake_min_length]
  rcases Nat.eq_zero_or_pos limit with rfl | asked
  · simp
  · rw [lastOf_natCast asked]
    simp [asked.ne']

/-- Of three entries a buffer for two has lost the first; a query for notices finds the second. -/
theorem query_recalls_notice :
    let told : List Entry := [.of .notice "vfs" "first" [], .of .notice "vfs" "second" [],
      .of .debug "labs" "third" []]
    1 ≤ 2 ∧ ((Buffer.empty 2).hear told).query (some "NOTICE") none 5 =
      [.of .notice "vfs" "second" []] := by
  intro told
  have positive : 1 ≤ 2 := by decide
  have recalled := (query_recalls_iff positive told (some "NOTICE") none 5).1.mpr nofun
  exact ⟨positive, recalled⟩

/-- A query for no entries is answered with the entry that the buffer holds. -/
theorem all_recalled_for_none :
    let entry : Entry := .of .notice "vfs" "only" []
    ((Buffer.empty 1).hear [entry]).query none none 0 = [entry] ∧
      (matching 1 none none [entry]).rtake 0 = [] :=
  ⟨rfl, rfl⟩

end PocketShell.Log
