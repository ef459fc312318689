import PocketShell.Proofs.Json.Readable
import PocketShell.Proofs.Json.Strings
import PocketShell.Proofs.Number.Shortest

/-! Structured data that is written reads back. The reader takes a value from the front of a text and
leaves what follows it, so what is proved by induction over the value speaks of the text of the
value with any text behind that can follow a value. -/
namespace PocketShell.Json

open Decimal Binary64

variable {fuel levels : ℕ} {value : Json} {cs rest : List Char}

/-! ## Numbers -/

/-- A number begins with a digit. -/
private theorem readNumber_head {negative : Bool} {found : Json × List Char}
    (ran : readNumber negative cs = .ok found) : ∃ c tail, cs = c :: tail ∧ c.isDigit = true := by
  cases cs with
  | nil => cases ran
  | cons c tail =>
    refine ⟨c, tail, rfl, ?_⟩
    by_contra other
    have differs : c ≠ '0' := by
      rintro rfl
      exact other rfl
    have spans : spanDigits ([] ++ c :: tail) = ([], c :: tail) :=
      spanDigits_append (by simp) (by simpa [NoDigit] using other)
    rw [List.nil_append] at spans
    unfold readNumber at ran
    simp [differs, spans] at ran

/-- What begins with a digit is a number. -/
private theorem readValue_of_readNumber {found : Json × List Char}
    (ran : readNumber false cs = .ok found) : readValue (fuel + 1) levels cs = .ok found := by
  obtain ⟨c, tail, rfl, digit⟩ := readNumber_head ran
  rw [← ran, readValue.eq_def]
  simp only
  split
  case h_11 => rfl
  all_goals
    rename_i same
    rw [(List.cons.inj same).1] at digit
    exact absurd digit (by decide)

/-- So is what begins with a minus sign and a digit. -/
private theorem readValue_of_negative {found : Json × List Char}
    (ran : readNumber true cs = .ok found) :
    readValue (fuel + 1) levels ('-' :: cs) = .ok found := by
  obtain ⟨c, tail, rfl, digit⟩ := readNumber_head ran
  rw [← ran, readValue.eq_def]
  simp only
  split
  case h_9 rest same =>
    cases same
    exact absurd digit (by decide)
  case h_10 rest _ same =>
    cases same
    rfl
  case h_11 other => exact absurd rfl (other (c :: tail))
  all_goals
    rename_i same
    exact absurd (List.cons.inj same).1 (by decide)

private theorem toList_toString (n : ℕ) : (toString n).toList = Nat.toDigits 10 n := by
  rw [Nat.toString_eq_ofList_toDigits, String.toList_ofList]

private theorem readValue_int {i : ℤ} (short : digitCount i.natAbs ≤ Text.maxDigits)
    (closes : Closes rest) :
    readValue (fuel + 1) levels ((toString i).toList ++ rest) = .ok (.int i, rest) := by
  have read (negative : Bool) := readNumber_whole negative (whole_toDigits i.natAbs) short closes
  rw [digitsToNat_toDigits] at read
  cases i with
  | ofNat n =>
    have text : (toString (Int.ofNat n)).toList = Nat.toDigits 10 n := toList_toString n
    rw [text]
    exact readValue_of_readNumber (read false)
  | negSucc n =>
    have text : (toString (Int.negSucc n)).toList = '-' :: Nat.toDigits 10 (n + 1) := by
      rw [← toList_toString]
      exact String.toList_append
    rw [text, List.cons_append]
    exact readValue_of_negative (read true)

private theorem readValue_float {x : Binary64} (proper : x.Proper) (closes : Closes rest) :
    readValue (fuel + 1) levels ((writeFloat x).toList ++ rest) = .ok (.float x, rest) := by
  cases x with
  | nan => rfl
  | infinity negative => cases negative <;> rfl
  | finite negative significand exponent =>
    have read := readNumber_shortest negative proper closes
    unfold writeFloat Binary64.toText
    cases negative with
    | false =>
      simpa using readValue_of_readNumber read
    | true =>
      simpa using readValue_of_negative read

/-! ## Arrays and objects -/

@[simp] private theorem skipSpacing_cons {c : Char} (visible : isSpacing c = false) :
    skipSpacing (c :: cs) = c :: cs := by
  simp [skipSpacing, visible]

/-- A value begins with neither a blank nor a closing bracket. -/
private theorem readValue_head {found : Json × List Char}
    (ran : readValue fuel levels cs = .ok found) :
    ∃ c tail, cs = c :: tail ∧ isSpacing c = false ∧ c ≠ ']' := by
  cases fuel with
  | zero =>
    unfold readValue at ran
    cases ran
  | succ fuel =>
    cases cs with
    | nil =>
      unfold readValue at ran
      cases ran
    | cons c tail =>
      have refused : isSpacing c = true ∨ c = ']' → False := by
        intro closing
        have plain : readValue (fuel + 1) levels (c :: tail) = readNumber false (c :: tail) := by
          unfold isSpacing at closing
          simp only [Bool.or_eq_true, beq_iff_eq, or_assoc] at closing
          rcases closing with rfl | rfl | rfl | rfl | rfl <;> rw [readValue.eq_def] <;> rfl
        rw [plain] at ran
        obtain ⟨d, others, same, digit⟩ := readNumber_head ran
        cases same
        unfold isSpacing at closing
        simp only [Bool.or_eq_true, beq_iff_eq, or_assoc] at closing
        rcases closing with rfl | rfl | rfl | rfl | rfl <;> exact absurd digit (by decide)
      refine ⟨c, tail, rfl, ?_, fun same => refused (.inr same)⟩
      exact Bool.eq_false_iff.mpr fun blank => refused (.inl blank)

/-- The text of a value is read as that value, with whatever can follow it left. -/
def ReadsBack (levels : ℕ) (value : Json) : Prop :=
  ∀ fuel rest, (write value).toList.length ≤ fuel → Closes rest →
    readValue fuel levels ((write value).toList ++ rest) = .ok (value, rest)

/-- The text of a value that reads back is not taken for a blank or the end of an array. -/
private theorem ReadsBack.head (back : ReadsBack levels value) (rest : List Char) :
    ∃ c tail, (write value).toList ++ rest = c :: tail ∧ isSpacing c = false ∧ c ≠ ']' := by
  have read := back _ [] (le_refl _) (by simp [Closes])
  rw [List.append_nil] at read
  obtain ⟨c, tail, text, visible, inside⟩ := readValue_head read
  exact ⟨c, tail ++ rest, by rw [text, List.cons_append], visible, inside⟩

private theorem ReadsBack.skipSpacing (back : ReadsBack levels value) (rest : List Char) :
    skipSpacing (' ' :: ((write value).toList ++ rest)) = (write value).toList ++ rest := by
  obtain ⟨c, tail, text, visible, -⟩ := back.head rest
  rw [text]
  exact skipSpacing_cons visible

private theorem closes_cons {c : Char} (closing : c = ',' ∨ c = ']' ∨ c = '\x7d') :
    Closes (c :: rest) := by
  intro d first
  cases first
  exact closing

/-- The text of an item and what stands before the next one. -/
private theorem writeItems_cons (item next : Json) (others : List Json) :
    (writeItems (item :: next :: others)).toList =
      (write item).toList ++ ',' :: ' ' :: (writeItems (next :: others)).toList := by
  rw [writeItems, String.toList_append, String.toList_append, List.append_assoc]
  · rfl
  · simp

/-- The text of items begins with that of the first. -/
private theorem writeItems_front (item : Json) (others : List Json) :
    ∃ more, (writeItems (item :: others)).toList = (write item).toList ++ more := by
  cases others with
  | nil => exact ⟨[], by rw [writeItems, List.append_nil]⟩
  | cons next others => exact ⟨_, writeItems_cons item next others⟩

private theorem readItems_write {items : List Json} (some : items ≠ [])
    (each : ∀ item ∈ items, ReadsBack levels item) (rest : List Char)
    (enough : (writeItems items).toList.length < fuel) :
    readItems fuel levels ((writeItems items).toList ++ ']' :: rest) = .ok (items, rest) := by
  induction items generalizing fuel with
  | nil => exact absurd rfl some
  | cons item others ih =>
    obtain ⟨fuel, rfl⟩ : ∃ more, fuel = more + 1 := ⟨fuel - 1, by omega⟩
    have back := each item List.mem_cons_self
    cases others with
    | nil =>
      rw [writeItems] at enough ⊢
      rw [readItems, back fuel _ (by omega) (closes_cons (.inr (.inl rfl)))]
      rfl
    | cons next others =>
      rw [writeItems_cons, List.length_append, List.length_cons, List.length_cons] at enough
      have further : readItems fuel levels ((writeItems (next :: others)).toList ++ ']' :: rest) =
          .ok (next :: others, rest) :=
        ih (by simp) (fun item member => each item (List.mem_cons_of_mem _ member)) (by omega)
      have visible : skipSpacing (' ' :: ((writeItems (next :: others)).toList ++ ']' :: rest)) =
          (writeItems (next :: others)).toList ++ ']' :: rest := by
        obtain ⟨more, front⟩ := writeItems_front next others
        rw [front, List.append_assoc]
        exact (each next (by simp)).skipSpacing _
      rw [writeItems_cons, List.append_assoc, List.cons_append, List.cons_append, readItems,
        back fuel _ (by omega) (closes_cons (.inl rfl))]
      change ((readItems fuel levels
        (skipSpacing (' ' :: ((writeItems (next :: others)).toList ++ ']' :: rest)))).bind
          fun read => .ok (item :: read.1, read.2)) = _
      rw [visible, further]
      rfl

variable {name : String} {members before : List (String × Json)}

theorem insertMember_of_notMem (absent : name ∉ before.map (·.1)) :
    insertMember name value before = before ++ [(name, value)] := by
  induction before with
  | nil => rfl
  | cons pair others ih =>
    obtain ⟨first, held⟩ := pair
    rw [List.map_cons, List.mem_cons, not_or] at absent
    rw [insertMember, if_neg (Ne.symm absent.1), ih absent.2, List.cons_append]

/-- The text of a member after the quote that opens its name. -/
private def memberText (name : String) (value : Json) : List Char :=
  name.toList.flatMap writeChar ++ '"' :: ':' :: ' ' :: (write value).toList

private theorem writeMembers_single (name : String) (value : Json) :
    (writeMembers [(name, value)]).toList = '"' :: memberText name value := by
  simp [writeMembers, writeString, memberText]

private theorem writeMembers_cons (name : String) (value : Json) (next : String × Json)
    (others : List (String × Json)) : (writeMembers ((name, value) :: next :: others)).toList =
      '"' :: (memberText name value ++ ',' :: ' ' :: (writeMembers (next :: others)).toList) := by
  simp [writeMembers, writeString, memberText]

private theorem quote_visible : isSpacing '"' = false := rfl

/-- The text of members begins with a quote. -/
private theorem writeMembers_front (member : String × Json) (others : List (String × Json)) :
    ∃ more, (writeMembers (member :: others)).toList = '"' :: more := by
  obtain ⟨name, value⟩ := member
  cases others with
  | nil => exact ⟨_, writeMembers_single name value⟩
  | cons next others => exact ⟨_, writeMembers_cons name value next others⟩

/-- One member is read, and then what follows decides. -/
private theorem readMembers_step (back : ReadsBack levels value)
    (enough : (memberText name value).length ≤ fuel) (closes : Closes rest) :
    readMembers (fuel + 1) levels before ('"' :: (memberText name value ++ rest)) =
      match skipSpacing rest with
      | '\x7d' :: rest => .ok (insertMember name value before, rest)
      | ',' :: rest =>
        readMembers fuel levels (insertMember name value before) (skipSpacing rest)
      | _ => .error .malformed := by
  have text : memberText name value ++ rest =
      name.toList.flatMap writeChar ++ '"' :: ':' :: ' ' :: ((write value).toList ++ rest) := by
    simp [memberText]
  have short : (write value).toList.length ≤ fuel := by
    unfold memberText at enough
    simp only [List.length_append, List.length_cons] at enough
    omega
  have colon : ∀ cs, skipSpacing (':' :: cs) = ':' :: cs := fun cs => skipSpacing_cons rfl
  rw [text, readMembers]
  simp only [readString_writeString, colon, back.skipSpacing]
  rw [back fuel rest short closes]
  rfl

private theorem readMembers_write (some : members ≠ [])
    (once : ((before ++ members).map (·.1)).Nodup)
    (each : ∀ member ∈ members, ReadsBack levels member.2) (rest : List Char)
    (enough : (writeMembers members).toList.length < fuel) :
    readMembers fuel levels before ((writeMembers members).toList ++ '\x7d' :: rest) =
      .ok (before ++ members, rest) := by
  induction members generalizing before fuel with
  | nil => exact absurd rfl some
  | cons member others ih =>
    obtain ⟨name, value⟩ := member
    obtain ⟨fuel, rfl⟩ : ∃ more, fuel = more + 1 := ⟨fuel - 1, by omega⟩
    have back : ReadsBack levels value := each (name, value) List.mem_cons_self
    have absent : name ∉ before.map (·.1) := by
      rw [List.map_append, List.nodup_append] at once
      intro earlier
      exact once.2.2 name earlier name (by simp) rfl
    cases others with
    | nil =>
      rw [writeMembers_single, List.length_cons] at enough
      rw [writeMembers_single, List.cons_append,
        readMembers_step back (by omega) (closes_cons (.inr (.inr rfl))),
        insertMember_of_notMem absent, skipSpacing_cons rfl]
      rfl
    | cons next others =>
      rw [writeMembers_cons, List.length_cons, List.length_append, List.length_cons,
        List.length_cons] at enough
      have further : readMembers fuel levels (before ++ [(name, value)])
          ((writeMembers (next :: others)).toList ++ '\x7d' :: rest) =
            .ok (before ++ [(name, value)] ++ next :: others, rest) :=
        ih (by simp) (by simpa using once)
          (fun member inside => each member (List.mem_cons_of_mem _ inside)) (by omega)
      have visible : skipSpacing (' ' :: ((writeMembers (next :: others)).toList ++ '\x7d' :: rest)) =
          (writeMembers (next :: others)).toList ++ '\x7d' :: rest := by
        obtain ⟨more, front⟩ := writeMembers_front next others
        rw [front, List.cons_append]
        exact skipSpacing_cons quote_visible
      rw [writeMembers_cons, List.cons_append, List.append_assoc, List.cons_append,
        List.cons_append, readMembers_step back (by omega) (closes_cons (.inl rfl)),
        insertMember_of_notMem absent, skipSpacing_cons rfl]
      change readMembers fuel levels (before ++ [(name, value)])
        (skipSpacing (' ' :: ((writeMembers (next :: others)).toList ++ '\x7d' :: rest))) = _
      rw [visible, further, List.append_assoc]
      rfl

private theorem toList_write_array (items : List Json) :
    (write (.array items)).toList = '[' :: ((writeItems items).toList ++ [']']) := by
  simp [write]

private theorem toList_write_object (members : List (String × Json)) :
    (write (.object members)).toList = '\x7b' :: ((writeMembers members).toList ++ ['\x7d']) := by
  simp [write]

private theorem readsBack_array {items : List Json}
    (each : ∀ item ∈ items, ReadsBack levels item) : ReadsBack (levels + 1) (.array items) := by
  intro fuel rest enough closes
  rw [toList_write_array, List.length_cons, List.length_append, List.length_singleton] at enough
  obtain ⟨fuel, rfl⟩ : ∃ more, fuel = more + 1 := ⟨fuel - 1, by omega⟩
  rw [toList_write_array, List.cons_append, List.append_assoc, List.singleton_append]
  cases items with
  | nil => rfl
  | cons item others =>
    have read : readItems fuel levels ((writeItems (item :: others)).toList ++ ']' :: rest) =
        .ok (item :: others, rest) :=
      readItems_write (List.cons_ne_nil item others) each rest (by omega)
    obtain ⟨more, front⟩ := writeItems_front item others
    obtain ⟨c, tail, text, visible, inside⟩ := (each item (by simp)).head (more ++ ']' :: rest)
    rw [front, List.append_assoc, text] at read ⊢
    rw [readValue]
    simp only [nested, skipSpacing_cons visible]
    split
    · rename_i same
      exact absurd (List.cons.inj same).1 inside
    · rw [read]
      rfl

private theorem readsBack_object (once : (members.map (·.1)).Nodup)
    (each : ∀ member ∈ members, ReadsBack levels member.2) :
    ReadsBack (levels + 1) (.object members) := by
  intro fuel rest enough closes
  rw [toList_write_object, List.length_cons, List.length_append, List.length_singleton] at enough
  obtain ⟨fuel, rfl⟩ : ∃ more, fuel = more + 1 := ⟨fuel - 1, by omega⟩
  rw [toList_write_object, List.cons_append, List.append_assoc, List.singleton_append]
  cases members with
  | nil => rfl
  | cons member others =>
    have read : readMembers fuel levels []
        ((writeMembers (member :: others)).toList ++ '\x7d' :: rest) =
          .ok (member :: others, rest) :=
      readMembers_write (List.cons_ne_nil member others) once each rest (by omega)
    obtain ⟨more, front⟩ := writeMembers_front member others
    rw [front, List.cons_append] at read ⊢
    rw [readValue]
    simp only [nested, skipSpacing_cons quote_visible]
    change (readMembers fuel levels [] ('"' :: (more ++ '\x7d' :: rest))).map _ = _
    rw [read]
    rfl

/-- A value whose text is not looked into again is read in one step. -/
private theorem readsBack_of_step (step : ∀ fuel rest, Closes rest →
    readValue (fuel + 1) levels ((write value).toList ++ rest) = .ok (value, rest)) :
    ReadsBack levels value := by
  intro fuel rest enough closes
  cases fuel with
  | zero =>
    have empty := step 0 [] (by simp [Closes])
    rw [List.length_eq_zero_iff.mp (Nat.le_zero.mp enough)] at empty
    obtain ⟨c, tail, impossible, -⟩ := readValue_head empty
    cases impossible
  | succ fuel => exact step fuel rest closes

theorem readsBack_of_readable (readable : Readable levels value) : ReadsBack levels value := by
  induction readable with
  | null => exact readsBack_of_step fun _ _ _ => rfl
  | bool b => exact readsBack_of_step fun _ _ _ => by cases b <;> rfl
  | int short => exact readsBack_of_step fun _ _ => readValue_int short
  | float proper => exact readsBack_of_step fun _ _ => readValue_float proper
  | string s =>
    refine readsBack_of_step fun fuel rest _ => ?_
    have text : (write (.string s)).toList ++ rest =
        '"' :: (s.toList.flatMap writeChar ++ '"' :: rest) := by
      simp [write, writeString]
    rw [text, readValue]
    simp only [readString_writeString]
  | array each ih => exact readsBack_array ih
  | object once each ih => exact readsBack_object once ih

/-- What is written reads back, if the reader can give it back at all. -/
theorem read_write (readable : Readable nestingLimit value) : read (write value) = .ok value := by
  have back := readsBack_of_readable readable
  have whole := back (2 * (write value).toList.length + 1) [] (by omega) (by simp [Closes])
  have visible : skipSpacing (write value).toList = (write value).toList := by
    obtain ⟨c, tail, text, blank, -⟩ := back.head []
    rw [List.append_nil] at text
    rw [text]
    exact skipSpacing_cons blank
  rw [List.append_nil] at whole
  unfold read
  simp only [visible, whole]
  rfl

end PocketShell.Json
