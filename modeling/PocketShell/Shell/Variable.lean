import PocketShell.Text.Split

/-!
Variables in words. A name stands behind a dollar sign, with or without braces; a backslash before
the dollar sign keeps both as they are, less the backslash.
-/
namespace PocketShell.Shell

/-- Variables in the order in which they were first set. -/
abbrev Env := List (String × String)

namespace Env

/-- The value of a variable. -/
def get? (env : Env) (name : String) : Option String := env.lookup name

/-- Sets a variable; one that is set already keeps its place. -/
def insert (env : Env) (name value : String) : Env :=
  match env with
  | [] => [(name, value)]
  | (n, v) :: rest => if n = name then (n, value) :: rest else (n, v) :: insert rest name value

/-- Unsets a variable. -/
def erase (env : Env) (name : String) : Env := env.filter fun (n, _) => n != name

theorem get?_cons (name value other : String) (rest : Env) :
    get? ((name, value) :: rest) other = if other = name then some value else rest.get? other := by
  unfold get?
  rw [List.lookup_cons]
  by_cases same : other = name
  · simp [same]
  · simp [same, beq_eq_false_iff_ne.mpr same]

theorem get?_insert (env : Env) (name value other : String) :
    (env.insert name value).get? other = if other = name then some value else env.get? other := by
  induction env with
  | nil => rw [insert, get?_cons]
  | cons entry rest ih =>
    obtain ⟨n, v⟩ := entry
    rw [insert]
    split
    · rename_i here
      subst here
      rw [get?_cons, get?_cons]
      split <;> rfl
    · rename_i apart
      rw [get?_cons, get?_cons, ih]
      by_cases here : other = n
      · subst here
        rw [if_pos rfl, if_neg apart, if_pos rfl]
      · rw [if_neg here, if_neg here]

theorem get?_erase (env : Env) (name other : String) :
    (env.erase name).get? other = if other = name then none else env.get? other := by
  unfold erase
  induction env with
  | nil => simp [get?]
  | cons entry rest ih =>
    obtain ⟨n, v⟩ := entry
    by_cases here : n = name
    · subst here
      rw [List.filter_cons_of_neg (by simp), ih, get?_cons]
      split <;> rfl
    · rw [List.filter_cons_of_pos (by simpa using here), get?_cons, get?_cons, ih]
      by_cases same : other = n
      · subst same
        rw [if_pos rfl, if_neg here, if_pos rfl]
      · rw [if_neg same, if_neg same]

end Env

/-- The name at the front of the text, and what follows it. -/
def name? (cs : List Char) : Option (List Char × List Char) :=
  match cs.takeWhile Text.isWordChar with
  | [] => none
  | name => some (name, cs.dropWhile Text.isWordChar)

/-- The reference to a variable at the front of the text, and what follows it. -/
def reference? : List Char → Option (List Char × List Char)
  | '$' :: '{' :: rest => match name? rest with
    | some (name, '}' :: after) => some (name, after)
    | _ => none
  | '$' :: rest => name? rest
  | _ => none

theorem length_dropWhile_le (p : Char → Bool) (cs : List Char) :
    (cs.dropWhile p).length ≤ cs.length := by
  induction cs with
  | nil => simp
  | cons c rest ih =>
    rw [List.dropWhile_cons]
    split
    · exact Nat.le_succ_of_le ih
    · exact Nat.le_refl _

/-- What follows a name is not longer than the text. -/
theorem length_le_of_name {cs name after : List Char} (h : name? cs = some (name, after)) :
    after.length ≤ cs.length := by
  unfold name? at h
  split at h
  · contradiction
  · simp only [Option.some.injEq, Prod.mk.injEq] at h
    exact h.2 ▸ length_dropWhile_le _ _

/-- What follows a reference is shorter than the text. -/
theorem length_lt_of_reference {cs name after : List Char}
    (h : reference? cs = some (name, after)) : after.length < cs.length := by
  unfold reference? at h
  split at h
  · next rest =>
    split at h
    · next found =>
      have := length_le_of_name found
      simp only [Option.some.injEq, Prod.mk.injEq] at h
      simp only [← h.2, List.length_cons] at this ⊢
      omega
    · contradiction
  · have := length_le_of_name h
    simp only [List.length_cons]
    omega
  · contradiction

/-- The text with references replaced by values; behind a backslash a reference stays, without the
backslash. -/
def fillIn (env : Env) (cs : List Char) : List Char :=
  match cs with
  | [] => []
  | c :: rest =>
    if c = '\\' then
      match _kept : reference? rest with
      | some (_, after) => rest.take (rest.length - after.length) ++ fillIn env after
      | none => c :: fillIn env rest
    else
      match _found : reference? (c :: rest) with
      | some (name, after) =>
        ((env.get? (String.ofList name)).getD "").toList ++ fillIn env after
      | none => c :: fillIn env rest
  termination_by cs.length
  decreasing_by
    · have := length_lt_of_reference _kept
      simp only [List.length_cons]
      omega
    · simp
    · exact length_lt_of_reference _found
    · simp

/-- Takes the backslash from before every dollar sign. -/
def unescapeDollars (text : String) : String := Text.replaceAll "\\$" "$" text

/-- Protects every dollar sign by a backslash. -/
def escapeDollars (text : String) : String := Text.replaceAll "$" "\\$" text

/-- The word with its variables expanded; a variable that is not set is empty. -/
def expandWord (env : Env) (word : String) : String :=
  unescapeDollars (String.ofList (fillIn env word.toList))

end PocketShell.Shell
