import Mathlib.Data.List.Basic

/-! Runs that end in a value or a failure. A sequence of them ends in a value exactly when each of
its parts does, so what a run that succeeded has gone through is read off part by part. It fails as
the first of its parts does that fails. -/
namespace PocketShell

variable {ε α β : Type}

theorem bind_eq_ok {first : Except ε α} {next : α → Except ε β} {last : β} :
    first >>= next = .ok last ↔ ∃ value, first = .ok value ∧ next value = .ok last := by
  cases first <;> simp [bind, Except.bind]

theorem toOption_eq_some {result : Except ε α} {value : α} :
    result.toOption = some value ↔ result = .ok value := by
  cases result <;> simp [Except.toOption]

theorem map_eq_ok {f : α → β} {result : Except ε α} {image : β} :
    result.map f = .ok image ↔ ∃ value, result = .ok value ∧ f value = image := by
  cases result <;> simp [Except.map]

theorem bind_eq_error {first : Except ε α} {next : α → Except ε β} {failure : ε} :
    first >>= next = .error failure ↔
      first = .error failure ∨ ∃ value, first = .ok value ∧ next value = .error failure := by
  cases first <;> simp [bind, Except.bind]

/-- No value comes of the run. -/
def Fails (result : Except ε α) : Prop := ∃ failure, result = .error failure

@[simp] theorem not_fails_ok {value : α} : ¬ Fails (.ok value : Except ε α) := nofun

@[simp] theorem fails_error {failure : ε} : Fails (.error failure : Except ε α) := ⟨failure, rfl⟩

theorem not_fails_iff {result : Except ε α} : ¬ Fails result ↔ ∃ value, result = .ok value := by
  cases result <;> simp

/-- A run fails where its first part does, or does not and what follows does. -/
theorem fails_bind {first : Except ε α} {next : α → Except ε β} :
    Fails (first >>= next) ↔ Fails first ∨ ∃ value, first = .ok value ∧ Fails (next value) := by
  cases first <;> simp [bind, Except.bind]

/-- The first part may matter to how what follows fails, but not to whether it does. -/
theorem fails_bind_of_iff {first : Except ε α} {next : α → Except ε β} {fails : Prop}
    (same : ∀ value, Fails (next value) ↔ fails) :
    Fails (first >>= next) ↔ Fails first ∨ fails := by
  cases first <;> simp [bind, Except.bind, same]

theorem fails_bind_of_succeeds {first : Except ε α} {next : α → Except ε β}
    (succeeds : ∀ value, ¬ Fails (next value)) : Fails (first >>= next) ↔ Fails first := by
  rw [fails_bind_of_iff fun value => iff_of_false (succeeds value) not_false, or_false]

/-- Going through a list fails where one of its elements does. -/
theorem fails_mapM {f : α → Except ε β} {xs : List α} :
    Fails (xs.mapM f) ↔ ∃ x ∈ xs, Fails (f x) := by
  induction xs with
  | nil => simp [pure, Except.pure]
  | cons head rest ih =>
    have behind : ∀ first : β, Fails (rest.mapM f >>= fun others => pure (first :: others)) ↔
        ∃ x ∈ rest, Fails (f x) :=
      fun _ => (fails_bind_of_succeeds fun _ => not_fails_ok).trans ih
    rw [List.mapM_cons, fails_bind_of_iff behind]
    simp only [List.mem_cons, exists_eq_or_imp]

/-- Going through a list, where no element fails. -/
theorem mapM_except_ok {f : α → Except ε β} {xs : List α} (each : ∀ x ∈ xs, ∃ y, f x = .ok y) :
    ∃ ys, xs.mapM f = .ok ys ∧ ∀ y, y ∈ ys ↔ ∃ x ∈ xs, f x = .ok y := by
  induction xs with
  | nil => exact ⟨[], rfl, by simp⟩
  | cons head rest ih =>
    obtain ⟨first, ran⟩ := each head (by simp)
    obtain ⟨others, ranRest, members⟩ := ih fun x member => each x (List.mem_cons_of_mem _ member)
    refine ⟨first :: others, ?_, ?_⟩
    · rw [List.mapM_cons, ran, ranRest]
      rfl
    · intro y
      simp only [List.mem_cons, members, exists_eq_or_imp, ran, Except.ok.injEq]
      exact or_congr_left eq_comm

theorem mapM_ok_of_forall {f : α → Except ε β} {g : α → β} {xs : List α}
    (each : ∀ x ∈ xs, f x = .ok (g x)) : xs.mapM f = .ok (xs.map g) := by
  induction xs with
  | nil => rfl
  | cons head rest ih =>
    rw [List.mapM_cons, each head List.mem_cons_self,
      ih fun x member => each x (List.mem_cons_of_mem head member)]
    rfl

/-- Every result of going through a list comes from one of its elements. -/
theorem exists_of_mapM_ok {f : α → Except ε β} {xs : List α} {ys : List β}
    (ran : xs.mapM f = .ok ys) : ∀ y ∈ ys, ∃ x ∈ xs, f x = .ok y := by
  induction xs generalizing ys with
  | nil =>
    cases ran
    simp
  | cons head rest ih =>
    rw [List.mapM_cons] at ran
    obtain ⟨first, here, ran⟩ := bind_eq_ok.mp ran
    obtain ⟨others, further, ran⟩ := bind_eq_ok.mp ran
    cases ran
    refine List.forall_mem_cons.mpr ⟨⟨head, List.mem_cons_self, here⟩, fun y member => ?_⟩
    obtain ⟨x, inside, same⟩ := ih further y member
    exact ⟨x, List.mem_cons_of_mem head inside, same⟩

/-- A successful run over a list keeps what each of its steps keeps. -/
theorem foldlM_ok {f : α → β → Except ε α} {xs : List β} {start last : α}
    (holds : List β → α → Prop) (begins : holds [] start)
    (steps : ∀ done x rest state next, xs = done ++ x :: rest → holds done state →
      f state x = .ok next → holds (done ++ [x]) next)
    (ran : xs.foldlM f start = .ok last) : holds xs last := by
  suffices ∀ done rest state, xs = done ++ rest → holds done state →
      rest.foldlM f state = .ok last → holds xs last from this [] xs start rfl begins ran
  intro done rest
  induction rest generalizing done with
  | nil =>
    intro state whole here ran
    rw [List.foldlM_nil] at ran
    cases ran
    rw [whole, List.append_nil]
    exact here
  | cons x rest ih =>
    intro state whole here ran
    rw [List.foldlM_cons] at ran
    obtain ⟨next, first, ran⟩ := bind_eq_ok.mp ran
    exact ih (done ++ [x]) next (by simpa using whole)
      (steps done x rest state next whole here first) ran

/-- A run over a list fails where it comes to an element that fails. -/
theorem foldlM_eq_error {f : α → β → Except ε α} {xs : List β} {start : α} {failure : ε} :
    xs.foldlM f start = .error failure ↔ ∃ before x after state, xs = before ++ x :: after ∧
      before.foldlM f start = .ok state ∧ f state x = .error failure := by
  induction xs generalizing start with
  | nil => simp [pure, Except.pure]
  | cons head rest ih =>
    rw [List.foldlM_cons, bind_eq_error]
    constructor
    · rintro (failed | ⟨next, ran, failed⟩)
      · exact ⟨[], head, rest, start, rfl, rfl, failed⟩
      · obtain ⟨before, x, after, state, rfl, passed, failed⟩ := ih.mp failed
        refine ⟨head :: before, x, after, state, rfl, ?_, failed⟩
        rw [List.foldlM_cons, ran]
        exact passed
    · rintro ⟨before, x, after, state, whole, passed, failed⟩
      cases before with
      | nil =>
        cases whole
        cases passed
        exact .inl failed
      | cons first others =>
        cases whole
        rw [List.foldlM_cons] at passed
        obtain ⟨next, ran, passed⟩ := bind_eq_ok.mp passed
        exact .inr ⟨next, ran, ih.mpr ⟨others, x, after, state, rfl, passed, failed⟩⟩

/-- Going through a list fails at the first element that fails. -/
theorem mapM_eq_error {f : α → Except ε β} {xs : List α} {failure : ε} :
    xs.mapM f = .error failure ↔ ∃ before x after, xs = before ++ x :: after ∧
      (∀ y ∈ before, ∃ image, f y = .ok image) ∧ f x = .error failure := by
  induction xs with
  | nil => simp [pure, Except.pure]
  | cons head rest ih =>
    rw [List.mapM_cons, bind_eq_error]
    constructor
    · rintro (failed | ⟨first, ran, failed⟩)
      · exact ⟨[], head, rest, rfl, by simp, failed⟩
      · rcases bind_eq_error.mp failed with failed | ⟨others, -, impossible⟩
        · obtain ⟨before, x, after, rfl, passed, failed⟩ := ih.mp failed
          refine ⟨head :: before, x, after, rfl, ?_, failed⟩
          intro y member
          rcases List.mem_cons.mp member with rfl | further
          · exact ⟨first, ran⟩
          · exact passed y further
        · cases impossible
    · rintro ⟨before, x, after, whole, passed, failed⟩
      cases before with
      | nil =>
        cases whole
        exact .inl failed
      | cons first others =>
        cases whole
        obtain ⟨image, ran⟩ := passed head List.mem_cons_self
        have later := fun y member => passed y (List.mem_cons_of_mem head member)
        refine .inr ⟨image, ran, bind_eq_error.mpr (.inl ?_)⟩
        exact ih.mpr ⟨others, x, after, rfl, later, failed⟩

end PocketShell
