import Mathlib.Data.List.Forall2
import PocketShell.Proofs.Outcomes

/-! Two computations alongside each other. They agree when both give values that stand in a relation
or both fail in the same way, and when states that stand in a relation before them stand in it after
them. What is put together from computations that agree agrees. -/
namespace PocketShell

variable {ρ ε σ α β γ δ : Type}

/-- Both results are values in the relation, or both are the same failure. -/
inductive Results (values : α → β → Prop) : Except ε α → Except ε β → Prop
  | ok {value : α} {other : β} (related : values value other) :
      Results values (.ok value) (.ok other)
  | error (failure : ε) : Results values (.error failure) (.error failure)

namespace Results

variable {values weaker : α → β → Prop} {further : γ → δ → Prop} {first : Except ε α}
  {second : Except ε β}

theorem refl (result : Except ε α) : Results Eq result result := by
  cases result with
  | ok value => exact .ok rfl
  | error failure => exact .error failure

theorem eq {other : Except ε α} (results : Results Eq first other) : first = other := by
  cases results with
  | ok same => rw [same]
  | error failure => rfl

theorem imp (results : Results values first second)
    (implied : ∀ value other, values value other → weaker value other) :
    Results weaker first second := by
  cases results with
  | ok related => exact .ok (implied _ _ related)
  | error failure => exact .error failure

theorem bind {next : α → Except ε γ} {onward : β → Except ε δ}
    (results : Results values first second)
    (continues : ∀ value other, values value other → Results further (next value) (onward other)) :
    Results further (first >>= next) (second >>= onward) := by
  cases results with
  | ok related => exact continues _ _ related
  | error failure => exact .error failure

/-- Both take the same branch. -/
theorem ite {condition : Prop} [Decidable condition] {other another : Except ε β}
    {third : Except ε α} (yes : Results values first other) (no : Results values third another) :
    Results values (if condition then first else third)
      (if condition then other else another) := by
  split
  · exact yes
  · exact no

theorem mapM {f : α → Except ε γ} {g : β → Except ε δ} {xs : List α} {ys : List β}
    (inputs : List.Forall₂ values xs ys)
    (each : ∀ x y, values x y → Results further (f x) (g y)) :
    Results (List.Forall₂ further) (xs.mapM f) (ys.mapM g) := by
  induction inputs with
  | nil => exact .ok .nil
  | cons head tail ih =>
    rw [List.mapM_cons, List.mapM_cons]
    refine (each _ _ head).bind fun image other related => ?_
    exact ih.bind fun images others follow => .ok (.cons related follow)

end Results

/-- A computation that reads an environment, may fail and keeps the changes to a state it has made
until then. -/
abbrev Task (ρ ε σ α : Type) := ReaderT ρ (ExceptT ε (StateM σ)) α

namespace Task

variable {operation : Task ρ ε σ α} {next : α → Task ρ ε σ β} {reader : ρ} {state : σ}

theorem bind_run : (operation >>= next) reader state =
    match operation reader state with
    | (.ok value, after) => next value reader after
    | (.error failure, after) => (.error failure, after) := by
  change (match operation reader state with
    | (result, after) => ExceptT.bindCont (fun value => next value reader) result after) = _
  cases operation reader state with
  | mk result after => cases result <;> rfl

/-- A program that gives a value has got through its first step. -/
theorem bind_eq_ok {value : β} {after : σ} :
    (operation >>= next) reader state = (.ok value, after) ↔ ∃ given between,
      operation reader state = (.ok given, between) ∧
        next given reader between = (.ok value, after) := by
  rw [bind_run]
  generalize operation reader state = outcome
  obtain ⟨result, between⟩ := outcome
  cases result with
  | ok given =>
    constructor
    · exact fun ran => ⟨given, between, rfl, ran⟩
    · rintro ⟨_, _, ⟨⟩, ran⟩
      exact ran
  | error failure =>
    constructor
    · exact fun impossible => nomatch impossible
    · rintro ⟨_, _, ⟨⟩, _⟩

theorem get_bind_run {next : σ → Task ρ ε σ β} :
    (get >>= next) reader state = next state reader state := rfl

theorem lift_run {result : Except ε α} :
    (liftM result : Task ρ ε σ α) reader state = (result, state) := by
  cases result <;> rfl

theorem tryCatch_run {handler : ε → Task ρ ε σ α} : (tryCatch operation handler) reader state =
    match operation reader state with
    | (.ok value, after) => (.ok value, after)
    | (.error failure, after) => handler failure reader after := by
  change (match operation reader state with
    | (result, after) => (match result with
      | .ok value => fun after => (.ok value, after)
      | .error failure => handler failure reader : StateM σ (Except ε α)) after) = _
  cases operation reader state with
  | mk result after => cases result <;> rfl

end Task

/-- The results stand in one relation and the states that are left in another. -/
structure Matched (values : α → β → Prop) (states : σ → σ → Prop)
    (first : Except ε α × σ) (second : Except ε β × σ) : Prop where
  results : Results values first.1 second.1
  states : states first.2 second.2

theorem Matched.bind {values : α → β → Prop} {further : γ → δ → Prop}
    {between states : σ → σ → Prop} {operation : Task ρ ε σ α} {other : Task ρ ε σ β}
    {next : α → Task ρ ε σ γ} {onward : β → Task ρ ε σ δ} {reader : ρ} {state twin : σ}
    (matched : Matched values between (operation reader state) (other reader twin))
    (stops : ∀ after later, between after later → states after later)
    (continues : ∀ value image, values value image → ∀ after later, between after later →
      Matched further states (next value reader after) (onward image reader later)) :
    Matched further states ((operation >>= next) reader state)
      ((other >>= onward) reader twin) := by
  obtain ⟨results, left⟩ := matched
  rw [Task.bind_run, Task.bind_run]
  generalize operation reader state = first at results left
  generalize other reader twin = second at results left
  obtain ⟨result, after⟩ := first
  obtain ⟨image, later⟩ := second
  cases results with
  | ok related => exact continues _ _ related _ _ left
  | error failure => exact ⟨.error failure, stops _ _ left⟩

theorem Matched.imp {values weaker : α → β → Prop} {between states : σ → σ → Prop}
    {first : Except ε α × σ} {second : Except ε β × σ}
    (matched : Matched values between first second)
    (implied : ∀ value other, values value other → weaker value other)
    (kept : ∀ after later, between after later → states after later) :
    Matched weaker states first second :=
  ⟨matched.results.imp implied, kept _ _ matched.states⟩

/-- From states in the relation the two computations end with values in a relation or in the same
failure, and leave states in the relation. -/
def Alongside (reader : ρ) (states : σ → σ → Prop) (values : α → β → Prop)
    (operation : Task ρ ε σ α) (other : Task ρ ε σ β) : Prop :=
  ∀ state twin, states state twin →
    Matched values states (operation reader state) (other reader twin)

namespace Alongside

variable {reader : ρ} {states : σ → σ → Prop} {values : α → β → Prop} {further : γ → δ → Prop}
  {operation : Task ρ ε σ α} {other : Task ρ ε σ β}

theorem imp {weaker : α → β → Prop} (agree : Alongside reader states values operation other)
    (implied : ∀ value image, values value image → weaker value image) :
    Alongside reader states weaker operation other :=
  fun state twin related => ⟨(agree state twin related).results.imp implied,
    (agree state twin related).states⟩

theorem bind {next : α → Task ρ ε σ γ} {onward : β → Task ρ ε σ δ}
    (agree : Alongside reader states values operation other)
    (continues : ∀ value image, values value image →
      Alongside reader states further (next value) (onward image)) :
    Alongside reader states further (operation >>= next) (other >>= onward) :=
  fun state twin related => (agree state twin related).bind (fun _ _ kept => kept)
    fun value image alike after later kept => continues value image alike after later kept

/-- What both computations make the same use of. -/
theorem thenSame {operation other : Task ρ ε σ α} {next onward : α → Task ρ ε σ γ}
    {further : γ → γ → Prop}
    (agree : Alongside reader states Eq operation other)
    (continues : ∀ value, Alongside reader states further (next value) (onward value)) :
    Alongside reader states further (operation >>= next) (other >>= onward) :=
  agree.bind fun value _ same => same ▸ continues value

theorem pure {value : α} {image : β} (related : values value image) :
    Alongside reader states values (Pure.pure value : Task ρ ε σ α) (Pure.pure image) :=
  fun _ _ kept => ⟨.ok related, kept⟩

theorem throw (failure : ε) :
    Alongside reader states values (MonadExcept.throw failure : Task ρ ε σ α)
      (MonadExcept.throw failure) :=
  fun _ _ kept => ⟨.error failure, kept⟩

theorem lift {first : Except ε α} {second : Except ε β} (results : Results values first second) :
    Alongside reader states values (liftM first : Task ρ ε σ α) (liftM second) := by
  intro state twin kept
  rw [Task.lift_run, Task.lift_run]
  exact ⟨results, kept⟩

theorem read {next : ρ → Task ρ ε σ γ} {onward : ρ → Task ρ ε σ δ}
    (continues : Alongside reader states further (next reader) (onward reader)) :
    Alongside reader states further (MonadReader.read >>= next) (MonadReader.read >>= onward) :=
  continues

theorem get : Alongside reader states states (MonadState.get : Task ρ ε σ σ) MonadState.get :=
  fun _ _ kept => ⟨.ok kept, kept⟩

theorem set {state twin : σ} (related : states state twin) :
    Alongside reader states Eq (MonadState.set state : Task ρ ε σ PUnit) (MonadState.set twin) :=
  fun _ _ _ => ⟨.ok rfl, related⟩

theorem change {rule other : σ → σ} (kept : ∀ state twin, states state twin →
    states (rule state) (other twin)) :
    Alongside reader states Eq (modify rule : Task ρ ε σ PUnit) (modify other) :=
  fun state twin related => ⟨.ok rfl, kept state twin related⟩

theorem tryCatch {handler rescue : ε → Task ρ ε σ α} {values : α → α → Prop}
    {operation other : Task ρ ε σ α}
    (agree : Alongside reader states values operation other)
    (handled : ∀ failure, Alongside reader states values (handler failure) (rescue failure)) :
    Alongside reader states values (MonadExcept.tryCatch operation handler)
      (MonadExcept.tryCatch other rescue) := by
  intro state twin related
  obtain ⟨results, left⟩ := agree state twin related
  rw [Task.tryCatch_run, Task.tryCatch_run]
  generalize operation reader state = first at results left
  generalize other reader twin = second at results left
  obtain ⟨result, after⟩ := first
  obtain ⟨image, later⟩ := second
  cases results with
  | ok alike => exact ⟨.ok alike, left⟩
  | error failure => exact handled failure after later left

/-- A check that comes out the same for both. -/
theorem guard {condition : Prop} [Decidable condition] {stop halt : Task ρ ε σ PUnit}
    {rest : PUnit → Task ρ ε σ γ} {others : PUnit → Task ρ ε σ δ}
    (stops : Alongside reader states Eq stop halt)
    (continues : Alongside reader states further (rest ⟨⟩) (others ⟨⟩)) :
    Alongside reader states further (if condition then stop >>= rest else rest ⟨⟩)
      (if condition then halt >>= others else others ⟨⟩) := by
  split
  · exact stops.bind fun _ _ _ => continues
  · exact continues

theorem forM {xs : List α} {ys : List β} {f : α → Task ρ ε σ PUnit} {g : β → Task ρ ε σ PUnit}
    (inputs : List.Forall₂ values xs ys)
    (each : ∀ x y, values x y → Alongside reader states Eq (f x) (g y)) :
    Alongside reader states Eq (xs.forM f) (ys.forM g) := by
  induction inputs with
  | nil => exact pure rfl
  | cons head tail ih => exact (each _ _ head).bind fun _ _ _ => ih

theorem mapM {xs : List α} {f g : α → Task ρ ε σ γ}
    (each : ∀ x, Alongside reader states Eq (f x) (g x)) :
    Alongside reader states Eq (xs.mapM f) (xs.mapM g) := by
  induction xs with
  | nil => exact pure rfl
  | cons x rest ih =>
    rw [List.mapM_cons, List.mapM_cons]
    exact (each x).thenSame fun image => ih.thenSame fun images => pure rfl

theorem filterM {xs : List α} {test : α → Task ρ ε σ Bool}
    (each : ∀ x, Alongside reader states Eq (test x) (test x)) :
    Alongside reader states Eq (xs.filterM test) (xs.filterM test) := by
  have gathers : ∀ found, Alongside reader states Eq (xs.filterAuxM test found)
      (xs.filterAuxM test found) := by
    induction xs with
    | nil => exact fun found => pure rfl
    | cons x rest ih => exact fun found => (each x).thenSame fun passed => ih _
  exact (gathers []).thenSame fun found => pure rfl

end Alongside

end PocketShell
