import ApiSections.Workspace.Basic
import Mathlib.Data.List.Forall2

/-!
Steps that come to an end with a value, and the state that they leave behind.
-/

namespace ApiSections

section Steps

variable {ρ ε σ α β : Type}

/-- A step that reads an environment, changes a state and can stop ends with a value. -/
def Returns (step : ReaderT ρ (ExceptT ε (StateM σ)) α) (env : ρ) (state : σ) (value : α)
    (last : σ) : Prop :=
  (step.run env).run.run state = (.ok value, last)

theorem returns_pure {value result : α} {env : ρ} {state last : σ} :
    Returns (pure value : ReaderT ρ (ExceptT ε (StateM σ)) α) env state result last ↔
      result = value ∧ last = state := by
  constructor
  · intro same
    injection same with same_value same_state
    injection same_value with same_value
    exact ⟨same_value.symm, same_state.symm⟩
  · rintro ⟨rfl, rfl⟩
    rfl

theorem run_bind {step : ReaderT ρ (ExceptT ε (StateM σ)) α}
    {next : α → ReaderT ρ (ExceptT ε (StateM σ)) β} {env : ρ} {state : σ} :
    ((step >>= next).run env).run.run state =
      match (step.run env).run.run state with
      | (.ok value, between) => ((next value).run env).run.run between
      | (.error fault, between) => (.error fault, between) := by
  change ((step.run env) >>= fun value => (next value).run env).run.run state = _
  rw [ExceptT.run_bind, StateT.run_bind]
  rcases (step.run env).run.run state with ⟨value | value, between⟩ <;> rfl

theorem returns_bind {step : ReaderT ρ (ExceptT ε (StateM σ)) α}
    {next : α → ReaderT ρ (ExceptT ε (StateM σ)) β} {env : ρ} {state last : σ} {result : β} :
    Returns (step >>= next) env state result last ↔
      ∃ value between, Returns step env state value between ∧
        Returns (next value) env between result last := by
  rw [Returns, run_bind]
  constructor
  · intro same
    cases ran : (step.run env).run.run state with
    | mk outcome between =>
      rw [ran] at same
      cases outcome with
      | error fault => cases same
      | ok value => exact ⟨value, between, ran, same⟩
  · rintro ⟨value, between, ran, after⟩
    rw [ran]
    exact after

theorem returns_map {step : ReaderT ρ (ExceptT ε (StateM σ)) α} {view : α → β} {env : ρ}
    {state last : σ} {result : β} :
    Returns (view <$> step) env state result last ↔
      ∃ value, Returns step env state value last ∧ result = view value := by
  rw [map_eq_pure_bind, returns_bind]
  simp only [returns_pure]
  constructor
  · rintro ⟨value, between, ran, rfl, rfl⟩
    exact ⟨value, ran, rfl⟩
  · rintro ⟨value, ran, rfl⟩
    exact ⟨value, last, ran, rfl, rfl⟩

theorem returns_read {next : ρ → ReaderT ρ (ExceptT ε (StateM σ)) α} {env : ρ} {state last : σ}
    {result : α} :
    Returns (read >>= next) env state result last ↔ Returns (next env) env state result last :=
  Iff.rfl

theorem not_returns_throw {fault : ε} {env : ρ} {state last : σ} {result : α} :
    ¬ Returns (throw fault : ReaderT ρ (ExceptT ε (StateM σ)) α) env state result last := by
  intro same
  cases same

/-- What each step says of its item and its value holds of the items and the values, pair by pair. -/
theorem forall₂_of_returns_mapM {step : α → ReaderT ρ (ExceptT ε (StateM σ)) β} {given : α → β → Prop}
    {env : ρ} {items : List α} (each : ∀ item ∈ items, ∀ state value last,
      Returns (step item) env state value last → given item value) {state last : σ} {values : List β}
    (ran : Returns (items.mapM step) env state values last) : List.Forall₂ given items values := by
  induction items generalizing state values with
  | nil =>
    rw [List.mapM_nil, returns_pure] at ran
    rw [ran.1]
    exact .nil
  | cons item items ih =>
    simp only [List.mapM_cons, returns_bind, returns_pure] at ran
    obtain ⟨first, _, ran, rest, _, after, rfl, rfl⟩ := ran
    refine .cons (each item List.mem_cons_self _ _ _ ran) ?_
    exact ih (fun other member => each other (List.mem_cons_of_mem _ member)) after

theorem length_of_returns_mapM {step : α → ReaderT ρ (ExceptT ε (StateM σ)) β} {items : List α}
    {env : ρ} {state last : σ} {values : List β}
    (ran : Returns (items.mapM step) env state values last) : values.length = items.length := by
  have paired : List.Forall₂ (fun _ _ => True) items values :=
    forall₂_of_returns_mapM (fun _ _ _ _ _ _ => trivial) ran
  exact paired.length_eq.symm

theorem forall_of_returns_mapM {step : α → ReaderT ρ (ExceptT ε (StateM σ)) β} {given : β → Prop}
    {env : ρ} (each : ∀ item state value last, Returns (step item) env state value last → given value)
    {items : List α} {state last : σ} {values : List β}
    (ran : Returns (items.mapM step) env state values last) : ∀ value ∈ values, given value := by
  have paired : List.Forall₂ (fun _ value => given value ∧ True) items values :=
    forall₂_of_returns_mapM (fun item _ _ _ _ ran => ⟨each item _ _ _ ran, trivial⟩) ran
  exact ((List.forall₂_and_left values items).mp paired.flip).1

end Steps

theorem eq_ok_of_toOption {ε α : Type} {outcome : Except ε α} {value : α}
    (there : outcome.toOption = some value) : outcome = .ok value := by
  cases outcome with
  | error fault => cases there
  | ok other =>
    cases there
    rfl

end ApiSections
