import ApiSections.Proofs.Document.Splicing

/-!
Splicing as a whole: where the regions lie, what becomes of the text around them, and what happens
when the callback stops at one of them.
-/

namespace ApiSections.Document

theorem Spaced.ordered {limit offset : Nat} {regions : List Region}
    (spaced : Spaced limit offset regions) :
    regions.Pairwise fun region next => region.stop ≤ next.start := by
  induction regions generalizing offset with
  | nil => exact .nil
  | cons first regions ih =>
    obtain ⟨_, _, rest⟩ := spaced
    exact .cons (fun region member => (rest.bounds region member).1) (ih rest)

section Calls

variable {ε σ : Type}

/-- A callback returns for each of some regions, one after the other, and hands its state on. -/
inductive Calls (render : Region → ExceptT ε (StateM σ) (List Char)) :
    List Region → σ → List (List Char) → σ → Prop
  | none {state : σ} : Calls render [] state [] state
  | call {region : Region} {regions : List Region} {state between last : σ} {fragment : List Char}
      {fragments : List (List Char)} :
      (render region).run.run state = (.ok fragment, between) →
      Calls render regions between fragments last →
      Calls render (region :: regions) state (fragment :: fragments) last

theorem run_bind {α β : Type} (step : ExceptT ε (StateM σ) α) (next : α → ExceptT ε (StateM σ) β)
    (state : σ) : (step >>= next).run.run state =
      match step.run.run state with
      | (.ok value, between) => (next value).run.run between
      | (.error error, between) => (.error error, between) := by
  rw [ExceptT.run_bind, StateT.run_bind]
  rcases step.run.run state with ⟨value | value, between⟩ <;> rfl

/-- Calls one after the other all return, or they end with the first that does not. -/
theorem mapM_cases (render : Region → ExceptT ε (StateM σ) (List Char)) (regions : List Region)
    (state : σ) :
    (∃ fragments last, Calls render regions state fragments last ∧
      (regions.mapM render).run.run state = (.ok fragments, last)) ∨
    ∃ before failing after fragments between error last, regions = before ++ failing :: after ∧
      Calls render before state fragments between ∧
      (render failing).run.run between = (.error error, last) ∧
      (regions.mapM render).run.run state = (.error error, last) := by
  induction regions generalizing state with
  | nil => exact .inl ⟨[], state, .none, rfl⟩
  | cons region regions ih =>
    simp only [List.mapM_cons, run_bind]
    rcases first : (render region).run.run state with ⟨error | fragment, between⟩
    · exact .inr ⟨[], region, regions, [], state, error, between, rfl, .none, first, rfl⟩
    · rcases ih between with ⟨fragments, last, calls, ran⟩ |
        ⟨before, failing, after, fragments, reached, error, last, rfl, calls, failed, ran⟩
      · refine .inl ⟨fragment :: fragments, last, .call first calls, ?_⟩
        simp only [ran]
        rfl
      · refine .inr ⟨region :: before, failing, after, fragment :: fragments, reached, error, last,
          rfl, .call first calls, failed, ?_⟩
        simp only [ran]

/-- The regions of a text lie inside it one behind the other, none of them empty. If all calls return,
the last region's first, the text around the regions stays and each makes room for its replacement.
Otherwise the call for the last region that fails is the last call made: its error and the state that
it leaves are the end of the pass. -/
theorem spliceAll_framed (text phrase : List Char)
    (render : Region → ExceptT ε (StateM σ) (List Char)) (state : σ) :
    let regions := findMarkers text phrase
    (∀ region ∈ regions, region.start < region.stop ∧ region.stop ≤ text.length) ∧
    regions.Pairwise (fun region next => region.stop ≤ next.start) ∧
    ((∃ fragments last, Calls render regions.reverse state fragments.reverse last ∧
        (spliceAll text phrase render).run.run state =
          (.ok ⟨assemble text 0 (regions.zip fragments), regions⟩, last)) ∨
      ∃ earlier failing later fragments between error last,
        regions = earlier ++ failing :: later ∧
        Calls render later.reverse state fragments between ∧
        (render failing).run.run between = (.error error, last) ∧
        (spliceAll text phrase render).run.run state = (.error error, last)) := by
  intro regions
  have spaced := findMarkers_spaced text phrase
  refine ⟨fun region member => (spaced.bounds region member).2, spaced.ordered, ?_⟩
  simp only [spliceAll_eq, map_eq_pure_bind, run_bind]
  rcases mapM_cases render regions.reverse state with ⟨fragments, last, calls, ran⟩ |
    ⟨before, failing, after, fragments, between, error, last, cut, calls, failed, ran⟩
  · refine .inl ⟨fragments.reverse, last, ?_, ?_⟩
    · rw [List.reverse_reverse]
      exact calls
    · simp only [regions] at ran
      simp only [ran]
      rfl
  · -- The calls run backwards: what was still to come when one failed stands earlier in the text.
    refine .inr ⟨after.reverse, failing, before.reverse, fragments, between, error, last, ?_, ?_,
      failed, ?_⟩
    · rw [← List.reverse_reverse regions, cut]
      simp
    · rw [List.reverse_reverse]
      exact calls
    · simp only [regions] at ran
      simp only [ran]

end Calls

end ApiSections.Document
