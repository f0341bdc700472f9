import ApiSections.Settings
import Mathlib.Data.List.Basic

/-!
The settings of a process over its whole life. Its variables are replaced and its settings are asked for in
any order. What is remembered is what the latest successful call gave, so a call that fails leaves no
trace in the answers to later ones.
-/

namespace ApiSections.Settings

section Life

/-- What happens in a process: its variables are replaced, or its settings are asked for. -/
inductive Step where
  | replace (environment : Environment)
  | get (reload : Bool)

abbrev Outcome := Except (List Issue) Settings

structure Process where
  environment : Environment
  cache : Cache

def Process.start (environment : Environment) : Process := ⟨environment, .empty⟩

/-- One step, with the answer if it is a call. -/
def Process.step (process : Process) : Step → List Outcome × Process
  | .replace environment => ([], ⟨environment, process.cache⟩)
  | .get reload =>
    let (answer, cache) := process.cache.get process.environment reload
    ([answer], ⟨process.environment, cache⟩)

/-- All steps one after the other, with the answers to the calls among them. -/
def Process.run (process : Process) : List Step → List Outcome × Process
  | [] => ([], process)
  | step :: steps =>
    let (answers, next) := process.step step
    let (later, last) := next.run steps
    (answers ++ later, last)

/-- The answers that a new process gives. -/
def answers (environment : Environment) (steps : List Step) : List Outcome :=
  ((Process.start environment).run steps).1

def Step.replaced? : Step → Option Environment
  | .replace environment => some environment
  | .get _ => none

/-- The variables after some steps: those set last. -/
def environmentAfter (environment : Environment) (steps : List Step) : Environment :=
  (steps.filterMap Step.replaced?).getLast?.getD environment

/-- The settings that the latest successful call gave. -/
def latest? (answers : List Outcome) : Option Settings := (answers.filterMap Except.toOption).getLast?

end Life

section Calls

variable {cache : Cache} {environment : Environment} {settings : Settings} {reload : Bool}
  {issues : List Issue}

theorem get_remembered (known : cache.current = some settings) :
    cache.get environment false = (.ok settings, cache) := by
  rw [Cache.get.eq_def, known]

theorem get_loaded (loads : reload = true ∨ cache.current = none) :
    cache.get environment reload = match load environment [] with
      | .ok settings => (.ok settings, ⟨some settings⟩)
      | .error issues => (.error issues, cache) := by
  rcases cache with ⟨current⟩
  rcases loads with rfl | unknown
  · cases current with
    | none => rfl
    | some settings => rfl
  · change current = none at unknown
    subst unknown
    cases reload with
    | false => rfl
    | true => rfl

/-- A call remembers what it gives, or else what was remembered before. -/
theorem current_get (cache : Cache) (environment : Environment) (reload : Bool) :
    (cache.get environment reload).2.current =
      (cache.get environment reload).1.toOption.or cache.current := by
  by_cases loads : reload = true ∨ cache.current = none
  · rw [get_loaded loads]
    cases load environment [] with
    | ok settings => rfl
    | error issues => rfl
  · rw [not_or, Bool.not_eq_true] at loads
    obtain ⟨rfl, some_settings⟩ := loads
    obtain ⟨settings, known⟩ := Option.ne_none_iff_exists'.mp some_settings
    rw [get_remembered known, known]
    rfl

end Calls

section Runs

variable {process : Process} {environment : Environment} {reload : Bool} {issues : List Issue}

theorem latest?_append (earlier later : List Outcome) :
    latest? (earlier ++ later) = (latest? later).or (latest? earlier) := by
  rw [latest?, List.filterMap_append, List.getLast?_append]
  rfl

theorem latest?_singleton (answer : Outcome) : latest? [answer] = answer.toOption := by
  cases answer with
  | error issues => rfl
  | ok settings => rfl

theorem environmentAfter_cons (environment : Environment) (step : Step) (steps : List Step) :
    environmentAfter environment (step :: steps) =
      environmentAfter (step.replaced?.getD environment) steps := by
  cases step with
  | get reload => rfl
  | replace other =>
    have first : (Step.replace other).replaced? = some other := rfl
    rw [environmentAfter, List.filterMap_cons_some first, List.getLast?_cons, Option.getD_some]
    rfl

theorem step_eq (process : Process) (step : Step) :
    (process.step step).2 = ⟨step.replaced?.getD process.environment,
      ⟨(latest? (process.step step).1).or process.cache.current⟩⟩ := by
  cases step with
  | replace environment => rfl
  | get reload =>
    have current := current_get process.cache process.environment reload
    rw [← latest?_singleton] at current
    rw [Process.step, ← current]
    rfl

/-- What a run leaves behind: the variables set last, and the settings given last. -/
theorem run_eq (process : Process) (steps : List Step) :
    (process.run steps).2 = ⟨environmentAfter process.environment steps,
      ⟨(latest? (process.run steps).1).or process.cache.current⟩⟩ := by
  induction steps generalizing process with
  | nil => rfl
  | cons step steps ih =>
    rw [Process.run, environmentAfter_cons, latest?_append, Option.or_assoc]
    rw [ih, step_eq]

theorem step_failed (failed : (process.cache.get process.environment reload).1 = .error issues) :
    process.step (.get reload) = ([.error issues], process) := by
  have answers : (process.step (.get reload)).1 = [.error issues] := congrArg ([·]) failed
  refine Prod.ext answers ?_
  rw [step_eq, answers]
  rfl

theorem run_append (process : Process) (first second : List Step) :
    process.run (first ++ second) =
      ((process.run first).1 ++ ((process.run first).2.run second).1,
        ((process.run first).2.run second).2) := by
  induction first generalizing process with
  | nil => rfl
  | cons step first ih => simp only [List.cons_append, Process.run, ih, List.append_assoc]

theorem answers_append (environment : Environment) (steps later : List Step) :
    answers environment (steps ++ later) = answers environment steps ++
      (Process.run ⟨environmentAfter environment steps,
        ⟨latest? (answers environment steps)⟩⟩ later).1 := by
  have state := run_eq (.start environment) steps
  rw [show (Process.start environment).cache.current = none from rfl, Option.or_none] at state
  rw [answers, run_append, state]
  rfl

end Runs

/-- A call gives what the latest successful one gave, unless it has to load; then it ends as loading from
the current variables does. A call that fails does not show in the answers to later ones. -/
theorem answers_over_history (environment : Environment) (steps : List Step) (reload : Bool) :
    ∃ answer, answers environment (steps ++ [.get reload]) = answers environment steps ++ [answer] ∧
      (∀ settings, latest? (answers environment steps) = some settings → reload = false →
        answer = .ok settings) ∧
      (reload = true ∨ latest? (answers environment steps) = none →
        answer = load (environmentAfter environment steps) []) ∧
      ∀ issues, answer = .error issues → ∀ later, ∃ rest,
        answers environment (steps ++ later) = answers environment steps ++ rest ∧
        answers environment (steps ++ .get reload :: later) =
          answers environment steps ++ .error issues :: rest := by
  -- All that later answers can depend on.
  let process : Process := ⟨environmentAfter environment steps, ⟨latest? (answers environment steps)⟩⟩
  refine ⟨(process.cache.get process.environment reload).1, ?_, ?_, ?_, ?_⟩
  · rw [answers_append]
    rfl
  · rintro settings known rfl
    have known : process.cache.current = some settings := known
    rw [get_remembered known]
  · intro loads
    have loads : reload = true ∨ process.cache.current = none := loads
    rw [get_loaded loads]
    cases load process.environment [] with
    | ok settings => rfl
    | error issues => rfl
  · intro issues failed later
    refine ⟨(process.run later).1, answers_append environment steps later, ?_⟩
    rw [answers_append, Process.run, step_failed failed]
    rfl

/-- A reload with an empty branch name fails, and the settings loaded before it are given again. -/
theorem answers_over_history_failed :
    let steps : List Step := [.get false, .replace [("TSDOCSYNC_BRANCH", "")]]
    latest? (answers [] steps) = some default ∧ ∃ issues,
      answers [] (steps ++ [.get true, .get false]) = [.ok default, .error issues, .ok default] := by
  intro steps
  have earlier : answers [] steps = [.ok default] := rfl
  obtain ⟨failing, _, _, loads, hidden⟩ := answers_over_history [] steps true
  obtain ⟨given, asked, kept, _⟩ := answers_over_history [] steps false
  refine ⟨rfl, ?_⟩
  have none : (load [("TSDOCSYNC_BRANCH", "")] []).toOption.isNone = true := by decide +kernel
  cases outcome : load [("TSDOCSYNC_BRANCH", "")] [] with
  | ok settings =>
    rw [outcome] at none
    cases none
  | error issues =>
    obtain ⟨rest, without, along⟩ := hidden issues ((loads (.inl rfl)).trans outcome) [.get false]
    rw [asked, kept default rfl rfl, List.append_cancel_left_eq] at without
    refine ⟨issues, along.trans ?_⟩
    rw [earlier, ← without]
    rfl

end ApiSections.Settings
