import ApiSections.Proofs.Workspace.Sound
import Mathlib.Logic.Function.Iterate

/-!
Recursions that come to an end. A recursion ends at an argument if finitely many unfoldings of its body
tell the result, whatever stands for the calls that are deeper. The search of a walk ends so: it looks
into no item twice, and a tree has finitely many items.
-/

namespace ApiSections

/-- So many unfoldings of a body are enough, whatever is beyond them. -/
def Unfolds {γ : Type} (body : γ → γ) (enough : γ → Prop) : Prop :=
  ∃ depth, ∀ beyond, enough (body^[depth] beyond)

namespace Walk

variable {κ β : Type} [DecidableEq κ] {walk : Walk κ β}

/-- Looks into an item, unless that is being done, by a search that looks into others. -/
def look (walk : Walk κ β) (search : List κ → κ → Work β) (seen : List κ) (item : κ) : Work β :=
  if item ∈ seen then return walk.stop else walk.step (search (item :: seen)) item

namespace Chart

variable {workspace : Workspace} (chart : Chart workspace walk)

/-- How many items there are in all modules. -/
def size : Nat := (workspace.paths.flatMap chart.items).length

variable {chart} {seen : List κ} {item : κ}

omit [DecidableEq κ] in
theorem length_le_size (once : seen.Nodup) (charted : ∀ item ∈ seen, chart.Has item) :
    seen.length ≤ chart.size := by
  have listed : seen ⊆ workspace.paths.flatMap chart.items := by
    intro item member
    obtain ⟨among, there⟩ := charted item member
    exact List.mem_flatMap.mpr ⟨walk.source item, there, among⟩
  exact (List.Nodup.subperm once listed).length_le

omit [DecidableEq κ] in
theorem Has.cons (inside : chart.Has item) (charted : ∀ item ∈ seen, chart.Has item) :
    ∀ other ∈ item :: seen, chart.Has other := by
  intro other member
  rcases List.mem_cons.mp member with rfl | member
  · exact inside
  · exact charted other member

/-- A search that is unfolded more often than there are items left never comes to what is beyond. -/
theorem look_charted (good : List κ → κ → Work β → Prop)
    (stop : ∀ seen item, chart.Has item → item ∈ seen → good seen item (pure walk.stop))
    (step : ∀ seen item next, chart.Has item → item ∉ seen →
      (∀ other, chart.Has other → good (item :: seen) other (next other)) →
      good seen item (walk.step next item))
    (beyond : List κ → κ → Work β) {depth : Nat} (deep : chart.size < depth + seen.length)
    (once : seen.Nodup) (charted : ∀ item ∈ seen, chart.Has item) (inside : chart.Has item) :
    good seen item (walk.look^[depth] beyond seen item) := by
  induction depth generalizing seen item with
  | zero =>
    have bound := length_le_size once charted
    omega
  | succ depth ih =>
    rw [Function.iterate_succ_apply', look]
    split
    · exact stop seen item inside ‹_›
    · rename_i fresh
      apply step seen item _ inside fresh
      intro other there
      apply ih _ (List.nodup_cons.mpr ⟨fresh, once⟩) (inside.cons charted) there
      rw [List.length_cons]
      omega

end Chart

end Walk

namespace Work

variable {α β : Type} {workspace : Workspace} {right : Rightness}

/-- Steps that come to one end, as something holds of no other, settle on it. -/
theorem Ends.alike {first second : Work α} {holds : Except Fault α → Prop}
    (here : Ends workspace right first holds) (there : Ends workspace right second holds)
    (unique : ∀ first second, holds first → holds second → first = second) :
    (settling workspace right).alike first second := by
  obtain ⟨outcome, last, ran, _, held⟩ := here .empty sound_empty
  obtain ⟨other, last', ran', _, held'⟩ := there .empty sound_empty
  have same : answer workspace second = answer workspace first := by
    rw [answer, answer, ran, ran', unique other outcome held' held]
  exact ⟨_, here.settles unique, same ▸ there.settles unique⟩

/-- After a step that yields something the rest is alike if it is so behind that. -/
theorem Yields.alike {step : Work α} {given : α → Prop} {next other : α → Work β}
    (yields : Yields workspace right step given)
    (rest : ∀ value, given value → (settling workspace right).alike (next value) (other value)) :
    (settling workspace right).alike (step >>= next) (step >>= other) := by
  obtain ⟨outcome, settles, held⟩ := yields
  cases outcome with
  | error fault => exact ⟨.error fault, settles.stop next, settles.stop other⟩
  | ok value =>
    obtain ⟨outcome, here, there⟩ := rest value (held value rfl)
    exact ⟨outcome, settles.bind here, settles.bind there⟩

/-- A walk whose steps keep to what they are given is its search, unfolded often enough. -/
theorem unfolds_look {κ : Type} [DecidableEq κ] {walk : Walk κ β} (chart : Walk.Chart workspace walk)
    (among : κ → Prop) (charted : ∀ item, among item → chart.Has item)
    (step : ∀ next other item, among item →
      (∀ item, among item → (settling workspace right).alike (next item) (other item)) →
      (settling workspace right).alike (walk.step next item) (walk.step other item))
    {item : κ} (inside : among item) :
    Unfolds walk.look fun search =>
      (settling workspace right).alike (search [] item) (walk.run item) := by
  refine ⟨chart.size + 1, fun beyond => ?_⟩
  -- The walk and the search look into the same items, one step after the other.
  refine Walk.Chart.run_charted chart (fun seen item run => among item →
    ∀ depth, chart.size < depth + seen.length → seen.Nodup → (∀ item ∈ seen, chart.Has item) →
      (settling workspace right).alike (walk.look^[depth] beyond seen item) run) ?_ ?_ ?_ ?_
    (charted item inside) inside _ (Nat.lt_succ_self _) List.nodup_nil (by simp)
  · intro seen item _ member _ depth deep once there
    cases depth with
    | zero =>
      have bound := Walk.Chart.length_le_size once there
      omega
    | succ depth =>
      rw [Function.iterate_succ_apply', Walk.look, if_pos member]
      exact (settling workspace right).pure _
  · intro seen item next has fresh ih inside depth deep once there
    cases depth with
    | zero =>
      have bound := Walk.Chart.length_le_size once there
      omega
    | succ depth =>
      rw [Function.iterate_succ_apply', Walk.look, if_neg fresh]
      apply step _ _ item inside
      intro other inside
      apply ih other (charted other inside) inside depth _ (List.nodup_cons.mpr ⟨fresh, once⟩)
        (has.cons there)
      rw [List.length_cons]
      omega
  · intro seen item path next good inside depth deep once there
    obtain ⟨outcome, searched, ran⟩ := good inside depth deep once there
    exact ⟨outcome, searched, (settles_load? path).bind ran⟩
  · intro item next good inside depth deep once there
    obtain ⟨outcome, searched, ran⟩ := good inside depth deep once there
    exact ⟨outcome, searched, settles_moduleLimit.bind ran⟩

end Work

end ApiSections
