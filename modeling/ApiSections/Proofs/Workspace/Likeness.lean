import ApiSections.Fragment.Render
import ApiSections.Proofs.Workspace.Walk

/-!
Relations between steps that are kept when steps are put together. What such a relation says of the
look-ups in modules it says of everything that is composed of them.
-/

namespace ApiSections.Work

/-- A relation between the steps of two monads that is kept when steps are put together. -/
structure StepRelation (m m' : Type → Type) [Monad m] [Monad m'] where
  alike : {α : Type} → m α → m' α → Prop
  pure : ∀ {α : Type} (value : α), alike (pure value) (pure value)
  bind : ∀ {α β : Type} {first : m α} {second : m' α} {next : α → m β} {other : α → m' β},
    alike first second → (∀ value, alike (next value) (other value)) →
    alike (first >>= next) (second >>= other)

/-- A relation between the steps of passes, which holds of notes. -/
structure Likeness extends StepRelation Work Work where
  emit : ∀ (logger : Log.Logger) (level : Int) (message : String) (extra : Fields),
    alike (emit logger level message extra) (emit logger level message extra)

namespace Likeness

variable {L : Likeness} {α β : Type}

/-- A step that is like itself. -/
def Keeps (L : Likeness) (step : Work α) : Prop := L.alike step step

theorem alike_map {first second : Work α} (same : L.alike first second) (view : α → β) :
    L.alike (view <$> first) (view <$> second) := by
  rw [map_eq_pure_bind, map_eq_pure_bind]
  exact L.bind same fun value => L.pure (view value)

theorem keeps_mapM {step : α → Work β} {items : List α}
    (each : ∀ item ∈ items, L.Keeps (step item)) : L.Keeps (items.mapM step) := by
  induction items with
  | nil =>
    rw [List.mapM_nil]
    exact L.pure []
  | cons item items ih =>
    rw [List.mapM_cons]
    apply L.bind (each item List.mem_cons_self)
    intro value
    apply L.bind (ih fun other member => each other (List.mem_cons_of_mem _ member))
    intro values
    exact L.pure (value :: values)

theorem keeps_debug (logger operation message : String) (extra : Fields) :
    L.Keeps (debug logger operation message extra) :=
  L.emit _ _ _ _

theorem keeps_run {κ : Type} [DecidableEq κ] {walk : Walk κ β} (among : κ → Prop)
    (load : ∀ path, L.Keeps (load? path)) (limit : L.Keeps moduleLimit)
    (step : ∀ next item, among item → (∀ other, among other → L.Keeps (next other)) →
      L.Keeps (walk.step next item)) {item : κ} (inside : among item) : L.Keeps (walk.run item) :=
  Walk.run_induction L.Keeps among (L.pure _) step (fun path _ rest => L.bind (load path) rest)
    (fun _ rest => L.bind limit rest) inside

end Likeness

end ApiSections.Work
