import ApiSections.Proofs.Workspace.Modules
import ApiSections.Workspace.Walk
import Mathlib.Data.List.Dedup
import Mathlib.Data.List.Perm.Subperm

/-!
What a walk keeps. A walk gives up in front of an item only if it is looking into that item already:
there is room for all items that can be met.
-/

namespace ApiSections.Walk

variable {κ β : Type} {walk : Walk κ β}

section Steps

variable [DecidableEq κ] {good : Work β → Prop} {among : κ → Prop} (stop : good (pure walk.stop))
  (step : ∀ next item, among item → (∀ other, among other → good (next other)) →
    good (walk.step next item))

include stop step

theorem within_induction {beyond : Nat → List κ → κ → Work β}
    (out : ∀ room seen item, among item → good (beyond room seen item)) (room : Nat)
    (seen : List κ) (item : κ) (inside : among item) : good (walk.within beyond room seen item) := by
  induction room generalizing seen item with
  | zero =>
    rw [within]
    split
    · exact stop
    · split
      · exact stop
      · exact out 0 seen item inside
  | succ room ih =>
    rw [within]
    split
    · exact stop
    · split
      · exact step _ item inside fun other member => ih (item :: seen) other member
      · exact out (room + 1) seen item inside

variable (load : ∀ path next, (∀ module, good (next module)) → good (Work.load? path >>= next))

include load

theorem across_induction (modules room : Nat) (seen : List κ) (item : κ) (inside : among item) :
    good (walk.across modules room seen item) := by
  induction modules generalizing room seen item with
  | zero => exact within_induction stop step (fun _ _ _ _ => stop) room seen item inside
  | succ modules ih =>
    apply within_induction stop step _ room seen item inside
    intro room seen item inside
    apply load
    intro module
    exact step _ item inside fun other member => ih _ _ other member

variable (good among) in
/-- A walk keeps what its steps keep, on the items that they lead to. -/
theorem run_induction (limit : ∀ next, (∀ modules, good (next modules)) →
    good (Work.moduleLimit >>= next)) {item : κ} (inside : among item) : good (walk.run item) := by
  apply limit
  intro modules
  exact across_induction stop step load modules 0 [] item inside

end Steps

/-- The modules that a walk has come to. -/
def met (walk : Walk κ β) (seen : List κ) : List Path := (seen.map walk.source).dedup

theorem meets_iff {seen : List κ} {item : κ} :
    walk.meets seen item ↔ walk.source item ∈ walk.met seen := by
  simp only [meets, met, List.any_eq_true, beq_iff_eq, List.mem_dedup, List.mem_map]

/-- A list of the items of every module, which are no more than the walk has room for. -/
structure Chart (workspace : Workspace) (walk : Walk κ β) where
  items : Path → List κ
  bounded : ∀ path, (items path).length ≤ ((workspace.module? path).map walk.extent).getD 0

namespace Chart

variable {workspace : Workspace} (chart : Chart workspace walk)

/-- An item that is on the chart. -/
def Has (item : κ) : Prop :=
  item ∈ chart.items (walk.source item) ∧ walk.source item ∈ workspace.paths

/-- There are as many more modules and as much more room as a walk can need. -/
structure Enough (modules room : Nat) (seen : List κ) : Prop where
  once : seen.Nodup
  charted : ∀ item ∈ seen, chart.Has item
  modules : workspace.paths.length ≤ (walk.met seen).length + modules
  room : ((walk.met seen).flatMap chart.items).length ≤ room + seen.length

variable {chart} {modules room : Nat} {seen : List κ} {item : κ}

theorem length_met_lt (charted : ∀ item ∈ seen, chart.Has item) (inside : chart.Has item)
    (fresh : ¬ walk.meets seen item) : (walk.met seen).length < workspace.paths.length := by
  have distinct : (walk.source item :: walk.met seen).Nodup :=
    List.nodup_cons.mpr ⟨mt meets_iff.mpr fresh, List.nodup_dedup _⟩
  have listed : walk.source item :: walk.met seen ⊆ workspace.paths := by
    intro path member
    rcases List.mem_cons.mp member with rfl | member
    · exact inside.2
    · obtain ⟨other, known, rfl⟩ := List.mem_map.mp (List.mem_dedup.mp member)
      exact (charted other known).2
  exact (List.Nodup.subperm distinct listed).length_le

theorem length_lt_items (enough : chart.Enough modules room seen) (inside : chart.Has item)
    (fresh : item ∉ seen) (meets : walk.meets seen item) :
    seen.length < ((walk.met seen).flatMap chart.items).length := by
  have distinct : (item :: seen).Nodup := List.nodup_cons.mpr ⟨fresh, enough.once⟩
  have listed : item :: seen ⊆ (walk.met seen).flatMap chart.items := by
    intro other member
    rcases List.mem_cons.mp member with rfl | member
    · exact List.mem_flatMap.mpr ⟨_, meets_iff.mp meets, inside.1⟩
    · have source : walk.source other ∈ walk.met seen :=
        List.mem_dedup.mpr (List.mem_map_of_mem member)
      exact List.mem_flatMap.mpr ⟨_, source, (enough.charted other member).1⟩
  exact (List.Nodup.subperm distinct listed).length_le

theorem Enough.start : chart.Enough workspace.paths.length 0 [] where
  once := List.nodup_nil
  charted := by simp
  modules := Nat.le_add_left _ _
  room := Nat.zero_le _

/-- One item more in a module that the walk has come to takes its place. -/
theorem Enough.within (enough : chart.Enough modules (room + 1) seen) (inside : chart.Has item)
    (fresh : item ∉ seen) (meets : walk.meets seen item) :
    chart.Enough modules room (item :: seen) := by
  have same : walk.met (item :: seen) = walk.met seen :=
    List.dedup_cons_of_mem (List.mem_dedup.mp (meets_iff.mp meets))
  refine ⟨List.nodup_cons.mpr ⟨fresh, enough.once⟩, ?_, ?_, ?_⟩
  · intro other member
    rcases List.mem_cons.mp member with rfl | member
    · exact inside
    · exact enough.charted other member
  · rw [same]
    exact enough.modules
  · rw [same, List.length_cons]
    have bound := enough.room
    omega

/-- Another module brings room for its own items. -/
theorem Enough.across (enough : chart.Enough (modules + 1) room seen) (inside : chart.Has item)
    (fresh : ¬ walk.meets seen item) :
    chart.Enough modules
      (room + ((workspace.module? (walk.source item)).map walk.extent).getD 0) (item :: seen) := by
  have more : walk.met (item :: seen) = walk.source item :: walk.met seen :=
    List.dedup_cons_of_notMem (mt List.mem_dedup.mpr (mt meets_iff.mpr fresh))
  have new : item ∉ seen := by
    intro member
    exact fresh (meets_iff.mpr (List.mem_dedup.mpr (List.mem_map_of_mem member)))
  refine ⟨List.nodup_cons.mpr ⟨new, enough.once⟩, ?_, ?_, ?_⟩
  · intro other member
    rcases List.mem_cons.mp member with rfl | member
    · exact inside
    · exact enough.charted other member
  · have bound := enough.modules
    rw [more, List.length_cons]
    omega
  · have bound := enough.room
    have extent := chart.bounded (walk.source item)
    rw [more, List.flatMap_cons, List.length_append, List.length_cons]
    omega

section Charted

variable [DecidableEq κ] {good : List κ → κ → Work β → Prop}
  (stop : ∀ seen item, chart.Has item → item ∈ seen → good seen item (pure walk.stop))
  (step : ∀ seen item next, chart.Has item → item ∉ seen →
    (∀ other, chart.Has other → good (item :: seen) other (next other)) →
    good seen item (walk.step next item))

include stop step

theorem within_charted {beyond : Nat → List κ → κ → Work β}
    (out : ∀ room seen item, chart.Enough modules room seen → chart.Has item →
      ¬ walk.meets seen item → good seen item (beyond room seen item))
    (enough : chart.Enough modules room seen) (inside : chart.Has item) :
    good seen item (walk.within beyond room seen item) := by
  induction room generalizing seen item with
  | zero =>
    rw [within]
    split
    · exact stop seen item inside ‹_›
    · rename_i fresh
      split
      · rename_i meets
        have taken := length_lt_items enough inside fresh meets
        have bound := enough.room
        omega
      · exact out 0 seen item enough inside ‹_›
  | succ room ih =>
    rw [within]
    split
    · exact stop seen item inside ‹_›
    · rename_i fresh
      split
      · rename_i meets
        apply step seen item _ inside fresh
        intro other charted
        exact ih (enough.within inside fresh meets) charted
      · exact out (room + 1) seen item enough inside ‹_›

variable (load : ∀ seen item path next, good seen item (next (workspace.module? path)) →
  good seen item (Work.load? path >>= next))

include load

theorem across_charted (enough : chart.Enough modules room seen) (inside : chart.Has item) :
    good seen item (walk.across modules room seen item) := by
  induction modules generalizing room seen item with
  | zero =>
    apply within_charted stop step _ enough inside
    intro room seen item enough inside fresh
    have bound := length_met_lt enough.charted inside fresh
    have modules := enough.modules
    omega
  | succ modules ih =>
    apply within_charted stop step _ enough inside
    intro room seen item enough inside fresh
    apply load
    apply step seen item _ inside
    · intro member
      exact fresh (meets_iff.mpr (List.mem_dedup.mpr (List.mem_map_of_mem member)))
    · intro other charted
      exact ih (enough.across inside fresh) charted

variable (chart good) in
/-- On a chart a walk goes from item to item, and gives up only in front of one that it is looking
into. -/
theorem run_charted (limit : ∀ item next, good [] item (next workspace.paths.length) →
    good [] item (Work.moduleLimit >>= next)) (inside : chart.Has item) :
    good [] item (walk.run item) := by
  apply limit
  exact across_charted stop step load .start inside

end Charted

end Chart

end ApiSections.Walk
