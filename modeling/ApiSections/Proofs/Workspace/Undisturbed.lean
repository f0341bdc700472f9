import ApiSections.Proofs.File.Replace
import ApiSections.Proofs.Fragment.Likeness
import ApiSections.Proofs.Workspace.Returns

/-!
A file that no module was read from can be replaced without an effect on a pass.
-/

namespace ApiSections.Work

/-- Two workspaces that differ at most in the bytes of one file. -/
structure Beside (place : List String) (bytes : List UInt8) (first second : Workspace) : Prop where
  tree : FileTree.Replaced first.tree second.tree place bytes
  target : second.target = first.target
  ask : second.ask = first.ask

/-- No module of a pass was read from a place. -/
def Unread (workspace : Workspace) (place : List String) (pass : Pass) : Prop :=
  ∀ module ∈ pass.modules, workspace.tree.locate? module.path ≠ some place

/-- A step that forgets no module, and that runs in a second workspace as in a first one unless it
reads the file in which they differ. -/
def Undisturbed {α : Type} (place : List String) (first second : Workspace) (step : Work α) : Prop :=
  ∀ pass value last, Returns step first pass value last →
    pass.modules ⊆ last.modules ∧ (Unread first place last → Returns step second pass value last)

namespace Undisturbed

variable {α β : Type} {place : List String} {first second : Workspace}

/-- A step that does not look at the workspace and leaves the modules alone. -/
theorem of_same {step : Work α} (same : step.run second = step.run first)
    (kept : ∀ pass value last, Returns step first pass value last → last.modules = pass.modules) :
    Undisturbed place first second step := by
  intro pass value last ran
  refine ⟨by rw [kept pass value last ran]; exact List.Subset.refl _, fun _ => ?_⟩
  rw [Returns, same]
  exact ran

theorem bind {step : Work α} {next : α → Work β} (start : Undisturbed place first second step)
    (rest : ∀ value, Undisturbed place first second (next value)) :
    Undisturbed place first second (step >>= next) := by
  intro pass value last ran
  rw [returns_bind] at ran
  obtain ⟨middle, between, before, after⟩ := ran
  obtain ⟨kept, same⟩ := start pass middle between before
  obtain ⟨kept_after, same_after⟩ := rest middle between value last after
  refine ⟨List.Subset.trans kept kept_after, fun unread => ?_⟩
  rw [returns_bind]
  exact ⟨middle, between, same fun module member => unread module (kept_after member),
    same_after unread⟩

theorem pure (value : α) : Undisturbed place first second (Pure.pure value) := by
  apply of_same rfl
  intro pass result last ran
  rw [(returns_pure.mp ran).2]

theorem throw (fault : Fault) : Undisturbed place first second (MonadExcept.throw fault : Work α) :=
  fun _ _ _ ran => absurd ran not_returns_throw

theorem mapM {step : α → Work β} {items : List α}
    (each : ∀ item ∈ items, Undisturbed place first second (step item)) :
    Undisturbed place first second (items.mapM step) := by
  induction items with
  | nil =>
    rw [List.mapM_nil]
    exact pure []
  | cons item items ih =>
    rw [List.mapM_cons]
    apply bind (each item List.mem_cons_self)
    intro value
    apply bind (ih fun other member => each other (List.mem_cons_of_mem _ member))
    intro values
    exact pure (value :: values)

theorem look : Undisturbed place first second (get : Work Pass) := by
  apply of_same rfl
  intro pass value last ran
  cases ran
  rfl

theorem note {change : Pass → Pass} (kept : ∀ pass, (change pass).modules = pass.modules) :
    Undisturbed place first second (modify change : Work Unit) := by
  apply of_same rfl
  intro pass value last ran
  cases ran
  exact kept pass

theorem known (path : Path) : Undisturbed place first second (known? path) :=
  bind look fun _ => pure _

theorem membersAt (place' : Place) (members : List Member) :
    Undisturbed place first second (Work.membersAt place' members) := by
  apply bind look
  intro pass
  split
  · exact pure _
  · exact bind (note fun _ => rfl) fun _ => pure _

theorem remembered (owner : Symbol) (name : String) :
    Undisturbed place first second (Work.remembered owner name) :=
  bind look fun _ => pure _

theorem remember (owner : Symbol) (name : String) (found : Option Symbol) :
    Undisturbed place first second (Work.remember owner name found) :=
  note fun _ => rfl

theorem emit (logger : Log.Logger) (level : Int) (message : String) (extra : Fields) :
    Undisturbed place first second (Work.emit logger level message extra) :=
  note fun _ => rfl

theorem announce (line : String) : Undisturbed place first second (Work.announce line) :=
  note fun _ => rfl

theorem linkTo (target : Link.Target) (ask : Path → Link.Answer) (path : Path) (line : Int) :
    Undisturbed place first second (Fragment.linkTo target ask path line) := by
  rw [Fragment.linkTo]
  apply bind look
  intro pass
  rcases pass.links.relative ask path with ⟨relative, asked, links⟩
  apply bind
  · exact note fun _ => rfl
  · intro _
    split
    · exact bind (emit _ _ _ _) fun _ => pure _
    · exact pure _

theorem add (module : Module) : Undisturbed place first second
    (modify fun pass => { pass with modules := pass.modules ++ [module] }) := by
  intro pass value last ran
  cases ran
  exact ⟨List.subset_append_left _ _, fun _ => rfl⟩

theorem loadFrom (path : Path) (bytes : Option (List UInt8)) :
    Undisturbed place first second (Work.loadFrom path bytes) := by
  apply bind (known path)
  intro found
  cases found with
  | some module => exact pure _
  | none =>
    cases bytes with
    | none => exact pure _
    | some bytes => exact bind (add _) fun _ => bind (emit _ _ _ _) fun _ => pure _

end Undisturbed

theorem returns_known? {path : Path} {workspace : Workspace} {pass last : Pass}
    {found : Option Module} (ran : Returns (known? path) workspace pass found last) :
    last = pass ∧ pass.modules.find? (·.path == path) = found := by
  have same : ((.ok (pass.modules.find? (·.path == path)), pass) : Except Fault _ × Pass) =
      (.ok found, last) := ran
  injection same with same_value same_pass
  injection same_value with same_value
  exact ⟨same_pass.symm, same_value⟩

theorem mem_of_loadFrom {path : Path} {bytes : List UInt8} {workspace : Workspace}
    {pass last : Pass} {value : Option Module}
    (ran : Returns (loadFrom path (some bytes)) workspace pass value last) :
    ∃ module ∈ last.modules, module.path = path := by
  rw [loadFrom, returns_bind] at ran
  obtain ⟨found, between, knows, ran⟩ := ran
  cases found with
  | some module =>
    obtain ⟨_, rfl⟩ := returns_pure.mp ran
    obtain ⟨rfl, found⟩ := returns_known? knows
    exact ⟨module, List.mem_of_find?_eq_some found, by simpa using List.find?_some found⟩
  | none =>
    simp only [returns_bind, returns_pure] at ran
    obtain ⟨_, _, adds, _, _, notes, _, rfl⟩ := ran
    cases adds
    cases notes
    exact ⟨Module.ofBytes path bytes, List.mem_append_right _ (List.mem_singleton.mpr rfl), rfl⟩

theorem returns_load? {path : Path} {workspace : Workspace} {pass last : Pass}
    {value : Option Module} :
    Returns (load? path) workspace pass value last ↔
      Returns (loadFrom (workspace.tree.resolve path)
        (workspace.tree.read? (workspace.tree.resolve path))) workspace pass value last := by
  rw [load?, returns_read]

section Beside

variable {place : List String} {bytes : List UInt8} {first second : Workspace}
  (beside : Beside place bytes first second)

include beside

theorem Beside.there : ∃ old, first.tree.bytesAt? place = some old := by
  cases there : first.tree.bytesAt? place with
  | some old => exact ⟨old, rfl⟩
  | none =>
    rw [FileTree.bytesAt?_eq_none_iff, ← beside.tree.names, ← FileTree.bytesAt?_eq_none_iff,
      beside.tree.written] at there
    cases there

theorem Beside.load? (path : Path) : Undisturbed place first second (Work.load? path) := by
  intro pass value last ran
  rw [returns_load?] at ran
  generalize resolves : first.tree.resolve path = resolved at ran
  have loads : Undisturbed place first second
      (loadFrom resolved (first.tree.read? resolved)) := .loadFrom _ _
  obtain ⟨kept, again⟩ := loads pass value last ran
  refine ⟨kept, fun unread => ?_⟩
  -- Had the file been read, its module would be among those that the pass knows.
  have elsewhere : first.tree.locate? resolved ≠ some place := by
    intro located
    obtain ⟨old, there⟩ := beside.there
    have content : first.tree.read? resolved = some old := by
      rw [FileTree.read?, located]
      exact there
    rw [content] at ran
    obtain ⟨module, member, same⟩ := mem_of_loadFrom ran
    exact unread module member (by rw [same]; exact located)
  rw [returns_load?, beside.tree.resolve_eq, resolves, beside.tree.read?_eq elsewhere]
  exact again unread

theorem Beside.loadFirst (candidates : List Path) :
    Undisturbed place first second (Work.loadFirst candidates) := by
  have files : second.tree.isFile = first.tree.isFile := funext beside.tree.isFile_eq
  intro pass value last ran
  rw [Work.loadFirst, returns_read] at ran ⊢
  rw [files]
  cases found : candidates.find? first.tree.isFile with
  | none =>
    rw [found] at ran
    exact Undisturbed.pure none pass value last ran
  | some path =>
    rw [found] at ran
    exact beside.load? path pass value last ran

theorem Beside.resolveModule (importer : Path) (specifier : String) :
    Undisturbed place first second (Work.resolveModule importer specifier) := by
  rw [Work.resolveModule]
  split
  · exact .pure _
  · split
    · exact .throw _
    · exact beside.loadFirst _

theorem Beside.linkFor (path : Path) (line : Int) :
    Undisturbed place first second (Fragment.linkFor path line) := by
  intro pass value last ran
  rw [Fragment.linkFor, returns_read] at ran ⊢
  rw [beside.target, beside.ask, beside.tree.resolve_eq]
  cases wanted : first.target with
  | none =>
    rw [wanted] at ran
    exact Undisturbed.pure none pass value last ran
  | some target =>
    rw [wanted] at ran
    exact Undisturbed.linkTo target first.ask _ line pass value last ran

theorem Beside.moduleLimit : Undisturbed place first second Work.moduleLimit := by
  have files : second.tree.files.length = first.tree.files.length := by
    rw [← List.length_map Prod.fst, ← List.length_map Prod.fst, beside.tree.names]
  intro pass value last ran
  rw [Work.moduleLimit, returns_read] at ran ⊢
  rw [files]
  exact Undisturbed.pure _ pass value last ran

omit beside in
/-- To run undisturbed is kept when steps are put together. -/
def undisturbed (place : List String) (first second : Workspace) : Likeness where
  alike step other := step = other ∧ Undisturbed place first second step
  pure value := ⟨rfl, .pure value⟩
  bind start rest := by
    obtain ⟨rfl, start⟩ := start
    exact ⟨congrArg _ (funext fun value => (rest value).1), start.bind fun value => (rest value).2⟩
  emit logger level message extra := ⟨rfl, .emit logger level message extra⟩

omit beside in
theorem Undisturbed.keeps {α : Type} {step : Work α} (runs : Undisturbed place first second step) :
    (undisturbed place first second).Keeps step :=
  ⟨rfl, runs⟩

theorem Beside.follow (symbol : Symbol) :
    (undisturbed place first second).Keeps (Lookup.follow symbol) :=
  Lookup.keeps_follow (fun path => (beside.load? path).keeps)
    (fun importer specifier => (beside.resolveModule importer specifier).keeps)
    beside.moduleLimit.keeps symbol

/-- Look-ups are undisturbed by a file that they do not read. -/
theorem Beside.lookups : Fragment.Lookups (undisturbed place first second) where
  symbol path node := by
    apply Lookup.keeps_symbolAt
    · exact .of_modules (fun path => (beside.load? path).keeps)
        (fun importer specifier => (beside.resolveModule importer specifier).keeps)
        beside.moduleLimit.keeps
    · exact fun place members => (Undisturbed.membersAt place members).keeps
    · exact fun owner name => (Undisturbed.remembered owner name).keeps
    · exact fun owner name found => (Undisturbed.remember owner name found).keeps
  link path line := (beside.linkFor path line).keeps

theorem Beside.load (path : Path) : Undisturbed place first second (Work.load path) := by
  apply Undisturbed.bind (beside.load? path)
  intro found
  cases found with
  | some module => exact .pure module
  | none => exact .throw _

/-- The fragments of a file do not depend on a file that is not read for them. -/
theorem Beside.render (path : Path) (marks : String) :
    Undisturbed place first second (Fragment.render path marks) := by
  rw [Fragment.render]
  apply Undisturbed.bind (beside.load path)
  intro module
  have fragments : Undisturbed place first second (do
      let fragments ← module.exported.mapM fun symbol =>
        Fragment.renderSymbol marks symbol.name symbol
      return String.join fragments) := by
    apply Undisturbed.bind
    · exact .mapM fun symbol _ =>
        (Fragment.keeps_renderSymbol beside.lookups _ _ (beside.follow symbol)).2
    · exact fun _ => .pure _
  split
  · exact .bind (.throw _) fun _ => fragments
  · exact fragments

end Beside

end ApiSections.Work
