import ApiSections.Proofs.Lookup.Placed

/-!
Chains of specifiers. An import or an entry of an export list names a symbol, which may be an alias in
its turn; following a chain leads to where it ends, whatever its length.
-/

namespace ApiSections

open Work (Settles)

variable {workspace : Workspace} {right : Work.Rightness}

/-- The module that a specifier leads to, if it exports something. -/
def Workspace.exporting? (workspace : Workspace) (importer : Path) (source : String) :
    Option Module :=
  match Work.resolution workspace importer source with
  | .ok (some module) => if module.isModule then some module else none
  | _ => none

/-- The symbol that a specifier names: one of its own module, or one that another module exports. -/
def Declaration.named? (workspace : Workspace) (specifier : Declaration) : Option Symbol :=
  match specifier.shape with
  | .exportSpecifier inside none => (workspace.module? specifier.path).bind (·.local? inside)
  | .exportSpecifier inside (some source) | .importSpecifier inside source =>
    (workspace.exporting? specifier.path source).bind (Lookup.exportNamed? · inside)
  | _ => none

/-- The symbol that the first specifier of a symbol names. -/
def Symbol.named? (workspace : Workspace) (symbol : Symbol) : Option Symbol :=
  symbol.declarations.head?.bind (·.named? workspace)

section Named

variable {importer : Path} {inside source : String} {module : Module} {specifier : Declaration}
  {symbol named : Symbol}

theorem Workspace.resolution_of_exporting?
    (found : workspace.exporting? importer source = some module) :
    Work.resolution workspace importer source = .ok (some module) ∧ module.isModule = true := by
  rw [Workspace.exporting?] at found
  split at found
  · split at found
    · cases found
      exact ⟨‹_›, ‹_›⟩
    · cases found
  · cases found

theorem Declaration.isSpecifier_of_named? (names : specifier.named? workspace = some named) :
    specifier.shape.isSpecifier = true := by
  rw [Declaration.named?] at names
  split at names
  all_goals first
    | (rename_i shape; rw [shape, Shape.isSpecifier])
    | cases names

theorem Declaration.listed_of_named? (names : specifier.named? workspace = some named) :
    named.Listed workspace := by
  have other : ∀ {inside source}, (workspace.exporting? specifier.path source).bind
      (Lookup.exportNamed? · inside) = some named → named.Listed workspace := by
    intro inside source names
    obtain ⟨module, there, found⟩ := Option.bind_eq_some_iff.mp names
    exact Module.listed_of_exportNamed?
      (Lookup.module?_of_resolution (Workspace.resolution_of_exporting? there).1) found
  rw [Declaration.named?] at names
  split at names
  · exact Module.listed_of_declared names
  · exact other names
  · exact other names
  · cases names

theorem Lookup.settles_localOf {path : Path} (referrer : String)
    (names : (workspace.module? path).bind (·.local? inside) = some named) :
    Settles workspace right (localOf path inside referrer) (.ok (.ok named)) := by
  apply (Work.settles_load? path).bind
  rw [names]
  exact .pure _

theorem Lookup.settles_exportOf
    (names : (workspace.exporting? importer source).bind (exportNamed? · inside) = some named) :
    Settles workspace right (exportOf importer source inside) (.ok (.ok named)) := by
  obtain ⟨module, there, found⟩ := Option.bind_eq_some_iff.mp names
  obtain ⟨resolved, isModule⟩ := Workspace.resolution_of_exporting? there
  have resolves : Settles workspace right (Work.resolveModule importer source)
      (.ok (some module)) := resolved ▸ Work.settles_resolveModule importer source
  apply resolves.bind
  simp only [isModule, Bool.not_true, Bool.false_eq_true, ↓reduceIte, found]
  exact .pure _

/-- What the first specifier of a symbol names is what the symbol is an alias of. -/
theorem Symbol.settles_aliasTarget (names : symbol.named? workspace = some named) :
    Settles workspace right (Lookup.aliasTarget symbol) (.ok (.ok named)) := by
  obtain ⟨specifier, first, names⟩ := Option.bind_eq_some_iff.mp names
  rw [Lookup.aliasTarget, first]
  rw [Declaration.named?] at names
  split at names
  · rename_i shape
    simp only [shape]
    exact Lookup.settles_localOf _ names
  · rename_i shape
    simp only [shape]
    exact Lookup.settles_exportOf names
  · rename_i shape
    simp only [shape]
    exact Lookup.settles_exportOf names
  · cases names

theorem Symbol.listed_of_named? (names : symbol.named? workspace = some named) :
    named.Listed workspace := by
  obtain ⟨specifier, _, names⟩ := Option.bind_eq_some_iff.mp names
  exact Declaration.listed_of_named? names

/-- A symbol of a module that names another one is an alias. -/
theorem Symbol.isAlias_of_named? (names : symbol.named? workspace = some named)
    (listed : symbol.Listed workspace) : symbol.isAlias = true := by
  obtain ⟨specifier, first, names⟩ := Option.bind_eq_some_iff.mp names
  obtain ⟨module, _, _, stands⟩ := listed.standsIn
  have among := stands.declarations specifier (List.mem_of_head? first)
  exact (among.bare (Declaration.isSpecifier_of_named? names)).2

end Named

namespace Lookup

/-- A chain of specifiers from a symbol to one that is no alias, with as many symbols between. -/
inductive Chain (workspace : Workspace) (target : Symbol) : Nat → Symbol → Prop
  | last {symbol : Symbol} (names : symbol.named? workspace = some target)
      (ends : target.isAlias = false) : Chain workspace target 0 symbol
  | link {symbol next : Symbol} {length : Nat} (names : symbol.named? workspace = some next)
      (rest : Chain workspace target length next) : Chain workspace target (length + 1) symbol

namespace Chain

variable {symbol target : Symbol} {length : Nat}

theorem isAlias (chain : Chain workspace target length symbol) (listed : symbol.Listed workspace) :
    symbol.isAlias = true := by
  cases chain with
  | last names ends => exact Symbol.isAlias_of_named? names listed
  | link names rest => exact Symbol.isAlias_of_named? names listed

/-- A chain ends at a symbol of a module that is no alias. -/
theorem ends (chain : Chain workspace target length symbol) :
    target.Listed workspace ∧ target.isAlias = false := by
  induction chain with
  | last names ends => exact ⟨Symbol.listed_of_named? names, ends⟩
  | link names rest ih => exact ih

/-- What a symbol names is determined, and so is the length of its chain. -/
theorem length_unique {other : Nat} (chain : Chain workspace target length symbol)
    (again : Chain workspace target other symbol) : length = other := by
  -- The end of a chain is no alias, so that no chain goes on from there.
  have finished : ∀ {symbol : Symbol} {length : Nat}, symbol.named? workspace = some target →
      target.isAlias = false → ¬ Chain workspace target length target := by
    intro symbol length names ends rest
    rw [rest.isAlias (Symbol.listed_of_named? names)] at ends
    cases ends
  induction chain generalizing other with
  | last names ends =>
    cases again with
    | last names' ends' => rfl
    | link names' rest' =>
      cases names.symm.trans names'
      exact absurd rest' (finished names ends)
  | link names rest ih =>
    cases again with
    | last names' ends' =>
      cases names.symm.trans names'
      exact absurd rest (finished names' ends')
    | link names' rest' =>
      cases names.symm.trans names'
      rw [ih rest']

end Chain

/-- The symbols of a module. -/
def symbolChart (workspace : Workspace) (name : String) : Walk.Chart workspace (aliases name) where
  items path := ((workspace.module? path).map Module.symbols).getD []
  bounded path := by
    cases workspace.module? path with
    | none => exact Nat.le_refl _
    | some module => exact Nat.le_refl _

theorem charted_of_listed {symbol : Symbol} {name : String} (listed : symbol.Listed workspace) :
    (symbolChart workspace name).Has symbol := by
  obtain ⟨module, found, member, stands⟩ := listed.standsIn
  have source : (aliases name).source symbol = module.path := stands.here
  rw [Walk.Chart.Has, source]
  refine ⟨?_, Workspace.path_mem_paths found⟩
  simp only [symbolChart, found, Option.map_some, Option.getD_some]
  exact member

/-- Following a symbol at the start of a chain leads to its end. -/
theorem Chain.settles_follow {symbol target : Symbol} {length : Nat}
    (chain : Chain workspace target length symbol) (listed : symbol.Listed workspace) :
    Settles workspace right (follow symbol) (.ok (.ok target)) := by
  rw [follow, if_pos (chain.isAlias listed)]
  -- A symbol that is being looked into has a longer way to go, so that the walk never stops at one.
  refine Walk.Chart.run_charted (symbolChart workspace symbol.name)
    (fun seen item step => ∀ length, Chain workspace target length item →
      (∀ other ∈ seen, ∃ longer, length < longer ∧ Chain workspace target longer other) →
      Settles workspace right step (.ok (.ok target))) ?_ ?_ ?_ ?_ (charted_of_listed listed) length
    chain (by simp)
  · intro seen item _ member length chain behind
    obtain ⟨longer, less, again⟩ := behind item member
    rw [chain.length_unique again] at less
    exact absurd less (Nat.lt_irrefl _)
  · intro seen item next _ _ ih length chain behind
    cases chain with
    | last names ends =>
      apply (Symbol.settles_aliasTarget names).bind
      simp only [ends, Bool.false_eq_true, ↓reduceIte]
      exact .pure _
    | link names rest =>
      have listed := Symbol.listed_of_named? names
      apply (Symbol.settles_aliasTarget names).bind
      simp only [rest.isAlias listed, ↓reduceIte]
      apply ih _ (charted_of_listed listed) _ rest
      intro other member
      rcases List.mem_cons.mp member with rfl | member
      · exact ⟨_, Nat.lt_succ_self _, .link names rest⟩
      · obtain ⟨longer, less, again⟩ := behind other member
        exact ⟨longer, Nat.lt_of_succ_lt less, again⟩
  · intro seen item path next settles length chain behind
    exact (Work.settles_load? path).bind (settles length chain behind)
  · intro item next settles length chain behind
    exact Work.settles_moduleLimit.bind (settles length chain behind)

end Lookup

end ApiSections
