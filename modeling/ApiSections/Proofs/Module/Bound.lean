import ApiSections.Proofs.Module.Binding
import ApiSections.Proofs.Syntax.Grammar
import Mathlib.Data.List.Induction

/-!
What holds of the tables of every source: each name has one symbol, each symbol the declarations that
were recorded under its name, in source order, and exports come in the order they were first made in.
-/

namespace ApiSections

open Syntax (Node Laid)

section FirstOccurrences

variable (names more : List String) (name : String)

/-- A name behind the others, unless it is one of them. -/
def enlist (names : List String) (name : String) : List String :=
  if name ∈ names then names else names ++ [name]

theorem eraseDups_concat : (names ++ [name]).eraseDups = enlist names.eraseDups name := by
  rw [List.eraseDups_append, enlist]
  by_cases member : name ∈ names
  · simp [List.removeAll, List.mem_eraseDups, member]
  · simp [List.removeAll, List.mem_eraseDups, List.eraseDups_cons, member]

theorem nodup_enlist {names : List String} (distinct : names.Nodup) : (enlist names name).Nodup := by
  rw [enlist]
  split
  · exact distinct
  · rename_i fresh
    rw [List.nodup_append]
    refine ⟨distinct, by simp, ?_⟩
    intro other member same among
    rw [List.mem_singleton.mp among]
    exact fun equal => fresh (equal ▸ member)

theorem nodup_eraseDups : names.eraseDups.Nodup := by
  induction names using List.reverseRecOn with
  | nil => simp
  | append_singleton names name ih =>
    rw [eraseDups_concat]
    exact nodup_enlist name ih

theorem foldl_enlist : more.foldl enlist names.eraseDups = (names ++ more).eraseDups := by
  induction more generalizing names with
  | nil => simp
  | cons name more ih =>
    rw [List.foldl_cons, ← eraseDups_concat, ih]
    simp

end FirstOccurrences

/-- What declarations together make a symbol stand for. -/
def contributed (declarations : List Declaration) : SymbolFlags :=
  declarations.foldl (fun flags declaration => flags.union declaration.shape.contributes) .none

/-- A symbol whose declarations are some of those seen so far, in their order, and make it what it
is. -/
structure Symbol.Recorded (seen : List Declaration) (symbol : Symbol) : Prop where
  declared : symbol.declarations ≠ []
  flagged : symbol.flags = contributed symbol.declarations
  listed : symbol.declarations.Sublist seen

/-- What a symbol is once a declaration is recorded: it may have been extended by it, or made. -/
inductive Symbol.After (old : List Symbol) (declaration : Declaration) : Symbol → Prop
  | kept {symbol : Symbol} : symbol ∈ old → After old declaration symbol
  | extended {symbol : Symbol} : symbol ∈ old →
      After old declaration (symbol.add declaration declaration.shape.contributes)
  | made (id : SymbolId) (name : String) :
      After old declaration ⟨id, name, declaration.shape.contributes, [declaration]⟩

theorem Symbol.After.recorded {old : List Symbol} {declaration : Declaration} {symbol : Symbol}
    {seen : List Declaration} (after : symbol.After old declaration)
    (before : ∀ symbol ∈ old, symbol.Recorded seen) :
    symbol.Recorded (seen ++ [declaration]) := by
  cases after with
  | kept member =>
    obtain ⟨declared, flagged, listed⟩ := before symbol member
    exact ⟨declared, flagged, listed.trans (List.sublist_append_left _ _)⟩
  | @extended known member =>
    obtain ⟨_, flagged, listed⟩ := before known member
    refine ⟨by simp [Symbol.add], ?_, listed.append (List.Sublist.refl _)⟩
    rw [Symbol.add, flagged]
    simp only [contributed, List.foldl_append, List.foldl_cons, List.foldl_nil]
  | made id name =>
    refine ⟨by simp, ?_, List.sublist_append_right _ _⟩
    simp [contributed, SymbolFlags.union, SymbolFlags.none]

namespace Module

namespace Tables

variable {tables : Tables} {name : String} {declaration : Declaration} {flags : SymbolFlags}
  {symbol : Symbol}

def symbols (tables : Tables) : List Symbol := tables.locals ++ tables.exports.filterMap ownSymbol?

theorem mem_owned : symbol ∈ tables.exports.filterMap ownSymbol? ↔ .own symbol ∈ tables.exports := by
  rw [List.mem_filterMap]
  constructor
  · rintro ⟨entry, member, own⟩
    cases entry with
    | shared name => cases own
    | own found =>
      cases own
      exact member
  · exact fun member => ⟨.own symbol, member, rfl⟩

/-- The symbol of a name is extended or made, and no other one is touched. -/
theorem mem_declare (member : symbol ∈ (tables.declare name declaration flags).locals) :
    symbol.name ≠ name ∧ symbol ∈ tables.locals ∨
    symbol.name = name ∧ ((∃ old ∈ tables.locals, symbol = old.add declaration flags) ∨
      symbol = ⟨.inModule tables.path name, name, flags, [declaration]⟩) := by
  rw [declare] at member
  split at member
  · obtain ⟨old, listed, rfl⟩ := List.mem_map.mp member
    by_cases same : old.name = name
    · simp only [same, beq_self_eq_true, if_true]
      exact .inr ⟨same, .inl ⟨old, listed, rfl⟩⟩
    · simp only [beq_iff_eq, same, if_false]
      exact .inl ⟨same, listed⟩
  · rename_i fresh
    rcases List.mem_append.mp member with member | member
    · refine .inl ⟨?_, member⟩
      intro same
      exact fresh (List.any_eq_true.mpr ⟨symbol, member, by simp [same]⟩)
    · rw [List.mem_singleton.mp member]
      exact .inr ⟨rfl, .inr rfl⟩

@[simp] theorem declare_exports :
    (tables.declare name declaration flags).exports = tables.exports := by
  rw [declare]
  split <;> rfl

theorem declare_names : (tables.declare name declaration flags).locals.map Symbol.name =
    enlist (tables.locals.map Symbol.name) name := by
  have known : tables.locals.any (·.name == name) = true ↔
      name ∈ tables.locals.map Symbol.name := by simp
  rw [declare, enlist]
  by_cases member : name ∈ tables.locals.map Symbol.name
  · rw [if_pos (known.mpr member), if_pos member, List.map_map]
    apply List.map_congr_left
    intro symbol _
    simp only [Function.comp]
    split <;> rfl
  · rw [if_neg fun any => member (known.mp any), if_neg member, List.map_append]
    rfl

theorem mem_declareExport
    (member : .own symbol ∈ (tables.declareExport name declaration flags).exports) :
    .own symbol ∈ tables.exports ∨
    (∃ old, .own old ∈ tables.exports ∧ symbol = old.add declaration flags) ∨
    symbol = ⟨.exported tables.path name, name, flags, [declaration]⟩ := by
  rw [declareExport] at member
  split at member
  · rcases List.mem_append.mp member with member | member
    · exact .inl member
    · exact .inr (.inr (Export.own.inj (List.mem_singleton.mp member)))
  · rw [declare_exports] at member
    exact .inl member
  · rename_i known found
    obtain ⟨entry, listed, same⟩ := List.mem_map.mp member
    split at same
    · exact .inr (.inl ⟨known, List.mem_of_find?_eq_some found, (Export.own.inj same).symm⟩)
    · rw [same] at listed
      exact .inl listed

theorem named_of_find? {entry : Export} (found : tables.exports.find? (·.name == name) = some entry) :
    entry.name = name ∧ name ∈ tables.exports.map Export.name := by
  have same : entry.name = name := by simpa using List.find?_some found
  exact ⟨same, List.mem_map.mpr ⟨entry, List.mem_of_find?_eq_some found, same⟩⟩

theorem declareExport_names : (tables.declareExport name declaration flags).exports.map Export.name =
    enlist (tables.exports.map Export.name) name := by
  rw [declareExport, enlist]
  split
  · rename_i missing
    have fresh : name ∉ tables.exports.map Export.name := by
      simpa [List.find?_eq_none] using missing
    rw [if_neg fresh, List.map_append]
    rfl
  · rename_i found
    rw [if_pos (named_of_find? found).2, declare_exports]
  · rename_i found
    obtain ⟨same, known⟩ := named_of_find? found
    rw [if_pos known, List.map_map]
    apply List.map_congr_left
    intro entry _
    simp only [Function.comp]
    split
    · rename_i this
      rw [beq_iff_eq.mp this]
      exact same
    · rfl

theorem share_names : (tables.share name).exports.map Export.name =
    enlist (tables.exports.map Export.name) name := by
  have known : tables.exports.any (·.name == name) = true ↔
      name ∈ tables.exports.map Export.name := by simp
  rw [share, enlist]
  by_cases member : name ∈ tables.exports.map Export.name
  · rw [if_pos (known.mpr member), if_pos member]
  · rw [if_neg fun any => member (known.mp any), if_neg member, List.map_append]
    rfl

theorem mem_declareExport_locals
    (member : symbol ∈ (tables.declareExport name declaration flags).locals) :
    symbol ∈ tables.locals ∨ symbol ∈ (tables.declare name declaration flags).locals := by
  rw [declareExport] at member
  split at member
  · exact .inl member
  · exact .inr member
  · exact .inl member

theorem mem_share (member : .own symbol ∈ (tables.share name).exports) :
    .own symbol ∈ tables.exports := by
  rw [share] at member
  split at member
  · exact member
  · simpa using member

@[simp] theorem share_locals : (tables.share name).locals = tables.locals := by
  rw [share]
  split <;> rfl

/-- The tables once a declaration is recorded under its name inside of the module, if it has one. -/
def inside (tables : Tables) (localName : Option String) (declaration : Declaration)
    (flags : SymbolFlags) : Tables :=
  match localName with
  | some name => tables.declare name declaration flags
  | none => tables

theorem record_eq (tables : Tables) (entry : Binding) :
    let inner := tables.inside entry.localName entry.declaration entry.declaration.shape.contributes
    tables.record entry = match entry.exportName with
      | none => inner
      | some name => if entry.localName == some name then inner.share name
        else inner.declareExport name entry.declaration entry.declaration.shape.contributes := rfl

@[simp] theorem inside_exports {localName : Option String} :
    (tables.inside localName declaration flags).exports = tables.exports := by
  cases localName with
  | none => rfl
  | some name => exact declare_exports

/-- The first half of recording touches only the symbol of the name inside. -/
theorem mem_inside {localName : Option String}
    (member : symbol ∈ (tables.inside localName declaration declaration.shape.contributes).locals) :
    symbol.After tables.symbols declaration ∧
      (localName ≠ some symbol.name → symbol ∈ tables.locals) := by
  cases localName with
  | none => exact ⟨.kept (List.mem_append_left _ member), fun _ => member⟩
  | some name =>
    rcases mem_declare member with ⟨_, listed⟩ | ⟨same, ⟨old, listed, rfl⟩ | rfl⟩
    · exact ⟨.kept (List.mem_append_left _ listed), fun _ => listed⟩
    · exact ⟨.extended (List.mem_append_left _ listed), fun other => absurd (same ▸ rfl) other⟩
    · exact ⟨.made _ _, fun other => absurd rfl other⟩

/-- A symbol of the tables is extended at most once when an entry is recorded. -/
theorem after_record {entry : Binding} (member : symbol ∈ (tables.record entry).symbols) :
    symbol.After tables.symbols entry.declaration := by
  obtain ⟨localName, exportName, declaration⟩ := entry
  have owned {known : Symbol} (among : .own known ∈ tables.exports) :
      known.After tables.symbols declaration :=
    .kept (List.mem_append_right _ (mem_owned.mpr among))
  rw [record_eq] at member
  dsimp only at member
  split at member
  · rcases List.mem_append.mp member with member | member
    · exact (mem_inside member).1
    · rw [inside_exports, mem_owned] at member
      exact owned member
  · rename_i name
    split at member
    · rcases List.mem_append.mp member with member | member
      · rw [share_locals] at member
        exact (mem_inside member).1
      · have among := mem_share (mem_owned.mp member)
        rw [inside_exports] at among
        exact owned among
    · -- Both tables are written to, under two names, so no symbol is extended by both.
      rename_i differ
      rcases List.mem_append.mp member with member | member
      · rcases mem_declareExport_locals member with member | member
        · exact (mem_inside member).1
        · rcases mem_declare member with ⟨_, listed⟩ | ⟨same, ⟨old, listed, rfl⟩ | rfl⟩
          · exact (mem_inside listed).1
          · refine .extended (List.mem_append_left _ ((mem_inside listed).2 ?_))
            rintro rfl
            exact differ (by simpa [Symbol.add] using same)
          · exact .made _ _
      · rcases mem_declareExport (mem_owned.mp member) with among | ⟨old, among, rfl⟩ | rfl
        · rw [inside_exports] at among
          exact owned among
        · rw [inside_exports] at among
          exact .extended (List.mem_append_right _ (mem_owned.mpr among))
        · exact .made _ _

theorem record_exportNames (tables : Tables) (entry : Binding) :
    (tables.record entry).exports.map Export.name =
      entry.exportName.toList.foldl enlist (tables.exports.map Export.name) := by
  rw [record_eq]
  split
  · rename_i none
    rw [none, inside_exports]
    rfl
  · rename_i some_name
    rw [some_name]
    split
    · rw [share_names, inside_exports]
      rfl
    · rw [declareExport_names, inside_exports]
      rfl

/-- No two symbols of the module have one name, and what is shared is a symbol of the module. -/
structure Keyed (tables : Tables) : Prop where
  distinct : (tables.locals.map Symbol.name).Nodup
  shared : ∀ name, .shared name ∈ tables.exports → name ∈ tables.locals.map Symbol.name

theorem mem_enlist {names : List String} {other : String} :
    other ∈ enlist names name ↔ other ∈ names ∨ other = name := by
  rw [enlist]
  split
  · rename_i member
    exact ⟨.inl, fun either => either.elim id fun same => same ▸ member⟩
  · simp

theorem Keyed.declare (keyed : tables.Keyed) (name : String) (declaration : Declaration)
    (flags : SymbolFlags) : (tables.declare name declaration flags).Keyed := by
  refine ⟨?_, ?_⟩
  · rw [declare_names]
    exact nodup_enlist name keyed.distinct
  · intro other member
    rw [declare_exports] at member
    rw [declare_names, mem_enlist]
    exact .inl (keyed.shared other member)

theorem Keyed.share (keyed : tables.Keyed) (named : name ∈ tables.locals.map Symbol.name) :
    (tables.share name).Keyed := by
  refine ⟨by rw [share_locals]; exact keyed.distinct, ?_⟩
  intro other member
  rw [share_locals]
  rw [Tables.share] at member
  split at member
  · exact keyed.shared other member
  · rcases List.mem_append.mp member with member | member
    · exact keyed.shared other member
    · rw [Export.shared.inj (List.mem_singleton.mp member)]
      exact named

theorem Keyed.declareExport (keyed : tables.Keyed) (name : String) (declaration : Declaration)
    (flags : SymbolFlags) : (tables.declareExport name declaration flags).Keyed := by
  rw [Tables.declareExport]
  split
  · refine ⟨keyed.distinct, ?_⟩
    intro other member
    rcases List.mem_append.mp member with member | member
    · exact keyed.shared other member
    · cases List.mem_singleton.mp member
  · exact keyed.declare name declaration flags
  · refine ⟨keyed.distinct, ?_⟩
    intro other member
    obtain ⟨entry, listed, same⟩ := List.mem_map.mp member
    split at same
    · cases same
    · rw [same] at listed
      exact keyed.shared other listed

theorem Keyed.record (keyed : tables.Keyed) (entry : Binding) : (tables.record entry).Keyed := by
  obtain ⟨localName, exportName, declaration⟩ := entry
  rw [record_eq]
  cases localName with
  | none =>
    cases exportName with
    | none => exact keyed
    | some name => exact keyed.declareExport _ _ _
  | some inner =>
    have declared := keyed.declare inner declaration declaration.shape.contributes
    cases exportName with
    | none => exact declared
    | some name =>
      dsimp only [inside]
      split
      · rename_i same
        apply declared.share
        rw [declare_names, mem_enlist]
        exact .inr (Option.some.inj (beq_iff_eq.mp same)).symm
      · exact declared.declareExport _ _ _

/-- The tables hold what was recorded, and nothing else. -/
structure Reflects (entries : List Binding) (tables : Tables) : Prop where
  keyed : tables.Keyed
  exported : tables.exports.map Export.name = (entries.filterMap Binding.exportName).eraseDups
  recorded : ∀ symbol ∈ tables.symbols, symbol.Recorded (entries.map Binding.declaration)

theorem reflects_start (path : Path) : (Tables.start path).Reflects [] :=
  ⟨⟨by simp [start], by simp [start]⟩, by simp [start], by simp [start, symbols]⟩

theorem Reflects.record {entries : List Binding} (reflects : tables.Reflects entries)
    (entry : Binding) : (tables.record entry).Reflects (entries ++ [entry]) := by
  refine ⟨reflects.keyed.record entry, ?_, ?_⟩
  · rw [record_exportNames, reflects.exported, foldl_enlist, List.filterMap_append]
    cases exported : entry.exportName <;> simp [exported]
  · intro symbol member
    rw [List.map_append]
    exact (after_record member).recorded reflects.recorded

theorem Reflects.foldl {entries : List Binding} (reflects : tables.Reflects entries)
    (more : List Binding) : (more.foldl Tables.record tables).Reflects (entries ++ more) := by
  induction more generalizing tables entries with
  | nil => simpa using reflects
  | cons entry more ih =>
    rw [List.foldl_cons, List.append_cons]
    exact ih (reflects.record entry)

theorem Reflects.opened {entries : List Binding} (reflects : tables.Reflects entries) (node : Node) :
    (tables.opened node).Reflects entries :=
  ⟨⟨reflects.keyed.distinct, reflects.keyed.shared⟩, reflects.exported, reflects.recorded⟩

@[simp] theorem record_isModule (tables : Tables) (entry : Binding) :
    (tables.record entry).isModule = tables.isModule := by
  obtain ⟨localName, exportName, declaration⟩ := entry
  unfold Tables.record publish Tables.share Tables.declareExport Tables.declare
  cases localName <;> cases exportName <;> grind

@[simp] theorem foldl_record_isModule (tables : Tables) (entries : List Binding) :
    (entries.foldl Tables.record tables).isModule = tables.isModule := by
  induction entries generalizing tables with
  | nil => rfl
  | cons entry entries ih => rw [List.foldl_cons, ih, record_isModule]

end Tables

/-- A statement on its own exports the names that it is written to export. -/
theorem exports_bindStatement {node : Node} (neat : node.Neat) (path : Path) (before : List Node) :
    (bindStatement (.start path) before node).exports.map Export.name =
      (exportNames node).eraseDups := by
  obtain ⟨entries, _, exported, recorded⟩ := records_bindStatement neat path before
  rw [recorded _ rfl, ← exported]
  exact (((Tables.reflects_start path).opened node).foldl entries).exported

/-- Binding statements in order records declarations in order, from the tables there are on, and
exports the names that the statements are written to export. -/
theorem bindStatements_reflect (path : Path) {start stop : Nat} {nodes : List Node}
    (laid : Laid start stop nodes) (before : List Node) (tables : Tables) (here : tables.path = path)
    {entries : List Binding} (reflects : tables.Reflects entries) :
    let items := Syntax.withPreceding before nodes
    let last := items.foldl (fun tables (before, node) => bindStatement tables before node) tables
    last.isModule = (tables.isModule || nodes.any opensModule) ∧
    ∃ more, InOrder start stop more ∧ more.filterMap Binding.exportName = nodes.flatMap exportNames ∧
      last.Reflects (entries ++ more) := by
  induction nodes generalizing start before tables entries with
  | nil =>
    refine ⟨by simp [Syntax.withPreceding], [], ⟨by simp, .nil⟩, rfl, ?_⟩
    simpa [Syntax.withPreceding] using reflects
  | cons node rest ih =>
    rw [Laid] at laid
    obtain ⟨after, neat, laid⟩ := laid
    obtain ⟨first, order, exported, recorded⟩ := records_bindStatement neat path before
    have bound := recorded tables here
    obtain ⟨opened, others, later, exported_later, held⟩ := ih laid (node :: before)
      (bindStatement tables before node) (by rw [bound, Tables.foldl_record_path]; exact here)
      (by rw [bound]; exact (reflects.opened node).foldl first)
    refine ⟨?_, first ++ others, ?_, ?_, ?_⟩
    · rw [Syntax.withPreceding, List.foldl_cons, opened, bound, List.any_cons, ← Bool.or_assoc]
      simp [Tables.opened]
    · exact (order.append later neat.le laid.le).widen after (Nat.le_refl _)
    · rw [List.filterMap_append, exported, exported_later, List.flatMap_cons]
    · rw [← List.append_assoc]
      exact held

/-- What holds of the tables of a source with such statements. -/
structure Bound (path : Path) (nodes : List Node) (module : Module) : Prop where
  /-- A source is a script if it has no import and no export. -/
  exports_none : module.exports = none ↔
    ∀ node ∈ nodes, node.kind ≠ .exportStatement ∧ node.kind ≠ .importStatement
  locals_distinct : (module.locals.map Symbol.name).Nodup
  exports_distinct : ((module.exports.getD []).map Export.name).Nodup
  /-- Every entry of the export table has a symbol, with the name of the entry. -/
  exports_named : ∀ entry ∈ module.exports.getD [], ∃ symbol,
    module.symbolOf? entry = some symbol ∧ symbol.name = entry.name
  declared : ∀ symbol ∈ module.locals ++ module.exported, symbol.declarations ≠ []
  flagged : ∀ symbol ∈ module.locals ++ module.exported,
    symbol.flags = contributed symbol.declarations
  sorted : ∀ symbol ∈ module.locals ++ module.exported,
    symbol.declarations.Pairwise Declaration.Precedes
  /-- Exports come in the order of the first statement that is written to export each of them. -/
  exports_sorted : ∀ table, module.exports = some table →
    table.map Export.name = (nodes.flatMap exportNames).eraseDups

theorem mem_symbols_of_exported {module : Module} {symbol : Symbol}
    (member : symbol ∈ module.exported) : symbol ∈ module.symbols := by
  obtain ⟨entry, listed, found⟩ := List.mem_filterMap.mp member
  cases entry with
  | shared name => exact List.mem_append_left _ (List.mem_of_find?_eq_some found)
  | own known =>
    cases found
    exact List.mem_append_right _ (List.mem_filterMap.mpr ⟨.own symbol, listed, rfl⟩)

theorem exists_local? {module : Module} {name : String}
    (member : name ∈ module.locals.map Symbol.name) :
    ∃ symbol, module.local? name = some symbol ∧ symbol.name = name := by
  obtain ⟨known, listed, same⟩ := List.mem_map.mp member
  have found : (module.local? name).isSome = true := by
    rw [local?, List.find?_isSome]
    exact ⟨known, listed, by simp [same]⟩
  obtain ⟨symbol, symbol_eq⟩ := Option.isSome_iff_exists.mp found
  exact ⟨symbol, symbol_eq, by simpa using List.find?_some symbol_eq⟩

theorem bound_ofTree (path : Path) {tree : Node} {start stop : Nat}
    (laid : Laid start stop tree.children) : Bound path tree.children (ofTree path tree) := by
  obtain ⟨isModule, entries, order, exported, held⟩ :=
    bindStatements_reflect path laid [] (.start path) rfl (Tables.reflects_start path)
  -- What the run leaves is known by what it reflects; how it came about is not looked at again.
  unfold ofTree
  generalize (Syntax.withPreceding [] tree.children).foldl _ _ = last at isModule held ⊢
  dsimp only
  rw [List.nil_append] at held
  have names : last.exports.map Export.name = (tree.children.flatMap exportNames).eraseDups := by
    rw [held.exported, exported]
  have opened : last.isModule = tree.children.any opensModule := by simpa [Tables.start] using isModule
  have table : ∀ entry ∈ (if last.isModule then some last.exports else none).getD [],
      entry ∈ last.exports := by
    split <;> simp
  have recorded : ∀ symbol ∈ last.locals ++ (⟨path, last.locals,
      if last.isModule then some last.exports else none⟩ : Module).exported,
      symbol.Recorded (entries.map Binding.declaration) := by
    intro symbol member
    apply held.recorded
    rcases List.mem_append.mp member with member | member
    · exact List.mem_append_left _ member
    · rcases List.mem_append.mp (mem_symbols_of_exported member) with listed | owned
      · exact List.mem_append_left _ listed
      · obtain ⟨entry, listed, own⟩ := List.mem_filterMap.mp owned
        exact List.mem_append_right _ (List.mem_filterMap.mpr ⟨entry, table entry listed, own⟩)
  have sorted : (entries.map Binding.declaration).Pairwise Declaration.Precedes :=
    List.pairwise_map.mpr order.sorted
  constructor
  · rw [opened]
    simp [opensModule]
  · exact held.keyed.distinct
  · dsimp only
    split
    · rw [Option.getD_some, names]
      exact nodup_eraseDups _
    · exact .nil
  · intro entry member
    cases entry with
    | own symbol => exact ⟨symbol, rfl, rfl⟩
    | shared name => exact exists_local? (held.keyed.shared name (table _ member))
  · exact fun symbol member => (recorded symbol member).declared
  · exact fun symbol member => (recorded symbol member).flagged
  · exact fun symbol member => sorted.sublist (recorded symbol member).listed
  · intro exports same
    rw [← Option.some.inj (Option.ite_none_right_eq_some.mp same).2]
    exact names

theorem bound_ofBytes (path : Path) (bytes : List UInt8) :
    Bound path (statements path bytes) (ofBytes path bytes) := by
  obtain ⟨stop, laid⟩ := Syntax.laid_parse (.ofPath path) (Text.decodeLossy bytes)
  exact bound_ofTree path laid

end Module

end ApiSections
