import ApiSections.Proofs.Module.Tables
import ApiSections.Proofs.Syntax.Laid
import Mathlib.Data.List.Basic

/-!
What binding a statement comes to: one after the other, declarations that stand in the statement are
recorded under the names that they have inside and outside of the module. The names outside are those
that the statement is written to export.
-/

namespace ApiSections

open Syntax (Kind Laid Node)

/-- What a declaration makes a symbol stand for. -/
def Shape.contributes : Shape → SymbolFlags
  | .exportSpecifier _ _ | .importSpecifier _ _ => .ofAlias
  | .exportAssignment expression => if expression.kind == .identifier then .ofAlias else .ofValue
  | .function _ | .variable _ _ _ => .ofValue
  | .classShape _ _ | .enumeration => .ofValueAndType
  | .interface _ _ | .typeAlias _ _ => .ofType
  | .member _ => .none

/-- A declaration ends before another one starts. -/
def Declaration.Precedes (first second : Declaration) : Prop :=
  first.header.span.stop ≤ second.header.span.start

theorem Syntax.Laid.filter {start stop : Nat} {nodes : List Node} (laid : Laid start stop nodes)
    (p : Node → Bool) : Laid start stop (nodes.filter p) := by
  induction nodes generalizing start with
  | nil => exact laid
  | cons node rest ih =>
    rw [Laid] at laid
    obtain ⟨after, neat, rest⟩ := laid
    rw [List.filter_cons]
    split
    · rw [Laid]
      exact ⟨after, neat, ih rest⟩
    · exact (ih rest).from (Nat.le_trans after neat.le)

theorem Syntax.Node.Neat.children {node : Node} (neat : node.Neat) :
    Laid node.start node.stop node.children := (Node.neat_iff.mp neat).1

namespace Module

open Declaration

section ExportNames

/-- The kinds of declarations of variables. -/
def declaresVariables (kind : Kind) : Bool :=
  kind == .lexicalDeclaration || kind == .variableDeclaration

/-- The kinds of declarations of a single thing. -/
def declaresOne (kind : Kind) : Bool :=
  [.functionDeclaration, .generatorDeclaration, .functionSignature, .functionExpression,
    .generatorFunction, .classDeclaration, .abstractClassDeclaration, .classExpression,
    .interfaceDeclaration, .typeAliasDeclaration, .enumDeclaration].contains kind

/-- The names of the variables of a declaration, but for those in a pattern. -/
def variableNames (node : Node) : List String :=
  (node.namedChildren.filter (·.kind == .variableDeclarator)).filterMap variableName?

/-- The names that an exported declaration has outside: variables have their own, and anything else
has the one given to it or its own. -/
def declaredNames (given : Option String) (node : Node) : List String :=
  match declaredNode? node with
  | none => []
  | some declared =>
    if declaresVariables declared.kind then variableNames declared
    else if declaresOne declared.kind then (given.or (nameOf? declared)).toList
    else []

/-- The name of an entry of an export list outside. -/
def specifierName (specifier : Node) : String :=
  unquoted ((specifier.get? .newName).or (specifier.get? .name))

/-- The names that a statement is written to export, in their order. -/
def exportNames (node : Node) : List String :=
  if node.kind != .exportStatement then []
  else match node.get? .declaration, node.get? .value with
  | some declaration, _ =>
    declaredNames (if node.hasToken "default" then some "default" else none) declaration
  | none, some _ => ["default"]
  | none, none =>
    if node.hasToken "=" then node.operands.head?.toList.map fun _ => "export="
    else match node.namedChildren.find? (·.kind == .exportClause) with
      | some clause => (clause.namedChildren.filter (·.kind == .exportSpecifier)).map specifierName
      | none => []

/-- The names that a declaration has outside if it is exported this way. -/
def Exposure.names (exposure : Exposure) (node : Node) : List String :=
  match exposure with
  | hidden => []
  | byName => declaredNames none node
  | byDefault name => declaredNames (some name) node

/-- The name that a variable has outside. -/
def Exposure.outside (exposure : Exposure) (name : String) : Option String :=
  match exposure with
  | hidden => none
  | byName | byDefault _ => some name

def Exposure.variableNames (exposure : Exposure) (node : Node) : List String :=
  (node.namedChildren.filter (·.kind == .variableDeclarator)).filterMap fun declarator =>
    (variableName? declarator).bind exposure.outside

variable {path : Path} {node declared : Node} {exposure : Exposure}

theorem names_of_not_declared (found : declaredNode? node = none) : exposure.names node = [] := by
  cases exposure <;> simp [Exposure.names, declaredNames, found]

theorem names_of_variables (found : declaredNode? node = some declared)
    (kind : declaresVariables declared.kind = true) :
    exposure.names node = exposure.variableNames declared := by
  cases exposure with
  | hidden => simp [Exposure.names, Exposure.variableNames, Exposure.outside]
  | byName | byDefault =>
    simp only [Exposure.names, declaredNames, found, kind, if_true]
    exact List.filterMap_congr fun _ _ => (Option.bind_fun_some _).symm

theorem names_of_one (found : declaredNode? node = some declared)
    (kind : declaresOne declared.kind = true) :
    exposure.names node = (exposure.nameFor (nameOf? declared)).toList := by
  have single : declaresVariables declared.kind = false := by
    revert kind
    cases declared.kind <;> decide
  cases exposure <;> simp [Exposure.names, Exposure.nameFor, declaredNames, found, kind, single]

theorem names_of_other (found : declaredNode? node = some declared)
    (many : declaresVariables declared.kind = false) (one : declaresOne declared.kind = false) :
    exposure.names node = [] := by
  cases exposure <;> simp [Exposure.names, declaredNames, found, many, one]

theorem isSome_shapeOf? : (shapeOf? path node).isSome = declaresOne node.kind := by
  rw [shapeOf?]
  cases node.kind <;> rfl

/-- The value of a default export or an exported assignment has the name of the export alone. -/
theorem names_of_isFunctionOrClass (value : isFunctionOrClass node = true) (name : String) :
    (Exposure.byDefault name).names node = [name] := by
  have kinds : node.kind = .classExpression ∨ node.kind = .functionExpression ∨
      node.kind = .generatorFunction := by
    simpa [isFunctionOrClass] using value
  obtain ⟨kind, field, span, text, children⟩ := node
  rcases kinds with same | same | same
  · cases same
    rfl
  · cases same
    rfl
  · cases same
    rfl

end ExportNames

/-- A declaration with the names that it is recorded under. -/
structure Binding where
  localName : Option String
  exportName : Option String
  declaration : Declaration

def Tables.record (tables : Tables) (entry : Binding) : Tables :=
  tables.publish entry.localName entry.exportName entry.declaration
    entry.declaration.shape.contributes

/-- The declarations stand between two places, one behind the other. -/
structure InOrder (start stop : Nat) (entries : List Binding) : Prop where
  inside : ∀ entry ∈ entries, start ≤ entry.declaration.header.span.start ∧
    entry.declaration.header.span.stop ≤ stop
  sorted : entries.Pairwise fun first second => first.declaration.Precedes second.declaration

theorem InOrder.widen {start stop lower upper : Nat} {entries : List Binding}
    (order : InOrder start stop entries) (below : lower ≤ start) (above : stop ≤ upper) :
    InOrder lower upper entries := by
  refine ⟨?_, order.sorted⟩
  intro entry member
  have inside := order.inside entry member
  omega

theorem InOrder.append {start middle stop : Nat} {first second : List Binding}
    (left : InOrder start middle first) (right : InOrder middle stop second)
    (below : start ≤ middle) (above : middle ≤ stop) : InOrder start stop (first ++ second) := by
  refine ⟨?_, ?_⟩
  · intro entry member
    rcases List.mem_append.mp member with member | member
    · exact (left.widen (Nat.le_refl _) above).inside entry member
    · exact (right.widen below (Nat.le_refl _)).inside entry member
  · rw [List.pairwise_append]
    refine ⟨left.sorted, right.sorted, ?_⟩
    intro entry member other among
    exact Nat.le_trans (left.inside entry member).2 (right.inside other among).1

/-- A step that records the same declarations in all tables of a source. They stand between two
places, in order, and those that are exported have these names outside. -/
def Records (path : Path) (start stop : Nat) (names : List String) (step : Tables → Tables) : Prop :=
  ∃ entries, InOrder start stop entries ∧ entries.filterMap Binding.exportName = names ∧
    ∀ tables, tables.path = path → step tables = entries.foldl Tables.record tables

@[simp] theorem Tables.declare_path (tables : Tables) (name : String) (declaration : Declaration)
    (flags : SymbolFlags) : (tables.declare name declaration flags).path = tables.path := by
  unfold Tables.declare
  split <;> rfl

@[simp] theorem Tables.record_path (tables : Tables) (entry : Binding) :
    (tables.record entry).path = tables.path := by
  obtain ⟨localName, exportName, declaration⟩ := entry
  unfold Tables.record Tables.publish Tables.share Tables.declareExport
  cases localName <;> cases exportName <;> grind [Tables.declare_path]

@[simp] theorem Tables.foldl_record_path (tables : Tables) (entries : List Binding) :
    (entries.foldl Tables.record tables).path = tables.path := by
  induction entries generalizing tables with
  | nil => rfl
  | cons entry entries ih => rw [List.foldl_cons, ih, record_path]

namespace Records

variable {path : Path} {start stop : Nat} {names : List String} {step : Tables → Tables} {node : Node}

theorem none (path : Path) (start stop : Nat) : Records path start stop [] fun tables => tables :=
  ⟨[], ⟨by simp, .nil⟩, rfl, fun _ _ => rfl⟩

theorem congr {other : Tables → Tables} (records : Records path start stop names other)
    (same : ∀ tables, tables.path = path → step tables = other tables) :
    Records path start stop names step := by
  obtain ⟨entries, order, exported, recorded⟩ := records
  exact ⟨entries, order, exported, fun tables here => (same tables here).trans (recorded tables here)⟩

theorem exporting {others : List String} (records : Records path start stop others step)
    (same : names = others) : Records path start stop names step := same ▸ records

theorem widen {lower upper : Nat} (records : Records path start stop names step)
    (below : lower ≤ start) (above : stop ≤ upper) : Records path lower upper names step := by
  obtain ⟨entries, order, exported, recorded⟩ := records
  exact ⟨entries, order.widen below above, exported, recorded⟩

/-- What is recorded for a node of a neat one stands in that one. -/
theorem within {part : Node} (records : Records path part.start part.stop names step)
    (neat : node.Neat) (inside : part ∈ node.subnodes) :
    Records path node.start node.stop names step := by
  obtain ⟨below, above, _⟩ := neat.inside inside
  exact records.widen below above

theorem publish {localName exportName : Option String} {declaration : Declaration}
    (stands : declaration.header.span = node.span)
    (same : ∀ tables, tables.path = path → step tables =
      tables.publish localName exportName declaration declaration.shape.contributes) :
    Records path node.start node.stop exportName.toList step := by
  refine ⟨[⟨localName, exportName, declaration⟩], ⟨?_, by simp⟩, by cases exportName <;> rfl, same⟩
  intro entry member
  rw [List.mem_singleton.mp member, stands]
  exact ⟨Nat.le_refl _, Nat.le_refl _⟩

/-- Nodes in order are bound in that order. -/
theorem foldl {nodes : List Node} {step : Tables → Node → Tables} {namesOf : Node → List String}
    (laid : Laid start stop nodes)
    (each : ∀ node ∈ nodes, node.Neat → Records path node.start node.stop (namesOf node)
      fun tables => step tables node) :
    Records path start stop (nodes.flatMap namesOf) fun tables => nodes.foldl step tables := by
  induction nodes generalizing start with
  | nil => exact none path start stop
  | cons node rest ih =>
    rw [Laid] at laid
    obtain ⟨after, neat, laid⟩ := laid
    obtain ⟨first, order, exported, recorded⟩ := each node List.mem_cons_self neat
    obtain ⟨others, later, exported_later, recorded_later⟩ :=
      ih laid fun node member => each node (List.mem_cons_of_mem _ member)
    refine ⟨first ++ others, ?_, ?_, ?_⟩
    · exact (order.append later neat.le laid.le).widen after (Nat.le_refl _)
    · rw [List.filterMap_append, exported, exported_later, List.flatMap_cons]
    · intro tables here
      have step_eq : step tables node = first.foldl Tables.record tables := recorded tables here
      change rest.foldl step (step tables node) = _
      rw [step_eq, List.foldl_append]
      exact recorded_later _ (by simp [here])

/-- Nodes that export nothing. -/
theorem foldl_inside {nodes : List Node} {step : Tables → Node → Tables}
    (laid : Laid start stop nodes)
    (each : ∀ node ∈ nodes, node.Neat → Records path node.start node.stop []
      fun tables => step tables node) :
    Records path start stop [] fun tables => nodes.foldl step tables := by
  have all := @foldl path start stop nodes step (fun _ => []) laid each
  exact all.exporting (by simp)

theorem bindVariables (neat : node.Neat) (doc : Option DocComment) (exposure : Exposure) :
    Records path node.start node.stop (exposure.variableNames node) fun tables =>
      bindVariables tables node doc exposure := by
  rw [Exposure.variableNames, List.filterMap_eq_flatMap_toList]
  apply foldl ((neat.children.filter _).filter _)
  intro declarator _ _
  cases variableName? declarator with
  | none => exact none _ _ _
  | some name => exact publish rfl fun tables here => by rw [here]; cases exposure <;> rfl

theorem contributes_of_shapeOf? {shape : Shape} {modifiers : List Modifier} {flags : SymbolFlags}
    (found : shapeOf? path node = some (shape, modifiers, flags)) : flags = shape.contributes := by
  rw [shapeOf?] at found
  split at found
  all_goals first
    | cases found; rfl
    | cases found

theorem bindDeclaration (neat : node.Neat) (doc : Option DocComment) (exposure : Exposure) :
    Records path node.start node.stop (exposure.names node) fun tables =>
      bindDeclaration tables node doc exposure := by
  unfold Module.bindDeclaration
  cases found : declaredNode? node with
  | none => exact (none _ _ _).exporting (names_of_not_declared found)
  | some declared =>
    have inside := mem_subnodes_of_declaredNode? found
    have inner := (neat.inside inside).2.2
    apply within _ neat inside
    dsimp only
    split
    · rename_i kind
      exact (bindVariables inner doc exposure).exporting
        (names_of_variables found (by rw [kind]; rfl))
    · rename_i kind
      exact (bindVariables inner doc exposure).exporting
        (names_of_variables found (by rw [kind]; rfl))
    · rename_i lexical variable_
      have one : (shapeOf? path declared).isSome = declaresOne declared.kind := isSome_shapeOf?
      cases shaped : shapeOf? path declared with
      | none =>
        have no_name : exposure.names node = [] := by
          apply names_of_other found
          · simpa [declaresVariables] using ⟨lexical, variable_⟩
          · rw [← one, shaped]
            rfl
        apply ((none path declared.start declared.stop).exporting no_name).congr
        intro tables here
        rw [here, shaped]
      | some triple =>
        obtain ⟨shape, modifiers, flags⟩ := triple
        let declaration : Declaration :=
          ⟨⟨path, declared.span, nameOf? declared, doc, modifiers⟩, shape⟩
        rw [names_of_one found (by rw [← one, shaped]; rfl)]
        apply @publish _ _ _ _ _ declaration rfl
        intro tables here
        rw [here, shaped, contributes_of_shapeOf? shaped]

theorem declareExport {name : String} {declaration : Declaration}
    (stands : declaration.header.span = node.span)
    (same : ∀ tables, tables.path = path → step tables =
      tables.declareExport name declaration declaration.shape.contributes) :
    Records path node.start node.stop [name] step :=
  @publish _ _ _ Option.none (some name) declaration stands same

theorem bindValue {value : Node} (neat : value.Neat) (doc : Option DocComment) (name : String) :
    Records path value.start value.stop [name] fun tables => bindValue tables value doc name := by
  unfold Module.bindValue
  split
  · rename_i one
    exact (bindDeclaration neat doc _).exporting (names_of_isFunctionOrClass one name).symm
  · exact declareExport rfl fun tables here => by rw [here]; rfl

theorem bindExportList (neat : node.Neat) (source : Option String) :
    Records path node.start node.stop
      ((node.namedChildren.filter (·.kind == .exportSpecifier)).map specifierName) fun tables =>
      bindExportList tables node source := by
  rw [List.map_eq_flatMap]
  apply foldl ((neat.children.filter _).filter _)
  intro specifier _ _
  have outside : specifierName specifier = match specifier.get? .newName with
      | some name => unquoted (some name)
      | .none => unquoted (specifier.get? .name) := by
    rw [specifierName]
    cases specifier.get? .newName <;> rfl
  rw [outside]
  exact declareExport rfl fun tables here => by rw [here]; rfl

theorem child {part : Node} (member : part ∈ node.children) : part ∈ node.subnodes :=
  Node.mem_subnodes_of_below (Node.mem_subnodesIn_of_mem member)

theorem bindExport (neat : node.Neat) (kind : node.kind = .exportStatement)
    (doc : Option DocComment) :
    Records path node.start node.stop (exportNames node) fun tables => bindExport tables node doc := by
  have neat_child {part : Node} (member : part ∈ node.children) : part.Neat :=
    (neat.inside (child member)).2.2
  have exports : (node.kind != .exportStatement) = false := by rw [kind]; rfl
  unfold Module.bindExport exportNames
  rw [exports]
  cases declares : node.get? .declaration with
  | some declaration =>
    have member := Node.mem_children_of_get? declares
    have bound := @bindDeclaration path declaration (neat_child member) doc
      (if node.hasToken "default" then .byDefault "default" else .byName)
    refine (bound.within neat (child member)).exporting ?_
    cases node.hasToken "default" <;> rfl
  | none =>
    cases assigns : node.get? .value with
    | some value =>
      have member := Node.mem_children_of_get? assigns
      exact (bindValue (neat_child member) doc _).within neat (child member)
    | none =>
      simp only [Bool.false_eq_true, if_false]
      cases node.hasToken "=" with
      | true =>
        cases assigned : node.operands.head? with
        | some expression =>
          have member := Node.mem_children_of_operands (List.mem_of_head? assigned)
          exact (bindValue (neat_child member) doc _).within neat (child member)
        | none => exact none _ _ _
      | false =>
        cases listed : node.namedChildren.find? (·.kind == .exportClause) with
        | some clause =>
          have member := Node.mem_children_of_namedChildren (List.mem_of_find?_eq_some listed)
          exact (bindExportList (neat_child member) _).within neat (child member)
        | none => exact none _ _ _

theorem bindImported (node : Node) (name inside source : String) :
    Records path node.start node.stop [] fun tables =>
      bindImported tables node name inside source := by
  unfold Module.bindImported
  split
  · exact none _ _ _
  · exact @publish _ _ _ (some name) Option.none _ rfl fun tables here => by rw [here]; rfl

theorem bindImport (neat : node.Neat) :
    Records path node.start node.stop [] fun tables => bindImport tables node := by
  unfold Module.bindImport
  dsimp only
  split
  · exact none _ _ _
  · rename_i clause found
    have member := Node.mem_children_of_namedChildren (List.mem_of_find?_eq_some found)
    have neat_clause := (neat.inside (child member)).2.2
    apply within _ neat (child member)
    apply foldl_inside (neat_clause.children.filter _)
    intro part _ neat_part
    split
    · exact bindImported _ _ _ _
    · apply foldl_inside ((neat_part.children.filter _).filter _)
      exact fun specifier _ _ => bindImported _ _ _ _
    · exact none _ _ _

end Records

/-- The statements that make a source a module. -/
def opensModule (node : Node) : Bool := node.kind == .exportStatement || node.kind == .importStatement

def Tables.opened (tables : Tables) (node : Node) : Tables :=
  { tables with isModule := tables.isModule || opensModule node }

/-- A statement opens the module if it is an import or an export, and records its declarations under
the names that it exports. -/
theorem records_bindStatement {node : Node} (neat : node.Neat) (path : Path) (before : List Node) :
    ∃ entries, InOrder node.start node.stop entries ∧
      entries.filterMap Binding.exportName = exportNames node ∧ ∀ tables, tables.path = path →
        bindStatement tables before node = entries.foldl Tables.record (tables.opened node) := by
  have silent (other : node.kind ≠ .exportStatement) : exportNames node = [] := by
    rw [exportNames, if_pos (bne_iff_ne.mpr other)]
  have plain (closed : opensModule node = false) (tables : Tables) : tables.opened node = tables := by
    simp [Tables.opened, closed]
  have opened (open_ : opensModule node = true) (tables : Tables) :
      tables.opened node = { tables with isModule := true } := by
    simp [Tables.opened, open_]
  unfold bindStatement
  dsimp only
  split
  · rename_i kind
    obtain ⟨entries, order, exported, recorded⟩ :=
      @Records.bindExport path node neat kind (leadingDoc? before)
    refine ⟨entries, order, exported, fun tables here => ?_⟩
    rw [opened (by simp [opensModule, kind])]
    exact recorded _ here
  · rename_i kind
    obtain ⟨entries, order, exported, recorded⟩ := @Records.bindImport path node neat
    refine ⟨entries, order, exported.trans (silent (by rw [kind]; decide)).symm, fun tables here => ?_⟩
    rw [opened (by simp [opensModule, kind])]
    exact recorded _ here
  · rename_i kind
    exact ⟨[], ⟨by simp, .nil⟩, (silent (by rw [kind]; decide)).symm,
      fun tables _ => (plain (by simp [opensModule, kind]) tables).symm⟩
  · rename_i kind
    exact ⟨[], ⟨by simp, .nil⟩, (silent (by rw [kind]; decide)).symm,
      fun tables _ => (plain (by simp [opensModule, kind]) tables).symm⟩
  · rename_i no_export no_import _ _
    obtain ⟨entries, order, exported, recorded⟩ :=
      @Records.bindDeclaration path node neat (leadingDoc? before) .hidden
    refine ⟨entries, order, exported.trans (silent no_export).symm, fun tables here => ?_⟩
    rw [plain (by simpa [opensModule] using ⟨no_export, no_import⟩)]
    exact recorded tables here

end Module

end ApiSections
