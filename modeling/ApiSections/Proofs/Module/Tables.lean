import ApiSections.Module.Bind
import ApiSections.Proofs.Declaration.Given

/-!
What stands in the tables of a module stands in its source.
-/

namespace ApiSections

open Syntax (Node)

def Shape.members : Shape → List Member
  | .classShape _ members | .interface _ members => members
  | _ => []

/-- Whether a declaration only names a symbol that is declared elsewhere. -/
def Shape.isSpecifier : Shape → Bool
  | .exportSpecifier _ _ | .importSpecifier _ _ => true
  | _ => false

/-- A declaration of a source, with its members, that is recorded with flags. A specifier has no doc
comment and is flagged as an alias. -/
structure Declaration.StandsIn (path : Path) (nodes : List Node) (flags : SymbolFlags)
    (declaration : Declaration) : Prop where
  here : declaration.path = path
  members : ∀ member ∈ declaration.shape.members, member.header.path = path
  given : ∀ node ∈ declaration.shape.nodes, node.GivenIn nodes
  bare : declaration.shape.isSpecifier = true →
    declaration.header.doc = none ∧ flags.reference = true

/-- A symbol of a source, with its declarations. -/
structure Symbol.StandsIn (path : Path) (nodes : List Node) (symbol : Symbol) : Prop where
  here : symbol.id.path = path
  declared : symbol.declarations ≠ []
  declarations : ∀ declaration ∈ symbol.declarations,
    declaration.StandsIn path nodes symbol.flags

variable {path : Path} {nodes : List Node}

theorem Declaration.StandsIn.flagged {declaration : Declaration} {flags more : SymbolFlags}
    (stands : declaration.StandsIn path nodes flags)
    (kept : flags.reference = true → more.reference = true) :
    declaration.StandsIn path nodes more :=
  ⟨stands.here, stands.members, stands.given, fun named => (stands.bare named).imp_right kept⟩

theorem Symbol.StandsIn.add {symbol : Symbol} {declaration : Declaration} {flags : SymbolFlags}
    (stands : symbol.StandsIn path nodes) (new : declaration.StandsIn path nodes flags) :
    (symbol.add declaration flags).StandsIn path nodes := by
  refine ⟨stands.here, List.append_ne_nil_of_right_ne_nil _ (List.cons_ne_nil _ _), ?_⟩
  intro other member
  rcases List.mem_append.mp member with member | member
  · exact (stands.declarations other member).flagged fun marked => by
      simp [Symbol.add, SymbolFlags.union, marked]
  · rw [List.mem_singleton.mp member]
    exact new.flagged fun marked => by simp [Symbol.add, SymbolFlags.union, marked]

theorem Symbol.StandsIn.single {declaration : Declaration} {flags : SymbolFlags}
    (stands : declaration.StandsIn path nodes flags) {id : SymbolId} (here : id.path = path)
    (name : String) : Symbol.StandsIn path nodes ⟨id, name, flags, [declaration]⟩ := by
  refine ⟨here, List.cons_ne_nil _ _, ?_⟩
  intro other member
  rw [List.mem_singleton.mp member]
  exact stands

namespace Declaration

theorem path_of_classMember? {node : Node} {doc : Option DocComment}
    {member : Member} (built : classMember? path node doc = some member) :
    member.header.path = path := by
  rw [classMember?] at built
  split at built
  all_goals first | (cases built; rfl) | cases built

theorem path_of_typeMember? {node : Node} {doc : Option DocComment}
    {member : Member} (built : typeMember? path node doc = some member) :
    member.header.path = path := by
  rw [typeMember?] at built
  split at built
  all_goals first | (cases built; rfl) | cases built

theorem path_of_entryMember? {isConst : Bool} {node : Node}
    {doc : Option DocComment} {member : Member}
    (built : entryMember? path isConst node doc = some member) : member.header.path = path := by
  rw [entryMember?] at built
  split at built
  · cases built
    rfl
  · cases built
    rfl
  · exact path_of_classMember? built
  · cases built

theorem path_of_pairAccessors {members : List Member}
    (stand : ∀ member ∈ members, member.header.path = path) :
    ∀ member ∈ pairAccessors members, member.header.path = path := by
  intro member among
  obtain ⟨single, listed, same, _⟩ := mem_pairAccessors among
  rw [same]
  exact stand single listed

theorem path_of_membersIn {build : Node → Option DocComment → Option Member}
    (stands : ∀ node doc member, build node doc = some member → member.header.path = path)
    (body : Option Node) : ∀ member ∈ membersIn build body, member.header.path = path := by
  intro member among
  obtain ⟨_, _, node, _, doc, built⟩ := mem_membersIn among
  exact stands node doc member built

end Declaration

namespace Module

open Declaration

mutual

theorem mem_subnodes_of_declaredNode? {declared : Node} : ∀ {node : Node},
    declaredNode? node = some declared → declared ∈ node.subnodes
  | .mk kind field span text children, found => by
    rw [declaredNode?] at found
    split at found
    · exact List.mem_cons_of_mem _ (mem_subnodesIn_of_declaredFirst? found)
    · cases found
      exact Node.self_mem_subnodes _

theorem mem_subnodesIn_of_declaredFirst? {declared : Node} : ∀ {nodes : List Node},
    declaredFirst? nodes = some declared → declared ∈ Node.subnodesIn nodes
  | node :: rest, found => by
    rw [declaredFirst?] at found
    rw [Node.subnodesIn, List.mem_append]
    split at found
    · exact .inl (mem_subnodes_of_declaredNode? found)
    · exact .inr (mem_subnodesIn_of_declaredFirst? found)

end

/-- All that the tables hold stands in the source with a path. -/
structure Tables.Fits (path : Path) (nodes : List Node) (tables : Tables) : Prop where
  here : tables.path = path
  locals : ∀ symbol ∈ tables.locals, symbol.StandsIn path nodes
  exports : ∀ symbol, .own symbol ∈ tables.exports → symbol.StandsIn path nodes

namespace Tables.Fits

variable {tables : Tables} {node : Node} {declaration : Declaration} {flags : SymbolFlags}

theorem start (path : Path) : (Tables.start path).Fits path nodes :=
  ⟨rfl, by simp [Tables.start], by simp [Tables.start]⟩

theorem declare (fits : tables.Fits path nodes) (name : String)
    (stands : declaration.StandsIn path nodes flags) :
    (tables.declare name declaration flags).Fits path nodes := by
  rw [Tables.declare]
  split
  · refine ⟨fits.here, ?_, fits.exports⟩
    intro symbol member
    obtain ⟨old, listed, rfl⟩ := List.mem_map.mp member
    split
    · exact (fits.locals old listed).add stands
    · exact fits.locals old listed
  · refine ⟨fits.here, ?_, fits.exports⟩
    intro symbol member
    rcases List.mem_append.mp member with member | member
    · exact fits.locals symbol member
    · rw [List.mem_singleton.mp member]
      apply Symbol.StandsIn.single stands
      exact fits.here

theorem declareExport (fits : tables.Fits path nodes) (name : String)
    (stands : declaration.StandsIn path nodes flags) :
    (tables.declareExport name declaration flags).Fits path nodes := by
  rw [Tables.declareExport]
  split
  · refine ⟨fits.here, fits.locals, ?_⟩
    intro symbol member
    rcases List.mem_append.mp member with member | member
    · exact fits.exports symbol member
    · rw [Export.own.inj (List.mem_singleton.mp member)]
      apply Symbol.StandsIn.single stands
      exact fits.here
  · exact fits.declare name stands
  · rename_i known found
    refine ⟨fits.here, fits.locals, ?_⟩
    intro symbol member
    obtain ⟨entry, listed, same⟩ := List.mem_map.mp member
    split at same
    · rw [← Export.own.inj same]
      exact (fits.exports known (List.mem_of_find?_eq_some found)).add stands
    · rw [same] at listed
      exact fits.exports symbol listed

theorem share (fits : tables.Fits path nodes) (name : String) :
    (tables.share name).Fits path nodes := by
  rw [Tables.share]
  split
  · exact fits
  · refine ⟨fits.here, fits.locals, ?_⟩
    intro symbol member
    rcases List.mem_append.mp member with member | member
    · exact fits.exports symbol member
    · cases List.mem_singleton.mp member

theorem declareNamed (fits : tables.Fits path nodes) (localName : Option String)
    (stands : declaration.StandsIn path nodes flags) :
    (match localName with
      | some name => tables.declare name declaration flags
      | none => tables).Fits path nodes := by
  cases localName with
  | none => exact fits
  | some name => exact fits.declare name stands

theorem publish (fits : tables.Fits path nodes) (localName exportName : Option String)
    (stands : declaration.StandsIn path nodes flags) :
    (tables.publish localName exportName declaration flags).Fits path nodes := by
  have named := fits.declareNamed localName stands
  unfold Tables.publish
  cases exportName with
  | none => exact named
  | some name =>
    dsimp only
    split
    · exact named.share _
    · exact named.declareExport _ stands

theorem foldl {α : Type} {step : Tables → α → Tables} {items : List α}
    (kept : ∀ tables, ∀ item ∈ items, tables.Fits path nodes → (step tables item).Fits path nodes)
    (fits : tables.Fits path nodes) : (items.foldl step tables).Fits path nodes := by
  induction items generalizing tables with
  | nil => exact fits
  | cons item items ih =>
    exact ih (fun tables other member => kept tables other (List.mem_cons_of_mem _ member))
      (kept tables item List.mem_cons_self fits)

theorem bindVariables (fits : tables.Fits path nodes) (inside : node ∈ Node.subnodesIn nodes)
    (doc : Option DocComment) (exposure : Exposure) :
    (Module.bindVariables tables node doc exposure).Fits path nodes := by
  apply foldl _ fits
  intro tables declarator listed fits
  obtain ⟨child, kind⟩ := List.mem_filter.mp listed
  have bare : declarator.kind.isCover = false := by simp [beq_iff_eq.mp kind]
  dsimp only
  split
  · exact fits
  · apply fits.publish
    refine ⟨fits.here, by simp [Shape.members], ?_, by simp [Shape.isSpecifier]⟩
    intro part written
    have given : part.GivenIn [declarator] := by
      rcases List.mem_append.mp written with written | written
      · exact givenIn_of_annotation (Option.mem_toList.mp written) bare
      · exact Node.givenIn_of_get? (Option.mem_toList.mp written) bare
    exact (given.of_child (Node.mem_children_of_namedChildren child)).within inside

theorem shapeOf? {shape : Shape} {modifiers : List Modifier}
    (found : Module.shapeOf? path node = some (shape, modifiers, flags)) :
    (∀ member ∈ shape.members, member.header.path = path) ∧
      (∀ part ∈ shape.nodes, part.GivenIn [node]) ∧ shape.isSpecifier = false := by
  have classes : ∀ part ∈ (classMembers path (node.get? .body)).flatMap (·.shape.nodes),
      part.GivenIn [node] := by
    intro part among
    obtain ⟨member, listed, written⟩ := List.mem_flatMap.mp among
    exact givenIn_of_classMembers listed part written
  have interfaces : ∀ part ∈ (interfaceMembers path (node.get? .body)).flatMap (·.shape.nodes),
      part.GivenIn [node] := by
    intro part among
    obtain ⟨member, listed, written⟩ := List.mem_flatMap.mp among
    exact givenIn_of_interfaceMembers listed part written
  rw [Module.shapeOf?] at found
  split at found
  all_goals first
    | (cases found; exact ⟨path_of_pairAccessors
        (path_of_membersIn (fun _ _ _ => path_of_classMember?) _), classes, rfl⟩)
    | (cases found; exact ⟨path_of_pairAccessors
        (path_of_membersIn (fun _ _ _ => path_of_typeMember?) _), interfaces, rfl⟩)
    | (cases found; exact ⟨by simp [Shape.members], fun part written =>
        Node.givenIn_of_get? (Option.mem_toList.mp written) (by simp [*]), rfl⟩)
    | (cases found; simp [Shape.members, Shape.nodes, Shape.isSpecifier])
    | cases found

theorem bindDeclaration (fits : tables.Fits path nodes) (inside : node ∈ Node.subnodesIn nodes)
    (doc : Option DocComment) (exposure : Exposure) :
    (Module.bindDeclaration tables node doc exposure).Fits path nodes := by
  rw [Module.bindDeclaration]
  split
  · exact fits
  · rename_i declared found
    have inside : declared ∈ Node.subnodesIn nodes :=
      Node.subnodesIn_trans (mem_subnodes_of_declaredNode? found) inside
    split
    · exact fits.bindVariables inside _ _
    · exact fits.bindVariables inside _ _
    · split
      · exact fits
      · rename_i found
        rw [fits.here] at found
        obtain ⟨members, given, declares⟩ := shapeOf? found
        apply fits.publish
        exact ⟨fits.here, members, fun part written => (given part written).within inside,
          by simp [declares]⟩

theorem bindValue {value : Node} (fits : tables.Fits path nodes) (given : value.GivenIn nodes)
    (doc : Option DocComment) (name : String) :
    (Module.bindValue tables value doc name).Fits path nodes := by
  rw [Module.bindValue]
  split
  · exact fits.bindDeclaration given.mem _ _
  · apply fits.declareExport
    refine ⟨fits.here, by simp [Shape.members], ?_, by simp [Shape.isSpecifier]⟩
    intro part written
    rw [List.mem_singleton.mp written]
    exact given

theorem bindExportList (fits : tables.Fits path nodes) (clause : Node) (source : Option String) :
    (Module.bindExportList tables clause source).Fits path nodes := by
  apply foldl _ fits
  intro tables specifier _ fits
  apply fits.declareExport
  exact ⟨fits.here, by simp [Shape.members], by simp [Shape.nodes], fun _ => ⟨rfl, rfl⟩⟩

theorem bindExport (fits : tables.Fits path nodes) (inside : node ∈ Node.subnodesIn nodes)
    (bare : node.kind.isCover = false) (doc : Option DocComment) :
    (Module.bindExport tables node doc).Fits path nodes := by
  rw [Module.bindExport]
  split
  · rename_i found
    exact fits.bindDeclaration ((Node.givenIn_of_get? found bare).within inside).mem _ _
  · rename_i found
    exact fits.bindValue ((Node.givenIn_of_get? found bare).within inside) _ _
  · split
    · split
      · rename_i found
        exact fits.bindValue ((Node.givenIn_of_mem_children
          (Node.mem_children_of_operands (List.mem_of_head? found)) bare).within inside) _ _
      · exact fits
    · split
      · exact fits.bindExportList _ _
      · exact fits

theorem bindImported (fits : tables.Fits path nodes) (node : Node) (name inside source : String) :
    (Module.bindImported tables node name inside source).Fits path nodes := by
  rw [Module.bindImported]
  split
  · exact fits
  · apply fits.declare
    exact ⟨fits.here, by simp [Shape.members], by simp [Shape.nodes], fun _ => ⟨rfl, rfl⟩⟩

theorem bindImport (fits : tables.Fits path nodes) (node : Node) :
    (Module.bindImport tables node).Fits path nodes := by
  rw [Module.bindImport]
  dsimp only
  split
  · exact fits
  · apply foldl _ fits
    intro tables child _ fits
    split
    · exact fits.bindImported _ _ _ _
    · exact foldl (fun tables specifier _ fits => fits.bindImported _ _ _ _) fits
    · exact fits

theorem bindStatement (fits : tables.Fits path nodes) (inside : node ∈ Node.subnodesIn nodes)
    (before : List Node) : (Module.bindStatement tables before node).Fits path nodes := by
  have opened : { tables with isModule := true }.Fits path nodes :=
    ⟨fits.here, fits.locals, fits.exports⟩
  rw [Module.bindStatement]
  split
  · rename_i kind
    exact opened.bindExport inside (by simp [kind]) _
  · exact opened.bindImport _
  · exact fits
  · exact fits
  · exact fits.bindDeclaration inside _ _

end Tables.Fits

/-- The statements of a source. -/
def statements (path : Path) (bytes : List UInt8) : List Node :=
  (Syntax.parse (.ofPath path) (Text.decodeLossy bytes)).children

/-- The symbols of a module stand in its source. -/
theorem standsIn_of_mem_symbols {bytes : List UInt8} {symbol : Symbol}
    (member : symbol ∈ (ofBytes path bytes).symbols) :
    symbol.StandsIn path (statements path bytes) := by
  have fits : ((Syntax.withPreceding [] (statements path bytes)).foldl
      (fun tables entry => bindStatement tables entry.1 entry.2) (Tables.start path)).Fits
      path (statements path bytes) := by
    apply Tables.Fits.foldl _ (Tables.Fits.start path)
    intro tables entry listed fits
    exact fits.bindStatement (Node.mem_subnodesIn_of_mem (mem_of_withPreceding listed)) entry.1
  rcases List.mem_append.mp member with member | member
  · exact fits.locals symbol member
  · obtain ⟨entry, listed, own⟩ := List.mem_filterMap.mp member
    cases entry with
    | shared name => cases own
    | own found =>
      cases own
      apply fits.exports symbol
      dsimp only [ofBytes, ofTree] at listed
      split at listed
      · exact listed
      · cases listed

end Module

end ApiSections
