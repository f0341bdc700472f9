import ApiSections.Proofs.Lookup.Bound
import ApiSections.Proofs.Lookup.Likeness
import ApiSections.Proofs.Workspace.Sound

/-!
Look-ups lead to what is written in the modules of the tree: to symbols of their tables, and to types
and values of their declarations.
-/

namespace ApiSections

open Syntax (Node)

/-- A symbol of a module of the tree. -/
def Symbol.Listed (workspace : Workspace) (symbol : Symbol) : Prop :=
  ∃ module, workspace.module? module.path = some module ∧ symbol ∈ module.symbols

/-- A type or a value that is written in its module. -/
def Lookup.Site.Stands (workspace : Workspace) (site : Lookup.Site) : Prop :=
  ∃ module, workspace.module? site.path = some module ∧ module.path = site.path ∧
    site.node ∈ Node.subnodesIn module.nodes

/-- A type or a value that a declaration of its module is written with. -/
structure Lookup.Site.Placed (workspace : Workspace) (site : Lookup.Site) : Prop where
  stands : site.Stands workspace
  given : site.Given workspace

/-- A member whose type and value are written in its module. -/
def Member.Placed (workspace : Workspace) (member : Member) : Prop :=
  ∀ node ∈ member.shape.nodes, Lookup.Site.Placed workspace ⟨member.header.path, node⟩

/-- A declaration whose types and values are written in its module. -/
structure Declaration.Placed (workspace : Workspace) (declaration : Declaration) : Prop where
  nodes : ∀ node ∈ declaration.shape.nodes, Lookup.Site.Placed workspace ⟨declaration.path, node⟩
  members : ∀ member ∈ declaration.shape.members, member.header.path = declaration.path

def Symbol.Placed (workspace : Workspace) (symbol : Symbol) : Prop :=
  ∀ declaration ∈ symbol.declarations, declaration.Placed workspace

variable {workspace : Workspace} {right : Work.Rightness}

namespace Module

variable {path : Path} {module : Module} {name : String} {symbol : Symbol}

theorem listed_of_local? (found : workspace.module? path = some module)
    (named : module.local? name = some symbol) : symbol.Listed workspace :=
  ⟨module, Workspace.module?_path found,
    List.mem_append_left _ (List.mem_of_find?_eq_some named)⟩

theorem listed_of_declared (found : (workspace.module? path).bind (·.local? name) = some symbol) :
    symbol.Listed workspace := by
  obtain ⟨module, loaded, named⟩ := Option.bind_eq_some_iff.mp found
  exact listed_of_local? loaded named

theorem listed_of_symbolOf? (found : workspace.module? path = some module) {entry : Export}
    (listed : entry ∈ module.exports.getD []) (own : module.symbolOf? entry = some symbol) :
    symbol.Listed workspace := by
  cases entry with
  | shared name => exact listed_of_local? found own
  | own symbol =>
    cases own
    exact ⟨module, Workspace.module?_path found,
      List.mem_append_right _ (List.mem_filterMap.mpr ⟨.own symbol, listed, rfl⟩)⟩

theorem listed_of_exported (found : workspace.module? path = some module)
    (member : symbol ∈ module.exported) : symbol.Listed workspace := by
  obtain ⟨entry, listed, own⟩ := List.mem_filterMap.mp member
  exact listed_of_symbolOf? found listed own

theorem listed_of_export? (found : workspace.module? path = some module)
    (named : module.export? name = some symbol) : symbol.Listed workspace := by
  obtain ⟨entry, known, own⟩ := Option.bind_eq_some_iff.mp named
  exact listed_of_symbolOf? found (List.mem_of_find?_eq_some known) own

theorem listed_of_exportNamed? (found : workspace.module? path = some module)
    (named : Lookup.exportNamed? module name = some symbol) : symbol.Listed workspace := by
  rw [Lookup.exportNamed?] at named
  split at named
  · rename_i known
    rw [← Option.some.inj named]
    exact listed_of_export? found known
  · split at named
    · exact listed_of_export? found named
    · cases named

end Module

/-- A symbol of a module stands in its source. -/
theorem Module.standsIn_source {module : Module} {symbol : Symbol}
    (found : workspace.module? module.path = some module) (member : symbol ∈ module.symbols) :
    symbol.StandsIn module.path (workspace.source module.path) := by
  obtain ⟨bytes, content, same⟩ := Option.map_eq_some_iff.mp found
  rw [← same, ← Workspace.path_of_module? found] at member
  rw [Workspace.source, content, ← Workspace.path_of_module? found]
  exact Module.standsIn_of_mem_symbols member

theorem Symbol.Listed.standsIn {symbol : Symbol} (listed : symbol.Listed workspace) :
    ∃ module, workspace.module? module.path = some module ∧ symbol ∈ module.symbols ∧
      symbol.StandsIn module.path (workspace.source module.path) := by
  obtain ⟨module, found, member⟩ := listed
  exact ⟨module, found, member, Module.standsIn_source found member⟩

theorem Symbol.Listed.placed {symbol : Symbol} (listed : symbol.Listed workspace) :
    symbol.Placed workspace := by
  obtain ⟨module, found, member, stands⟩ := listed.standsIn
  intro declaration declared
  have here := stands.declarations declaration declared
  refine ⟨?_, fun member listed => (here.members member listed).trans here.here.symm⟩
  intro node written
  rw [here.here]
  refine ⟨⟨module, found, rfl, Node.mem_subnodesIn_of_mem ?_⟩, here.given node written⟩
  exact List.mem_flatMap.mpr ⟨symbol, member, List.mem_flatMap.mpr ⟨declaration, declared, written⟩⟩

theorem Lookup.Site.Stands.written {site : Lookup.Site} (stands : site.Stands workspace) :
    site.Written workspace := by
  obtain ⟨module, found, here, inside⟩ := stands
  obtain ⟨root, listed, below⟩ := Node.mem_subnodesIn.mp inside
  obtain ⟨symbol, member, among⟩ := List.mem_flatMap.mp listed
  obtain ⟨declaration, declared, written⟩ := List.mem_flatMap.mp among
  rw [← here] at found
  have stands := (Module.standsIn_source found member).declarations declaration declared
  rw [Lookup.Site.Written, ← here]
  exact Node.subnodesIn_trans below (stands.given root written).mem

theorem Lookup.Site.Stands.part {path : Path} {node part : Node}
    (stands : Lookup.Site.Stands workspace ⟨path, node⟩) (inside : part ∈ node.subnodes) :
    Lookup.Site.Stands workspace ⟨path, part⟩ := by
  obtain ⟨module, found, here, written⟩ := stands
  exact ⟨module, found, here, Node.subnodesIn_trans inside written⟩

/-- What is given inside a type or a value of a module is given there. -/
theorem Lookup.Site.Stands.placed {path : Path} {node part : Node}
    (stands : Lookup.Site.Stands workspace ⟨path, node⟩) (given : part.GivenIn [node]) :
    Lookup.Site.Placed workspace ⟨path, part⟩ := by
  have inside : part ∈ node.subnodes := by simpa [Node.subnodesIn] using given.mem
  exact ⟨stands.part inside, given.within stands.written⟩

namespace Declaration

theorem Placed.member {declaration : Declaration} (placed : declaration.Placed workspace)
    {member : Member} (listed : member ∈ declaration.shape.members) : member.Placed workspace := by
  intro node written
  rw [placed.members member listed]
  apply placed.nodes
  obtain ⟨header, shape⟩ := declaration
  cases shape with
  | classShape typeParameters members => exact List.mem_flatMap.mpr ⟨member, listed, written⟩
  | interface typeParameters members => exact List.mem_flatMap.mpr ⟨member, listed, written⟩
  | _ => cases listed

theorem placed_toDeclaration {member : Member} (placed : member.Placed workspace) :
    member.toDeclaration.Placed workspace :=
  ⟨placed, fun _ listed => nomatch listed⟩

theorem placed_objectMembers {path : Path} {object : Node} {isConst : Bool}
    (stands : Lookup.Site.Stands workspace ⟨path, object⟩) (kind : object.kind = .object) :
    ∀ member ∈ objectMembers path object isConst, member.Placed workspace := by
  intro member among part written
  rw [path_of_membersIn (fun _ _ _ => path_of_entryMember?) _ member among]
  exact stands.placed (givenIn_of_objectMembers (by simp [kind]) among part written)

theorem placed_objectTypeMembers {path : Path} {type : Node}
    (stands : Lookup.Site.Stands workspace ⟨path, type⟩) :
    ∀ member ∈ objectTypeMembers path type, member.Placed workspace := by
  intro member among part written
  rw [path_of_membersIn (fun _ _ _ => path_of_typeMember?) _ member among]
  exact stands.placed (givenIn_of_objectTypeMembers among part written)

end Declaration

namespace Lookup

open Work (Settles Yields)

mutual

theorem mem_subnodes_of_namedPart {part : Node} : ∀ {node : Node}, namedPart node = some part →
    part ∈ node.subnodes
  | .mk kind field span text children, found => by
    unfold namedPart at found
    split at found
    · cases found
      exact Node.self_mem_subnodes _
    · cases found
      exact Node.self_mem_subnodes _
    · cases found
      exact Node.self_mem_subnodes _
    · cases found
      exact Node.self_mem_subnodes _
    · exact Node.mem_subnodes_of_below
        (Node.mem_subnodesIn_of_mem (Node.mem_children_of_get? found))
    · exact List.mem_cons_of_mem _ (mem_subnodesIn_of_namedPartOfLast found)
    · exact List.mem_cons_of_mem _ (mem_subnodesIn_of_namedPartOfLast found)
    · cases found

theorem mem_subnodesIn_of_namedPartOfLast {part : Node} : ∀ {nodes : List Node},
    namedPartOfLast nodes = some part → part ∈ Node.subnodesIn nodes
  | node :: rest, found => by
    rw [namedPartOfLast] at found
    rw [Node.subnodesIn, List.mem_append]
    split at found
    · exact .inr (mem_subnodesIn_of_namedPartOfLast found)
    · split at found
      · exact .inl (mem_subnodes_of_namedPart found)
      · cases found

end

theorem settles_follow (symbol : Symbol) :
    Settles workspace right (follow symbol) (Work.answer workspace (follow symbol)) :=
  (keeps_follow (fun path => (Work.settles_load? path).keeps)
    (fun importer specifier => (Work.settles_resolveModule importer specifier).keeps)
    Work.settles_moduleLimit.keeps symbol).settles

/-- Where aliases lead, if anywhere, is a symbol of a module. -/
def LeadsToListed (workspace : Workspace) (target : Except AliasError Symbol) : Prop :=
  ∀ symbol, target = .ok symbol → symbol.Listed workspace

theorem leadsToListed_error (error : AliasError) : LeadsToListed workspace (.error error) :=
  fun _ same => nomatch same

theorem yields_localOf (path : Path) (name referrer : String) :
    Yields workspace right (localOf path name referrer)
      (LeadsToListed workspace) := by
  apply Yields.bind ((Work.settles_load? path).yields fun _ => Except.ok.inj)
  rintro _ rfl
  split
  · rename_i symbol found
    apply Yields.pure
    intro other same
    rw [← Except.ok.inj same]
    exact Module.listed_of_declared found
  · exact Yields.pure (leadsToListed_error _)

/-- A specifier leads to a module of the tree. -/
theorem module?_of_resolution {importer : Path} {specifier : String} {module : Module}
    (resolved : Work.resolution workspace importer specifier = .ok (some module)) :
    workspace.module? module.path = some module := by
  rw [Work.resolution] at resolved
  split at resolved
  · split at resolved
    · cases resolved
    · obtain ⟨path, _, loaded⟩ := Option.bind_eq_some_iff.mp (Except.ok.inj resolved)
      exact Workspace.module?_path loaded
  · cases resolved

theorem yields_exportOf (importer : Path) (specifier name : String) :
    Yields workspace right (exportOf importer specifier name)
      (LeadsToListed workspace) := by
  have resolved : Yields workspace right (Work.resolveModule importer specifier)
      fun found => ∀ module, found = some module → workspace.module? module.path = some module := by
    apply (Work.settles_resolveModule importer specifier).yields
    rintro _ same module rfl
    exact module?_of_resolution same
  apply Yields.bind resolved
  intro found loaded
  split
  · exact Yields.pure (leadsToListed_error _)
  · split
    · exact Yields.pure (leadsToListed_error _)
    · split
      · rename_i symbol named
        apply Yields.pure
        intro other same
        rw [← Except.ok.inj same]
        exact Module.listed_of_exportNamed? (loaded _ rfl) named
      · exact Yields.pure (leadsToListed_error _)

/-- An alias leads to a symbol of a module. -/
theorem yields_aliasTarget (symbol : Symbol) :
    Yields workspace right (aliasTarget symbol) (LeadsToListed workspace) := by
  rw [aliasTarget]
  split
  · exact Yields.pure (leadsToListed_error _)
  · split
    · exact yields_localOf _ _ _
    · exact yields_exportOf _ _ _
    · exact yields_exportOf _ _ _
    · split
      · split
        · exact yields_localOf _ _ _
        · exact Yields.pure (leadsToListed_error _)
      · exact Yields.pure (leadsToListed_error _)
    · exact Yields.pure (leadsToListed_error _)

theorem yields_follow {symbol : Symbol} (listed : symbol.Listed workspace) :
    Yields workspace right (follow symbol) (LeadsToListed workspace) := by
  rw [follow]
  split
  · apply Work.yields_run (fun _ => True) (leadsToListed_error _) _ trivial
    intro next item _ ih
    apply Yields.bind (yields_aliasTarget item)
    intro target found
    split
    · exact Yields.pure (leadsToListed_error _)
    · split
      · exact ih _ trivial
      · exact Yields.pure found
  · apply Yields.pure
    intro last same
    rw [← Except.ok.inj same]
    exact listed

/-- A symbol, if there is one, that is written in its module. -/
def PlacedSymbol (workspace : Workspace) (found : Option Symbol) : Prop :=
  ∀ symbol, found = some symbol → symbol.Placed workspace

theorem placedSymbol_none : PlacedSymbol workspace none := fun _ same => nomatch same

/-- A declaration, if there is one, that is written in its module. -/
def PlacedDeclaration (workspace : Workspace) (found : Option Declaration) : Prop :=
  ∀ declaration, found = some declaration → declaration.Placed workspace

theorem placedDeclaration_none : PlacedDeclaration workspace none := fun _ same => nomatch same

theorem yields_named (path : Path) (name : String) :
    Yields workspace right (named path name) (PlacedSymbol workspace) := by
  apply Yields.bind ((Work.settles_load? path).yields fun _ => Except.ok.inj)
  rintro _ rfl
  split
  · rename_i symbol found
    apply Yields.bind (yields_follow (Module.listed_of_declared found))
    intro target followed
    split
    · apply Yields.pure
      intro symbol same
      rw [← Option.some.inj same]
      exact (followed _ rfl).placed
    · exact Yields.bind ((Settles.emit _ _ _ _).yields fun _ _ => trivial) fun _ _ =>
        Yields.pure placedSymbol_none
  · exact Yields.pure placedSymbol_none

theorem yields_typeDeclaration? (path : Path) (name : String) :
    Yields workspace right (typeDeclaration? path name) (PlacedDeclaration workspace) := by
  apply Yields.bind ((Work.settles_load? path).yields fun _ => Except.ok.inj)
  rintro _ rfl
  split
  · exact Yields.pure placedDeclaration_none
  · rename_i symbol found
    apply Yields.bind (yields_follow (Module.listed_of_declared found))
    intro target followed
    split
    · apply Yields.pure
      intro declaration declared
      exact (followed _ rfl).placed declaration (List.mem_of_find?_eq_some declared)
    · exact Yields.pure placedDeclaration_none

/-- Members that are written in their modules. -/
def PlacedMembers (workspace : Workspace) (members : List Member) : Prop :=
  ∀ member ∈ members, member.Placed workspace

theorem placedMembers_nil : PlacedMembers workspace [] := fun _ listed => nomatch listed

theorem yields_instanceMembersBy {members : Site → Work (List Member)}
    (others : ∀ site, site.Stands workspace →
      Yields workspace right (members site) (PlacedMembers workspace))
    {declaration : Option Declaration} (placed : PlacedDeclaration workspace declaration) :
    Yields workspace right (instanceMembersBy members declaration) (PlacedMembers workspace) := by
  rw [instanceMembersBy.eq_def]
  split
  · exact Yields.pure placedMembers_nil
  · have placed := placed _ rfl
    split
    · rename_i shape
      exact Yields.pure fun member listed =>
        placed.member (by rw [Shape.members.eq_def, shape]; exact listed)
    · rename_i shape
      exact Yields.pure fun member listed =>
        placed.member (by rw [Shape.members.eq_def, shape]; exact (List.mem_filter.mp listed).1)
    · rename_i shape
      apply others
      apply Site.Placed.stands
      apply placed.nodes
      rw [shape]
      exact List.mem_singleton.mpr rfl
    · exact Yields.pure placedMembers_nil

variable {property : Symbol → String → Option Symbol → Prop}

theorem settles_membersAt {place : Place} {members : List Member}
    (bound : Bound workspace place members) :
    Settles workspace ⟨property, Bound workspace⟩ (Work.membersAt place members) (.ok members) :=
  Work.settles_membersAt bound fun _ other => other.unique bound

/-- The members of a type that is written in a module are written in modules. -/
theorem yields_typeMembers {site : Site} (stands : site.Stands workspace) :
    Yields workspace ⟨property, Bound workspace⟩ (typeMembers site) (PlacedMembers workspace) := by
  apply Work.yields_run (Site.Stands workspace) placedMembers_nil _ stands
  intro next site stands ih
  dsimp only [types]
  split
  · exact Yields.pure placedMembers_nil
  · rename_i node part
    have stands := stands.part (mem_subnodes_of_namedPart part)
    split
    · rename_i kind
      apply (settles_membersAt (.type stands.written (beq_iff_eq.mp kind))).yields
      intro members same
      rw [← Except.ok.inj same]
      exact Declaration.placed_objectTypeMembers stands
    · apply Yields.bind (yields_typeDeclaration? _ _)
      intro declaration placed
      exact yields_instanceMembersBy ih placed

theorem yields_instanceMembers {declaration : Option Declaration}
    (placed : PlacedDeclaration workspace declaration) :
    Yields workspace ⟨property, Bound workspace⟩ (instanceMembers declaration)
      (PlacedMembers workspace) :=
  yields_instanceMembersBy (fun _ stands => yields_typeMembers stands) placed

end Lookup

end ApiSections
