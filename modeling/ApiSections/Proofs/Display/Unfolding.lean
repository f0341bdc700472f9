import ApiSections.Proofs.Display.Likeness
import ApiSections.Proofs.Lookup.Unfolding

/-!
The inference of types ends. The parts of an expression have fewer nodes than the expression; and a
declaration is inferred only while few others are active, none of which it is.
-/

namespace ApiSections

open Syntax (Node unwrap)

namespace Syntax

mutual

theorem mem_subnodes_of_unwrap {inner : Node} : ∀ {node : Node}, unwrap node = some inner →
    inner ∈ node.subnodes
  | .mk kind field span text children, found => by
    rw [unwrap] at found
    split at found
    · exact List.mem_cons_of_mem _ (mem_subnodesIn_of_unwrapFirst found)
    · cases found
      exact Node.self_mem_subnodes _

theorem mem_subnodesIn_of_unwrapFirst {inner : Node} : ∀ {nodes : List Node},
    unwrapFirst nodes = some inner → inner ∈ Node.subnodesIn nodes
  | node :: rest, found => by
    rw [unwrapFirst] at found
    rw [Node.subnodesIn, List.mem_append]
    split at found
    · exact .inl (mem_subnodes_of_unwrap found)
    · exact .inr (mem_subnodesIn_of_unwrapFirst found)

end

theorem Node.below_of_get? {node child part : Node} {field : Field}
    (found : node.get? field = some child) (inside : part ∈ child.subnodes) :
    part ∈ subnodesIn node.children :=
  mem_subnodesIn.mpr ⟨child, mem_children_of_get? found, inside⟩

end Syntax

namespace Display

section Parts

variable {bound : List String} {path : Path} {node expression : Node} {part : Part}

mutual

theorem below_of_returnStatements {statement : Node} : ∀ {node : Node},
    statement ∈ returnStatements node → statement ∈ Node.subnodesIn node.children
  | .mk _ _ _ _ _, member => below_of_returnStatementsIn member

theorem below_of_returnStatementsIn {statement : Node} : ∀ {nodes : List Node},
    statement ∈ returnStatementsIn nodes → statement ∈ Node.subnodesIn nodes
  | node :: rest, member => by
    rw [returnStatementsIn] at member
    rw [Node.subnodesIn, List.mem_append]
    split at member
    · exact .inr (below_of_returnStatementsIn member)
    · split at member
      · rcases List.mem_cons.mp member with rfl | member
        · exact .inl (Node.self_mem_subnodes _)
        · exact .inr (below_of_returnStatementsIn member)
      · rcases List.mem_append.mp member with member | member
        · exact .inl (Node.mem_subnodes_of_below (below_of_returnStatements member))
        · exact .inr (below_of_returnStatementsIn member)

end

theorem mem_subnodes_of_returned {body : Node} (member : expression ∈ returnedExpressions body) :
    expression ∈ body.subnodes := by
  obtain ⟨statement, returns, first⟩ := List.mem_filterMap.mp member
  have child : expression ∈ statement.children :=
    Node.mem_children_of_operands (List.mem_of_head? first)
  have inside : expression ∈ statement.subnodes :=
    Node.mem_subnodes_of_below (Node.mem_subnodesIn_of_mem child)
  exact Node.mem_subnodes_of_below
    (Node.subnodesIn_trans inside (below_of_returnStatements returns))

theorem below_of_default {parameter : Parameter} {list : Option Node}
    (member : parameter ∈ Declaration.parametersOf list) (used : default? parameter = some expression) :
    ∃ found ∈ list, expression ∈ found.subnodes := by
  cases list with
  | none => cases member
  | some list =>
    refine ⟨list, rfl, ?_⟩
    rw [Declaration.parametersOf] at member
    split at member
    · rw [List.mem_singleton.mp member] at used
      cases used
    · obtain ⟨written, among, rfl⟩ := List.mem_map.mp member
      rw [default?] at used
      split at used
      · cases used
      · have child := Node.mem_children_of_namedChildren (List.mem_filter.mp among).1
        have deeper : expression ∈ Node.subnodesIn written.children :=
          Node.below_of_get? used (Node.self_mem_subnodes _)
        exact Node.mem_subnodes_of_below
          (Node.mem_subnodesIn.mpr ⟨written, child, Node.mem_subnodes_of_below deeper⟩)

theorem below_of_resultsOf (member : expression ∈ resultsOf (.ofNode path node)) :
    expression ∈ Node.subnodesIn node.children := by
  rw [resultsOf] at member
  split at member
  · rename_i body _ present
    split at member
    · cases member
    · split at member
      · exact Node.below_of_get? present (mem_subnodes_of_returned member)
      · rw [List.mem_singleton.mp member]
        exact Node.below_of_get? present (Node.self_mem_subnodes _)
  · cases member

theorem below_of_callableParts (member : part ∈ callableParts bound (.ofNode path node)) :
    part.node ∈ Node.subnodesIn node.children := by
  rcases List.mem_append.mp member with member | member
  · obtain ⟨expression, used, rfl⟩ := List.mem_map.mp member
    obtain ⟨parameter, listed, used⟩ := List.mem_filterMap.mp used
    obtain ⟨list, found, inside⟩ := below_of_default listed used
    rcases Option.or_eq_some_iff.mp found with found | ⟨_, found⟩
    · exact Node.below_of_get? found inside
    · exact Node.below_of_get? found inside
  · obtain ⟨expression, returned, rfl⟩ := List.mem_map.mp member
    exact below_of_resultsOf returned

theorem mem_subnodes_of_entryParts (member : part ∈ entryParts ⟨path, bound, node⟩) :
    part.node ∈ node.subnodes := by
  rw [entryParts] at member
  split at member
  · obtain ⟨value, found, rfl⟩ := List.mem_map.mp member
    exact Node.mem_subnodes_of_below
      (Node.below_of_get? (Option.mem_toList.mp found) (Node.self_mem_subnodes _))
  · rw [List.mem_singleton.mp member]
    exact Node.self_mem_subnodes _
  · exact Node.mem_subnodes_of_below (below_of_callableParts member)
  · cases member

theorem weight_lt_of_partsOf {inner : Part} (member : inner ∈ partsOf part) :
    inner.node.weight < part.node.weight := by
  rw [partsOf] at member
  cases found : unwrap part.node with
  | none =>
    rw [found] at member
    cases member
  | some node =>
    rw [found] at member
    have lighter : node.weight ≤ part.node.weight :=
      Node.weight_le_of_mem (Syntax.mem_subnodes_of_unwrap found)
    suffices below : inner.node ∈ Node.subnodesIn node.children from
      Nat.lt_of_lt_of_le (Node.weight_lt_of_below below) lighter
    have field : ∀ {role : Syntax.Field} {child : Node}, child ∈ (node.get? role).toList →
        child ∈ Node.subnodesIn node.children :=
      fun written => Node.below_of_get? (Option.mem_toList.mp written) (Node.self_mem_subnodes _)
    have operand : ∀ {child : Node}, child ∈ node.operands →
        child ∈ Node.subnodesIn node.children :=
      fun written => Node.mem_subnodesIn_of_mem (Node.mem_children_of_operands written)
    dsimp only at member
    split at member
    · split at member
      · obtain ⟨child, written, rfl⟩ := List.mem_map.mp member
        exact (List.mem_append.mp written).elim field field
      · cases member
    · obtain ⟨child, written, rfl⟩ := List.mem_map.mp member
      exact (List.mem_append.mp written).elim field field
    · obtain ⟨child, written, rfl⟩ := List.mem_map.mp member
      exact operand written
    · obtain ⟨entry, written, inside⟩ := List.mem_flatMap.mp member
      exact Node.subnodesIn_trans (mem_subnodes_of_entryParts inside) (operand written)
    · split at member
      · rename_i operands
        rw [List.mem_singleton.mp member]
        exact operand (by rw [operands]; exact List.mem_cons_self)
      · cases member
    · obtain ⟨child, written, rfl⟩ := List.mem_map.mp member
      exact operand (List.mem_of_head? (Option.mem_toList.mp written))
    · exact below_of_callableParts member
    · exact below_of_callableParts member
    · exact below_of_callableParts member
    · cases member

end Parts

/-- Steps that are the same. -/
def exactly : Work.Likeness where
  alike first second := first = second
  pure _ := rfl
  bind start rest := by
    rw [start]
    exact congrArg _ (funext rest)
  emit _ _ _ _ := rfl

/-- One context, in which such declarations are active. -/
def SameActive (active : List Place) (_ : List String) (context context' : Context) : Prop :=
  context = context' ∧ context.active = active

theorem scoping_active (active : List Place) : Scoping (SameActive active) := by
  rintro bound context _ scope ⟨rfl, same⟩
  exact ⟨rfl, same⟩

section Expressions

variable {refer : Infer} {active : List Place} {part : Part} {fuel depth : Nat}

theorem weight_pos (node : Node) : 0 < node.weight := by
  cases node
  exact Nat.succ_pos _

/-- As many unfoldings as an expression has nodes, or more, come to the same. -/
theorem agreeOn_iterate (beyond : Infer) (enough : part.node.weight ≤ fuel)
    (deep : part.node.weight ≤ depth) :
    AgreeOn exactly (SameActive active) ((expressionBy · refer)^[depth] beyond)
      (expressionFrom refer fuel) part := by
  have positive := weight_pos part.node
  induction fuel generalizing depth part with
  | zero => omega
  | succ fuel ih =>
    cases depth with
    | zero => omega
    | succ depth =>
      intro context context' mode close
      rw [Function.iterate_succ_apply']
      apply agrees_expressionBy (scoping_active active) close mode
      · intro inner member
        have lighter : inner.node.weight < part.node.weight := weight_lt_of_partsOf member
        have left : inner.node.weight ≤ depth := by omega
        intro _ _ mode close
        exact ih (by omega) left (weight_pos inner.node) mode close
      · rintro name _ context _ mode ⟨rfl, _⟩
        rfl

/-- With as much fuel as an expression has nodes, or more, its type is the same. -/
theorem agreeOn_inferBy (declare : Declare) (enough : part.node.weight ≤ fuel) :
    AgreeOn exactly (SameActive active) (expressionFrom (nameBy declare) fuel) (inferBy declare)
      part := by
  rintro context _ mode ⟨rfl, here⟩
  have close : SameActive active part.bound context context := ⟨rfl, here⟩
  have more : AgreeOn exactly (SameActive active)
      ((expressionBy · (nameBy declare))^[fuel] (inferBy declare))
      (expressionFrom (nameBy declare) fuel) part := agreeOn_iterate _ enough enough
  have own : AgreeOn exactly (SameActive active)
      ((expressionBy · (nameBy declare))^[fuel] (inferBy declare))
      (expressionFrom (nameBy declare) part.node.weight) part :=
    agreeOn_iterate _ (Nat.le_refl _) enough
  exact (more mode close).symm.trans (own mode close)

/-- The type of an expression in terms of the types of its parts. -/
theorem inferBy_eq (declare : Declare) (context : Context) (path : Path) (mode : Mode) (node : Node) :
    inferBy declare context path mode node =
      expressionBy (inferBy declare) (nameBy declare) context path mode node := by
  obtain ⟨fuel, weight⟩ := Nat.exists_eq_add_of_le' (weight_pos node)
  have close : SameActive context.active [] context context := ⟨rfl, rfl⟩
  have agrees : Agrees exactly
      (expressionBy (expressionFrom (nameBy declare) fuel) (nameBy declare) context path mode node)
      (expressionBy (inferBy declare) (nameBy declare) context path mode node) := by
    apply agrees_expressionBy (scoping_active context.active) close
    · intro inner member
      have lighter : inner.node.weight < node.weight := weight_lt_of_partsOf member
      have enough : inner.node.weight ≤ fuel := by omega
      intro _ _ mode close
      exact agreeOn_inferBy declare enough mode close
    · rintro name _ context _ mode ⟨rfl, _⟩
      rfl
  rw [inferBy, weight]
  exact agrees

theorem unfolds_inferBy (declare : Declare) (context : Context) (path : Path) (mode : Mode)
    (node : Node) :
    Unfolds (expressionBy · (nameBy declare)) fun infer =>
      infer context path mode node = inferBy declare context path mode node := by
  refine ⟨node.weight, fun beyond => ?_⟩
  have agrees : AgreeOn exactly (SameActive context.active)
      ((expressionBy · (nameBy declare))^[node.weight] beyond)
      (expressionFrom (nameBy declare) node.weight) ⟨path, [], node⟩ := by
    intro _ _ mode close
    exact agreeOn_iterate beyond (Nat.le_refl _) (Nat.le_refl _) mode close
  exact agrees mode ⟨rfl, rfl⟩

end Expressions

section Declarations

/-- Declarations whose types may be inferred at a time: no more than the limit, and none twice. -/
def Bounded (active : List Place) : Prop := active.length ≤ maxDepth ∧ active.Nodup

instance (active : List Place) : Decidable (Bounded active) := inferInstanceAs (Decidable (_ ∧ _))

/-- The type of a declaration, by the types of others, unless the declaration is active or too many
are. The answer is `lost` if more than is allowed would become active. -/
def declareBy (lost declare : Declare) : Declare := fun context declaration symbol =>
  if context.active.contains declaration.place then throw "circular reference"
  else if maxDepth ≤ context.active.length then throw "reference chain too deep"
  else if Bounded (context.enter declaration.place).active then
    declarationBy (inferBy declare) declare (context.enter declaration.place) declaration symbol
  else lost context declaration symbol

variable {lost : Declare} {context : Context} {active : List Place} {depth : Nat}

theorem agreeOn_nameBy_active {declare other : Declare}
    (same : ∀ context, context.active = active → ∀ declaration symbol,
      declare context declaration symbol = other context declaration symbol) (part : Part) :
    AgreeOn exactly (SameActive active) (nameBy declare) (nameBy other) part := by
  rintro context _ mode ⟨rfl, here⟩
  have equal : declare context = other context := by
    funext declaration symbol
    exact same context here declaration symbol
  have references : referenceBy declare context = referenceBy other context := by
    funext path literal node
    rw [referenceBy, referenceBy, equal]
  rw [nameBy, nameBy, references]
  rfl

/-- Unfolded once more than declarations can still become active, the guarded recursion is the
inference that counts them down. -/
theorem iterate_declareBy (beyond : Declare) (once : context.active.Nodup)
    (room : context.active.length + depth = maxDepth) (declaration : Declaration)
    (symbol : Option Symbol) :
    (declareBy lost)^[depth + 1] beyond context declaration symbol =
      declarationFrom depth context declaration symbol := by
  induction depth generalizing context declaration symbol with
  | zero =>
    rw [Function.iterate_succ_apply', declareBy, declarationFrom]
    have full : maxDepth ≤ context.active.length := by omega
    rw [if_pos full]
    split <;> rfl
  | succ depth ih =>
    rw [Function.iterate_succ_apply', declareBy, declarationFrom]
    split
    · rfl
    · rename_i inactive
      have fresh : declaration.place ∉ context.active := by
        rwa [List.contains_iff_mem] at inactive
      have bounded : Bounded (context.enter declaration.place).active := by
        refine ⟨?_, List.nodup_cons.mpr ⟨fresh, once⟩⟩
        simp only [Context.enter, List.length_cons]
        omega
      have spare : ¬ maxDepth ≤ context.active.length := by omega
      rw [if_neg spare, if_pos bounded]
      -- Inside, functions change the parameters in scope, but not what is active.
      have next : ∀ inside : Context, inside.active = (context.enter declaration.place).active →
          ∀ declaration symbol, (declareBy lost)^[depth + 1] beyond inside declaration symbol =
            declarationFrom depth inside declaration symbol := by
        intro inside same declaration symbol
        apply ih
        · rw [same]
          exact bounded.2
        · rw [same, Context.enter, List.length_cons]
          omega
      apply agrees_declarationBy (L := exactly) (scoping_active _) ⟨rfl, rfl⟩
      · intro part _ _ _ mode close
        exact agreeOn_expressionFrom (scoping_active _) part.node.weight
          (fun name _ => agreeOn_nameBy_active next name) mode close
      · intro target _
        exact next _ rfl target none

theorem unfolds_expressionType (lost : Declare) (path : Path) (mode : Mode) (node : Node) :
    Unfolds (declareBy lost) fun declare =>
      inferBy declare .empty path mode node = expressionType path mode node := by
  refine ⟨maxDepth + 1, fun beyond => ?_⟩
  have alone : ∀ context : Context, context.active = [] → ∀ declaration symbol,
      (declareBy lost)^[maxDepth + 1] beyond context declaration symbol =
        declarationFrom maxDepth context declaration symbol := by
    intro context none declaration symbol
    apply iterate_declareBy
    · rw [none]
      exact List.nodup_nil
    · rw [none, List.length_nil, Nat.zero_add]
  have agrees : AgreeOn exactly (SameActive []) _ _ ⟨path, [], node⟩ :=
    agreeOn_expressionFrom (scoping_active []) node.weight
      fun name _ => agreeOn_nameBy_active alone name
  exact agrees mode ⟨rfl, rfl⟩

theorem unfolds_typeAt (lost : Declare) (symbol : Symbol) (declaration : Declaration) :
    Unfolds (declareBy lost) fun declare =>
      (declare .empty declaration (some symbol)).run = typeAt symbol declaration :=
  ⟨maxDepth + 1, fun beyond => iterate_declareBy beyond List.nodup_nil (Nat.zero_add _) _ _⟩

end Declarations

open Lookup in
/-- Look-ups and the inference of types come to an end on every tree: each recursion is settled by
finitely many unfoldings, whatever the calls beyond them would do. Meanwhile no more than the allowed
declarations are active, and none twice, whatever would happen if there were more. -/
theorem lookups_and_types_unfold (workspace : Workspace) :
    (∀ symbol, symbol.Listed workspace → Unfolds (aliases symbol.name).look fun search =>
      SameEnd workspace (if symbol.isAlias then search [] symbol else return .ok symbol)
        (follow symbol)) ∧
    (∀ site, site.Stands workspace → Unfolds types.look fun search =>
      SameEnd workspace (search [] site) (typeMembers site)) ∧
    (∀ owner name, owner.Placed workspace → Unfolds values.look fun search =>
      SameEnd workspace (propertyBy (search []) owner name) (propertyOf owner name)) ∧
    (∀ path node, Unfolds values.look fun search =>
      SameEnd workspace (symbolBy (propertyBy (search [])) path node) (symbolAt path node)) ∧
    (∀ declare context path mode node, Unfolds (expressionBy · (nameBy declare)) fun infer =>
      infer context path mode node = inferBy declare context path mode node) ∧
    (∀ lost path mode node, Unfolds (declareBy lost) fun declare =>
      inferBy declare .empty path mode node = expressionType path mode node) ∧
    ∀ lost symbol declaration, Unfolds (declareBy lost) fun declare =>
      (declare .empty declaration (some symbol)).run = typeAt symbol declaration :=
  ⟨fun _ listed => unfolds_follow listed, fun _ stands => unfolds_types stands,
    fun _ name placed => unfolds_propertyOf placed name, unfolds_symbolAt, unfolds_inferBy,
    unfolds_expressionType, unfolds_typeAt⟩

open Lookup in
/-- An import of itself, variables that are members of each other, and types that name each other. -/
theorem lookups_and_types_unfold_circular :
    let source := "import{x}from'./a';const a=b.p,b=a.p;let c:T;type T=U;type U=T"
    let tree : FileTree := ⟨Path.ofString "/w", [], [(["w", "a"], Text.encode source)]⟩
    let workspace : Workspace := ⟨tree, none, fun _ => .failed "not found"⟩
    ∃ symbol owner type, symbol.name = "x" ∧ symbol.Listed workspace ∧ owner.name = "a" ∧
      owner.Placed workspace ∧ type.node.text = "T" ∧ type.Stands workspace ∧
      (Unfolds (aliases symbol.name).look fun search =>
        SameEnd workspace (if symbol.isAlias then search [] symbol else return .ok symbol)
          (follow symbol)) ∧
      (Unfolds types.look fun search => SameEnd workspace (search [] type) (typeMembers type)) ∧
      (Unfolds values.look fun search =>
        SameEnd workspace (propertyBy (search []) owner "p") (propertyOf owner "p")) := by
  intro source tree workspace
  let found (name : String) := (workspace.module? (Path.ofString "a")).bind (·.local? name)
  have facts : ((found "x").map (·.name), (found "a").map (·.name),
      ((found "c").bind (·.primary?)).bind fun declaration =>
        (ascription? declaration).map (·.text)) = (some "x", some "a", some "T") := by
    decide +kernel
  simp only [Prod.mk.injEq, Option.map_eq_some_iff, Option.bind_eq_some_iff] at facts
  obtain ⟨⟨symbol, here, named⟩, ⟨owner, there, named'⟩, declaration, ⟨third, last, primary⟩, type,
    annotated, text⟩ := facts
  have listed : ∀ {name symbol}, found name = some symbol → symbol.Listed workspace := by
    intro name symbol known
    obtain ⟨module, loaded, known⟩ := Option.bind_eq_some_iff.mp known
    exact Module.listed_of_local? loaded known
  have declared := placed_of_primary? (listed last).placed primary
  have stands := (declared.nodes type (mem_nodes_of_ascription? annotated)).stands
  obtain ⟨aliases_end, types_end, values_end, _⟩ := lookups_and_types_unfold workspace
  exact ⟨symbol, owner, ⟨declaration.path, type⟩, named, listed here, named', (listed there).placed,
    text, stands, aliases_end symbol (listed here), types_end _ stands,
    values_end owner "p" (listed there).placed⟩

end Display

end ApiSections
