import ApiSections.Declaration.Member
import ApiSections.Proofs.Syntax.Subnodes

/-!
The types and values that declarations are written with. Each is given as a whole: neither
parentheses nor assertions are around it.
-/

namespace ApiSections

open Syntax (Node Kind Field)

/-- Whether a node is an expression around another one that it has the members of. -/
@[reducible] def Syntax.Kind.isCover : Kind → Bool
  | .parenthesized | .nonNull | .asExpression | .satisfiesExpression => true
  | _ => false

namespace Syntax.Node

/-- A node below others that nothing covers. -/
def GivenIn (nodes : List Node) (node : Node) : Prop :=
  ∃ parent ∈ subnodesIn nodes, node ∈ parent.children ∧ parent.kind.isCover = false

variable {nodes : List Node} {parent node part : Node} {field : Field}

theorem GivenIn.mem (given : node.GivenIn nodes) : node ∈ subnodesIn nodes := by
  obtain ⟨parent, inside, child, _⟩ := given
  exact subnodesIn_trans (mem_subnodes_of_below (mem_subnodesIn_of_mem child)) inside

theorem GivenIn.within (given : part.GivenIn [node]) (inside : node ∈ subnodesIn nodes) :
    part.GivenIn nodes := by
  obtain ⟨parent, below, child⟩ := given
  refine ⟨parent, subnodesIn_trans ?_ inside, child⟩
  simpa [subnodesIn] using below

theorem givenIn_of_mem_children (child : part ∈ node.children) (bare : node.kind.isCover = false) :
    part.GivenIn [node] :=
  ⟨node, mem_subnodesIn_of_mem (List.mem_singleton.mpr rfl), child, bare⟩

theorem GivenIn.of_child (given : part.GivenIn [node]) (child : node ∈ parent.children) :
    part.GivenIn [parent] :=
  given.within (mem_subnodesIn.mpr ⟨parent, List.mem_singleton.mpr rfl,
    mem_subnodes_of_below (mem_subnodesIn_of_mem child)⟩)

theorem givenIn_of_get? (found : node.get? field = some part) (bare : node.kind.isCover = false) :
    part.GivenIn [node] :=
  givenIn_of_mem_children (mem_children_of_get? found) bare

end Syntax.Node

namespace Declaration

variable {path : Path} {node part : Node} {field : Field} {doc : Option DocComment}
  {member : Member} {members : List Member}

theorem givenIn_of_annotation (found : annotatedType? (node.get? field) = some part)
    (bare : node.kind.isCover = false) : part.GivenIn [node] := by
  obtain ⟨type, written, found⟩ := Option.bind_eq_some_iff.mp found
  have below (plain : type.kind.isCover = false) (first : type.namedChildren.head? = some part) :
      part.GivenIn [node] :=
    (Node.givenIn_of_mem_children
      (Node.mem_children_of_namedChildren (List.mem_of_head? first)) plain).of_child
      (Node.mem_children_of_get? written)
  split at found
  · exact below (by simp [*]) found
  · exact below (by simp [*]) found
  · exact below (by simp [*]) found
  · exact below (by simp [*]) found
  · exact below (by simp [*]) found
  · cases found
    exact Node.givenIn_of_get? written bare

theorem nodes_methodShape {modifiers : List Modifier} {signature : Signature}
    {otherwise : Signature → MemberShape} (none : (otherwise signature).nodes = []) :
    (methodShape modifiers signature otherwise).nodes = [] := by
  rw [methodShape]
  split
  · rfl
  · split
    · rfl
    · exact none

theorem not_mem_nodes_of_method {condition : Prop} [Decidable condition] {modifiers : List Modifier}
    {signature : Signature} :
    part ∉ (if condition then .constructor signature
      else methodShape modifiers signature .method : MemberShape).nodes := by
  split
  · exact List.not_mem_nil
  · rw [nodes_methodShape rfl]
    exact List.not_mem_nil

theorem givenIn_of_classMember? (built : classMember? path node doc = some member) :
    ∀ part ∈ member.shape.nodes, part.GivenIn [node] := by
  rw [classMember?] at built
  split at built
  · cases built
    exact fun part written => absurd written not_mem_nodes_of_method
  · cases built
    exact fun part written => absurd written not_mem_nodes_of_method
  · cases built
    exact fun part written => absurd written not_mem_nodes_of_method
  · rename_i kind
    cases built
    intro part written
    rcases List.mem_append.mp written with written | written
    · exact givenIn_of_annotation (Option.mem_toList.mp written) (by simp [kind])
    · exact Node.givenIn_of_get? (Option.mem_toList.mp written) (by simp [kind])
  · cases built

theorem givenIn_of_typeMember? (built : typeMember? path node doc = some member) :
    ∀ part ∈ member.shape.nodes, part.GivenIn [node] := by
  rw [typeMember?] at built
  split at built
  · rename_i kind
    cases built
    intro part written
    exact givenIn_of_annotation (Option.mem_toList.mp written) (by simp [kind])
  · cases built
    rw [nodes_methodShape rfl]
    exact fun part written => nomatch written
  · cases built
    exact fun part written => nomatch written
  · cases built

/-- An entry without a value of its own stands for one itself. -/
theorem givenIn_of_entryMember? {isConst : Bool} {object : Node} (child : node ∈ object.children)
    (bare : object.kind.isCover = false)
    (built : entryMember? path isConst node doc = some member) :
    ∀ part ∈ member.shape.nodes, part.GivenIn [object] := by
  rw [entryMember?] at built
  split at built
  · rename_i kind
    cases built
    intro part written
    exact (Node.givenIn_of_get? (Option.mem_toList.mp written) (by simp [kind])).of_child child
  · cases built
    intro part written
    rw [List.mem_singleton.mp written]
    exact Node.givenIn_of_mem_children child bare
  · exact fun part written => (givenIn_of_classMember? built part written).of_child child
  · cases built

theorem mem_of_withPreceding {before nodes : List Node} {entry : List Node × Node}
    (member : entry ∈ Syntax.withPreceding before nodes) : entry.2 ∈ nodes := by
  induction nodes generalizing before with
  | nil => cases member
  | cons node rest ih =>
    rw [Syntax.withPreceding] at member
    rcases List.mem_cons.mp member with rfl | member
    · exact List.mem_cons_self
    · exact List.mem_cons_of_mem _ (ih member)

/-- A member in a body comes from one of its children. -/
theorem mem_membersIn {build : Node → Option DocComment → Option Member} {body : Option Node}
    (among : member ∈ membersIn build body) :
    ∃ inner, body = some inner ∧ ∃ node ∈ inner.children, ∃ doc, build node doc = some member := by
  cases body with
  | none => cases among
  | some inner =>
    obtain ⟨⟨before, node⟩, listed, built⟩ := List.mem_filterMap.mp among
    dsimp only at built
    split at built
    · exact ⟨inner, rfl, node, mem_of_withPreceding listed, _, built⟩
    · cases built

/-- Pairing accessors leaves where a member stands and what it is written with. -/
theorem mem_pairAccessors (among : member ∈ pairAccessors members) :
    ∃ single ∈ members, member.header = single.header ∧ member.shape.nodes = single.shape.nodes := by
  obtain ⟨single, listed, rfl⟩ := List.mem_map.mp among
  refine ⟨single, listed, ?_⟩
  split
  · rename_i shape
    exact ⟨rfl, by rw [shape]; rfl⟩
  · exact ⟨rfl, rfl⟩

theorem givenIn_of_classMembers (among : member ∈ classMembers path (node.get? field)) :
    ∀ part ∈ member.shape.nodes, part.GivenIn [node] := by
  obtain ⟨single, listed, _, same⟩ := mem_pairAccessors among
  obtain ⟨body, found, child, inside, doc, built⟩ := mem_membersIn listed
  rw [same]
  exact fun part written => ((givenIn_of_classMember? built part written).of_child inside).of_child
    (Node.mem_children_of_get? found)

theorem givenIn_of_interfaceMembers (among : member ∈ interfaceMembers path (node.get? field)) :
    ∀ part ∈ member.shape.nodes, part.GivenIn [node] := by
  obtain ⟨single, listed, _, same⟩ := mem_pairAccessors among
  obtain ⟨body, found, child, inside, doc, built⟩ := mem_membersIn listed
  rw [same]
  exact fun part written => ((givenIn_of_typeMember? built part written).of_child inside).of_child
    (Node.mem_children_of_get? found)

theorem givenIn_of_objectTypeMembers (among : member ∈ objectTypeMembers path node) :
    ∀ part ∈ member.shape.nodes, part.GivenIn [node] := by
  obtain ⟨type, same, child, inside, doc, built⟩ := mem_membersIn among
  cases same
  exact fun part written => (givenIn_of_typeMember? built part written).of_child inside

theorem givenIn_of_objectMembers {isConst : Bool} (bare : node.kind.isCover = false)
    (among : member ∈ objectMembers path node isConst) :
    ∀ part ∈ member.shape.nodes, part.GivenIn [node] := by
  obtain ⟨object, same, child, inside, doc, built⟩ := mem_membersIn among
  cases same
  exact givenIn_of_entryMember? inside bare built

end Declaration

end ApiSections
