import ApiSections.Syntax.Node

/-!
The nodes of a tree, listed from the root on downwards.
-/

namespace ApiSections.Syntax

namespace Node

mutual

/-- A node and all nodes below it. -/
def subnodes : Node → List Node
  | mk kind field span text children => mk kind field span text children :: subnodesIn children

def subnodesIn : List Node → List Node
  | [] => []
  | node :: rest => node.subnodes ++ subnodesIn rest

end

theorem subnodes_eq (node : Node) : node.subnodes = node :: subnodesIn node.children := by
  cases node
  rfl

theorem mem_subnodesIn {part : Node} {nodes : List Node} :
    part ∈ subnodesIn nodes ↔ ∃ node ∈ nodes, part ∈ node.subnodes := by
  induction nodes with
  | nil => simp [subnodesIn]
  | cons node rest ih => simp [subnodesIn, ih]

theorem self_mem_subnodes (node : Node) : node ∈ node.subnodes := by
  rw [subnodes_eq]
  exact List.mem_cons_self

theorem mem_subnodesIn_of_mem {node : Node} {nodes : List Node} (member : node ∈ nodes) :
    node ∈ subnodesIn nodes :=
  mem_subnodesIn.mpr ⟨node, member, node.self_mem_subnodes⟩

/-- What is below a node is among its nodes. -/
theorem mem_subnodes_of_below {part node : Node} (below : part ∈ subnodesIn node.children) :
    part ∈ node.subnodes := by
  rw [subnodes_eq]
  exact List.mem_cons_of_mem _ below

mutual

theorem subnodes_trans {part middle : Node} (inner : part ∈ middle.subnodes) :
    ∀ {node : Node}, middle ∈ node.subnodes → part ∈ node.subnodes
  | mk _ _ _ _ _, outer => by
    rw [subnodes, List.mem_cons] at outer
    rcases outer with rfl | outer
    · exact inner
    · exact List.mem_cons_of_mem _ (subnodesIn_trans inner outer)

theorem subnodesIn_trans {part middle : Node} (inner : part ∈ middle.subnodes) :
    ∀ {nodes : List Node}, middle ∈ subnodesIn nodes → part ∈ subnodesIn nodes
  | node :: rest, outer => by
    rw [subnodesIn, List.mem_append] at outer ⊢
    rcases outer with outer | outer
    · exact .inl (subnodes_trans inner outer)
    · exact .inr (subnodesIn_trans inner outer)

end

mutual

theorem length_subnodes : ∀ node : Node, node.subnodes.length = node.weight
  | mk _ _ _ _ children => by rw [subnodes, weight, List.length_cons, length_subnodesIn children]

theorem length_subnodesIn : ∀ nodes : List Node, (subnodesIn nodes).length = weightIn nodes
  | [] => rfl
  | node :: rest => by
    rw [subnodesIn, weightIn, List.length_append, length_subnodes node, length_subnodesIn rest]

end

mutual

theorem weight_le_of_mem {part : Node} : ∀ {node : Node}, part ∈ node.subnodes →
    part.weight ≤ node.weight
  | mk _ _ _ _ _, member => by
    rw [subnodes, List.mem_cons] at member
    rcases member with rfl | member
    · exact Nat.le_refl _
    · have below := weight_le_of_mem_in member
      rw [weight]
      omega

theorem weight_le_of_mem_in {part : Node} : ∀ {nodes : List Node}, part ∈ subnodesIn nodes →
    part.weight ≤ weightIn nodes
  | node :: rest, member => by
    rw [subnodesIn, List.mem_append] at member
    rw [weightIn]
    rcases member with member | member
    · have inside := weight_le_of_mem member
      omega
    · have inside := weight_le_of_mem_in member
      omega

end

/-- What is below a node has fewer nodes. -/
theorem weight_lt_of_below {part node : Node} (below : part ∈ subnodesIn node.children) :
    part.weight < node.weight := by
  have inside := weight_le_of_mem_in below
  cases node
  rw [weight]
  exact Nat.lt_succ_of_le inside

theorem mem_children_of_get? {node child : Node} {field : Field}
    (found : node.get? field = some child) : child ∈ node.children :=
  List.mem_of_find?_eq_some found

theorem mem_children_of_namedChildren {node child : Node} (member : child ∈ node.namedChildren) :
    child ∈ node.children :=
  (List.mem_filter.mp member).1

theorem mem_children_of_operands {node child : Node} (member : child ∈ node.operands) :
    child ∈ node.children :=
  mem_children_of_namedChildren (List.mem_filter.mp member).1

theorem operands_eq (node : Node) :
    node.operands = node.children.filter fun child => child.isNamed && !child.isComment := by
  simp only [operands, namedChildren, List.filter_filter, Bool.and_comm]

end Node

end ApiSections.Syntax
