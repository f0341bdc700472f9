import ApiSections.Proofs.Syntax.Subnodes

/-!
Nodes that are laid out in a source one behind the other, inside their parents. Where a node in braces
stands tells it from every other one, and a node that takes up room has one parent.
-/

namespace ApiSections.Syntax

/-- The nodes whose members are told apart by where the node stands. -/
@[reducible] def Kind.isBraced : Kind → Bool
  | .object | .objectType => true
  | _ => false

/-- Nodes that start with a token of their own. -/
def Opens (nodes : List Node) : Prop :=
  ∃ first rest, nodes = first :: rest ∧ first.kind = .token ∧ first.children = [] ∧
    first.start < first.stop

mutual

/-- Nodes in order between two places. -/
def Laid : Nat → Nat → List Node → Prop
  | start, stop, [] => start ≤ stop
  | start, stop, node :: rest => start ≤ node.start ∧ node.Neat ∧ Laid node.stop stop rest

/-- A node with its children in order inside it. -/
def Node.Neat : Node → Prop
  | .mk kind _ span _ children =>
    Laid span.start span.stop children ∧ (kind.isBraced = true → Opens children)

end

mutual

theorem Laid.le : ∀ {start stop : Nat} {nodes : List Node}, Laid start stop nodes → start ≤ stop
  | _, _, [], laid => by
    rw [Laid] at laid
    exact laid
  | _, _, node :: rest, laid => by
    rw [Laid] at laid
    obtain ⟨before, neat, rest⟩ := laid
    exact Nat.le_trans before (Nat.le_trans neat.le rest.le)

theorem Node.Neat.le : ∀ {node : Node}, node.Neat → node.start ≤ node.stop
  | .mk _ _ _ _ _, neat => by
    rw [Node.Neat] at neat
    exact neat.1.le

end

section Laid

variable {start stop : Nat} {nodes others : List Node} {node : Node}

theorem laid_nil (le : start ≤ stop) : Laid start stop [] := by
  rw [Laid]
  exact le

theorem Node.neat_iff : node.Neat ↔
    Laid node.start node.stop node.children ∧
      (node.kind.isBraced = true → Opens node.children) := by
  cases node
  rw [Neat]
  exact Iff.rfl

theorem Laid.from (laid : Laid start stop nodes) {earlier : Nat} (le : earlier ≤ start) :
    Laid earlier stop nodes := by
  cases nodes with
  | nil =>
    rw [Laid] at laid ⊢
    exact Nat.le_trans le laid
  | cons node rest =>
    rw [Laid] at laid ⊢
    exact ⟨Nat.le_trans le laid.1, laid.2⟩

theorem Laid.append {middle : Nat} (first : Laid start middle nodes)
    (second : Laid middle stop others) : Laid start stop (nodes ++ others) := by
  induction nodes generalizing start with
  | nil =>
    rw [Laid] at first
    exact second.from first
  | cons node rest ih =>
    rw [Laid] at first
    rw [List.cons_append, Laid]
    exact ⟨first.1, first.2.1, ih first.2.2⟩

theorem Laid.split (laid : Laid start stop (nodes ++ others)) :
    ∃ middle, Laid start middle nodes ∧ Laid middle stop others := by
  induction nodes generalizing start with
  | nil => exact ⟨start, laid_nil (Nat.le_refl _), laid⟩
  | cons node rest ih =>
    rw [List.cons_append, Laid] at laid
    obtain ⟨middle, first, second⟩ := ih laid.2.2
    refine ⟨middle, ?_, second⟩
    rw [Laid]
    exact ⟨laid.1, laid.2.1, first⟩

theorem laid_singleton (neat : node.Neat) : Laid node.start node.stop [node] := by
  rw [Laid, Laid]
  exact ⟨Nat.le_refl _, neat, Nat.le_refl _⟩

end Laid

mutual

/-- The nodes of a neat node are neat and stand inside it. -/
theorem Node.Neat.inside {part : Node} : ∀ {node : Node}, node.Neat → part ∈ node.subnodes →
    node.start ≤ part.start ∧ part.stop ≤ node.stop ∧ part.Neat
  | .mk kind field span text children, neat, member => by
    rw [Node.subnodes, List.mem_cons] at member
    rcases member with rfl | member
    · exact ⟨Nat.le_refl _, Nat.le_refl _, neat⟩
    · rw [Node.Neat] at neat
      exact neat.1.inside member

theorem Laid.inside {part : Node} : ∀ {start stop : Nat} {nodes : List Node},
    Laid start stop nodes → part ∈ Node.subnodesIn nodes →
    start ≤ part.start ∧ part.stop ≤ stop ∧ part.Neat
  | start, stop, node :: rest, laid, member => by
    rw [Laid] at laid
    obtain ⟨before, neat, laid⟩ := laid
    rw [Node.subnodesIn, List.mem_append] at member
    rcases member with member | member
    · obtain ⟨after, inside, neat'⟩ := neat.inside member
      exact ⟨Nat.le_trans before after, Nat.le_trans inside laid.le, neat'⟩
    · obtain ⟨after, inside, neat'⟩ := laid.inside member
      exact ⟨Nat.le_trans before (Nat.le_trans neat.le after), inside, neat'⟩

end

section Unique

variable {start stop : Nat} {nodes : List Node} {first second part node : Node}

/-- Of nodes in order only one can hold a node that takes up room. -/
theorem Laid.eq_of_holds (laid : Laid start stop nodes) (room : part.start < part.stop)
    (here : first ∈ nodes) (there : second ∈ nodes) (mine : part ∈ first.subnodes)
    (yours : part ∈ second.subnodes) : first = second := by
  induction nodes generalizing start with
  | nil => cases here
  | cons node rest ih =>
    rw [Laid] at laid
    obtain ⟨_, neat, laid⟩ := laid
    rcases List.mem_cons.mp here with same | here <;>
      rcases List.mem_cons.mp there with same' | there
    · rw [same, same']
    · have inside := neat.inside (same ▸ mine)
      have later := laid.inside (Node.mem_subnodesIn.mpr ⟨second, there, yours⟩)
      omega
    · have inside := neat.inside (same' ▸ yours)
      have later := laid.inside (Node.mem_subnodesIn.mpr ⟨first, here, mine⟩)
      omega
    · exact ih laid here there

/-- What is below a node in braces stands behind its first token, unless it is that token. -/
theorem Node.Neat.lt_of_below (neat : node.Neat) (braced : node.kind.isBraced = true)
    (below : part ∈ Node.subnodesIn node.children) (other : part.kind ≠ .token) :
    node.start < part.start := by
  rw [Node.neat_iff] at neat
  obtain ⟨laid, opens⟩ := neat
  obtain ⟨token, rest, children, kind, childless, opened⟩ := opens braced
  rw [children] at laid below
  rw [Laid] at laid
  rw [Node.subnodesIn, Node.subnodes_eq, childless, List.mem_append, List.mem_cons] at below
  rcases below with (rfl | below) | below
  · exact absurd kind other
  · cases below
  · have later := laid.2.2.inside below
    omega

theorem Node.Neat.nonempty (neat : node.Neat) (braced : node.kind.isBraced = true) :
    node.start < node.stop := by
  rw [Node.neat_iff] at neat
  obtain ⟨laid, opens⟩ := neat
  obtain ⟨token, rest, children, _, _, opened⟩ := opens braced
  rw [children, Laid] at laid
  have bound := laid.2.2.le
  omega

theorem Kind.ne_token_of_isBraced {kind : Kind} (braced : kind.isBraced = true) :
    kind ≠ .token := by
  rintro rfl
  cases braced

mutual

/-- In a neat node, two nodes in braces at one place are the same. -/
theorem Node.Neat.eq_of_place : ∀ {node : Node}, node.Neat → first ∈ node.subnodes →
    second ∈ node.subnodes → first.kind.isBraced = true → second.kind.isBraced = true →
    first.start = second.start → first.stop = second.stop → first = second
  | .mk kind field span text children, neat, here, there, braced, braced', starts, stops => by
    have laid : Laid span.start span.stop children := by
      rw [Node.Neat] at neat
      exact neat.1
    rw [Node.subnodes, List.mem_cons] at here there
    rcases here with rfl | here <;> rcases there with rfl | there
    · rfl
    · have behind := neat.lt_of_below braced there (Kind.ne_token_of_isBraced braced')
      omega
    · have behind := neat.lt_of_below braced' here (Kind.ne_token_of_isBraced braced)
      omega
    · exact laid.eq_of_place here there braced braced' starts stops

theorem Laid.eq_of_place : ∀ {start stop : Nat} {nodes : List Node}, Laid start stop nodes →
    first ∈ Node.subnodesIn nodes → second ∈ Node.subnodesIn nodes →
    first.kind.isBraced = true → second.kind.isBraced = true →
    first.start = second.start → first.stop = second.stop → first = second
  | start, stop, node :: rest, laid, here, there, braced, braced', starts, stops => by
    have nonempty := (laid.inside here).2.2.nonempty braced
    rw [Laid] at laid
    obtain ⟨_, neat, laid⟩ := laid
    rw [Node.subnodesIn, List.mem_append] at here there
    rcases here with here | here <;> rcases there with there | there
    · exact neat.eq_of_place here there braced braced' starts stops
    · have inside := neat.inside here
      have later := laid.inside there
      omega
    · have inside := neat.inside there
      have later := laid.inside here
      omega
    · exact laid.eq_of_place here there braced braced' starts stops

end

mutual

/-- Of two nodes that hold a third one, one holds the other. -/
theorem Node.Neat.comparable (room : part.start < part.stop)
    (mine : part ∈ first.subnodes) (yours : part ∈ second.subnodes) : ∀ {node : Node}, node.Neat →
    first ∈ node.subnodes → second ∈ node.subnodes →
    first ∈ second.subnodes ∨ second ∈ first.subnodes
  | .mk kind field span text children, neat, here, there => by
    rw [Node.subnodes, List.mem_cons] at here there
    rcases here with rfl | here
    · rcases there with rfl | there
      · exact .inl (Node.self_mem_subnodes _)
      · exact .inr (List.mem_cons_of_mem _ there)
    · rcases there with rfl | there
      · exact .inl (List.mem_cons_of_mem _ here)
      · rw [Node.Neat] at neat
        exact neat.1.comparable room mine yours here there

theorem Laid.comparable (room : part.start < part.stop)
    (mine : part ∈ first.subnodes) (yours : part ∈ second.subnodes) :
    ∀ {start stop : Nat} {nodes : List Node}, Laid start stop nodes →
    first ∈ Node.subnodesIn nodes → second ∈ Node.subnodesIn nodes →
    first ∈ second.subnodes ∨ second ∈ first.subnodes
  | start, stop, node :: rest, laid, here, there => by
    rw [Laid] at laid
    obtain ⟨_, neat, laid⟩ := laid
    rw [Node.subnodesIn, List.mem_append] at here there
    rcases here with here | here <;> rcases there with there | there
    · exact neat.comparable room mine yours here there
    · have inside := neat.inside (Node.subnodes_trans mine here)
      have later := laid.inside (Node.subnodesIn_trans yours there)
      omega
    · have inside := neat.inside (Node.subnodes_trans yours there)
      have later := laid.inside (Node.subnodesIn_trans mine here)
      omega
    · exact laid.comparable room mine yours here there

end

/-- A node that takes up room has one parent. -/
theorem Laid.eq_of_child (laid : Laid start stop nodes) (room : part.start < part.stop)
    (here : first ∈ Node.subnodesIn nodes) (there : second ∈ Node.subnodesIn nodes)
    (mine : part ∈ first.children) (yours : part ∈ second.children) : first = second := by
  have below {parent : Node} (child : part ∈ parent.children) : part ∈ parent.subnodes :=
    Node.mem_subnodes_of_below (Node.mem_subnodesIn_of_mem child)
  have same {inner outer : Node} (neat : outer.Neat) (child : part ∈ inner.children)
      (other : part ∈ outer.children) (inside : inner ∈ outer.subnodes) : inner = outer := by
    rw [Node.subnodes_eq, List.mem_cons] at inside
    rcases inside with equal | inside
    · exact equal
    · -- The child of the outer node that holds the inner one would be the shared child.
      obtain ⟨holder, among, holds⟩ := Node.mem_subnodesIn.mp inside
      have equal : holder = part := (Node.neat_iff.mp neat).1.eq_of_holds room among other
        (Node.subnodes_trans (below child) holds) part.self_mem_subnodes
      have lighter := Node.weight_lt_of_below (Node.mem_subnodesIn_of_mem child)
      have heavier := Node.weight_le_of_mem (equal ▸ holds)
      omega
  rcases laid.comparable room (below mine) (below yours) here there with inside | inside
  · exact same (laid.inside there).2.2 mine yours inside
  · exact (same (laid.inside here).2.2 yours mine inside).symm

end Unique

end ApiSections.Syntax
