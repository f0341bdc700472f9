import ApiSections.Lookup.Member
import ApiSections.Proofs.Module.Tables
import ApiSections.Proofs.Syntax.Grammar
import ApiSections.Proofs.Workspace.Modules

/-!
The members that are bound from a place in a source. There is one node in braces at a place, and one
value that it is the core of; so the place determines them.
-/

namespace ApiSections

open Syntax (Node Laid)

/-- The statements of a file. -/
def Workspace.source (workspace : Workspace) (path : Path) : List Node :=
  match workspace.tree.read? (workspace.tree.resolve path) with
  | none => []
  | some bytes => Module.statements (workspace.tree.resolve path) bytes

theorem Workspace.laid_source (workspace : Workspace) (path : Path) :
    ∃ stop, Laid 0 stop (workspace.source path) := by
  rw [source]
  split
  · exact ⟨0, Syntax.laid_nil (Nat.le_refl _)⟩
  · exact Syntax.laid_parse _ _

namespace Lookup

variable {object middle part : Node} {isConst const : Bool}

/-- The type or the value that an initializer comes down to. -/
def Core.node? : Core → Option Node
  | missing => none
  | asserted type => some type
  | value node _ => some node

theorem coreOf_cases (isConst : Bool) (node : Node) :
    (node.kind.isCover = true ∧ ∃ inner, coreOf isConst node = coreOfFirst inner node.children) ∨
      coreOf isConst node = .value node isConst ∨
      ∃ type ∈ node.operands, coreOf isConst node = .asserted type := by
  obtain ⟨kind, field, span, text, children⟩ := node
  rw [coreOf]
  split
  · rename_i wrapper
    refine .inl ⟨?_, isConst, rfl⟩
    rcases Bool.or_eq_true_iff.mp wrapper with same | same
    · simp [Node.kind, beq_iff_eq.mp same]
    · simp [Node.kind, beq_iff_eq.mp same]
  · split
    · rename_i same
      split
      · rename_i operands
        exact .inr (.inr ⟨_, by rw [operands]; exact List.mem_cons_of_mem _ List.mem_cons_self, rfl⟩)
      · exact .inl ⟨by simp [Node.kind, beq_iff_eq.mp same], _, rfl⟩
    · split
      · rename_i same
        exact .inl ⟨by simp [Node.kind, beq_iff_eq.mp same], _, rfl⟩
      · exact .inr (.inl rfl)

mutual

theorem mem_subnodes_of_coreOf : ∀ {isConst : Bool} {node : Node},
    (coreOf isConst node).node? = some part → part ∈ node.subnodes
  | isConst, .mk kind field span text children, found => by
    rcases coreOf_cases isConst (.mk kind field span text children) with
      ⟨_, inner, same⟩ | same | ⟨type, operand, same⟩
    · rw [same] at found
      exact List.mem_cons_of_mem _ (mem_subnodesIn_of_coreOfFirst found)
    · rw [same] at found
      cases found
      exact Node.self_mem_subnodes _
    · rw [same] at found
      cases found
      exact Node.mem_subnodes_of_below
        (Node.mem_subnodesIn_of_mem (Node.mem_children_of_operands operand))

theorem mem_subnodesIn_of_coreOfFirst : ∀ {isConst : Bool} {nodes : List Node},
    (coreOfFirst isConst nodes).node? = some part → part ∈ Node.subnodesIn nodes
  | isConst, node :: rest, found => by
    rw [coreOfFirst] at found
    rw [Node.subnodesIn, List.mem_append]
    split at found
    · exact .inl (mem_subnodes_of_coreOf found)
    · exact .inr (mem_subnodesIn_of_coreOfFirst found)

end

theorem mem_subnodes_of_core {node : Node} (core : coreOf isConst node = .value object const) :
    object ∈ node.subnodes :=
  mem_subnodes_of_coreOf (by rw [core]; rfl)

section Covered

variable (room : object.start < object.stop) (holds : object ∈ middle.subnodes)

include room holds

mutual

/-- What stands between a value and its core is covered. -/
theorem covered_of_coreOf : ∀ {isConst : Bool} {node : Node}, node.Neat →
    coreOf isConst node = .value object const → middle ∈ node.subnodes →
    middle = node ∨ ∃ cover ∈ node.subnodes, cover.kind.isCover = true ∧ middle ∈ cover.children
  | isConst, .mk kind field span text children, neat, found, inside => by
    rw [Node.subnodes, List.mem_cons] at inside
    rcases inside with same | below
    · exact .inl same
    · rcases coreOf_cases isConst (.mk kind field span text children) with
        ⟨cover, inner, same⟩ | same | ⟨type, _, same⟩
      · rw [same] at found
        rcases covered_of_coreOfFirst (Node.neat_iff.mp neat).1 found below with child | covered
        · exact .inr ⟨_, Node.self_mem_subnodes _, cover, child⟩
        · obtain ⟨other, among, covers⟩ := covered
          exact .inr ⟨other, List.mem_cons_of_mem _ among, covers⟩
      · rw [same] at found
        cases found
        have lighter : middle.weight < (Node.mk kind field span text children).weight :=
          Node.weight_lt_of_below below
        have heavier := Node.weight_le_of_mem holds
        omega
      · rw [same] at found
        cases found

theorem covered_of_coreOfFirst : ∀ {isConst : Bool} {start stop : Nat} {nodes : List Node},
    Laid start stop nodes → coreOfFirst isConst nodes = .value object const →
    middle ∈ Node.subnodesIn nodes →
    middle ∈ nodes ∨
      ∃ cover ∈ Node.subnodesIn nodes, cover.kind.isCover = true ∧ middle ∈ cover.children
  | isConst, start, stop, node :: rest, laid, found, inside => by
    rw [Laid] at laid
    obtain ⟨_, neat, laid⟩ := laid
    rw [Node.subnodesIn, List.mem_append] at inside
    rw [coreOfFirst] at found
    split at found
    · rcases inside with inside | later
      · rcases covered_of_coreOf neat found inside with same | ⟨cover, among, covers⟩
        · exact .inl (same ▸ List.mem_cons_self)
        · exact .inr ⟨cover, List.mem_append_left _ among, covers⟩
      · have early := neat.inside (mem_subnodes_of_core found)
        have late := laid.inside (Node.subnodesIn_trans holds later)
        omega
    · rcases inside with inside | later
      · have early := neat.inside (Node.subnodes_trans holds inside)
        have late := laid.inside (mem_subnodesIn_of_coreOfFirst (by rw [found]; rfl))
        omega
      · rcases covered_of_coreOfFirst laid found later with child | ⟨cover, among, covers⟩
        · exact .inl (List.mem_cons_of_mem _ child)
        · exact .inr ⟨cover, List.mem_append_right _ among, covers⟩

end

end Covered

section Unique

variable {start stop : Nat} {nodes : List Node} {first second : Node}

/-- A value that is given inside another one with the same core is that one. -/
theorem eq_of_core_within (laid : Laid start stop nodes) (room : object.start < object.stop)
    (here : first.GivenIn nodes) (there : second ∈ Node.subnodesIn nodes)
    (inside : first ∈ second.subnodes) (holds : object ∈ first.subnodes)
    (core : coreOf isConst second = .value object const) : first = second := by
  have neat := (laid.inside there).2.2
  rcases covered_of_coreOf room holds neat core inside with same | ⟨cover, among, covers, child⟩
  · exact same
  · obtain ⟨parent, listed, child', bare⟩ := here
    have within := (neat.inside inside).2.2.inside holds
    have same := laid.eq_of_child (by omega) (Node.subnodesIn_trans among there) listed child child'
    rw [same, bare] at covers
    cases covers

/-- One value that is given in a source has a given core. -/
theorem eq_of_core (laid : Laid start stop nodes) (room : object.start < object.stop)
    (here : first.GivenIn nodes) (there : second.GivenIn nodes) {const' : Bool}
    (core : coreOf false first = .value object const)
    (core' : coreOf false second = .value object const') : first = second := by
  have holds := mem_subnodes_of_core core
  have holds' := mem_subnodes_of_core core'
  rcases laid.comparable room holds holds' here.mem there.mem with inside | inside
  · exact eq_of_core_within laid room here there.mem inside holds core'
  · exact (eq_of_core_within laid room there here.mem inside holds' core).symm

end Unique

/-- A type or a value that is written in its file. -/
def Site.Written (workspace : Workspace) (site : Site) : Prop :=
  site.node ∈ Node.subnodesIn (workspace.source site.path)

/-- A type or a value that is given in its file. -/
def Site.Given (workspace : Workspace) (site : Site) : Prop :=
  site.node.GivenIn (workspace.source site.path)

/-- The members that are bound from a place: those of an object type, or of an object in a value. -/
inductive Bound (workspace : Workspace) : Place → List Member → Prop
  | type {path : Path} {type : Node} (written : Site.Written workspace ⟨path, type⟩)
      (kind : type.kind = .objectType) :
      Bound workspace (.ofNode path type) (Declaration.objectTypeMembers path type)
  | value {path : Path} {value object : Node} {isConst : Bool}
      (given : Site.Given workspace ⟨path, value⟩)
      (core : coreOf false value = .value object isConst) (kind : object.kind = .object) :
      Bound workspace (.ofNode path object) (Declaration.objectMembers path object isConst)

theorem Site.Given.written_core {workspace : Workspace} {path : Path} {value object : Node}
    {isConst : Bool} (given : Site.Given workspace ⟨path, value⟩)
    (core : coreOf false value = .value object isConst) : Site.Written workspace ⟨path, object⟩ :=
  Node.subnodesIn_trans (mem_subnodes_of_core core) given.mem

/-- Nodes in braces that are written at one place are the same. -/
theorem Site.Written.eq_of_place {workspace : Workspace} {path path' : Path} {node other : Node}
    (here : Site.Written workspace ⟨path, node⟩) (there : Site.Written workspace ⟨path', other⟩)
    (braced : node.kind.isBraced = true) (braced' : other.kind.isBraced = true)
    (same : Place.ofNode path node = .ofNode path' other) : path = path' ∧ node = other := by
  obtain ⟨paths, starts, stops⟩ := Place.mk.inj same
  cases paths
  obtain ⟨stop, laid⟩ := workspace.laid_source path
  exact ⟨rfl, laid.eq_of_place here there braced braced' starts stops⟩

/-- One list of members is bound from a place. -/
theorem Bound.unique {workspace : Workspace} {place : Place} {first second : List Member}
    (here : Bound workspace place first) (there : Bound workspace place second) :
    first = second := by
  generalize same : place = other at there
  cases here with
  | type written kind =>
    cases there with
    | type written' kind' =>
      obtain ⟨rfl, rfl⟩ := written.eq_of_place written' (by simp [kind]) (by simp [kind']) same
      rfl
    | value given core kind' =>
      obtain ⟨rfl, rfl⟩ := written.eq_of_place (given.written_core core) (by simp [kind])
        (by simp [kind']) same
      cases kind.symm.trans kind'
  | value given core kind =>
    cases there with
    | type written' kind' =>
      obtain ⟨rfl, rfl⟩ := (given.written_core core).eq_of_place written' (by simp [kind])
        (by simp [kind']) same
      cases kind.symm.trans kind'
    | value given' core' kind' =>
      obtain ⟨rfl, rfl⟩ := (given.written_core core).eq_of_place (given'.written_core core')
        (by simp [kind]) (by simp [kind']) same
      obtain ⟨stop, laid⟩ := workspace.laid_source _
      have neat := (laid.inside (given.written_core core)).2.2
      have equal := eq_of_core laid (neat.nonempty (by simp [kind])) given given' core core'
      cases equal
      cases core.symm.trans core'
      rfl

end Lookup

end ApiSections
