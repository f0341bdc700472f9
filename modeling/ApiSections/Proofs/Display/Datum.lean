import ApiSections.Proofs.Display.Unfolding

/-!
Values built from literals and objects, as they are written and as their types are shown. No look-up
is needed for such a type.
-/

namespace ApiSections.Display

open Syntax (Node unwrap)

mutual

/-- A literal, or an object of such. A literal has two types: that of what it may change to, and its
own. -/
inductive Datum where
  | literal (widened own : String)
  | object (entries : Entries)

/-- The entries of an object, with their keys as they are written. -/
inductive Entries where
  | nil
  | cons (key : String) (value : Datum) (rest : Entries)

end

mutual

/-- The type of a value on one line, with the types of its entries inside. -/
def Datum.text (mode : Mode) : Datum → String
  | .literal widened own => if mode.literal then own else widened
  | .object entries => TypeText.objectText (entries.texts mode.readonly)

def Entries.texts (readonly : Bool) : Entries → List String
  | .nil => []
  | .cons key value rest =>
    ((if readonly then "readonly " else "") ++ key ++ ": " ++ value.text ⟨readonly, readonly⟩) ::
      rest.texts readonly

end

def Entries.find? (name : String) : Entries → Option Datum
  | .nil => none
  | .cons key value rest => if TypeText.propertyKey key == name then some value else rest.find? name

/-- The value at the end of some keys. -/
def Datum.at? : List String → Datum → Option Datum
  | [], value => some value
  | key :: keys, .object entries => (entries.find? key).bind (Datum.at? keys)
  | _ :: _, .literal _ _ => none

mutual

/-- An expression is such a value: a literal, or an object whose entries have a key and a value. -/
def Writes (node : Node) : Datum → Prop
  | .literal widened own => ∃ inner ∈ unwrap node,
    simpleType? inner .widened = some (.ok widened) ∧ simpleType? inner .constant = some (.ok own)
  | .object entries => ∃ inner ∈ unwrap node, inner.kind = .object ∧ WritesAll inner.operands entries

def WritesAll (nodes : List Node) : Entries → Prop
  | .nil => nodes = []
  | .cons key value rest => ∃ node ∈ nodes.head?, node.kind = .pair ∧
    (∃ name ∈ node.get? .key, name.kind ≠ .computedName ∧ name.text = key) ∧
    (∃ inner ∈ node.get? .value, Writes inner value) ∧ WritesAll nodes.tail rest

end

mutual

instance decidableWrites (node : Node) : ∀ value, Decidable (Writes node value)
  | .literal widened own => inferInstanceAs (Decidable (∃ inner ∈ unwrap node,
    simpleType? inner .widened = some (.ok widened) ∧ simpleType? inner .constant = some (.ok own)))
  | .object entries =>
    have := fun inner : Node => decidableWritesAll inner.operands entries
    inferInstanceAs (Decidable (∃ inner ∈ unwrap node,
      inner.kind = .object ∧ WritesAll inner.operands entries))

instance decidableWritesAll (nodes : List Node) : ∀ entries, Decidable (WritesAll nodes entries)
  | .nil => inferInstanceAs (Decidable (nodes = []))
  | .cons key value rest =>
    have := fun inner : Node => decidableWrites inner value
    have := decidableWritesAll nodes.tail rest
    inferInstanceAs (Decidable (∃ node ∈ nodes.head?, node.kind = .pair ∧
      (∃ name ∈ node.get? .key, name.kind ≠ .computedName ∧ name.text = key) ∧
      (∃ inner ∈ node.get? .value, Writes inner value) ∧ WritesAll nodes.tail rest))

end

/-- An expression is such a value under `as const`. -/
def WritesConst (node : Node) (value : Datum) : Prop :=
  ∃ assertion ∈ unwrap node, assertion.kind = .asExpression ∧ assertion.hasToken "const" = true ∧
    ∃ inner ∈ assertion.operands.head?, assertion.operands = [inner] ∧ Writes inner value

instance (node : Node) (value : Datum) : Decidable (WritesConst node value) :=
  inferInstanceAs (Decidable (∃ assertion ∈ unwrap node, _))

section Inference

variable {declare : Declare} {context : Context} {path : Path} {mode : Mode} {node inner : Node}

theorem simpleType?_eq {other : Mode} (same : mode.literal = other.literal) :
    simpleType? node mode = simpleType? node other := by
  unfold simpleType?
  rw [same]

theorem simpleType?_literal {widened own : String}
    (first : simpleType? inner .widened = some (.ok widened))
    (second : simpleType? inner .constant = some (.ok own)) :
    simpleType? inner mode = some (.ok (if mode.literal then own else widened)) := by
  cases literal : mode.literal with
  | false =>
    have same : simpleType? inner mode = simpleType? inner .widened := simpleType?_eq literal
    rw [same, first]
    rfl
  | true =>
    have same : simpleType? inner mode = simpleType? inner .constant := simpleType?_eq literal
    rw [same, second]
    rfl

theorem simpleType?_object (kind : inner.kind = .object) : simpleType? inner mode = none := by
  unfold simpleType?
  rw [kind]

mutual

/-- The type of such a value is known from its text alone. -/
theorem inferBy_writes : ∀ {mode : Mode} {node : Node} {value : Datum}, Writes node value →
    inferBy declare context path mode node = pure (value.text mode)
  | mode, node, .literal widened own, writes => by
    obtain ⟨inner, found, first, second⟩ := writes
    rw [inferBy_eq, expressionBy, Option.mem_def.mp found]
    dsimp only
    rw [simpleType?_literal first second]
    rfl
  | mode, node, .object entries, writes => by
    obtain ⟨inner, found, kind, all⟩ := writes
    rw [inferBy_eq, expressionBy, Option.mem_def.mp found]
    dsimp only
    rw [simpleType?_object kind, kind]
    dsimp only
    rw [mapM_entryBy_writes all, pure_bind]
    rfl

theorem mapM_entryBy_writes : ∀ {readonly : Bool} {nodes : List Node} {entries : Entries},
    WritesAll nodes entries →
    nodes.mapM (entryBy (inferBy declare) context path readonly) = pure (entries.texts readonly)
  | readonly, nodes, .nil, writes => by
    have none : nodes = [] := writes
    rw [none, List.mapM_nil]
    rfl
  | readonly, nodes, .cons key value rest, writes => by
    obtain ⟨node, first, kind, ⟨name, named, plain, same⟩, ⟨inner, found, here⟩, others⟩ := writes
    obtain ⟨tail, rfl⟩ := List.head?_eq_some_iff.mp first
    rw [List.tail_cons] at others
    have entry : entryBy (inferBy declare) context path readonly node =
        pure ((if readonly then "readonly " else "") ++ key ++ ": " ++
          value.text ⟨readonly, readonly⟩) := by
      rw [entryBy, kind]
      dsimp only
      rw [Option.mem_def.mp named, Option.mem_def.mp found]
      dsimp only
      rw [if_neg (by simpa using plain), inferBy_writes here, pure_bind, same]
    rw [List.mapM_cons, entry, pure_bind, mapM_entryBy_writes others, pure_bind]
    rfl

end

theorem inferBy_writesConst {value : Datum} (writes : WritesConst node value) :
    inferBy declare context path mode node = pure (value.text .constant) := by
  obtain ⟨assertion, found, kind, token, inner, _, only, here⟩ := writes
  have composite : simpleType? assertion mode = none := by
    unfold simpleType?
    rw [kind]
  rw [inferBy_eq, expressionBy, Option.mem_def.mp found]
  dsimp only
  rw [composite, kind]
  dsimp only
  rw [assertedBy, only]
  dsimp only
  rw [if_pos token, inferBy_writes here]

end Inference

end ApiSections.Display
