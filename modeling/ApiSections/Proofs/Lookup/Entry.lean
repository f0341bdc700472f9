import ApiSections.Proofs.Display.Datum
import ApiSections.Proofs.Lookup.Values

/-!
Look-ups of the entries of objects. A look-up of a property starts again from the object that holds
it, and an object knows of an `as const` only if that stands around the object itself.
-/

namespace ApiSections.Lookup

open Syntax (Node unwrap)

variable {isConst : Bool} {node inner : Node}

mutual

theorem coreOf_unwrap : ∀ {node : Node}, unwrap node = some inner →
    coreOf isConst node = coreOf isConst inner
  | .mk kind field span text children, found => by
    rw [unwrap] at found
    split at found
    · rename_i wrapper
      rw [coreOf, if_pos wrapper]
      exact coreOfFirst_unwrap found
    · cases found
      rfl

theorem coreOfFirst_unwrap : ∀ {nodes : List Node}, Syntax.unwrapFirst nodes = some inner →
    coreOfFirst isConst nodes = coreOf isConst inner
  | node :: rest, found => by
    rw [Syntax.unwrapFirst] at found
    rw [coreOfFirst]
    split at found
    · rw [if_pos ‹_›]
      exact coreOf_unwrap found
    · rw [if_neg ‹_›]
      exact coreOfFirst_unwrap found

end

theorem coreOfFirst_operand {nodes rest : List Node}
    (operands : nodes.filter (fun node => node.isNamed && !node.isComment) = inner :: rest) :
    coreOfFirst isConst nodes = coreOf isConst inner := by
  induction nodes with
  | nil => cases operands
  | cons node nodes ih =>
    rw [List.filter_cons] at operands
    rw [coreOfFirst]
    split at operands
    · rw [if_pos ‹_›, (List.cons.inj operands).1]
    · rw [if_neg ‹_›]
      exact ih operands

theorem coreOf_object (kind : node.kind = .object) : coreOf isConst node = .value node isConst := by
  obtain ⟨_, field, span, text, children⟩ := node
  cases kind
  rfl

theorem coreOf_const (kind : node.kind = .asExpression) (const : node.hasToken "const" = true)
    (only : node.operands = [inner]) : coreOf isConst node = coreOf true inner := by
  have first := only
  rw [Node.operands_eq] at first
  obtain ⟨_, field, span, text, children⟩ := node
  cases kind
  rw [coreOf]
  simp only [only, const, Bool.or_true]
  exact coreOfFirst_operand first

/-- The symbol of an expression is the one that some depth of look-ups gives. -/
theorem settles_symbolAt_of_run {workspace : Workspace} {path : Path} {depth : Nat}
    {outcome : Except Fault (Option Symbol)}
    (found : (symbolBy (propertyWithin (membersWithin workspace depth)) path node).run =
      some outcome) :
    Work.Settles workspace (rightly workspace) (symbolAt path node) outcome := by
  have tracks : Tracks workspace (fun _ => False) none (PlacedSymbol workspace) (symbolAt path node)
      fun depth => symbolBy (propertyWithin (membersWithin workspace depth)) path node :=
    tracks_symbolBy (tracks_propertyBy tracks_values) path node
  intro pass sound
  -- The bounded runs come to the end of the look-up, and one that has ended stays there.
  obtain ⟨other, last, ran, kept, comes, _⟩ := tracks (fun _ wanted => wanted.elim) pass sound
  have same : other = outcome := comes.unique (grows_symbol path node) (.inl ⟨depth, found⟩)
  rw [same] at ran
  exact ⟨last, ran, kept⟩

/-- A name stands for what its module declares under it. -/
theorem settles_symbolAt_name {workspace : Workspace} {right : Work.Rightness} {path : Path}
    {symbol : Symbol} (kind : node.kind = .identifier)
    (declared : (workspace.module? path).bind (·.local? node.text) = some symbol)
    (own : symbol.isAlias = false) :
    Work.Settles workspace right (symbolAt path node) (.ok (some symbol)) := by
  have refers : referenceOf node = some ⟨node.text, []⟩ := by
    obtain ⟨_, field, span, text, children⟩ := node
    cases kind
    rfl
  have followed : Work.Settles workspace right (followNoted symbol) (.ok (some symbol)) := by
    rw [followNoted, follow, own]
    exact .pure _
  have found : Work.Settles workspace right (named path node.text) (.ok (some symbol)) := by
    apply (Work.settles_load? path).bind
    rw [declared]
    exact followed
  rw [symbolAt, symbolBy, refers]
  exact found.bind (.pure _)

section Entries

open Display (Datum Entries Writes WritesAll)

variable {workspace : Workspace} {path : Path} {root object : Node} {symbol owner : Symbol}
  {declaration : Declaration} {value target : Datum} {entries : Entries} {name : String}

/-- A symbol that stands for an entry of an object in a root node. -/
structure IsEntry (path : Path) (root : Node) (isConst : Bool) (value : Datum) (symbol : Symbol)
    (declaration : Declaration) (node : Node) : Prop where
  primary : symbol.primary? = some declaration
  shape : declaration.shape = .member (.entry (some node) isConst)
  inside : node ∈ root.subnodes
  writes : Writes node value
  here : declaration.path = path
  pair : ∃ pair ∈ root.subnodes, pair.kind = .pair ∧ declaration.place = .ofNode path pair

/-- The first entry of a name among the members of an object. -/
theorem find_objectMembers {before nodes : List Node}
    (writes : WritesAll (nodes.filter fun node => node.isNamed && !node.isComment) entries)
    (found : entries.find? name = some value) :
    ∃ member pair node, pair ∈ nodes ∧ pair.kind = .pair ∧ pair.get? .value = some node ∧
      Writes node value ∧ member.header.path = path ∧ member.header.place = .ofNode path pair ∧
      member.shape = .entry (some node) isConst ∧
      ((Syntax.withPreceding before nodes).filterMap fun (before, node) =>
        if node.isNamed && !node.isComment then
          Declaration.entryMember? path isConst node (Declaration.leadingDoc? before)
        else none).find? (fun member =>
          TypeText.propertyKey (member.header.name.getD "") == name) = some member := by
  -- Along the nodes as they stand: the entries move on at the operands only.
  induction nodes generalizing before entries with
  | nil =>
    cases entries with
    | nil => cases found
    | cons key value rest =>
      obtain ⟨node, first, _⟩ := writes
      cases first
  | cons node nodes ih =>
    rw [Syntax.withPreceding, List.filterMap_cons]
    rw [List.filter_cons] at writes
    dsimp only
    split at writes
    · rename_i operand
      rw [if_pos operand]
      cases entries with
      | nil => cases writes
      | cons key inner rest =>
        obtain ⟨first, same, kind, ⟨label, named, _, text⟩, ⟨part, valued, here⟩, others⟩ := writes
        cases same
        have key_eq : Node.textOf (node.get? .key) = key := by
          rw [Option.mem_def.mp named, ← text]
          rfl
        rw [Declaration.entryMember?, kind]
        dsimp only
        rw [List.find?_cons]
        rw [Entries.find?] at found
        rw [Option.getD_some, key_eq]
        split at found
        · rename_i matched
          cases found
          rw [matched, Option.mem_def.mp valued]
          exact ⟨_, node, part, List.mem_cons_self, kind, valued, here, rfl, rfl, rfl, rfl⟩
        · rename_i differs
          rw [Bool.eq_false_iff.mpr differs]
          obtain ⟨member, pair, part, among, facts⟩ := ih others found
          exact ⟨member, pair, part, List.mem_cons_of_mem _ among, facts⟩
    · rename_i skipped
      rw [if_neg skipped]
      obtain ⟨member, pair, part, among, facts⟩ := ih writes found
      exact ⟨member, pair, part, List.mem_cons_of_mem _ among, facts⟩

theorem valueMembersBy_initializer {m : Type → Type} [Monad m] [MonadLiftT Work m]
    {members : Site → m (List Member)} (primary : symbol.primary? = some declaration)
    (bare : ascription? declaration = none) (initializer : initializer? declaration = some node) :
    valueMembersBy members symbol = members ⟨declaration.path, node⟩ := by
  rw [valueMembersBy, primary]
  dsimp only
  split
  · rename_i shape
    rw [initializer?, shape] at initializer
    cases initializer
  · rw [bare, initializer]

theorem memberNamed?_of_find? {members : List Member} {member : Member}
    (found : members.find? (fun member =>
      TypeText.propertyKey (member.header.name.getD "") == name) = some member)
    (bears : member.toDeclaration.shape.bearsValue = true) :
    ∃ symbol, memberNamed? owner name members = some symbol ∧
      symbol.primary? = some member.toDeclaration := by
  rw [← List.head?_filter] at found
  obtain ⟨others, same⟩ := List.head?_eq_some_iff.mp found
  rw [memberNamed?, same]
  refine ⟨_, rfl, ?_⟩
  rw [Symbol.primary?, Symbol.valueDeclaration?, List.map_cons, List.find?_cons, bears]
  rfl

/-- A property of an object is the first entry of its name. The object alone says whether it is
constant. -/
theorem run_propertyWithin_entry (primary : owner.primary? = some declaration)
    (bare : ascription? declaration = none) (initializer : initializer? declaration = some node)
    (inside : node ∈ root.subnodes) (core : coreOf false node = .value object isConst)
    (kind : object.kind = .object) (writes : WritesAll object.operands entries)
    (found : entries.find? name = some value) :
    ∃ symbol entry inner, (propertyWithin (membersWithin workspace 1) owner name).run =
        some (.ok (some symbol)) ∧
      IsEntry declaration.path root isConst value symbol entry inner := by
  rw [Node.operands_eq] at writes
  obtain ⟨member, pair, inner, child, paired, valued, here, path_eq, place_eq, shape, first⟩ :=
    @find_objectMembers isConst declaration.path value entries name [] _ writes found
  have among : object ∈ root.subnodes := Node.subnodes_trans (mem_subnodes_of_core core) inside
  have listed : pair ∈ root.subnodes := Node.subnodes_trans
    (Node.mem_subnodes_of_below (Node.mem_subnodesIn_of_mem child)) among
  have below : inner ∈ root.subnodes := Node.subnodes_trans (Node.mem_subnodes_of_below
    (Node.mem_subnodesIn_of_mem (Node.mem_children_of_get? valued))) listed
  have members : (valueMembersBy (membersWithin workspace 1) owner).run =
      some (.ok (Declaration.objectMembers declaration.path object isConst)) := by
    rw [valueMembersBy_initializer primary bare initializer, membersWithin, initializerMembersBy,
      core]
    dsimp only
    rw [kind]
    rfl
  have entry : member.toDeclaration.shape = .member (.entry (some inner) isConst) := by
    rw [Member.toDeclaration, shape]
  have bears : member.toDeclaration.shape.bearsValue = true := by
    rw [entry]
    rfl
  obtain ⟨symbol, property, primary⟩ := @memberNamed?_of_find? owner _ _ _ first bears
  refine ⟨symbol, member.toDeclaration, inner, ?_, primary, entry, below, here, path_eq,
    pair, listed, paired, place_eq⟩
  rw [run_propertyWithin, members, Option.map_some]
  exact congrArg (some ∘ Except.ok) property

theorem run_accessBy_entry {keys : List String} {entry : Declaration}
    (is : IsEntry path root isConst value symbol entry node)
    (present : value.at? keys = some target) :
    ∃ last declaration inner,
      (accessBy (propertyWithin (membersWithin workspace 1)) keys (some symbol)).run =
        some (.ok (some last)) ∧
      IsEntry path root (isConst && keys.isEmpty) target last declaration inner := by
  induction keys generalizing isConst value symbol entry node with
  | nil =>
    cases present
    refine ⟨symbol, entry, node, rfl, ?_⟩
    rw [List.isEmpty_nil, Bool.and_true]
    exact is
  | cons key keys ih =>
    cases value with
    | literal widened own => cases present
    | object entries =>
      obtain ⟨next, found, present⟩ := Option.bind_eq_some_iff.mp present
      obtain ⟨object, unwrapped, kind, writes⟩ := is.writes
      -- The `as const` stands around the outermost object, and this look-up starts inside of it.
      have core : coreOf false node = .value object false := by
        rw [coreOf_unwrap (Option.mem_def.mp unwrapped), coreOf_object kind]
      have bare : ascription? entry = none := by rw [ascription?, is.shape]
      have initializer : initializer? entry = some node := by rw [initializer?, is.shape]
      obtain ⟨property, inner_entry, inner, ran, isNext⟩ := @run_propertyWithin_entry _ _ workspace
        root object symbol entry next entries key is.primary bare initializer is.inside core kind
        writes found
      rw [is.here] at isNext
      obtain ⟨last, declaration, part, ended, isLast⟩ := ih isNext present
      refine ⟨last, declaration, part, ?_, ?_⟩
      · rw [accessBy, Verdict.run_bind, ran]
        exact ended
      · rw [List.isEmpty_cons, Bool.and_false]
        rw [Bool.false_and] at isLast
        exact isLast

theorem coreOf_writesConst {initializer : Node}
    (writes : Display.WritesConst initializer (.object entries)) :
    ∃ object, coreOf false initializer = .value object true ∧ object.kind = .object ∧
      WritesAll object.operands entries := by
  obtain ⟨assertion, asserted, kind, token, inner, _, only, object, unwrapped, braced, all⟩ := writes
  refine ⟨object, ?_, braced, all⟩
  rw [coreOf_unwrap (Option.mem_def.mp asserted), coreOf_const kind token only,
    coreOf_unwrap (Option.mem_def.mp unwrapped), coreOf_object braced]

/-- The keys behind the name of such an object lead to an entry, which is known to be constant if
there are no further ones. -/
theorem run_symbolBy_const {initializer : Node} {key : String} {keys : List String}
    (primary : owner.primary? = some declaration) (bare : ascription? declaration = none)
    (initialized : initializer? declaration = some initializer)
    (writes : Display.WritesConst initializer value)
    (refers : referenceOf node = some ⟨name, key :: keys⟩)
    (named : Work.answer workspace (named path name) = .ok (some owner))
    (present : value.at? (key :: keys) = some target) :
    ∃ last entry inner,
      (symbolBy (propertyWithin (membersWithin workspace 1)) path node).run =
        some (.ok (some last)) ∧
      IsEntry declaration.path initializer keys.isEmpty target last entry inner := by
  cases value with
  | literal widened own => cases present
  | object entries =>
    obtain ⟨next, found, present⟩ := Option.bind_eq_some_iff.mp present
    obtain ⟨object, core, kind, all⟩ := coreOf_writesConst writes
    obtain ⟨first, entry, inner, ran, isFirst⟩ := @run_propertyWithin_entry _ _ workspace
      initializer object owner declaration next entries key primary bare initialized
      initializer.self_mem_subnodes core kind all found
    obtain ⟨last, declared, part, ended, isLast⟩ := run_accessBy_entry isFirst present
    refine ⟨last, declared, part, ?_, ?_⟩
    · rw [symbolBy, refers]
      dsimp only
      rw [Verdict.run_bind, Verdict.run_lift, named]
      dsimp only
      rw [accessBy, Verdict.run_bind, ran]
      exact ended
    · rw [Bool.true_and] at isLast
      exact isLast

end Entries

mutual

theorem referenceOf_unwrap : ∀ node : Node, referenceOf node = (unwrap node).bind referenceOf
  | .mk kind field span text children => by
    rw [unwrap]
    split
    · rename_i wrapper
      rw [referenceOf, if_pos wrapper]
      exact referenceOfFirst_unwrap children
    · rfl

theorem referenceOfFirst_unwrap : ∀ nodes : List Node,
    referenceOfFirst nodes = (Syntax.unwrapFirst nodes).bind referenceOf
  | [] => rfl
  | node :: rest => by
    rw [referenceOfFirst, Syntax.unwrapFirst]
    split
    · exact referenceOf_unwrap node
    · exact referenceOfFirst_unwrap rest

end

mutual

theorem isWrapper_of_unwrap : ∀ {node : Node}, unwrap node = some inner →
    inner.kind.isWrapper = false
  | .mk kind field span text children, found => by
    rw [unwrap] at found
    split at found
    · exact isWrapper_of_unwrapFirst found
    · rename_i bare
      cases found
      exact Bool.eq_false_iff.mpr bare

theorem isWrapper_of_unwrapFirst : ∀ {nodes : List Node}, Syntax.unwrapFirst nodes = some inner →
    inner.kind.isWrapper = false
  | node :: rest, found => by
    rw [Syntax.unwrapFirst] at found
    split at found
    · exact isWrapper_of_unwrap found
    · exact isWrapper_of_unwrapFirst found

end

/-- An expression with keys behind its name takes a property. -/
theorem kind_of_keys {reference : Reference} (refers : referenceOf node = some reference)
    (keyed : reference.keys ≠ []) : ∃ inner, unwrap node = some inner ∧
      referenceOf inner = some reference ∧ (inner.kind = .memberAccess ∨ inner.kind = .subscript) := by
  rw [referenceOf_unwrap] at refers
  obtain ⟨inner, unwrapped, refers⟩ := Option.bind_eq_some_iff.mp refers
  refine ⟨inner, unwrapped, refers, ?_⟩
  obtain ⟨kind, field, span, text, children⟩ := inner
  have bare : kind.isWrapper = false := isWrapper_of_unwrap unwrapped
  rw [referenceOf, if_neg (Bool.eq_false_iff.mp bare)] at refers
  split at refers
  · cases refers
    exact absurd rfl keyed
  · split at refers
    · rename_i key taken
      rw [keyOf?] at taken
      split at taken
      · exact .inl ‹_›
      · exact .inr ‹_›
      · cases taken
    · cases refers

end ApiSections.Lookup
