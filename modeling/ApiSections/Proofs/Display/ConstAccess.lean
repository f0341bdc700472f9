import ApiSections.Proofs.Display.Scopes
import ApiSections.Proofs.Lookup.Entry

/-!
Properties of objects under `as const`. The type of the whole object keeps every literal and marks
every entry as readonly. A property with more than one key has the type that its value has elsewhere,
where it may change.
-/

namespace ApiSections.Display

open Syntax (Node unwrap)
open Lookup (referenceOf)
open Work (Settles answer)

variable {workspace : Workspace} {context : Context} {path : Path} {mode : Mode} {node inner : Node}
  {symbol : Symbol} {declaration : Declaration}

theorem inferBy_property {declare : Declare} (found : unwrap node = some inner)
    (kind : inner.kind = .memberAccess ∨ inner.kind = .subscript) :
    inferBy declare context path mode node =
      referenceBy declare context path mode.literal inner := by
  have composite : simpleType? inner mode = none := by
    unfold simpleType?
    rcases kind with kind | kind
    · rw [kind]
    · rw [kind]
  have unscoped : context.typeOf? inner = none := by
    rw [Context.typeOf?, if_neg]
    rcases kind with kind | kind
    · simp [kind]
    · simp [kind]
  have named : nameBy declare context path mode inner =
      referenceBy declare context path mode.literal inner := by
    rw [nameBy, unscoped]
  rw [inferBy_eq, expressionBy, found]
  dsimp only
  rw [composite]
  dsimp only
  rcases kind with kind | kind
  · rw [kind]
    exact named
  · rw [kind]
    exact named

/-- The type of an entry that is not active. -/
theorem declarationFrom_entry {root : Node} {isConst : Bool} {value : Datum} {depth : Nat}
    (is : Lookup.IsEntry path root isConst value symbol declaration node)
    (inactive : declaration.place ∉ context.active) :
    declarationFrom (depth + 1) context declaration (some symbol) =
      pure (value.text ⟨isConst, isConst⟩) := by
  rw [declarationFrom, if_neg (by rwa [List.contains_iff_mem]), declarationBy, is.shape]
  exact inferBy_writes is.writes

theorem declarationFrom_variable {statement : VariableStatement} {depth : Nat}
    (shape : declaration.shape = .variable statement none (some node))
    (inactive : declaration.place ∉ context.active) :
    declarationFrom (depth + 1) context declaration (some symbol) =
      inferBy (declarationFrom depth) (context.enter declaration.place) declaration.path
        ⟨statement.keyword == .constKeyword, false⟩ node := by
  rw [declarationFrom, if_neg (by rwa [List.contains_iff_mem]), declarationBy, shape]
  rfl

/-- A variable with a name for its initializer takes its type from what the name refers to. -/
theorem typeAt_name {statement : VariableStatement}
    (shape : declaration.shape = .variable statement none (some node))
    (found : unwrap node = some inner) (kind : inner.kind = .identifier) (symbol : Symbol) :
    typeAt symbol declaration =
      (referenceBy (declarationFrom 31) (Context.empty.enter declaration.place) declaration.path
        (statement.keyword == .constKeyword) inner).run := by
  have composite : simpleType? inner ⟨statement.keyword == .constKeyword, false⟩ = none := by
    unfold simpleType?
    rw [kind]
  have unscoped : (Context.empty.enter declaration.place).typeOf? inner = none := by
    rw [Context.typeOf?, if_pos (by rw [kind]; rfl)]
    rfl
  rw [typeAt, declarationType, maxDepth, declarationFrom_variable shape (by simp [Context.empty]),
    inferBy_eq, expressionBy, found]
  dsimp only
  rw [composite]
  dsimp only
  rw [kind]
  dsimp only
  rw [nameBy, unscoped]

theorem typeOf_writesConst {statement : VariableStatement} {value : Datum}
    (primary : symbol.primary? = some declaration)
    (shape : declaration.shape = .variable statement none (some node))
    (writes : WritesConst node value) :
    answer workspace (typeOf symbol) = .ok (.ok (value.text .constant)) := by
  have shown : declarationType declaration (some symbol) = pure (value.text .constant) := by
    rw [declarationType, maxDepth, declarationFrom_variable shape (by simp [Context.empty])]
    exact inferBy_writesConst writes
  rw [typeOf, primary]
  dsimp only
  rw [typeAt, shown]
  rfl

theorem answer_typeAt_access {statement : VariableStatement} {root part : Node} {isConst : Bool}
    {target : Datum} {last : Symbol} {entry x : Declaration}
    (declares : x.shape = .variable statement none (some node))
    (keyword : statement.keyword = .constKeyword) (found : unwrap node = some inner)
    (kind : inner.kind = .memberAccess ∨ inner.kind = .subscript)
    (leads : Settles workspace (Lookup.rightly workspace) (Lookup.symbolAt x.path inner)
      (.ok (some last)))
    (is : Lookup.IsEntry path root isConst target last entry part) (apart : x.place ≠ entry.place) :
    answer workspace (typeAt symbol x) = .ok (.ok (target.text ⟨isConst, isConst⟩)) := by
  -- While the type of `x` is asked for, nothing but `x` is active.
  have inactive : entry.place ∉ (Context.empty.enter x.place).active := by
    simpa [Context.empty, Context.enter] using apart.symm
  have step : declarationType x (some symbol) =
      referenceBy (declarationFrom 31) (Context.empty.enter x.place) x.path true inner := by
    rw [declarationType, maxDepth, declarationFrom_variable declares (by simp [Context.empty]),
      keyword]
    exact inferBy_property found kind
  have settles : Settles workspace (Lookup.rightly workspace) (typeAt symbol x)
      (.ok (.ok (target.text ⟨isConst, isConst⟩))) := by
    rw [typeAt, step, referenceBy, run_lift_bind]
    apply leads.bind
    simp only [is.primary]
    rw [declarationFrom_entry is inactive, pure_bind]
    exact .pure _
  exact settles.answer

/-- A property of an object under `as const` has the type that is shown at its keys inside the type of
the object if there is one key, or if the value there has the same type when it may change. -/
theorem typeAt_access_iff {c : Symbol} {owner x : Declaration} {statement own : VariableStatement}
    {initializer access : Node} {name : String} {keys : List String} {value target : Datum}
    (primary : c.primary? = some owner)
    (shape : owner.shape = .variable own none (some initializer))
    (writes : WritesConst initializer value)
    (declares : x.shape = .variable statement none (some access))
    (keyword : statement.keyword = .constKeyword)
    (refers : referenceOf access = some ⟨name, keys⟩)
    (named : answer workspace (Lookup.named x.path name) = .ok (some c))
    (keyed : keys ≠ []) (present : value.at? keys = some target)
    (apart : ∀ pair ∈ initializer.subnodes, pair.kind = .pair →
      x.place ≠ .ofNode owner.path pair) :
    answer workspace (typeOf c) = .ok (.ok (value.text .constant)) ∧
      answer workspace (typeAt symbol x) =
        .ok (.ok (target.text (if keys.length = 1 then .constant else .widened))) ∧
      (answer workspace (typeAt symbol x) = .ok (.ok (target.text .constant)) ↔
        keys.length = 1 ∨ target.text .widened = target.text .constant) := by
  obtain ⟨key, rest, rfl⟩ := List.exists_cons_of_ne_nil keyed
  obtain ⟨inner, unwrapped, same, kind⟩ := Lookup.kind_of_keys refers keyed
  have bare : Lookup.ascription? owner = none := by rw [Lookup.ascription?, shape]
  have initialized : Lookup.initializer? owner = some initializer := by
    rw [Lookup.initializer?, shape]
  obtain ⟨last, entry, part, ran, is⟩ :=
    Lookup.run_symbolBy_const primary bare initialized writes same named present
  obtain ⟨pair, among, paired, place⟩ := is.pair
  have shown : answer workspace (typeAt symbol x) =
      .ok (.ok (target.text ⟨rest.isEmpty, rest.isEmpty⟩)) := by
    apply answer_typeAt_access declares keyword unwrapped kind
      (Lookup.settles_symbolAt_of_run ran) is
    rw [place]
    exact apart pair among paired
  refine ⟨typeOf_writesConst primary shape writes, ?_, ?_⟩
  · rw [shown]
    cases rest with
    | nil => rfl
    | cons second rest => rfl
  · rw [shown]
    cases rest with
    | nil => simp [Mode.constant]
    | cons second rest => simp [Mode.constant, Mode.widened]

/-- The variable of a name in a module, if it has an initializer and no annotation. -/
def assigned? (workspace : Workspace) (path : Path) (name : String) :
    Option (Symbol × Declaration × VariableStatement × Node) :=
  (((workspace.module? path).bind (·.local? name)).bind fun symbol =>
    symbol.primary?.bind fun declaration =>
      match declaration.shape with
      | .variable statement none (some initializer) =>
        some (symbol, declaration, statement, initializer)
      | _ => none)

theorem shape_of_assigned? {statement : VariableStatement} {name : String}
    (found : assigned? workspace path name = some (symbol, declaration, statement, node)) :
    symbol.primary? = some declaration ∧
      declaration.shape = .variable statement none (some node) := by
  obtain ⟨_, _, found⟩ := Option.bind_eq_some_iff.mp found
  obtain ⟨_, primary, found⟩ := Option.bind_eq_some_iff.mp found
  split at found
  · rename_i shape
    cases found
    exact ⟨primary, shape⟩
  · cases found

/-- An object inside a constant one. -/
theorem typeAt_access_outermost :
    let source := "const c={a:{b:1}}as const,x=c.a"
    let tree : FileTree := ⟨Path.ofString "/w", [], [(["w", "a"], Text.encode source)]⟩
    let workspace : Workspace := ⟨tree, none, fun _ => .failed "not found"⟩
    ∃ c owner own initializer symbol x statement access,
      assigned? workspace (Path.ofString "a") "c" = some (c, owner, own, initializer) ∧
      assigned? workspace (Path.ofString "a") "x" = some (symbol, x, statement, access) ∧
      answer workspace (typeOf c) =
        .ok (.ok "\x7b readonly a: \x7b readonly b: 1; \x7d; \x7d") ∧
      answer workspace (typeAt symbol x) = .ok (.ok "\x7b readonly b: 1; \x7d") := by
  intro source tree workspace
  let inner : Datum := .object (.cons "b" (.literal "number" "1") .nil)
  let value : Datum := .object (.cons "a" inner .nil)
  have facts : ((assigned? workspace (Path.ofString "a") "c").bind fun (c, owner, _, initializer) =>
      (assigned? workspace (Path.ofString "a") "x").map fun (_, x, statement, access) =>
        (decide (WritesConst initializer value), statement.keyword, referenceOf access,
          decide ((answer workspace (Lookup.named x.path "c")).toOption = some (some c)),
          decide (∀ pair ∈ initializer.subnodes, pair.kind = .pair →
            x.place ≠ .ofNode owner.path pair))) =
      some (true, .constKeyword, some ⟨"c", ["a"]⟩, true, true) := by decide +kernel
  obtain ⟨⟨c, owner, own, initializer⟩, first, facts⟩ := Option.bind_eq_some_iff.mp facts
  obtain ⟨⟨symbol, x, statement, access⟩, second, facts⟩ := Option.map_eq_some_iff.mp facts
  simp only [Prod.mk.injEq, decide_eq_true_eq] at facts
  obtain ⟨writes, keyword, refers, named, apart⟩ := facts
  obtain ⟨primary, shape⟩ := shape_of_assigned? first
  obtain ⟨_, declares⟩ := shape_of_assigned? second
  obtain ⟨whole, part, _⟩ := @typeAt_access_iff workspace symbol c owner x statement own initializer
    access "c" ["a"] value inner primary shape writes declares keyword refers
    (eq_ok_of_toOption named) (by simp) rfl apart
  have texts : value.text .constant = "\x7b readonly a: \x7b readonly b: 1; \x7d; \x7d" ∧
      inner.text .constant = "\x7b readonly b: 1; \x7d" := by decide +kernel
  refine ⟨c, owner, own, initializer, symbol, x, statement, access, first, second, ?_, ?_⟩
  · rw [whole, texts.1]
  · rw [part, ← texts.2]
    rfl

/-- With a second key the literal is lost that the type of the whole object shows. -/
theorem typeAt_access_widens :
    let source := "const c={a:{b:1}}as const,x=c.a.b"
    let tree : FileTree := ⟨Path.ofString "/w", [], [(["w", "a"], Text.encode source)]⟩
    let workspace : Workspace := ⟨tree, none, fun _ => .failed "not found"⟩
    ∃ c owner own initializer symbol x statement access value target,
      assigned? workspace (Path.ofString "a") "c" = some (c, owner, own, initializer) ∧
      assigned? workspace (Path.ofString "a") "x" = some (symbol, x, statement, access) ∧
      WritesConst initializer value ∧ statement.keyword = .constKeyword ∧
      referenceOf access = some ⟨"c", ["a", "b"]⟩ ∧ value.at? ["a", "b"] = some target ∧
      answer workspace (typeOf c) = .ok (.ok (value.text .constant)) ∧
      target.text .constant = "1" ∧
      answer workspace (typeAt symbol x) = .ok (.ok "number") := by
  intro source tree workspace
  let value : Datum :=
    .object (.cons "a" (.object (.cons "b" (.literal "number" "1") .nil)) .nil)
  have facts : ((assigned? workspace (Path.ofString "a") "c").bind fun (c, _, _, initializer) =>
      (assigned? workspace (Path.ofString "a") "x").map fun (symbol, x, statement, access) =>
        (decide (WritesConst initializer value), statement.keyword, referenceOf access,
          (answer workspace (typeOf c)).toOption.bind (·.toOption),
          (answer workspace (typeAt symbol x)).toOption.bind (·.toOption))) =
      some (true, .constKeyword, some ⟨"c", ["a", "b"]⟩, some (value.text .constant),
        some "number") := by decide +kernel
  obtain ⟨⟨c, owner, own, initializer⟩, first, facts⟩ := Option.bind_eq_some_iff.mp facts
  obtain ⟨⟨symbol, x, statement, access⟩, second, facts⟩ := Option.map_eq_some_iff.mp facts
  simp only [Prod.mk.injEq, decide_eq_true_eq] at facts
  obtain ⟨writes, keyword, refers, whole, part⟩ := facts
  obtain ⟨outcome, ended, type⟩ := Option.bind_eq_some_iff.mp whole
  obtain ⟨outcome', ended', type'⟩ := Option.bind_eq_some_iff.mp part
  refine ⟨c, owner, own, initializer, symbol, x, statement, access, value, .literal "number" "1",
    first, second, writes, keyword, refers, rfl, ?_, rfl, ?_⟩
  · rw [eq_ok_of_toOption ended, eq_ok_of_toOption type]
  · rw [eq_ok_of_toOption ended', eq_ok_of_toOption type']

end ApiSections.Display
