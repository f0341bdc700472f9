import ApiSections.Proofs.Display.Scopes
import ApiSections.Proofs.Display.Unfolding
import ApiSections.Proofs.Module.Bound
import ApiSections.Proofs.TypeText.Reading

/-!
Types that are put together from others: those of arrays, of choices and of function bodies. Bars are
written between the types as they are, and brackets behind them; which parentheses stand around them is
told from pieces of the text. So the parts keep their boundaries only under a condition.
-/

namespace ApiSections.Display

open Syntax (Node unwrap)
open TypeText (IsUnionOf IsArrayOf Readable isLoose isTight union)
open Work (Settles answer settling)

theorem foldl_insertNew (types : List String) : types.foldl insertNew [] = types.eraseDups := by
  have same : insertNew = enlist := by
    funext types type
    simp only [insertNew, enlist, List.contains_iff_mem]
  have all := foldl_enlist [] types
  rwa [List.eraseDups_nil, List.nil_append, ← same] at all

theorem eraseDups_ne_nil {types : List String} (some_type : types ≠ []) : types.eraseDups ≠ [] := by
  obtain ⟨type, rest, rfl⟩ := List.exists_cons_of_ne_nil some_type
  have member : type ∈ (type :: rest).eraseDups := List.mem_eraseDups.mpr List.mem_cons_self
  exact List.ne_nil_of_mem member

/-- Bars between types part them: there is one type, or none of them reaches over a bar. -/
def KeepsUnion (types : List String) : Prop :=
  types.length = 1 ∨ ∀ type ∈ types, isLoose type.toList = false

/-- Brackets behind types belong to all of them. A single type is put in parentheses by the look of its
text, and needs none if the brackets belong to the whole of it. -/
def KeepsArray (types : List String) : Prop :=
  match types with
  | [type] => mentions type "=>" = true ∨ mentions type " | " = true ∨ isTight type.toList = true
  | _ => ∀ type ∈ types, isLoose type.toList = false

section Texts

variable {types : List String} (some_type : types ≠ [])
  (readable : ∀ type ∈ types, Readable type.toList)

theorem toList_unionText (types : List String) :
    (unionText types).toList = union (types.map String.toList) := String.toList_intercalate

include readable in
theorem closed_of_readable :
    ∀ text ∈ types.map String.toList, TypeText.closed 0 .plain text = true := by
  intro text member
  obtain ⟨type, listed, rfl⟩ := List.mem_map.mp member
  exact (readable type listed).1

include some_type readable

theorem isUnionOf_unionText_iff :
    IsUnionOf (unionText types).toList (types.map String.toList) ↔ KeepsUnion types := by
  have some_text : types.map String.toList ≠ [] := by simpa using some_type
  rw [toList_unionText, TypeText.isUnionOf_union_iff some_text (closed_of_readable readable),
    List.length_map, List.forall_mem_map]
  rfl

theorem isArrayOf_parenthesized_iff :
    IsArrayOf ("(" ++ unionText types ++ ")[]").toList (types.map String.toList) ↔
      KeepsUnion types := by
  have some_text : types.map String.toList ≠ [] := by simpa using some_type
  have same : ("(" ++ unionText types ++ ")[]").toList =
      '(' :: union (types.map String.toList) ++ [')'] ++ "[]".toList := by
    rw [String.toList_append, String.toList_append, toList_unionText]
    simp
  rw [same, TypeText.isArrayOf_parentheses_iff some_text (closed_of_readable readable),
    ← toList_unionText]
  exact isUnionOf_unionText_iff some_type readable

omit some_type in
theorem isArrayOf_arrayText_singleton {type : String} (only : types = [type]) :
    IsArrayOf (arrayText types).toList (types.map String.toList) ↔ KeepsArray types := by
  subst only
  have alone : unionText [type] = type := by simp [unionText]
  have parenthesized := isArrayOf_parenthesized_iff (List.cons_ne_nil type []) readable
  have bare : IsArrayOf (type ++ "[]").toList [type.toList] ↔ isTight type.toList = true := by
    rw [String.toList_append]
    exact TypeText.isArrayOf_brackets_iff (readable type List.mem_cons_self)
  have shown : arrayText [type] =
      if (mentions type "=>" || mentions type " | ") = true then "(" ++ type ++ ")[]"
      else type ++ "[]" := by
    simp [arrayText, alone]
  rw [alone] at parenthesized
  rw [shown]
  by_cases looks : (mentions type "=>" || mentions type " | ") = true
  · rw [if_pos looks, parenthesized]
    constructor
    · intro _
      rcases Bool.or_eq_true_iff.mp looks with arrow | bar
      · exact .inl arrow
      · exact .inr (.inl bar)
    · exact fun _ => .inl rfl
  · rw [if_neg looks]
    apply bare.trans
    rw [Bool.or_eq_true_iff, not_or] at looks
    constructor
    · exact fun tight => .inr (.inr tight)
    · rintro (arrow | bar | tight)
      · exact absurd arrow looks.1
      · exact absurd bar looks.2
      · exact tight

theorem isArrayOf_arrayText_iff :
    IsArrayOf (arrayText types).toList (types.map String.toList) ↔ KeepsArray types := by
  match types with
  | [] => exact absurd rfl some_type
  | [type] => exact isArrayOf_arrayText_singleton readable rfl
  | first :: second :: rest =>
    have shown : arrayText (first :: second :: rest) =
        "(" ++ unionText (first :: second :: rest) ++ ")[]" := by
      simp [arrayText]
    rw [shown, isArrayOf_parenthesized_iff some_type readable]
    constructor
    · rintro (single | tied)
      · simp at single
      · exact tied
    · exact fun tied => .inr tied

end Texts

section Settled

variable {workspace : Workspace} {depth : Nat} {context : Context} {path : Path} {mode : Mode}
  {nodes : List Node} {texts : List String}

/-- The type of an expression does not depend on what a sound pass remembers. -/
theorem settles_inferBy {node : Node} {outcome : Except Fault (Except String String)}
    (found : answer workspace (inferBy (declarationFrom depth) context path mode node).run =
      outcome) :
    Settles workspace (Lookup.rightly workspace)
      (inferBy (declarationFrom depth) context path mode node).run outcome := by
  have symbols : ∀ path node, (settling workspace (Lookup.rightly workspace)).Keeps
      (Lookup.symbolAt path node) := fun path node => (Lookup.settles_symbolAt path node).keeps
  have scoping : Scoping fun _ => (· = ·) := by
    rintro bound context _ scope rfl
    rfl
  have agrees : AgreeOn (settling workspace (Lookup.rightly workspace)) (fun _ => (· = ·))
      (expressionFrom (nameBy (declarationFrom depth)) node.weight)
      (expressionFrom (nameBy (declarationFrom depth)) node.weight) ⟨path, [], node⟩ := by
    intro _ _ mode close
    exact agreeOn_expressionFrom scoping node.weight
      (fun name _ => agreeOn_nameBy symbols (agrees_declarationFrom symbols depth) name) mode close
  rw [← found]
  exact Work.Likeness.Keeps.settles (agrees mode rfl)

/-- Going on from an inference that has a type. -/
theorem settles_bind_ok {α β : Type} {right : Work.Rightness} {inference : Inference α}
    {next : α → Inference β} {value : α} {outcome : Except Fault (Except String β)}
    (start : Settles workspace right inference.run (.ok (.ok value)))
    (rest : Settles workspace right (next value).run outcome) :
    Settles workspace right (inference >>= next).run outcome := by
  rw [ExceptT.run_bind]
  exact start.bind rest

theorem settles_attempt {β : Type} {right : Work.Rightness} {inference : Inference String}
    {next : Except String String → Inference β} {result : Except String String}
    {outcome : Except Fault (Except String β)}
    (start : Settles workspace right inference.run (.ok result))
    (rest : Settles workspace right (next result).run outcome) :
    Settles workspace right (attempt inference >>= next).run outcome :=
  settles_bind_ok (start.bind (.pure _)) rest

/-- Expressions with such types. -/
def HaveTypes (workspace : Workspace) (depth : Nat) (context : Context) (path : Path) (mode : Mode)
    (nodes : List Node) (texts : List String) : Prop :=
  List.Forall₂ (fun node text =>
    answer workspace (inferBy (declarationFrom depth) context path mode node).run =
      .ok (.ok text)) nodes texts

theorem settles_mapM_inferBy (typed : HaveTypes workspace depth context path mode nodes texts) :
    Settles workspace (Lookup.rightly workspace)
      (nodes.mapM (inferBy (declarationFrom depth) context path mode)).run (.ok (.ok texts)) := by
  induction typed with
  | nil => exact .pure _
  | cons head _ ih =>
    rw [List.mapM_cons]
    exact settles_bind_ok (settles_inferBy head) (settles_bind_ok ih (.pure _))

theorem settles_distinctBy (typed : HaveTypes workspace depth context path mode nodes texts) :
    Settles workspace (Lookup.rightly workspace)
      (distinctBy (inferBy (declarationFrom depth)) context path mode nodes).run
      (.ok (.ok texts.eraseDups)) := by
  rw [← foldl_insertNew]
  exact settles_bind_ok (settles_mapM_inferBy typed) (.pure _)

theorem settles_bodyBy (typed : HaveTypes workspace depth context path .widened nodes texts)
    (earlier : List String) (some_type : texts.foldl insertNew earlier ≠ []) :
    Settles workspace (Lookup.rightly workspace)
      (bodyBy (inferBy (declarationFrom depth)) context path nodes earlier).run
      (.ok (.ok (unionText (texts.foldl insertNew earlier)))) := by
  -- The types of earlier results are carried along, as in the run.
  induction typed generalizing earlier with
  | nil =>
    have left : ¬ earlier.isEmpty = true := by
      rw [List.isEmpty_iff]
      exact some_type
    rw [bodyBy, if_neg left]
    exact .pure _
  | cons head _ ih =>
    rw [bodyBy]
    rw [List.foldl_cons] at some_type
    exact settles_attempt (settles_inferBy head) (ih _ some_type)

/-- A spread has no type of its own. -/
theorem kind_ne_spread {node : Node} {text : String}
    (found : answer workspace (inferBy (declarationFrom depth) context path mode node).run =
      .ok (.ok text)) : (node.kind == .spread) = false := by
  rw [Bool.eq_false_iff, Ne, beq_iff_eq]
  intro kind
  have untyped : answer workspace (inferBy (declarationFrom depth) context path mode node).run =
      .ok (.error s!"unsupported expression '{Syntax.Kind.spread.label}'") := by
    obtain ⟨_, field, span, content, children⟩ := node
    cases kind
    rw [inferBy_eq]
    rfl
  rw [untyped] at found
  cases found

theorem any_spread_eq_false (typed : HaveTypes workspace depth context path mode nodes texts) :
    nodes.any (·.kind == .spread) = false := by
  induction typed with
  | nil => rfl
  | cons head _ ih =>
    rw [List.any_cons, kind_ne_spread head, ih]
    rfl

theorem settles_arrayBy (typed : HaveTypes workspace depth context path .widened nodes texts) :
    Settles workspace (Lookup.rightly workspace)
      (arrayBy (inferBy (declarationFrom depth)) context path false nodes).run
      (.ok (.ok (arrayText texts.eraseDups))) := by
  rw [arrayBy, any_spread_eq_false typed]
  exact settles_bind_ok (settles_distinctBy typed) (.pure _)

theorem inferBy_array {declare : Declare} {node array : Node} (found : unwrap node = some array)
    (kind : array.kind = .array) : inferBy declare context path mode node =
      arrayBy (inferBy declare) context path mode.readonly array.operands := by
  have composite : simpleType? array mode = none := by
    unfold simpleType?
    rw [kind]
  rw [inferBy_eq, expressionBy, found]
  dsimp only
  rw [composite, kind]

/-- The branches of a choice. -/
def branchesOf (node : Node) : List Node :=
  (node.get? .consequence).toList ++ (node.get? .alternative).toList

theorem inferBy_ternary {declare : Declare} {node ternary : Node}
    (found : unwrap node = some ternary) (kind : ternary.kind = .ternary) :
    inferBy declare context path mode node = (do
      return unionText (← distinctBy (inferBy declare) context path mode (branchesOf ternary))) := by
  have composite : simpleType? ternary mode = none := by
    unfold simpleType?
    rw [kind]
  rw [inferBy_eq, expressionBy, found]
  dsimp only
  rw [composite, kind]
  rfl

end Settled

open TypeText in
/-- Types that are put together have the union of the types of their parts, each once, or the array of
that union: if and only if bars part those types, or brackets belong to all of them. -/
theorem composites_read_iff {workspace : Workspace} {depth : Nat} {context : Context} {path : Path}
    {mode : Mode} {nodes : List Node} {texts : List String}
    (typed : HaveTypes workspace depth context path mode nodes texts) (some_part : nodes ≠ [])
    (readable : ∀ text ∈ texts, Readable text.toList) :
    (∀ node array own, unwrap node = some array → array.kind = .array → array.operands = nodes →
      mode = .widened → own.readonly = false →
      ∃ text, answer workspace (inferBy (declarationFrom depth) context path own node).run =
          .ok (.ok text) ∧
        (IsArrayOf text.toList (texts.eraseDups.map String.toList) ↔ KeepsArray texts.eraseDups)) ∧
    (∀ node ternary, unwrap node = some ternary → ternary.kind = .ternary →
      branchesOf ternary = nodes →
      ∃ text, answer workspace (inferBy (declarationFrom depth) context path mode node).run =
          .ok (.ok text) ∧
        (IsUnionOf text.toList (texts.eraseDups.map String.toList) ↔ KeepsUnion texts.eraseDups)) ∧
    (∀ body, returnedExpressions body = nodes → mode = .widened →
      ∃ text, answer workspace (bodyBy (inferBy (declarationFrom depth)) context path
          (returnedExpressions body) []).run = .ok (.ok text) ∧
        (IsUnionOf text.toList (texts.eraseDups.map String.toList) ↔
          KeepsUnion texts.eraseDups)) := by
  have some_text : texts ≠ [] := by
    have same := typed.length_eq
    intro none
    rw [none, List.length_nil, List.length_eq_zero_iff] at same
    exact some_part same
  have some_type : texts.eraseDups ≠ [] := eraseDups_ne_nil some_text
  have each : ∀ type ∈ texts.eraseDups, Readable type.toList := by
    intro type member
    exact readable type (List.mem_eraseDups.mp member)
  refine ⟨?_, ?_, ?_⟩
  · rintro node array own found kind rfl rfl plain
    refine ⟨arrayText texts.eraseDups, ?_, isArrayOf_arrayText_iff some_type each⟩
    rw [inferBy_array found kind, plain]
    exact (settles_arrayBy typed).answer
  · rintro node ternary found kind rfl
    refine ⟨unionText texts.eraseDups, ?_, isUnionOf_unionText_iff some_type each⟩
    rw [inferBy_ternary found kind]
    exact (settles_bind_ok (settles_distinctBy typed) (.pure _)).answer
  · rintro body rfl rfl
    refine ⟨unionText texts.eraseDups, ?_, isUnionOf_unionText_iff some_type each⟩
    rw [← foldl_insertNew] at some_type ⊢
    exact (settles_bodyBy typed [] some_type).answer

theorem haveTypes_of_toOption {workspace : Workspace} {depth : Nat} {context : Context} {path : Path}
    {mode : Mode} {nodes : List Node} {texts : List String}
    (same : nodes.map (fun node => (answer workspace
      (inferBy (declarationFrom depth) context path mode node).run).toOption.bind (·.toOption)) =
        texts.map some) : HaveTypes workspace depth context path mode nodes texts := by
  induction nodes generalizing texts with
  | nil =>
    have none : texts = [] := by simpa using same.symm
    rw [none]
    exact .nil
  | cons node nodes ih =>
    cases texts with
    | nil => cases same
    | cons text texts =>
      obtain ⟨first, rest⟩ := List.cons.inj same
      obtain ⟨outcome, ended, type⟩ := Option.bind_eq_some_iff.mp first
      refine .cons ?_ (ih rest)
      rw [eq_ok_of_toOption ended, eq_ok_of_toOption type]

/-- What the variables `x` and `y` of a module are initialized with, and the body of its function
`f`. -/
def composites? (workspace : Workspace) (path : Path) : Option (Node × Node × Node) :=
  (workspace.module? path).bind fun module =>
    let declared (name : String) := (module.local? name).bind (·.primary?)
    ((declared "x").bind Lookup.initializer?).bind fun array =>
      ((declared "y").bind Lookup.initializer?).bind fun ternary =>
        (((declared "f").bind (·.shape.signature?)).bind (·.body)).map fun body =>
          (array, ternary, body)

open TypeText in
/-- Numbers and strings. -/
theorem composites_read_plain :
    let source := "const x=[1,'a'],y=z?1:'a';function f()\x7bif(z)return 1;return'a'\x7d"
    let tree : FileTree := ⟨Path.ofString "/w", [], [(["w", "a"], Text.encode source)]⟩
    let workspace : Workspace := ⟨tree, none, fun _ => .failed "not found"⟩
    let path := Path.ofString "a"
    let parts := ["number".toList, "string".toList]
    ∃ array ternary body first second third,
      composites? workspace path = some (array, ternary, body) ∧
      answer workspace (expressionType path .widened array).run = .ok (.ok first) ∧
      IsArrayOf first.toList parts ∧
      answer workspace (expressionType path .widened ternary).run = .ok (.ok second) ∧
      IsUnionOf second.toList parts ∧
      answer workspace (bodyBy (inferBy (declarationFrom maxDepth)) .empty path
        (returnedExpressions body) []).run = .ok (.ok third) ∧
      IsUnionOf third.toList parts := by
  intro source tree workspace path parts
  let texts := ["number", "string"]
  let typesOf (nodes : List Node) := nodes.map fun node => (answer workspace
    (inferBy (declarationFrom maxDepth) .empty path .widened node).run).toOption.bind (·.toOption)
  have facts : (composites? workspace path).map (fun (array, ternary, body) => decide
      (unwrap array = some array ∧ unwrap ternary = some ternary ∧ array.kind = .array ∧
        ternary.kind = .ternary ∧ typesOf array.operands = texts.map some ∧
        typesOf (branchesOf ternary) = texts.map some ∧
        typesOf (returnedExpressions body) = texts.map some)) = some true := by decide +kernel
  obtain ⟨⟨array, ternary, body⟩, found, facts⟩ := Option.map_eq_some_iff.mp facts
  obtain ⟨bare, bare', isArray, isTernary, elements, branches, results⟩ := of_decide_eq_true facts
  have readable : ∀ text ∈ texts, Readable text.toList := by decide
  have some_of {nodes : List Node} (typed : typesOf nodes = texts.map some) : nodes ≠ [] := by
    rintro rfl
    cases typed
  have keepsArray : KeepsArray texts.eraseDups := by
    change ∀ type ∈ ["number", "string"], isLoose type.toList = false
    decide
  have keepsUnion : KeepsUnion texts.eraseDups := .inr keepsArray
  obtain ⟨first, shown, reads⟩ := (composites_read_iff (haveTypes_of_toOption elements)
    (some_of elements) readable).1 array array .widened bare isArray rfl rfl rfl
  obtain ⟨second, shown', reads'⟩ := (composites_read_iff (haveTypes_of_toOption branches)
    (some_of branches) readable).2.1 ternary ternary bare' isTernary rfl
  obtain ⟨third, shown'', reads''⟩ := (composites_read_iff (haveTypes_of_toOption results)
    (some_of results) readable).2.2 body rfl rfl
  exact ⟨array, ternary, body, first, second, third, found, shown, reads.mpr keepsArray, shown',
    reads'.mpr keepsUnion, shown'', reads''.mpr keepsUnion⟩

open TypeText in
/-- Brackets that belong to the last part of an intersection, and a function that reaches over a
bar. -/
theorem composites_read_otherwise :
    let source := "let a:A & B;const x=[a],y=z?()=>1:2;function f(){return 1}"
    let tree : FileTree := ⟨Path.ofString "/w", [], [(["w", "a"], Text.encode source)]⟩
    let workspace : Workspace := ⟨tree, none, fun _ => .failed "not found"⟩
    let path := Path.ofString "a"
    ∃ array ternary body first second,
      composites? workspace path = some (array, ternary, body) ∧
      array.kind = .array ∧
      HaveTypes workspace maxDepth .empty path .widened array.operands ["A & B"] ∧
      answer workspace (expressionType path .widened array).run = .ok (.ok first) ∧
      ¬ IsArrayOf first.toList ["A & B".toList] ∧
      ternary.kind = .ternary ∧
      HaveTypes workspace maxDepth .empty path .widened (branchesOf ternary)
        ["() => number", "number"] ∧
      answer workspace (expressionType path .widened ternary).run = .ok (.ok second) ∧
      ¬ IsUnionOf second.toList ["() => number".toList, "number".toList] := by
  intro source tree workspace path
  let typeOf (node : Node) := (answer workspace
    (inferBy (declarationFrom maxDepth) .empty path .widened node).run).toOption.bind (·.toOption)
  have facts : (composites? workspace path).map (fun (array, ternary, _) =>
      ((array.kind, array.operands.map typeOf, typeOf array),
        (ternary.kind, (branchesOf ternary).map typeOf, typeOf ternary))) =
      some ((.array, [some "A & B"], some "A & B[]"),
        (.ternary, [some "() => number", some "number"], some "() => number | number")) := by
    decide +kernel
  obtain ⟨⟨array, ternary, body⟩, found, facts⟩ := Option.map_eq_some_iff.mp facts
  simp only [Prod.mk.injEq] at facts
  obtain ⟨⟨isArray, elements, shown⟩, isTernary, branches, shown'⟩ := facts
  obtain ⟨outcome, ended, type⟩ := Option.bind_eq_some_iff.mp shown
  obtain ⟨outcome', ended', type'⟩ := Option.bind_eq_some_iff.mp shown'
  have noArray : element? "A & B[]".toList = none := by decide
  refine ⟨array, ternary, body, "A & B[]", "() => number | number", found, isArray,
    haveTypes_of_toOption elements, ?_, ?_, isTernary, haveTypes_of_toOption branches, ?_, ?_⟩
  · change answer workspace (inferBy (declarationFrom maxDepth) .empty path .widened array).run = _
    rw [eq_ok_of_toOption ended, eq_ok_of_toOption type]
  · rintro ⟨inner, same | ⟨_, same⟩, _⟩
    · rw [noArray] at same
      cases same
    · rw [noArray] at same
      cases same
  · change answer workspace (inferBy (declarationFrom maxDepth) .empty path .widened ternary).run = _
    rw [eq_ok_of_toOption ended', eq_ok_of_toOption type']
  · unfold IsUnionOf
    decide

end ApiSections.Display
