import ApiSections.Proofs.Display.ConstAccess
import ApiSections.Proofs.Number.Numeral
import ApiSections.Proofs.TypeText.Quoting

/-!
Literals in variables that may change. The type of a literal itself is widened by its kind, the type of
a constant that holds it by the text that is shown. A number that is shown with an exponent, an infinite
one and one that cannot be read keep their texts there.
-/

namespace ApiSections.Display

open Syntax (Node unwrap)
open TypeText (widen IsQuoted)
open Work (Settles answer)

/-- A literal, with the text of a number behind its sign or of a string in its quotes. -/
inductive Literal where
  | number (text : String)
  | negated (text : String)
  | string (text : String)
  | boolean (value : Bool)
  deriving DecidableEq

namespace Literal

/-- The text of a literal is one that the language has. -/
def IsWritten : Literal → Prop
  | number text | negated text => Syntax.numberLength text.toList = some text.toList.length
  | string text => IsQuoted text.toList
  | boolean _ => True

def own : Literal → String
  | number text => Number.literalText text
  | negated text => "-" ++ Number.literalText text
  | string text => String.ofList (TypeText.stringLiteral text.toList)
  | boolean value => if value then "true" else "false"

def widened : Literal → String
  | number _ | negated _ => "number"
  | string _ => "string"
  | boolean _ => "boolean"

/-- A literal that is not a number, or one that is shown in plain digits. -/
def IsOrdinary : Literal → Prop
  | number text | negated text => Number.IsOrdinary text.toList
  | string _ | boolean _ => True

theorem widen_string {text : String} (quoted : IsQuoted text.toList) :
    widen (String.ofList (TypeText.stringLiteral text.toList)) = "string" := by
  obtain ⟨quote, body, _, same⟩ := quoted
  obtain ⟨inside, shown⟩ : ∃ inside,
      TypeText.stringLiteral text.toList = '"' :: (inside ++ ['"']) := by
    rw [same, TypeText.stringLiteral_cons]
    split
    · rename_i double
      exact ⟨body, by rw [double]⟩
    · exact ⟨_, rfl⟩
  apply TypeText.widen_quoted
  · rw [String.toList_ofList, shown]
    rfl
  · rw [String.toList_ofList, shown, ← List.cons_append, List.getLast?_concat]

theorem widen_number_iff {text : String}
    (whole : Syntax.numberLength text.toList = some text.toList.length) :
    (widen (Number.literalText text) = "number" ↔ Number.IsOrdinary text.toList) ∧
      (widen ("-" ++ Number.literalText text) = "number" ↔ Number.IsOrdinary text.toList) := by
  obtain ⟨ordinary, starts⟩ :=
    Number.isNumeric_literalText_iff (Number.isNumeral_of_numberLength whole)
  constructor
  · rw [TypeText.widen_eq_number_iff, ordinary]
    intro same
    rw [same] at starts
    exact starts.head?_ne (c := 'n') (by decide) rfl
  · have sign : ("-" ++ Number.literalText text).toList = '-' :: (Number.literalText text).toList := by
      rw [String.toList_append]
      rfl
    rw [TypeText.widen_eq_number_iff, sign, TypeText.isNumeric_neg _ starts.unsigned, ordinary]
    intro same
    rw [same] at sign
    simp at sign

/-- The text of a literal is widened to its kind iff the literal is ordinary. -/
theorem widen_own_iff {literal : Literal} (written : literal.IsWritten) :
    widen literal.own = literal.widened ↔ literal.IsOrdinary := by
  cases literal with
  | number text => exact (widen_number_iff written).1
  | negated text => exact (widen_number_iff written).2
  | string text => exact iff_of_true (widen_string written) trivial
  | boolean value =>
    cases value with
    | false => exact iff_of_true rfl trivial
    | true => exact iff_of_true rfl trivial

end Literal

/-- The literal that an expression is, also in parentheses. -/
def literalOf? (node : Node) : Option Literal :=
  (unwrap node).bind fun inner =>
    match inner.kind with
    | .number => some (.number inner.text)
    | .stringLiteral => some (.string inner.text)
    | .templateString => if hasSubstitution inner then none else some (.string inner.text)
    | .trueLiteral => some (.boolean true)
    | .falseLiteral => some (.boolean false)
    | .unary =>
      if Node.textOf (inner.get? .operator) = "-" then
        ((inner.get? .argument).bind unwrap).bind fun argument =>
          if argument.kind = .number then some (.negated argument.text) else none
      else none
    | _ => none

/-- A variable without an annotation that an expression is assigned to. -/
def Assigns (declaration : Declaration) (isConst : Bool) (node : Node) : Prop :=
  ∃ statement, declaration.shape = .variable statement none (some node) ∧
    (statement.keyword == .constKeyword) = isConst

/-- An expression in a module is the name of a declaration of that module. -/
def IsNameOf (workspace : Workspace) (path : Path) (declaration : Declaration) (node : Node) : Prop :=
  ∃ name ∈ unwrap node, name.kind = .identifier ∧
    ∃ symbol ∈ (workspace.module? path).bind (·.local? name.text),
      symbol.isAlias = false ∧ symbol.primary? = some declaration

instance (workspace : Workspace) (path : Path) (declaration : Declaration) (node : Node) :
    Decidable (IsNameOf workspace path declaration node) :=
  inferInstanceAs (Decidable (∃ name ∈ unwrap node, _))

section Types

variable {workspace : Workspace} {context : Context} {node named : Node} {literal : Literal}
  {c v w : Declaration} {isConst : Bool}

theorem writes_of_literalOf? (found : literalOf? node = some literal) :
    Writes node (.literal literal.widened literal.own) := by
  obtain ⟨inner, unwrapped, found⟩ := Option.bind_eq_some_iff.mp found
  refine ⟨inner, unwrapped, ?_⟩
  split at found
  -- A template and a negation are literals under a condition only.
  case h_3 kind =>
    split at found
    · cases found
    · rename_i plain
      cases found
      rw [simpleType?, simpleType?, kind, Bool.eq_false_iff.mpr plain]
      exact ⟨rfl, rfl⟩
  case h_6 kind =>
    split at found
    · rename_i minus
      obtain ⟨argument, there, found⟩ := Option.bind_eq_some_iff.mp found
      split at found
      · rename_i number
        cases found
        rw [simpleType?, simpleType?, kind]
        simp only [unaryType, minus, there, number]
        exact ⟨rfl, rfl⟩
      · cases found
    · cases found
  case h_7 => cases found
  all_goals
    rename_i kind
    cases found
    rw [simpleType?, simpleType?, kind]
    exact ⟨rfl, rfl⟩

theorem declarationFrom_literal {symbol : Symbol} {depth : Nat} (assigns : Assigns c isConst node)
    (found : literalOf? node = some literal) (inactive : c.place ∉ context.active) :
    declarationFrom (depth + 1) context c (some symbol) =
      pure (if isConst then literal.own else literal.widened) := by
  obtain ⟨statement, shape, keyword⟩ := assigns
  rw [declarationFrom_variable shape inactive, keyword]
  exact inferBy_writes (writes_of_literalOf? found)

theorem answer_typeAt_literal (assigns : Assigns w false node)
    (found : literalOf? node = some literal) (symbol : Symbol) :
    answer workspace (typeAt symbol w) = .ok (.ok literal.widened) := by
  rw [typeAt, declarationType, maxDepth,
    declarationFrom_literal assigns found (by simp [Context.empty])]
  rfl

theorem answer_typeAt_constant (constant : Assigns c true node)
    (found : literalOf? node = some literal) (assigns : Assigns v false named)
    (names : IsNameOf workspace v.path c named) (apart : v.place ≠ c.place) (symbol : Symbol) :
    answer workspace (typeAt symbol v) = .ok (.ok (widen literal.own)) := by
  obtain ⟨name, unwrapped, kind, target, declared, own, primary⟩ := names
  obtain ⟨statement, shape, keyword⟩ := assigns
  have inactive : c.place ∉ (Context.empty.enter v.place).active := by
    simpa [Context.empty, Context.enter] using apart.symm
  have settles : Settles workspace (Lookup.rightly workspace) (typeAt symbol v)
      (.ok (.ok (widen literal.own))) := by
    rw [typeAt_name shape unwrapped kind, keyword, referenceBy, run_lift_bind]
    apply (Lookup.settles_symbolAt_name kind declared own).bind
    simp only [primary]
    rw [declarationFrom_literal constant found inactive, pure_bind]
    exact .pure _
  exact settles.answer

end Types

/-- A literal has the type of its kind where the variable may change. Through a constant it has the same
type iff it is no number or an ordinary one. -/
theorem type_through_constant_iff {literal : Literal} (written : literal.IsWritten) :
    (∀ path mode node, literalOf? node = some literal →
      expressionType path mode node =
        pure (if mode.literal then literal.own else literal.widened)) ∧
    (widen literal.own = literal.widened ↔ literal.IsOrdinary) ∧
    ∀ workspace c v w node named direct, literalOf? node = some literal →
      literalOf? direct = some literal → Assigns c true node → Assigns v false named →
      Assigns w false direct → IsNameOf workspace v.path c named → v.place ≠ c.place →
      ∀ symbol other,
        answer workspace (typeAt symbol v) = .ok (.ok (widen literal.own)) ∧
        answer workspace (typeAt other w) = .ok (.ok literal.widened) ∧
        (answer workspace (typeAt symbol v) = answer workspace (typeAt other w) ↔
          literal.IsOrdinary) := by
  have widens := Literal.widen_own_iff written
  refine ⟨fun path mode node found => inferBy_writes (writes_of_literalOf? found), widens, ?_⟩
  intro workspace c v w node named direct found again constant assigns alone names apart symbol other
  have through := answer_typeAt_constant constant found assigns names apart symbol
  have shown : answer workspace (typeAt other w) = _ := answer_typeAt_literal alone again other
  refine ⟨through, shown, ?_⟩
  rw [through, shown]
  simpa using widens

/-- The variable of a name in a module, as a constant or not, with what is assigned to it. -/
def holder? (isConst : Bool) (workspace : Workspace) (path : Path) (name : String) :
    Option (Symbol × Declaration × Node) :=
  (assigned? workspace path name).bind fun (symbol, declaration, statement, node) =>
    if (statement.keyword == .constKeyword) = isConst then some (symbol, declaration, node) else none

theorem assigns_of_holder? {isConst : Bool} {workspace : Workspace} {path : Path} {name : String}
    {symbol : Symbol} {declaration : Declaration} {node : Node}
    (found : holder? isConst workspace path name = some (symbol, declaration, node)) :
    Assigns declaration isConst node := by
  obtain ⟨⟨_, _, statement, _⟩, assigned, found⟩ := Option.bind_eq_some_iff.mp found
  dsimp only at found
  split at found
  · rename_i keyword
    cases found
    exact ⟨statement, (shape_of_assigned? assigned).2, keyword⟩
  · cases found

/-- A negated fraction with a mark between its digits. -/
theorem type_through_constant_fraction :
    let source := "const c=-1_0.5;let v=c,w=-1_0.5"
    let tree : FileTree := ⟨Path.ofString "/w", [], [(["w", "a"], Text.encode source)]⟩
    let workspace : Workspace := ⟨tree, none, fun _ => .failed "not found"⟩
    let path := Path.ofString "a"
    ∃ constant c e symbol v named other w direct,
      holder? true workspace path "c" = some (constant, c, e) ∧
      holder? false workspace path "v" = some (symbol, v, named) ∧
      holder? false workspace path "w" = some (other, w, direct) ∧
      (Literal.negated "1_0.5").IsOrdinary ∧
      answer workspace (typeAt symbol v) = .ok (.ok "number") ∧
      answer workspace (typeAt other w) = .ok (.ok "number") := by
  intro source tree workspace path
  have facts : ((holder? true workspace path "c").bind fun (_, c, e) =>
      (holder? false workspace path "v").bind fun (_, v, named) =>
        (holder? false workspace path "w").map fun (_, _, direct) =>
          (literalOf? e, literalOf? direct, decide (IsNameOf workspace v.path c named),
            decide (v.place ≠ c.place))) =
      some (some (.negated "1_0.5"), some (.negated "1_0.5"), true, true) := by decide +kernel
  obtain ⟨⟨constant, c, e⟩, first, facts⟩ := Option.bind_eq_some_iff.mp facts
  obtain ⟨⟨symbol, v, named⟩, second, facts⟩ := Option.bind_eq_some_iff.mp facts
  obtain ⟨⟨other, w, direct⟩, third, facts⟩ := Option.map_eq_some_iff.mp facts
  simp only [Prod.mk.injEq, decide_eq_true_eq] at facts
  obtain ⟨found, again, names, apart⟩ := facts
  have written : (Literal.negated "1_0.5").IsWritten := by
    rw [Literal.IsWritten]
    decide +kernel
  have widens : widen (Literal.negated "1_0.5").own = "number" := by decide +kernel
  obtain ⟨_, ordinary, types⟩ := type_through_constant_iff written
  obtain ⟨through, shown, _⟩ := types workspace c v w e named direct found again
    (assigns_of_holder? first) (assigns_of_holder? second) (assigns_of_holder? third) names apart
    symbol other
  refine ⟨constant, c, e, symbol, v, named, other, w, direct, first, second, third,
    ordinary.mp widens, ?_, shown⟩
  rw [through, widens]

/-- A number with an exponent, which its text keeps. -/
theorem type_through_constant_exponent :
    let source := "const c=1e21;let v=c,w=1e21"
    let tree : FileTree := ⟨Path.ofString "/w", [], [(["w", "a"], Text.encode source)]⟩
    let workspace : Workspace := ⟨tree, none, fun _ => .failed "not found"⟩
    let path := Path.ofString "a"
    ∃ constant c e symbol v named other w direct,
      holder? true workspace path "c" = some (constant, c, e) ∧
      holder? false workspace path "v" = some (symbol, v, named) ∧
      holder? false workspace path "w" = some (other, w, direct) ∧
      (Literal.number "1e21").IsWritten ∧ literalOf? e = some (.number "1e21") ∧
      literalOf? direct = some (.number "1e21") ∧ IsNameOf workspace v.path c named ∧
      answer workspace (typeAt symbol v) = .ok (.ok "1e+21") ∧
      answer workspace (typeAt other w) = .ok (.ok "number") := by
  intro source tree workspace path
  have facts : ((holder? true workspace path "c").bind fun (_, c, e) =>
      (holder? false workspace path "v").bind fun (symbol, v, named) =>
        (holder? false workspace path "w").map fun (other, w, direct) =>
          (literalOf? e, literalOf? direct, decide (IsNameOf workspace v.path c named),
            (answer workspace (typeAt symbol v)).toOption.bind (·.toOption),
            (answer workspace (typeAt other w)).toOption.bind (·.toOption))) =
      some (some (.number "1e21"), some (.number "1e21"), true, some "1e+21", some "number") := by
    decide +kernel
  obtain ⟨⟨constant, c, e⟩, first, facts⟩ := Option.bind_eq_some_iff.mp facts
  obtain ⟨⟨symbol, v, named⟩, second, facts⟩ := Option.bind_eq_some_iff.mp facts
  obtain ⟨⟨other, w, direct⟩, third, facts⟩ := Option.map_eq_some_iff.mp facts
  simp only [Prod.mk.injEq, decide_eq_true_eq] at facts
  obtain ⟨found, again, names, through, alone⟩ := facts
  obtain ⟨outcome, ended, type⟩ := Option.bind_eq_some_iff.mp through
  obtain ⟨outcome', ended', type'⟩ := Option.bind_eq_some_iff.mp alone
  have written : (Literal.number "1e21").IsWritten := by
    rw [Literal.IsWritten]
    decide +kernel
  refine ⟨constant, c, e, symbol, v, named, other, w, direct, first, second, third, written, found,
    again, names, ?_, ?_⟩
  · rw [eq_ok_of_toOption ended, eq_ok_of_toOption type]
  · rw [eq_ok_of_toOption ended', eq_ok_of_toOption type']

end ApiSections.Display
