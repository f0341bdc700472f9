import ApiSections.Proofs.Display.ConstAccess
import ApiSections.Proofs.Display.ShownFunction
import ApiSections.Proofs.Fragment.Bodies
import ApiSections.Proofs.TypeText.Arrow

/-!
Functions as values. The type of a function is taken for callable by the arrow in front of its result,
which counts if the brackets in front of it are level, and a list of overloads by the parenthesis that
it starts with, which type parameters of the first overload displace.
-/

namespace ApiSections.Display.ShownSignature

open TypeText

variable {shown : ShownSignature}

theorem head?_head (shown : ShownSignature) : shown.head.toList.head? =
    some (if shown.signature.typeParameters = [] then '(' else '<') := by
  by_cases plain : shown.signature.typeParameters = []
  · simp [head, typeParameters, plain]
  · simp [head, typeParameters, plain]

theorem getLast?_head (shown : ShownSignature) : shown.head.toList.getLast? = some ')' := by
  rw [head, String.toList_append]
  exact List.getLast?_concat

theorem apart_head (shown : ShownSignature) (rest : List Char) : Apart shown.head.toList rest := by
  left
  rw [getLast?_head]
  decide

/-- The arrow in front of the result is scanned behind the parameters, with the result behind it. -/
theorem hasOuterArrow_text (shown : ShownSignature) :
    hasOuterArrow 0 (shown.text true).toList = true ↔
      HasLevelArrow 0 shown.head.toList ∨ surplus shown.head.toList = 0 ∨
        HasLevelArrow (surplus shown.head.toList) shown.returned.toList := by
  have split : (shown.text true).toList =
      shown.head.toList ++ ([' '] ++ '=' :: '>' :: ([' '] ++ shown.returned.toList)) := by
    simp [text]
  have quiet : isQuiet [' '] = true := rfl
  rw [split, hasOuterArrow_append (shown.apart_head _), hasOuterArrow_quiet_append quiet, hasOuterArrow,
    hasOuterArrow_quiet_append quiet, Int.zero_add]
  simp only [Bool.or_eq_true, beq_iff_eq, hasOuterArrow_iff]

/-- The parts that are shown of a signature have balanced brackets. -/
structure Level (shown : ShownSignature) : Prop where
  generics : Balanced (typeParameters shown.signature.typeParameters)
  names : ∀ parameter ∈ shown.signature.parameters, Balanced parameter.name
  types : ∀ type ∈ shown.types, Balanced type
  returned : Balanced shown.returned

theorem balanced_parameterText {parameter : Parameter} {type : String}
    (name : Balanced parameter.name) (shows : Balanced type) :
    Balanced (parameterText parameter type) := by
  obtain ⟨tail, quiet, apart, split⟩ : ∃ tail, isQuiet tail = true ∧
      (∀ rest, Apart parameter.name.toList (tail ++ rest)) ∧
      (parameterText parameter type).toList = (if parameter.rest then "..." else "").toList ++
        (parameter.name.toList ++ (tail ++ type.toList)) := by
    by_cases optional :
        ((parameter.question || parameter.initializer.isSome) && !parameter.rest) = true
    · exact ⟨"?: ".toList, rfl, fun _ => .inr (by simp), by simp [parameterText, optional]⟩
    · exact ⟨": ".toList, rfl, fun _ => .inr (by simp), by simp [parameterText, optional]⟩
  have dots : isQuiet (if parameter.rest then "..." else "").toList = true := by
    split
    · rfl
    · rfl
  rw [TypeText.Balanced, split, balanced_append (balanced_of_isQuiet dots) (apart_of_isQuiet dots),
    balanced_append name (apart _), balanced_append (balanced_of_isQuiet quiet) (apart_of_isQuiet quiet)]
  exact shows

theorem Level.balanced_head (level : shown.Level) : Balanced shown.head := by
  have inner : balanced 0 (", ".toList.intercalate ((List.zipWith parameterText
      shown.signature.parameters shown.types).map String.toList)) = true := by
    apply balanced_intercalate rfl
    intro text member
    rw [← List.map_uncurry_zip_eq_zipWith, List.map_map] at member
    obtain ⟨⟨parameter, type⟩, among, rfl⟩ := List.mem_map.mp member
    obtain ⟨named, typed⟩ := List.of_mem_zip among
    exact balanced_parameterText (level.names parameter named) (level.types type typed)
  have split : shown.head.toList = (typeParameters shown.signature.typeParameters).toList ++
      '(' :: (", ".toList.intercalate ((List.zipWith parameterText shown.signature.parameters
        shown.types).map String.toList) ++ [')']) := by
    simp [head]
  rw [TypeText.Balanced, split, balanced_append level.generics (.inr (by simp))]
  exact balanced_parentheses inner

theorem Level.balanced_text (level : shown.Level) : Balanced (shown.text false) := by
  have split : (shown.text false).toList =
      shown.head.toList ++ (": ".toList ++ shown.returned.toList) := by simp [text]
  have quiet : isQuiet ": ".toList = true := rfl
  rw [TypeText.Balanced, split, balanced_append level.balanced_head (shown.apart_head _),
    balanced_append (balanced_of_isQuiet quiet) (apart_of_isQuiet quiet)]
  exact level.returned

end ApiSections.Display.ShownSignature

namespace ApiSections.Display

open TypeText

variable {shown : List ShownSignature}

/-- The overloads as they stand in braces. -/
def overloadTexts (shown : List ShownSignature) : String :=
  String.intercalate "; " (shown.map (·.text false))

/-- What makes a function look callable: for a single signature, that the brackets in front of its arrow
are level, and for overloads, that the first one starts with its parameters; or else another arrow where
they are. -/
def LooksCallable : List ShownSignature → Prop
  | [shown] => HasLevelArrow 0 shown.head.toList ∨ surplus shown.head.toList = 0 ∨
      HasLevelArrow (surplus shown.head.toList) shown.returned.toList
  | shown => (∃ first ∈ shown.head?, first.signature.typeParameters = []) ∨
      HasLevelArrow 1 (overloadTexts shown).toList

theorem balanced_overloadTexts (level : ∀ one ∈ shown, one.Level) : Balanced (overloadTexts shown) := by
  rw [TypeText.Balanced, overloadTexts, String.toList_intercalate]
  apply balanced_intercalate rfl
  intro text member
  simp only [List.map_map, List.mem_map, Function.comp_apply] at member
  obtain ⟨one, among, rfl⟩ := member
  exact (level one among).balanced_text

/-- The braces around overloads are level where they end. -/
theorem hasOuterArrow_braces (inner : List Char) :
    hasOuterArrow 0 ("\x7b ".toList ++ (inner ++ "; \x7d".toList)) = hasOuterArrow 1 inner := by
  have none (depth : Int) : hasOuterArrow depth "; \x7d".toList = false := by
    simp [hasOuterArrow]
  have apart : Apart inner "; \x7d".toList := .inr (by simp)
  have level : surplus "\x7b ".toList = 1 := by decide
  rw [hasOuterArrow_append (.inl (by decide)), level, hasOuterArrow_append apart, none, Bool.or_false]
  rfl

theorem head?_text (one : ShownSignature) :
    (functionText [one]).toList.head? = one.head.toList.head? := by
  rw [functionText, ShownSignature.text, String.append_assoc, String.toList_append, List.head?_append,
    one.head?_head]
  rfl

theorem isCallable_single (one : ShownSignature) :
    isCallable (one.text true) = true ↔ LooksCallable [one] := by
  have starts := head?_text one
  rw [one.head?_head] at starts
  have plain : isCallable (one.text true) = true ↔ HasLevelArrow 0 (one.text true).toList := by
    split at starts
    · exact isCallable_iff_of_head (by decide) (by decide) starts
    · exact isCallable_iff_of_head (by decide) (by decide) starts
  rw [plain, ← hasOuterArrow_iff, one.hasOuterArrow_text]
  rfl

section Overloads

variable {first second : ShownSignature} {rest : List ShownSignature}

theorem toList_functionText : (functionText (first :: second :: rest)).toList =
    "\x7b ".toList ++ ((overloadTexts (first :: second :: rest)).toList ++ "; \x7d".toList) := by
  rw [functionText, String.append_assoc, String.toList_append, String.toList_append]
  · rfl
  · rintro one same
    cases same

/-- Overloads start as the first one of them does. -/
theorem prefix_functionText : "\x7b ".toList ++
    [if first.signature.typeParameters = [] then '(' else '<'] <+:
      (functionText (first :: second :: rest)).toList := by
  obtain ⟨tail, same⟩ := List.head?_eq_some_iff.mp first.head?_head
  have inner : [if first.signature.typeParameters = [] then '(' else '<'] <+:
      (overloadTexts (first :: second :: rest)).toList := by
    rw [overloadTexts, String.toList_intercalate, List.map_cons, List.map_cons, List.map_cons,
      List.map_cons, List.intercalate_cons_cons, ShownSignature.text, String.append_assoc,
      String.toList_append, same, List.append_assoc]
    exact ⟨_, rfl⟩
  rw [toList_functionText, List.prefix_append_right_inj]
  exact inner.trans (List.prefix_append _ _)

theorem isCallable_overloads : isCallable (functionText (first :: second :: rest)) = true ↔
    LooksCallable (first :: second :: rest) := by
  have front := @prefix_functionText first second rest
  -- Only without type parameters does the text start like a list of call signatures.
  by_cases plain : first.signature.typeParameters = []
  · rw [if_pos plain] at front
    exact iff_of_true (isCallable_of_signatures front) (.inl ⟨first, rfl, plain⟩)
  · rw [if_neg plain] at front
    have generic : ¬ ∃ other ∈ (first :: second :: rest).head?, other.signature.typeParameters = [] := by
      rintro ⟨other, same, none⟩
      cases same
      exact plain none
    have scanned : isCallable (functionText (first :: second :: rest)) = true ↔
        HasLevelArrow 0 (functionText (first :: second :: rest)).toList :=
      isCallable_iff_of_lead (by decide) (by decide) front (by decide) (by decide)
    rw [scanned, ← hasOuterArrow_iff, toList_functionText, hasOuterArrow_braces, hasOuterArrow_iff]
    exact (or_iff_right generic).symm

end Overloads

/-- A function is taken for callable if it looks so. -/
theorem isCallable_functionText (shown : List ShownSignature) :
    isCallable (functionText shown) = true ↔ LooksCallable shown := by
  match shown with
  | [] =>
    have none : ¬ HasLevelArrow 1 (overloadTexts []).toList := by decide
    refine iff_of_false (by decide) ?_
    rintro (⟨_, first, _⟩ | level)
    · cases first
    · exact none level
  | [one] => exact isCallable_single one
  | first :: second :: rest => exact isCallable_overloads

/-- With balanced brackets, only overloads whose first one has type parameters do not look callable. -/
theorem looksCallable_iff_of_level (level : ∀ one ∈ shown, one.Level) :
    LooksCallable shown ↔
      shown.length = 1 ∨ ∃ first ∈ shown.head?, first.signature.typeParameters = [] := by
  have hidden : ¬ HasLevelArrow 1 (overloadTexts shown).toList := by
    have inside : hasOuterArrow 1 (overloadTexts shown).toList = false :=
      hasOuterArrow_inside (balanced_overloadTexts level) Int.one_pos
    rw [← hasOuterArrow_iff, inside]
    exact Bool.false_ne_true
  match shown with
  | [] =>
    constructor
    · exact fun looks => .inr (looks.resolve_right hidden)
    · exact fun is => .inl (is.resolve_left (by simp))
  | [one] =>
    have closed : surplus one.head.toList = 0 := surplus_of_balanced (level one (by simp)).balanced_head
    exact iff_of_true (.inr (.inl closed)) (.inl rfl)
  | first :: second :: rest =>
    constructor
    · exact fun looks => .inr (looks.resolve_right hidden)
    · exact fun is => .inl (is.resolve_left (by simp))

theorem isClassType_functionText (shown : List ShownSignature) :
    Fragment.isClassType (some (functionText shown)) = false := by
  have starts : ∃ c, c ≠ 't' ∧ (functionText shown).toList.head? = some c := by
    match shown with
    | [] => exact ⟨'\x7b', by decide, by decide⟩
    | [one] =>
      refine ⟨_, ?_, (head?_text one).trans one.head?_head⟩
      split
      · decide
      · decide
    | first :: second :: rest =>
      refine ⟨'\x7b', by decide, ?_⟩
      rw [toList_functionText]
      rfl
  obtain ⟨c, other, starts⟩ := starts
  exact Fragment.isClassType_of_head other starts

end ApiSections.Display

namespace ApiSections.Fragment

open Syntax (Node unwrap)
open Display
open Work (answer)

variable {f g : Declaration} {signature : Signature} {name : Node} {symbol target : Symbol}

/-- A constant that is another name for a value. -/
inductive Renames : Shape → Node → Prop where
  | mk {statement : VariableStatement} {initializer name : Node}
      (keyword : statement.keyword = .constKeyword) (found : unwrap initializer = some name)
      (kind : name.kind = .identifier) : Renames (.variable statement none (some initializer)) name

/-- What is shown of a function that some signatures are shown of. -/
structure Shows (signature : Signature) (symbol : Symbol) (text : String)
    (shown : List ShownSignature) : Prop where
  signatures : shown.map (·.signature) = signaturesOf signature (some symbol)
  text_eq : text = functionText shown

theorem typeAt_renamed (renames : Renames g.shape name) (symbol : Symbol) :
    typeAt symbol g =
      (referenceBy (declarationFrom 31) (Context.empty.enter g.place) g.path true name).run := by
  generalize shape : g.shape = written at renames
  obtain ⟨keyword, found, kind⟩ := renames
  rw [typeAt_name shape found kind, keyword]
  rfl

theorem Renames.classify {text : String} (renames : Renames g.shape name)
    (notClass : isClassType (some text) = false) :
    (classify g (some text) = .function ↔ TypeText.isCallable text = true) ∧
      (classify g (some text) = .constant ↔ ¬ TypeText.isCallable text = true) := by
  generalize shape : g.shape = written at renames
  obtain ⟨keyword, _, _⟩ := renames
  exact classify_const shape keyword notClass

theorem Renames.single (renames : Renames g.shape name) : membersOf? g.shape = none := by
  generalize g.shape = written at renames
  obtain ⟨_, _, _⟩ := renames
  rfl

theorem exists_shows {workspace : Workspace} {pass last : Pass} {outcome : Except String String}
    (shape : f.shape = .function signature)
    (ran : Returns (typeAt symbol f) workspace pass outcome last) :
    ∃ text shown, outcome = .ok text ∧ Shows signature symbol text shown := by
  have inactive : f.place ∉ Context.empty.active := by simp [Context.empty]
  obtain ⟨text, rfl, shown, same, is⟩ :=
    yields_declarationFrom shape inactive (some symbol) workspace pass outcome last ran
  exact ⟨text, shown, rfl, same, is⟩

theorem exists_shows_renamed {workspace : Workspace} {pass between last : Pass}
    {outcome : Except String String} (shape : f.shape = .function signature)
    (renames : Renames g.shape name)
    (leads : Returns (Lookup.symbolAt g.path name) workspace pass (some target) between)
    (primary : target.primary? = some f) (apart : g.place ≠ f.place)
    (ran : Returns (typeAt symbol g) workspace pass outcome last) :
    ∃ text shown, outcome = .ok text ∧ Shows signature target text shown := by
  have inactive : f.place ∉ (Context.empty.enter g.place).active := by
    simpa [Context.empty, Context.enter] using apart.symm
  rw [typeAt_renamed renames, referenceBy, run_lift_bind, returns_bind] at ran
  obtain ⟨found, after, here, ran⟩ := ran
  -- The name is looked up from the same pass, so it leads to the same symbol.
  cases leads.symm.trans here
  simp only [primary, if_true, bind_pure] at ran
  obtain ⟨text, rfl, shown, same, is⟩ :=
    yields_declarationFrom shape inactive (some target) workspace between outcome last ran
  exact ⟨text, shown, rfl, same, is⟩

/-- The type of a function is always known, and is taken for callable if and only if it looks callable.
A constant that is another name for the function is a function with a signature if and only if the type
looks so there. With balanced brackets in all of its parts it does, unless the first of several overloads
has type parameters. -/
theorem function_value_iff (shape : f.shape = .function signature) :
    (∀ symbol workspace pass outcome last, Returns (typeAt symbol f) workspace pass outcome last →
      ∃ text shown, outcome = .ok text ∧ Shows signature symbol text shown ∧
        (TypeText.isCallable text = true ↔ LooksCallable shown)) ∧
    (∀ g name symbol target workspace pass between, Renames g.shape name →
      Returns (Lookup.symbolAt g.path name) workspace pass (some target) between →
      target.primary? = some f → g.place ≠ f.place →
      ∀ outcome last, Returns (typeAt symbol g) workspace pass outcome last →
        ∃ text shown, outcome = .ok text ∧ Shows signature target text shown ∧
          (TypeText.isCallable text = true ↔ LooksCallable shown) ∧
          (classify g (some text) = .function ↔ LooksCallable shown) ∧
          (classify g (some text) = .constant ↔ ¬ LooksCallable shown) ∧
          ∀ level id doc, ∃ lines,
            body (hashes level) id g (some text) (classify g (some text)) doc = pure lines ∧
              (Leads "Signature" lines ↔ LooksCallable shown)) ∧
    ∀ symbol text shown, Shows signature symbol text shown → (∀ one ∈ shown, one.Level) →
      (LooksCallable shown ↔ (signaturesOf signature (some symbol)).length = 1 ∨
        ∃ first ∈ (signaturesOf signature (some symbol)).head?, first.typeParameters = []) := by
  refine ⟨?_, ?_, ?_⟩
  · intro symbol workspace pass outcome last ran
    obtain ⟨text, shown, same, shows⟩ := exists_shows shape ran
    refine ⟨text, shown, same, shows, ?_⟩
    rw [shows.text_eq]
    exact isCallable_functionText shown
  · intro g name symbol target workspace pass between renames leads primary apart outcome last ran
    obtain ⟨text, shown, same, shows⟩ := exists_shows_renamed shape renames leads primary apart ran
    have callable : TypeText.isCallable text = true ↔ LooksCallable shown := by
      rw [shows.text_eq]
      exact isCallable_functionText shown
    have notClass : isClassType (some text) = false := by
      rw [shows.text_eq]
      exact isClassType_functionText shown
    obtain ⟨function, constant⟩ := renames.classify notClass
    refine ⟨text, shown, same, shows, callable, function.trans callable, ?_, ?_⟩
    · rw [constant, callable]
    · intro level id doc
      obtain ⟨lines, shown_as, leads⟩ := body_signature renames.single (hashes level) id doc
      exact ⟨lines, shown_as, leads.trans (function.trans callable)⟩
  · intro symbol text shown shows level
    rw [looksCallable_iff_of_level level, ← shows.signatures]
    simp [List.head?_map]

/-- A constant that is another name for a value, with its symbol, and the value with its own. -/
def renamed? (workspace : Workspace) (path : Path) (name : String) :
    Option (Symbol × Declaration × Node × Symbol × Declaration) :=
  (assigned? workspace path name).bind fun (symbol, g, statement, initializer) =>
    (unwrap initializer).bind fun node =>
      if statement.keyword = .constKeyword ∧ node.kind = .identifier then
        ((answer workspace (Lookup.symbolAt g.path node)).toOption.bind id).bind fun target =>
          target.primary?.map fun f => (symbol, g, node, target, f)
      else none

theorem renames_of_renamed? {workspace : Workspace} {path : Path} {id : String}
    (found : renamed? workspace path id = some (symbol, g, name, target, f)) :
    Renames g.shape name ∧ target.primary? = some f ∧
      answer workspace (Lookup.symbolAt g.path name) = .ok (some target) := by
  obtain ⟨⟨symbol, g, statement, initializer⟩, assigned, found⟩ := Option.bind_eq_some_iff.mp found
  obtain ⟨node, unwrapped, found⟩ := Option.bind_eq_some_iff.mp found
  split at found
  · rename_i is
    obtain ⟨last, looked, found⟩ := Option.bind_eq_some_iff.mp found
    obtain ⟨value, primary, found⟩ := Option.map_eq_some_iff.mp found
    cases found
    obtain ⟨outcome, ended, same⟩ := Option.bind_eq_some_iff.mp looked
    cases same
    obtain ⟨_, shape⟩ := shape_of_assigned? assigned
    rw [shape]
    exact ⟨.mk is.1 unwrapped is.2, primary, eq_ok_of_toOption ended⟩
  · cases found

/-- Overloads of which the second one has type parameters. -/
theorem function_value_overloaded :
    let source := "function f(a:()=>b):c;function f<T>(x:T):T;function f(x){}const g=f"
    let tree : FileTree := ⟨Path.ofString "/w", [], [(["w", "a"], Text.encode source)]⟩
    let workspace : Workspace := ⟨tree, none, fun _ => .failed "not found"⟩
    ∃ symbol g name target f signature shown,
      renamed? workspace (Path.ofString "a") "g" = some (symbol, g, name, target, f) ∧
      f.shape = .function signature ∧ LooksCallable shown ∧
      Shows signature target "\x7b (a: ()=>b): c; <T>(x: T): T; \x7d" shown ∧
      classify g (some "\x7b (a: ()=>b): c; <T>(x: T): T; \x7d") = .function := by
  intro source tree workspace
  have facts : ((renamed? workspace (Path.ofString "a") "g").map fun (symbol, g, _, target, f) =>
      (isFunction f, decide (g.place ≠ f.place),
        (answer workspace (typeAt symbol g)).toOption.bind (·.toOption))) =
      some (true, true, some "\x7b (a: ()=>b): c; <T>(x: T): T; \x7d") := by decide +kernel
  obtain ⟨⟨symbol, g, name, target, f⟩, found, facts⟩ := Option.map_eq_some_iff.mp facts
  simp only [Prod.mk.injEq, decide_eq_true_eq] at facts
  obtain ⟨function, apart, type⟩ := facts
  obtain ⟨renames, primary, looked⟩ := renames_of_renamed? found
  obtain ⟨between, leads⟩ := returns_of_answer looked
  obtain ⟨outcome, ended, typed⟩ := Option.bind_eq_some_iff.mp type
  obtain ⟨last, ran⟩ := returns_of_answer (eq_ok_of_toOption ended)
  obtain ⟨signature, shape⟩ : ∃ signature, f.shape = .function signature := by
    unfold isFunction at function
    split at function
    · exact ⟨_, ‹_›⟩
    · cases function
  obtain ⟨_, named, _⟩ := function_value_iff shape
  obtain ⟨text, shown, same, shows, callable, isFunction, _⟩ :=
    named g name symbol target workspace .empty between renames leads primary apart outcome last ran
  rw [same] at typed
  cases typed
  have looks : LooksCallable shown := callable.mp (by decide)
  exact ⟨symbol, g, name, target, f, signature, shown, found, shape, looks, shows,
    isFunction.mpr looks⟩

/-- Overloads of which the first one has type parameters. -/
theorem function_value_generic :
    let source := "function f<T>(x:T):T;function f(x:a):a;function f(x){}const g=f"
    let tree : FileTree := ⟨Path.ofString "/w", [], [(["w", "a"], Text.encode source)]⟩
    let workspace : Workspace := ⟨tree, none, fun _ => .failed "not found"⟩
    ∃ symbol g name target f text,
      renamed? workspace (Path.ofString "a") "g" = some (symbol, g, name, target, f) ∧
      Renames g.shape name ∧ isFunction f = true ∧
      answer workspace (typeAt target f) = .ok (.ok text) ∧
      answer workspace (typeAt symbol g) = .ok (.ok text) ∧
      TypeText.isCallable text = false ∧ classify g (some text) = .constant := by
  intro source tree workspace
  let text := "\x7b <T>(x: T): T; (x: a): a; \x7d"
  have facts : ((renamed? workspace (Path.ofString "a") "g").map fun (symbol, g, _, target, f) =>
      (isFunction f, (answer workspace (typeAt target f)).toOption.bind (·.toOption),
        (answer workspace (typeAt symbol g)).toOption.bind (·.toOption), classify g (some text))) =
      some (true, some text, some text, .constant) := by decide +kernel
  obtain ⟨⟨symbol, g, name, target, f⟩, found, facts⟩ := Option.map_eq_some_iff.mp facts
  simp only [Prod.mk.injEq] at facts
  obtain ⟨function, own, other, constant⟩ := facts
  obtain ⟨outcome, ended, typed⟩ := Option.bind_eq_some_iff.mp own
  obtain ⟨outcome', ended', typed'⟩ := Option.bind_eq_some_iff.mp other
  refine ⟨symbol, g, name, target, f, text, found, (renames_of_renamed? found).1, function, ?_, ?_,
    by decide, constant⟩
  · rw [eq_ok_of_toOption ended, eq_ok_of_toOption typed]
  · rw [eq_ok_of_toOption ended', eq_ok_of_toOption typed']

end ApiSections.Fragment
