import ApiSections.Display.Infer
import ApiSections.Proofs.Fragment.Declared

/-!
How functions are shown. A function always has a display type: where no type of a parameter or of the
result can be told, `any` stands for it. So the text is made of the parts of its signature, or of those
of its overloads, whatever is known about their types.
-/

namespace ApiSections.Display

open Syntax (Node)

/-- An inference that never ends with a reason why there is no type, and what its answers are like. -/
def Yields {α : Type} (step : Inference α) (given : α → Prop) : Prop :=
  ∀ workspace pass outcome last, Returns step.run workspace pass outcome last →
    ∃ value, outcome = .ok value ∧ given value

namespace Yields

variable {α β : Type} {step : Inference α} {given other : α → Prop} {result : β → Prop}

theorem pure {value : α} (is : given value) : Yields (Pure.pure value : Inference α) given := by
  intro workspace pass outcome last ran
  obtain ⟨rfl, _⟩ := returns_pure.mp ran
  exact ⟨value, rfl, is⟩

theorem imp (yields : Yields step given) (implies : ∀ value, given value → other value) :
    Yields step other := by
  intro workspace pass outcome last ran
  obtain ⟨value, same, is⟩ := yields workspace pass outcome last ran
  exact ⟨value, same, implies value is⟩

theorem bind {next : α → Inference β} (yields : Yields step given)
    (after : ∀ value, given value → Yields (next value) result) : Yields (step >>= next) result := by
  intro workspace pass outcome last ran
  rw [ExceptT.run_bind, returns_bind] at ran
  obtain ⟨first, between, ran, later⟩ := ran
  obtain ⟨value, rfl, is⟩ := yields workspace pass first between ran
  exact after value is workspace between outcome last later

theorem attempt (inference : Inference String) : Yields (Display.attempt inference) fun _ => True := by
  intro workspace pass outcome last ran
  obtain ⟨value, _, rfl⟩ := returns_map.mp ran
  exact ⟨value, rfl, trivial⟩

theorem mapM {next : β → Inference α} {given : β → α → Prop} {items : List β}
    (each : ∀ item, Yields (next item) (given item)) :
    Yields (items.mapM next) (List.Forall₂ given items) := by
  induction items with
  | nil => exact .pure .nil
  | cons item items ih =>
    rw [List.mapM_cons]
    apply (each item).bind
    intro value is
    exact ih.bind fun values are => .pure (.cons is are)

end Yields

/-- What is shown as the type of a parameter. -/
def ShowsParameter (parameter : Parameter) (type : String) : Prop :=
  match parameter.type, parameter.initializer with
  | some node, _ => type = TypeText.print node
  | none, some _ => True
  | none, none => type = if parameter.rest then "any[]" else "any"

/-- What is shown as the type of a result. -/
def ShowsResult (signature : Signature) (type : String) : Prop :=
  match signature.returnType, signature.body with
  | some node, _ => type = TypeText.print node
  | none, some _ => True
  | none, none => type = "any"

/-- A signature with the types that are shown for its parameters and for its result. -/
structure ShownSignature where
  signature : Signature
  types : List String
  returned : String
  shows_parameters : List.Forall₂ ShowsParameter signature.parameters types
  shows_result : ShowsResult signature returned

def parameterText (parameter : Parameter) (type : String) : String :=
  (if parameter.rest then "..." else "") ++ parameter.name ++
    (if (parameter.question || parameter.initializer.isSome) && !parameter.rest then "?" else "") ++
    ": " ++ type

namespace ShownSignature

/-- What stands in front of the result. -/
def head (shown : ShownSignature) : String :=
  TypeText.typeParameters shown.signature.typeParameters ++ "(" ++
    String.intercalate ", " (List.zipWith parameterText shown.signature.parameters shown.types) ++ ")"

def text (shown : ShownSignature) (arrow : Bool) : String :=
  shown.head ++ (if arrow then " => " else ": ") ++ shown.returned

end ShownSignature

/-- One signature with an arrow, or several in braces. -/
def functionText : List ShownSignature → String
  | [shown] => shown.text true
  | shown => "\x7b " ++ String.intercalate "; " (shown.map (·.text false)) ++ "; \x7d"

/-- The signatures that are shown of a function: its own, or those of its overloads. -/
def signaturesOf (signature : Signature) (symbol : Option Symbol) : List Signature :=
  if (functionsOf symbol).length ≤ 1 then [signature]
  else (shownOverloads (functionsOf symbol)).map (·.2)

section Inference

variable {infer : Infer} {context : Context} {path : Path}

theorem yields_parameterBy (parameter : Parameter) :
    Yields (parameterBy infer context path parameter) (ShowsParameter parameter) := by
  rw [parameterBy]
  split
  · rename_i type annotated
    exact .pure (by rw [ShowsParameter, annotated])
  · rename_i initializer bare initial
    exact (Yields.attempt _).bind fun _ _ => .pure (by rw [ShowsParameter, bare, initial]; trivial)
  · rename_i bare none
    exact .pure (by rw [ShowsParameter, bare, none])

theorem yields_bodyBy (nodes : List Node) (types : List String) :
    Yields (bodyBy infer context path nodes types) fun _ => True := by
  induction nodes generalizing types with
  | nil => exact .pure trivial
  | cons node rest ih =>
    rw [bodyBy]
    apply (Yields.attempt _).bind
    intro outcome _
    cases outcome with
    | error reason => exact .pure trivial
    | ok type => exact ih _

theorem yields_returnBy (callable : Callable) :
    Yields (returnBy infer context callable) (ShowsResult callable.signature) := by
  rw [returnBy]
  split
  · rename_i type annotated
    exact .pure (by rw [ShowsResult, annotated])
  · rename_i bare none
    exact .pure (by rw [ShowsResult, bare, none])
  · rename_i body bare present
    have any (type : String) : ShowsResult callable.signature type := by
      rw [ShowsResult, bare, present]
      trivial
    split
    · exact .pure (any _)
    · have names : ∀ parameter : Parameter, Yields (do
          return (parameter.name, ← parameterBy infer context callable.path parameter))
          fun _ => True :=
        fun parameter => (yields_parameterBy parameter).bind fun _ _ => .pure trivial
      apply (Yields.mapM names).bind
      intro scope _
      dsimp only
      split
      · exact (yields_bodyBy _ _).bind fun _ _ => .pure (any _)
      · exact (Yields.attempt _).bind fun _ _ => .pure (any _)

theorem exists_types {parameters : List Parameter} {texts : List String}
    (each : List.Forall₂ (fun parameter text =>
      ∃ type, ShowsParameter parameter type ∧ text = parameterText parameter type) parameters texts) :
    ∃ types, List.Forall₂ ShowsParameter parameters types ∧
      texts = List.zipWith parameterText parameters types := by
  induction each with
  | nil => exact ⟨[], .nil, rfl⟩
  | cons here _ ih =>
    obtain ⟨type, shows, rfl⟩ := here
    obtain ⟨types, all, rfl⟩ := ih
    exact ⟨type :: types, .cons shows all, rfl⟩

theorem yields_signatureBy (arrow : Bool) (callable : Callable) :
    Yields (signatureBy infer context arrow callable) fun text =>
      ∃ shown : ShownSignature, shown.signature = callable.signature ∧ text = shown.text arrow := by
  rw [signatureBy]
  have each (parameter : Parameter) : Yields (do
      let type ← parameterBy infer context callable.path parameter
      return parameterText parameter type)
      fun text => ∃ type, ShowsParameter parameter type ∧ text = parameterText parameter type :=
    (yields_parameterBy parameter).bind fun type shows => .pure ⟨type, shows, rfl⟩
  apply (Yields.mapM each).bind
  intro texts parameters
  obtain ⟨types, shows, rfl⟩ := exists_types parameters
  apply (yields_returnBy callable).bind
  intro returned result
  exact .pure ⟨⟨callable.signature, types, returned, shows, result⟩, rfl, rfl⟩

theorem exists_map {α β : Type} {view : α → β} {given : α → String} {items : List β}
    {texts : List String}
    (each : List.Forall₂ (fun item text => ∃ shown, view shown = item ∧ text = given shown) items
      texts) : ∃ shown : List α, shown.map view = items ∧ texts = shown.map given := by
  induction each with
  | nil => exact ⟨[], rfl, rfl⟩
  | cons here _ ih =>
    obtain ⟨first, rfl, rfl⟩ := here
    obtain ⟨rest, rfl, rfl⟩ := ih
    exact ⟨first :: rest, rfl, rfl⟩

theorem yields_functionBy (callable : Callable) (symbol : Option Symbol) :
    Yields (functionBy infer context callable symbol) fun text =>
      ∃ shown : List ShownSignature,
        shown.map (·.signature) = signaturesOf callable.signature symbol ∧
          text = functionText shown := by
  rw [functionBy, signaturesOf]
  dsimp only
  by_cases single : (functionsOf symbol).length ≤ 1
  · rw [if_pos single, if_pos single]
    apply (yields_signatureBy true callable).imp
    rintro text ⟨shown, same, rfl⟩
    exact ⟨[shown], by rw [← same]; rfl, rfl⟩
  · rw [if_neg single, if_neg single]
    split
    · rename_i header signature only
      apply (yields_signatureBy true _).imp
      rintro text ⟨shown, same, rfl⟩
      exact ⟨[shown], by rw [only, List.map_singleton, same]; rfl, rfl⟩
    · rename_i overloads several
      have each (overload : Header × Signature) :
          Yields (signatureBy infer context false (.ofHeader overload.1 overload.2)) fun text =>
            ∃ shown : ShownSignature, shown.signature = overload.2 ∧ text = shown.text false :=
        yields_signatureBy false _
      apply (Yields.mapM each).bind
      intro texts all
      obtain ⟨shown, same, rfl⟩ := exists_map (List.forall₂_map_left_iff.mpr all)
      refine .pure ⟨shown, same, ?_⟩
      -- A single signature would have been shown with an arrow.
      rw [functionText]
      rintro only rfl
      obtain ⟨overload, alone⟩ := List.length_eq_one_iff.mp
        ((List.length_map ..).symm.trans (congrArg List.length same.symm))
      exact several overload.1 overload.2 alone

/-- Inside the inference of others, a function that is not active itself is shown. -/
theorem yields_declarationFrom {declaration : Declaration} {signature : Signature} {depth : Nat}
    (shape : declaration.shape = .function signature)
    (inactive : declaration.place ∉ context.active) (symbol : Option Symbol) :
    Yields (declarationFrom (depth + 1) context declaration symbol) fun text =>
      ∃ shown : List ShownSignature,
        shown.map (·.signature) = signaturesOf signature symbol ∧ text = functionText shown := by
  rw [declarationFrom, if_neg (by rwa [List.contains_iff_mem]), declarationBy, shape]
  exact yields_functionBy _ symbol

end Inference

end ApiSections.Display
