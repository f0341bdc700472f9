import ApiSections.Display.Infer

/-!
What types are inferred from: the expressions inside an expression or a declaration whose types make up
its own, and the names and properties among them that refer to other declarations.
-/

namespace ApiSections.Display

open Syntax (Node unwrap)

/-- An expression of a module, with the names of the parameters around it. -/
structure Part where
  path : Path
  bound : List String
  node : Node

/-- The default value that the type of a parameter is inferred from. -/
def default? (parameter : Parameter) : Option Node :=
  match parameter.type with
  | some _ => none
  | none => parameter.initializer

/-- The expressions that the type of a result is inferred from. -/
def resultsOf (callable : Callable) : List Node :=
  match callable.signature.returnType, callable.signature.body with
  | none, some body =>
    if callable.modifiers.contains .generator then []
    else if body.kind == .block then returnedExpressions body
    else [body]
  | _, _ => []

/-- The names of the parameters are bound in the results, not in the default values. -/
def callableParts (bound : List String) (callable : Callable) : List Part :=
  (callable.signature.parameters.filterMap default?).map (Part.mk callable.path bound) ++
    (resultsOf callable).map
      (Part.mk callable.path (callable.signature.parameters.map (·.name) ++ bound))

def entryParts (part : Part) : List Part :=
  match part.node.kind with
  | .pair => (part.node.get? .value).toList.map (Part.mk part.path part.bound)
  | .shorthandProperty => [part]
  | .methodDefinition => callableParts part.bound (.ofNode part.path part.node)
  | _ => []

/-- The parts of an expression that its type is made up of. -/
def partsOf (part : Part) : List Part :=
  match unwrap part.node with
  | none => []
  | some node =>
    match node.kind with
    | .binary =>
      if Node.textOf (node.get? .operator) == "+" then
        ((node.get? .left).toList ++ (node.get? .right).toList).map (Part.mk part.path part.bound)
      else []
    | .ternary =>
      ((node.get? .consequence).toList ++ (node.get? .alternative).toList).map
        (Part.mk part.path part.bound)
    | .array => node.operands.map (Part.mk part.path part.bound)
    | .object => node.operands.flatMap fun entry => entryParts ⟨part.path, part.bound, entry⟩
    | .asExpression =>
      match node.operands with
      | [inner] => [⟨part.path, part.bound, inner⟩]
      | _ => []
    | .satisfiesExpression => node.operands.head?.toList.map (Part.mk part.path part.bound)
    | .arrowFunction | .functionExpression | .generatorFunction =>
      callableParts part.bound (.ofNode part.path node)
    | _ => []

/-- The name or the property that an expression is. -/
def referenceOf? (node : Node) : Option Node :=
  (unwrap node).filter fun node =>
    [.identifier, .shorthandProperty, .memberAccess, .subscript].contains node.kind

/-- The names and properties in an expression that its type is inferred from. -/
def referencesFrom : Nat → Part → List Part
  | 0, _ => []
  | fuel + 1, part =>
    (referenceOf? part.node).toList.map (Part.mk part.path part.bound) ++
      (partsOf part).flatMap (referencesFrom fuel)

def memberParts (header : Header) : MemberShape → List Part
  | .field type initializer _ =>
    match type with
    | some _ => []
    | none => initializer.toList.map (Part.mk header.path [])
  | .entry initializer _ => initializer.toList.map (Part.mk header.path [])
  | .getter signature | .constructor signature | .constructSignature signature
  | .method signature | .methodSignature signature => callableParts [] (.ofHeader header signature)
  | .property _ _ | .setter _ _ => []

/-- The functions that are shown for one, or for all of its overloads. -/
def shownFunctions (function : Header × Signature) (symbol : Option Symbol) :
    List (Header × Signature) :=
  if (functionsOf symbol).length ≤ 1 then [function] else shownOverloads (functionsOf symbol)

/-- The expressions that the type of a declaration is made up of. -/
def declarationParts (declaration : Declaration) (symbol : Option Symbol) : List Part :=
  match declaration.shape with
  | .function signature =>
    (shownFunctions (declaration.header, signature) symbol).flatMap fun (header, signature) =>
      callableParts [] (.ofHeader header signature)
  | .variable _ type initializer =>
    match type with
    | some _ => []
    | none => initializer.toList.map (Part.mk declaration.path [])
  | .member shape => memberParts declaration.header shape
  | .exportAssignment expression => [⟨declaration.path, [], expression⟩]
  | _ => []

/-- The names and properties that the type of a declaration is inferred from. -/
def references (declaration : Declaration) (symbol : Option Symbol) : List Part :=
  (declarationParts declaration symbol).flatMap fun part => referencesFrom part.node.weight part

/-- The declaration that a writing accessor takes its type from. -/
def getterOf? (declaration : Declaration) : Option Declaration :=
  match declaration.shape with
  | .member (.setter _ (some getter)) => some ⟨getter.header, .member (.getter getter.signature)⟩
  | _ => none

end ApiSections.Display
