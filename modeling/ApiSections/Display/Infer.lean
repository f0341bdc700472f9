import ApiSections.Display.Returned
import ApiSections.Lookup.Member
import ApiSections.Number.Literal
import ApiSections.TypeText.Print

/-!
Display types of declarations and expressions. An annotation is printed as it stands; without one
the type is inferred from initializers and bodies, as far as syntax alone can tell.
-/

namespace ApiSections.Display

open Syntax (Node Kind unwrap)

/-- A step that may end with the reason why there is no display type. -/
abbrev Inference := ExceptT String Work

/-- What surrounds an inference: the declarations whose types are being inferred, and the types of
parameters by name, the innermost function first. -/
structure Context where
  active : List Place
  scopes : List (List (String × String))

namespace Context

def empty : Context := ⟨[], []⟩

/-- Inside the inference of a declaration. -/
def enter (context : Context) (place : Place) : Context :=
  { context with active := place :: context.active }

/-- Inside a function with such parameters. -/
def within (context : Context) (scope : List (String × String)) : Context :=
  { context with scopes := scope :: context.scopes }

/-- The type of a parameter in scope; of two with one name in a list the later counts. -/
def scoped? (context : Context) (name : String) : Option String :=
  context.scopes.findSome? fun scope => (scope.reverse.find? (·.1 == name)).map (·.2)

/-- The type of an expression that is the name of a parameter in scope. -/
def typeOf? (context : Context) (node : Node) : Option String :=
  if node.kind == .identifier then context.scoped? node.text else none

end Context

/-- How many declarations a chain of references may hold. -/
def maxDepth : Nat := 32

/-- How the type of an expression is shown: whether literals keep their own types, and whether
members are constant. -/
structure Mode where
  literal : Bool
  readonly : Bool

def Mode.widened : Mode := ⟨false, false⟩

def Mode.constant : Mode := ⟨true, true⟩

/-- A function that is shown: where it stands, its modifiers and its call shape. -/
structure Callable where
  path : Path
  modifiers : List Modifier
  signature : Signature

def Callable.ofNode (path : Path) (node : Node) : Callable :=
  ⟨path, Declaration.modifiersOf node, Declaration.signatureOf node⟩

def Callable.ofHeader (header : Header) (signature : Signature) : Callable :=
  ⟨header.path, header.modifiers, signature⟩

/-- Appends what is not there yet. -/
def insertNew (types : List String) (type : String) : List String :=
  if types.contains type then types else types ++ [type]

def unionText (types : List String) : String := String.intercalate " | " types

/-- Whether one text stands somewhere in another. -/
def mentions (text piece : String) : Bool := Link.occurs piece.toList text.toList

def arrayText (types : List String) : String :=
  if types.isEmpty then "any[]"
  else
    let joined := unionText types
    if 1 < types.length || mentions joined "=>" || mentions joined " | " then "(" ++ joined ++ ")[]"
    else joined ++ "[]"

def comparisonOperators : List String :=
  ["==", "!=", "===", "!==", "<", ">", "<=", ">=", "instanceof", "in"]

def numericOperators : List String :=
  ["-", "*", "/", "%", "**", "&", "|", "^", "<<", ">>", ">>>"]

def unaryType (node : Node) (literal : Bool) : Except String String :=
  let operator := Node.textOf (node.get? .operator)
  let number := match (node.get? .argument).bind unwrap with
    | some argument => if argument.kind == .number then some argument.text else none
    | none => none
  match operator, number with
  | "-", some text => .ok (if literal then "-" ++ Number.literalText text else "number")
  | "+", _ | "-", _ | "~", _ => .ok "number"
  | "!", _ => .ok "boolean"
  | "typeof", _ => .ok "string"
  | "void", _ => .ok "undefined"
  | _, _ => .error s!"unsupported unary operator '{operator}'"

/-- The type of a sum, if its operands tell it. -/
def sumType (left right : String) : Except String String :=
  if left == "string" || right == "string" then .ok "string"
  else if left == "number" && right == "number" then .ok "number"
  else .error "unsupported binary operator '+'"

def hasSubstitution (node : Node) : Bool :=
  node.namedChildren.any (·.kind == .templateSubstitution)

/-- The type of an expression that needs no look-up. -/
def simpleType? (node : Node) (mode : Mode) : Option (Except String String) :=
  match node.kind with
  | .number => some (.ok (if mode.literal then Number.literalText node.text else "number"))
  | .stringLiteral =>
    some (.ok (if mode.literal then String.ofList (TypeText.stringLiteral node.text.toList)
      else "string"))
  | .templateString =>
    some (.ok (if mode.literal && !hasSubstitution node then
      String.ofList (TypeText.stringLiteral node.text.toList) else "string"))
  | .trueLiteral | .falseLiteral =>
    some (.ok (if mode.literal then node.kind.label else "boolean"))
  | .nullLiteral | .undefinedLiteral => some (.ok node.kind.label)
  | .regex => some (.ok "RegExp")
  | .unary => some (unaryType node mode.literal)
  | .newExpression =>
    match node.get? .constructor with
    | none => some (.error "new without constructor")
    | some constructor =>
      some (.ok (constructor.text ++ match node.get? .typeArguments with
        | some arguments => TypeText.print arguments
        | none => ""))
  | .classExpression =>
    match node.get? .name with
    | none => some (.error "anonymous class expression")
    | some name => some (.ok ("typeof " ++ name.text))
  | _ => none

def functionsOf (symbol : Option Symbol) : List (Header × Signature) :=
  match symbol with
  | none => []
  | some symbol => symbol.declarations.filterMap fun declaration =>
    match declaration.shape with
    | .function signature => some (declaration.header, signature)
    | _ => none

/-- The overloads to show: those without a body, if there are any. -/
def shownOverloads (functions : List (Header × Signature)) : List (Header × Signature) :=
  match functions.filter (·.2.body.isNone) with
  | [] => functions
  | bodiless => bodiless

def isReadonly (header : Header) : Bool := header.has .readonly

/-- A text, or `any` for none and for an empty one. -/
def orAny (type : Except String String) : String :=
  match type with
  | .ok type => if type.isEmpty then "any" else type
  | .error _ => "any"

/-- An inference whose failure is an answer. -/
def attempt (inference : Inference String) : Inference (Except String String) :=
  ExceptT.lift inference.run

/-- A way to the types of expressions: by what surrounds one, the module it stands in and how its type
is shown. -/
abbrev Infer := Context → Path → Mode → Node → Inference String

section Expressions

variable (infer : Infer)

/-- The type of a parameter: its annotation, else the widened type of its default, else `any`. -/
def parameterBy (context : Context) (path : Path) (parameter : Parameter) : Inference String := do
  match parameter.type, parameter.initializer with
  | some type, _ => return TypeText.print type
  | none, some initializer => return orAny (← attempt (infer context path .widened initializer))
  | none, none => return if parameter.rest then "any[]" else "any"

/-- The union of the types of returned expressions; one that has none makes it `any`. -/
def bodyBy (context : Context) (path : Path) : List Node → List String → Inference String
  | [], types => return if types.isEmpty then "void" else unionText types
  | expression :: rest, types => do
    match ← attempt (infer context path .widened expression) with
    | .error _ => return "any"
    | .ok type => bodyBy context path rest (insertNew types type)

/-- The annotated type of a result, else the one inferred from the body. -/
def returnBy (context : Context) (callable : Callable) : Inference String := do
  match callable.signature.returnType, callable.signature.body with
  | some type, _ => return TypeText.print type
  | none, none => return "any"
  | none, some body =>
    if callable.modifiers.contains .generator then return "any"
    let scope ← callable.signature.parameters.mapM fun parameter => do
      return (parameter.name, ← parameterBy infer context callable.path parameter)
    let inside := context.within scope
    let inferred ←
      if body.kind == .block then
        bodyBy infer inside callable.path (returnedExpressions body) []
      else pure (orAny (← attempt (infer inside callable.path .widened body)))
    return if callable.modifiers.contains .async then "Promise<" ++ inferred ++ ">" else inferred

/-- `<T>(a: A, b?: B) => R`, or with a colon in a list of overloads. -/
def signatureBy (context : Context) (arrow : Bool) (callable : Callable) : Inference String := do
  let parameters ← callable.signature.parameters.mapM fun parameter => do
    let type ← parameterBy infer context callable.path parameter
    let optional := (parameter.question || parameter.initializer.isSome) && !parameter.rest
    return (if parameter.rest then "..." else "") ++ parameter.name ++
      (if optional then "?" else "") ++ ": " ++ type
  let returned ← returnBy infer context callable
  return TypeText.typeParameters callable.signature.typeParameters ++ "(" ++
    String.intercalate ", " parameters ++ ")" ++ (if arrow then " => " else ": ") ++ returned

/-- The types of expressions, each once, in the order of first appearance. -/
def distinctBy (context : Context) (path : Path) (mode : Mode) (nodes : List Node) :
    Inference (List String) := do
  let types ← nodes.mapM (infer context path mode)
  return types.foldl insertNew []

def binaryBy (context : Context) (path : Path) (node : Node) : Inference String := do
  let operator := Node.textOf (node.get? .operator)
  if comparisonOperators.contains operator then return "boolean"
  if numericOperators.contains operator then return "number"
  match operator, node.get? .left, node.get? .right with
  | "+", some left, some right =>
    let left ← infer context path .widened left
    let right ← infer context path .widened right
    liftExcept (sumType (TypeText.widen left) (TypeText.widen right))
  | _, _, _ => throw s!"unsupported binary operator '{operator}'"

def arrayBy (context : Context) (path : Path) (readonly : Bool) (elements : List Node) :
    Inference String := do
  if elements.any (·.kind == .spread) then throw "array spread"
  if readonly then
    let items ← elements.mapM (infer context path .constant)
    return "readonly [" ++ String.intercalate ", " items ++ "]"
  return arrayText (← distinctBy infer context path .widened elements)

/-- One member of an object's type. -/
def entryBy (context : Context) (path : Path) (readonly : Bool) (node : Node) :
    Inference String := do
  let lead := if readonly then "readonly " else ""
  let mode : Mode := ⟨readonly, readonly⟩
  match node.kind with
  | .pair =>
    match node.get? .key, node.get? .value with
    | some key, some value =>
      if key.kind == .computedName then throw "computed property"
      return lead ++ key.text ++ ": " ++ (← infer context path mode value)
    | _, _ => throw "computed property"
  | .shorthandProperty =>
    return lead ++ node.text ++ ": " ++ (← infer context path mode node)
  | .methodDefinition =>
    return Node.textOf (node.get? .name) ++
      (← signatureBy infer context false (.ofNode path node))
  | kind => throw s!"unsupported object member '{kind.label}'"

/-- The type of an assertion: the asserted one, or that of the expression as a constant. -/
def assertedBy (context : Context) (path : Path) (node : Node) : Inference String := do
  match node.operands with
  | _ :: type :: _ => return TypeText.print type
  | [inner] =>
    if node.hasToken "const" then infer context path .constant inner
    else throw "malformed type assertion"
  | [] => throw "malformed type assertion"

/-- The type of an expression, by those of its parts and by what it refers to. -/
def expressionBy (refer : Infer) (context : Context) (path : Path) (mode : Mode) (node : Node) :
    Inference String := do
  match unwrap node with
  | none => throw "empty expression"
  | some node =>
    match simpleType? node mode with
    | some result => liftExcept result
    | none =>
      match node.kind with
      | .binary => binaryBy infer context path node
      | .ternary =>
        let branches := (node.get? .consequence).toList ++ (node.get? .alternative).toList
        return unionText (← distinctBy infer context path mode branches)
      | .array => arrayBy infer context path mode.readonly node.operands
      | .object =>
        let entries ← node.operands.mapM (entryBy infer context path mode.readonly)
        return TypeText.objectText entries
      | .asExpression => assertedBy infer context path node
      | .satisfiesExpression =>
        match node.operands.head? with
        | some inner => infer context path mode inner
        | none => throw "empty expression"
      | .arrowFunction | .functionExpression | .generatorFunction =>
        signatureBy infer context true (.ofNode path node)
      | .identifier | .shorthandProperty | .memberAccess | .subscript =>
        refer context path mode node
      | kind => throw s!"unsupported expression '{kind.label}'"

/-- One function, or the list of its overloads. -/
def functionBy (context : Context) (callable : Callable) (symbol : Option Symbol) :
    Inference String := do
  let functions := functionsOf symbol
  if functions.length ≤ 1 then signatureBy infer context true callable
  else match shownOverloads functions with
    | [(header, signature)] => signatureBy infer context true (.ofHeader header signature)
    | overloads =>
      let texts ← overloads.mapM fun (header, signature) =>
        signatureBy infer context false (.ofHeader header signature)
      return "\x7b " ++ String.intercalate "; " texts ++ "; \x7d"

/-- An annotation as it stands, else the type of the initializer, else `any`. -/
def annotatedBy (context : Context) (path : Path) (type initializer : Option Node) (mode : Mode) :
    Inference String := do
  match type, initializer with
  | some type, _ => return TypeText.print type
  | none, some initializer => infer context path mode initializer
  | none, none => return "any"

end Expressions

/-- A way to the types of declarations: by what surrounds one, and the symbol with its overloads. -/
abbrev Declare := Context → Declaration → Option Symbol → Inference String

/-- The type of a member whose declaration is already active. -/
def memberBy (infer : Infer) (declare : Declare) (context : Context) (header : Header)
    (shape : MemberShape) : Inference String := do
  match shape with
  | .field type initializer _ =>
    annotatedBy infer context header.path type initializer ⟨isReadonly header, false⟩
  | .property type _ => annotatedBy infer context header.path type none .widened
  | .entry initializer isConst =>
    annotatedBy infer context header.path none initializer ⟨isConst, isConst⟩
  | .getter signature => returnBy infer context (.ofHeader header signature)
  | .setter signature getter =>
    match getter with
    | some getter => declare context ⟨getter.header, .member (.getter getter.signature)⟩ none
    | none =>
      match signature.parameters.head?.bind (·.type) with
      | some type => return TypeText.print type
      | none => return "any"
  | .constructor signature | .constructSignature signature =>
    return "new " ++ (← signatureBy infer context true (.ofHeader header signature))
  | .method signature | .methodSignature signature =>
    signatureBy infer context true (.ofHeader header signature)

/-- The type of a declaration that is already active. -/
def declarationBy (infer : Infer) (declare : Declare) (context : Context) (declaration : Declaration)
    (symbol : Option Symbol) : Inference String := do
  match declaration.shape with
  | .function signature =>
    functionBy infer context (.ofHeader declaration.header signature) symbol
  | .classShape _ _ | .enumeration =>
    match declaration.name with
    | some name => return "typeof " ++ name
    | none => throw "anonymous class"
  | .interface _ _ => return declaration.name.getD "\x7b\x7d"
  | .typeAlias _ type =>
    match type with
    | some type => return TypeText.print type
    | none => throw "type alias without a type"
  | .variable statement type initializer =>
    annotatedBy infer context declaration.path type initializer
      ⟨statement.keyword == .constKeyword, false⟩
  | .member shape => memberBy infer declare context declaration.header shape
  | .exportAssignment expression => infer context declaration.path ⟨true, false⟩ expression
  | .exportSpecifier _ _ | .importSpecifier _ _ => throw s!"unresolved {declaration.label}"

/-- The type of the declaration that an expression refers to. -/
def referenceBy (declare : Declare) (context : Context) (path : Path) (literal : Bool) (node : Node) :
    Inference String := do
  match ← (Lookup.symbolAt path node : Work (Option Symbol)) with
  | none => throw s!"cannot resolve '{node.text}'"
  | some symbol =>
    match symbol.primary? with
    | none => throw s!"cannot resolve '{node.text}'"
    | some declaration =>
      let type ← declare context declaration (some symbol)
      return if literal then type else TypeText.widen type

/-- The type of a name or a property: a parameter's, or that of a declaration. -/
def nameBy (declare : Declare) (context : Context) (path : Path) (mode : Mode) (node : Node) :
    Inference String := do
  match context.typeOf? node with
  | some type => return type
  | none => referenceBy declare context path mode.literal node

/-- The type of an expression. Each part of a node has fewer nodes, so that as much fuel is enough as
the expression has nodes. -/
def expressionFrom (refer : Infer) : Nat → Infer
  | 0, _, _, _, _ => throw "empty expression"
  | fuel + 1, context, path, mode, node =>
    expressionBy (expressionFrom refer fuel) refer context path mode node

/-- The type of an expression, by the types of declarations. -/
def inferBy (declare : Declare) : Infer := fun context path mode node =>
  expressionFrom (nameBy declare) node.weight context path mode node

/-- The type of a declaration; `depth` more declarations may become active. -/
def declarationFrom : Nat → Declare
  | 0, context, declaration, _ =>
    throw (if context.active.contains declaration.place then "circular reference"
      else "reference chain too deep")
  | depth + 1, context, declaration, symbol =>
    if context.active.contains declaration.place then throw "circular reference"
    else
      declarationBy (inferBy (declarationFrom depth)) (declarationFrom depth)
        (context.enter declaration.place) declaration symbol

/-- The display type of an expression in a module. -/
def expressionType (path : Path) (mode : Mode) (node : Node) : Inference String :=
  inferBy (declarationFrom maxDepth) .empty path mode node

/-- The display type of a declaration, with the overloads of a symbol. -/
def declarationType (declaration : Declaration) (symbol : Option Symbol) : Inference String :=
  declarationFrom maxDepth .empty declaration symbol

/-- The display type of a symbol at a declaration, or the reason why there is none. -/
def typeAt (symbol : Symbol) (declaration : Declaration) : Work (Except String String) :=
  (declarationType declaration (some symbol)).run

/-- The display type of a symbol at its primary declaration. -/
def typeOf (symbol : Symbol) : Work (Except String String) := do
  match symbol.primary? with
  | some declaration => typeAt symbol declaration
  | none => return .error "symbol has no declaration"

/-- A symbol for a member on its own. -/
def symbolFor (member : Member) : Symbol :=
  let name := member.header.name.getD ""
  ⟨.inModule member.header.path name, name, .ofValue, [member.toDeclaration]⟩

end ApiSections.Display
