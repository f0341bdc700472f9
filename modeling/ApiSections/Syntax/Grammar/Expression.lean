import ApiSections.Syntax.Grammar.Element
import ApiSections.Syntax.Grammar.Member

/-!
Expressions. Operators are read by precedence climbing; an assertion binds looser than every binary
operator, and so takes all that stands before it.
-/

namespace ApiSections.Syntax.Grammar

open Rule

variable (g : Grammar)

def array : Rule := node .array (bracketed "[" "]" (choice [g.spread, g.expression .inner]))

def objectEntry : Rule := choice [
  g.spread,
  followedBy g.method fun text => startsWithAny ",\x7d" text,
  node .pair (seq [role .key g.propertyName, mark ":", role .value (g.expression .inner)]),
  chain (name .shorthandProperty)
    [⟨.objectAssignmentPattern, some .left, seq [mark "=", role .right (g.expression .inner)]⟩],
  wordNode .shorthandProperty "undefined"]

def object : Rule := node .object (bracketed "\x7b" "\x7d" g.objectEntry)

/-- The kind of a function in an expression. -/
def functionKind (nodes : List Node) : Kind :=
  if nodes.any (·.isToken "*") then .generatorFunction else .functionExpression

def functionExpression : Rule :=
  nodeBy functionKind <| seq [
    maybe (word "async"), word "function", maybe (mark "*"),
    maybe (role .name (name .identifier)), g.callSignature .inner, role .body g.block]

def classExpression : Rule :=
  node .classExpression <| seq [
    many g.decoratorRule, word "class",
    maybe (role .name (leaf .typeIdentifier fun text =>
      if wordAt text = "implements".toList then none else plainNameLength text)),
    g.classRest]

/-- The parameters of an arrow function: one name, or a list. -/
def arrowParameters (site : Site) : Rule := choice [
  followedBy (role .parameter (name .identifier)) ("=>".toList.isPrefixOf ·),
  seq [
    maybe (role .typeParameters g.typeParameters), role .parameters g.formalParameters,
    if site.allowsReturnType then maybe (g.returnAscription .inner) else nothing]]

def arrowBody (site : Site) : Rule :=
  role .body <| choice [
    whenAhead (startsWithAny "\x7b") g.block,
    whenAhead (!startsWithAny "\x7b" ·) (g.expression site)]

def arrowFunction (site : Site) : Rule :=
  let rest := seq [g.arrowParameters site, mark "=>", g.arrowBody site]
  whenAhead (fun text => startsName text || startsWithAny "(<" text) <|
    node .arrowFunction (choice [seq [word "async", rest], rest])

def templateString : Rule := template .templateString (g.expressions .inner)

/-- Where a list of type arguments ends an operand that is not called. -/
def endsInstantiation (text : List Char) : Bool :=
  text.isEmpty || startsWithAny ")],;:.?|&=\x7d!*/%^" text

def memberName : Rule :=
  choice [leaf .privatePropertyIdentifier privateNameLength, anyName .propertyIdentifier]

/-- A member of what stands before. -/
def accesses : List Extension := [
  ⟨.memberAccess, some .object, seq [mark ".", role .property memberName]⟩,
  ⟨.memberAccess, some .object,
    seq [leaf .optionalChain chainLength, role .property memberName]⟩,
  ⟨.subscript, some .object,
    seq [maybe (leaf .optionalChain chainLength), mark "[", role .index (g.expressions .inner),
      mark "]"]⟩]
where
  chainLength (text : List Char) : Option Nat :=
    if markAt text = "?.".toList then some 2 else none

def calls (site : Site) : List Extension := [
  ⟨.call, none,
    seq [maybe (mark "?."), maybe (role .typeArguments g.typeArguments),
      choice [g.arguments, g.templateString]]⟩,
  ⟨.nonNull, none, onLine true site.endsAtLine (mark "!")⟩,
  ⟨.instantiation, none,
    followedBy (role .typeArguments g.typeArguments) endsInstantiation⟩]

def literal : Rule := choice [
  number, stringLiteral, g.templateString,
  wordNode .trueLiteral "true", wordNode .falseLiteral "false", wordNode .nullLiteral "null",
  wordNode .undefinedLiteral "undefined",
  wordNode .thisValue "this", wordNode .superValue "super",
  leaf .regex regexLength]

def metaProperty : Rule := choice [
  node .metaProperty (seq [word "new", mark ".", word "target"]),
  node .metaProperty (seq [word "import", mark ".", word "meta"])]

def primary : Rule := choice [
  metaProperty,
  g.functionExpression,
  g.classExpression,
  g.literal,
  g.parenthesized,
  g.array,
  g.object,
  wordNode .importCall "import",
  leaf .privatePropertyIdentifier privateNameLength,
  name .identifier]

/-- A construction; its constructor may be a member, but not the result of a call. -/
def newExpression : Rule :=
  node .newExpression <| seq [
    word "new",
    role .constructor (chain g.primary (⟨.nonNull, none, mark "!"⟩ :: g.accesses)),
    maybe (role .typeArguments g.typeArguments), maybe g.arguments]

/-- An operand without operators: a primary expression, its members and its calls. -/
def postfixed (site : Site) : Rule :=
  chain (choice [g.newExpression, g.primary]) (g.accesses ++ g.calls site)

def unaryOperator : Rule := choice [
  mark "!", mark "~", mark "-", mark "+", word "typeof", word "void", word "delete"]

def updateOperator : Rule := choice [mark "++", mark "--"]

/-- An assertion of a type, behind what it is about. -/
def assertions (site : Site) : List Extension := [
  ⟨.asExpression, none, seq [
    onLine true site.endsAtLine (word "as"), choice [word "const", g.type site]]⟩,
  ⟨.satisfiesExpression, none, seq [
    onLine true site.endsAtLine (word "satisfies"), g.type site]⟩]

/-- An awaited operand takes the assertions behind it. -/
def awaited (site : Site) : Rule :=
  node .awaited <| seq [
    followedBy (word "await") startsOperand, chain (g.rule (.operand site)) (g.assertions site)]
where
  startsOperand (text : List Char) : Bool :=
    (startsName text && !isInfixWord text) || startsWithAny "([\x7b'\"`!~+-0123456789/<@#" text
  isInfixWord (text : List Char) : Bool :=
    ["in", "instanceof", "as", "satisfies", "of"].contains (String.ofList (wordAt text))

def operandRule (site : Site) : Rule := choice [
  node .unary (seq [role .operator unaryOperator, role .argument (g.rule (.operand site))]),
  node .update (seq [role .operator updateOperator, role .argument (g.rule (.operand site))]),
  g.awaited site,
  g.arrowFunction site,
  match g.dialect with
  | .plain => node .typeAssertion (seq [g.typeArguments, g.rule (.operand site)])
  | .markup => g.rule .element,
  chain (g.postfixed site)
    [⟨.update, some .argument,
      onLine true site.endsAtLine (role .operator updateOperator)⟩]]

/-- How tight each binary operator binds. -/
def operatorLevels : List (String × Nat) := [
  ("??", 1), ("||", 2), ("&&", 3), ("|", 4), ("^", 5), ("&", 6),
  ("==", 7), ("!=", 7), ("===", 7), ("!==", 7),
  ("<", 8), (">", 8), ("<=", 8), (">=", 8), ("in", 8), ("instanceof", 8),
  ("<<", 9), (">>", 9), (">>>", 9), ("+", 10), ("-", 10), ("*", 11), ("/", 11), ("%", 11),
  ("**", 12)]

/-- The operator at the start of a text. -/
def operatorAt (text : List Char) : String :=
  String.ofList (if startsName text then wordAt text else markAt text)

/-- The binary operators of a level or tighter. -/
def operatorsFrom (site : Site) (least : Nat) : List (String × Nat) :=
  operatorLevels.filter fun (operator, level) =>
    least ≤ level && (site.allowsIn || operator != "in")

/-- Operands and binary operators that bind at `least` as tight. Assertions come last, but what
stands to the right of a power takes its own. -/
def binaryFrom (site : Site) (asserted : Bool) : Nat → Nat → Rule
  | 0, _ => fail
  | fuel + 1, least => chain (g.rule (.operand site)) <|
    (if asserted then g.assertions site else []) ++ [⟨.binary, some .left, fun cursor =>
      let operator := operatorAt (ahead cursor)
      match (operatorsFrom site least).find? (·.1 == operator) with
      | none => none
      | some (_, level) =>
        let isPower := operator == "**"
        seq [
          role .operator (leaf .token fun _ => some operator.length),
          role .right (binaryFrom site isPower fuel (if isPower then level else level + 1))]
          cursor⟩]

def binary (site : Site) : Rule := fun cursor =>
  g.binaryFrom site true (cursor.left + 14) 0 cursor

/-- A choice between two branches. The first is read again without return types of arrow functions
if the colon between the branches would be taken for one. -/
def ternary (site : Site) : Rule :=
  let branches (first : Site) := seq [
    mark "?", role .consequence (g.expression first), mark ":",
    role .alternative (g.expression site)]
  chain (g.binary site)
    [⟨.ternary, none, choice [
      branches ⟨false, true, true⟩, branches ⟨false, true, false⟩]⟩]

def assignmentOperators : List String :=
  ["+=", "-=", "*=", "/=", "%=", "^=", "&=", "|=", ">>=", ">>>=", "<<=", "**=", "&&=", "||=", "??="]

def augmentedOperator : Rule := leaf .token fun text =>
  let operator := String.ofList (markAt text)
  if assignmentOperators.contains operator then some operator.length else none

def yieldExpression (site : Site) : Rule :=
  node .yielded <| seq [
    word "yield",
    choice [
      seq [mark "*", g.expression site],
      onLine true site.endsAtLine (whenAhead (!startsWithAny ")],;:\x7d" ·) (g.expression site)),
      nothing]]

def expressionRule (site : Site) : Rule := choice [
  g.yieldExpression site,
  chain (g.ternary site)
    [⟨.assignment, some .left, seq [mark "=", role .right (g.expression site)]⟩,
      ⟨.augmentedAssignment, some .left,
        seq [role .operator augmentedOperator, role .right (g.expression site)]⟩]]

end ApiSections.Syntax.Grammar
