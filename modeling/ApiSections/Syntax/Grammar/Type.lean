import ApiSections.Syntax.Grammar.Basic

/-!
Types. Unions bind looser than intersections, and both looser than the operators in front of a type;
a condition takes all that stands before `extends`.
-/

namespace ApiSections.Syntax.Grammar

open Rule

def predefinedWords : List String :=
  ["any", "number", "boolean", "string", "symbol", "void", "unknown", "never", "object"]

def predefinedType : Rule := choice [
  node .predefinedType <| seq [word "unique", word "symbol"],
  leaf .predefinedType fun text =>
    if predefinedWords.contains (String.ofList (wordAt text)) then nameLength text else none]

variable (g : Grammar)

def typeArguments : Rule :=
  node .typeArguments <| seq [
    glyph "<", choice [word "const", g.type .inner], many (seq [mark ",", g.type .inner]),
    maybe (mark ","), glyph ">"]

def constraintClause : Rule :=
  node .constraint <| seq [choice [word "extends", mark ":"], g.type .inner]

def typeParameter : Rule :=
  node .typeParameter <| seq [
    many (followedBy (choice [word "const", word "in", word "out"]) fun text =>
      (plainNameLength text).isSome || wordAt text = "const".toList || wordAt text = "in".toList),
    role .name (name .typeIdentifier),
    maybe (role .constraint g.constraintClause),
    maybe (role .value (node .defaultType (seq [mark "=", g.type .inner])))]

def typeParameters : Rule :=
  node .typeParameters <| seq [
    glyph "<", separated g.typeParameter (mark ","), maybe (mark ","), glyph ">"]

def accessibility : Rule := leaf .accessibilityModifier fun text =>
  if ["public", "private", "protected"].contains (String.ofList (wordAt text)) then nameLength text
  else none

def startsParameterName (text : List Char) : Bool :=
  startsName text || startsWithAny "[\x7b" text

/-- What may stand in front of a parameter's name. -/
def parameterModifier : Rule :=
  followedBy (choice [accessibility, wordNode .overrideModifier "override", word "readonly"])
    startsParameterName

def parameter : Rule :=
  nodeBy (fun nodes =>
    if nodes.any (·.isToken "?") then .optionalParameter else .requiredParameter) <|
    seq [
      many g.decoratorRule, many parameterModifier,
      role .pattern (choice [wordNode .thisValue "this", g.rule .pattern]), maybe (mark "?"),
      maybe (role .type (g.typeAscription .inner)), maybe (g.initializer .inner)]

def formalParameters : Rule :=
  node .formalParameters <| seq [
    mark "(", maybe g.parameter, many (seq [mark ",", maybe g.parameter]), mark ")"]

/-- The subject of a type predicate. -/
def predicateSubject : Rule := choice [wordNode .thisType "this", name .identifier]

def typePredicate (site : Site) : Rule :=
  node .typePredicate <| seq [role .name predicateSubject, word "is", role .type (g.type site)]

def asserts (site : Site) : Rule :=
  node .assertsClause <| seq [
    followedBy (word "asserts") startsName, choice [g.typePredicate site, predicateSubject]]

/-- What a function gives back: a type, or what it says about a parameter. -/
def returnAscription (site : Site) : Rule :=
  role .returnType <| choice [
    node .assertsAscription (seq [mark ":", g.asserts site]),
    node .typePredicateAscription (seq [mark ":", g.typePredicate site]),
    g.typeAscription site]

def returnOfType (site : Site) : Rule :=
  role .returnType <| choice [g.asserts site, g.typePredicate site, g.type site]

/-- Type parameters, parameters and the result of a function. -/
def callSignature (site : Site) : Rule :=
  seq [
    maybe (role .typeParameters g.typeParameters),
    role .parameters g.formalParameters,
    maybe (g.returnAscription site)]

def functionType (site : Site) : Rule :=
  node .functionType <| seq [
    maybe (role .typeParameters g.typeParameters),
    role .parameters g.formalParameters, mark "=>", g.returnOfType site]

def constructorType (site : Site) : Rule :=
  node .constructorType <| seq [
    maybe (word "abstract"), word "new",
    maybe (role .typeParameters g.typeParameters),
    role .parameters g.formalParameters, mark "=>", role .type (g.type site)]

def tupleMember : Rule :=
  let label := role .name (anyName .identifier)
  let spread := node .restPattern (seq [mark "...", anyName .identifier])
  choice [
    node .optionalParameter (seq [label, mark "?", role .type (g.typeAscription .inner)]),
    node .requiredParameter (seq [choice [spread, label], role .type (g.typeAscription .inner)]),
    node .restType (seq [mark "...", g.type .inner]),
    chain (g.type .inner) [⟨.optionalType, none, mark "?"⟩]]

def tupleType : Rule := node .tupleType (bracketed "[" "]" g.tupleMember)

def memberModifier (modifier : Rule) : Rule :=
  followedBy modifier fun text => startsPropertyName text || startsWithAny "*" text

/-- What may stand in front of a member's name. -/
def memberModifiers : Rule :=
  many <| memberModifier <| choice [
    accessibility, wordNode .overrideModifier "override",
    word "static", word "readonly", word "abstract", word "declare", word "accessor",
    word "async", word "get", word "set"]

def mappedClause : Rule :=
  node .mappedTypeClause <| seq [
    role .name (name .typeIdentifier), word "in", role .type (g.type .inner),
    maybe (seq [word "as", role .newName (g.type .inner)])]

def indexAscription (site : Site) : Rule :=
  role .type <| choice [
    node .omittingTypeAscription (seq [glyph "-?:", g.type site]),
    node .addingTypeAscription (seq [glyph "+?:", g.type site]),
    node .optingTypeAscription (seq [glyph "?:", g.type site]),
    g.typeAscription site]

def indexSignature (site : Site) : Rule :=
  node .indexSignature <| seq [
    maybe (word "static"), maybe (seq [maybe (choice [mark "-", mark "+"]), word "readonly"]),
    mark "[",
    choice [g.mappedClause, seq [anyName .identifier, mark ":", g.type .inner]],
    mark "]", g.indexAscription site]

def propertySignature (site : Site) : Rule :=
  node .propertySignature <| seq [
    memberModifiers, role .name g.propertyName, maybe (glyph "?"),
    maybe (role .type (g.typeAscription site))]

def methodSignature (site : Site) : Rule :=
  node .methodSignature <| seq [
    memberModifiers, maybe (mark "*"), role .name g.propertyName, maybe (glyph "?"),
    g.callSignature site]

def constructSignature (site : Site) : Rule :=
  node .constructSignature <| seq [
    maybe (followedBy (word "abstract") fun text => wordAt text = "new".toList), word "new",
    maybe (role .typeParameters g.typeParameters),
    role .parameters g.formalParameters,
    maybe (role .type (g.typeAscription site))]

def typeMember : Rule :=
  let site := Site.statement
  choice [
    g.indexSignature site,
    node .callSignature (g.callSignature site),
    g.constructSignature site,
    g.methodSignature site,
    g.propertySignature site]

/-- The members of an object type or an interface, in braces. -/
def typeMembers : Rule :=
  seq [
    mark "\x7b",
    many (choice [mark ";", mark ","]),
    many (seq [g.typeMember, choice [mark ";", mark ",", lineEnd false]]),
    glyph "\x7d"]

def objectType : Rule := node .objectType g.typeMembers

/-- A type of one literal. -/
def literalType : Rule :=
  node .literalType <| choice [
    stringLiteral, number,
    node .unary (seq [role .operator (choice [mark "-", mark "+"]), role .argument number]),
    wordNode .trueLiteral "true", wordNode .falseLiteral "false", wordNode .nullLiteral "null",
    wordNode .undefinedLiteral "undefined"]

def importedModule : Rule :=
  node .call <| seq [
    wordNode .importCall "import",
    node .arguments (seq [
      mark "(", stringLiteral, maybe (seq [mark ",", g.expression .inner]), maybe (mark ","),
      mark ")"])]

/-- A name, or a name in a module or namespace, with its type arguments. -/
def namedType : Rule := fun cursor =>
  let plain := choice [
    chain g.importedModule [⟨.nestedTypeIdentifier, none, seq [mark ".", anyName .typeIdentifier]⟩],
    node .nestedTypeIdentifier (seq [
      chain (name .identifier)
        [⟨.nestedIdentifier, none,
          followedBy (seq [mark ".", anyName .propertyIdentifier]) (startsWithAny ".")⟩],
      mark ".", role .name (anyName .typeIdentifier)]),
    name .typeIdentifier]
  chain plain [⟨.genericType, some .name, role .typeArguments g.typeArguments⟩] cursor

/-- The value that a type is asked of. -/
def queriedValue (site : Site) : Rule :=
  let index := choice [predefinedType, stringLiteral, number]
  chain
    (choice [g.importedModule, wordNode .thisValue "this", name .identifier])
    [⟨.memberAccess, some .object,
        seq [choice [mark ".", mark "?."], role .property (choice [
          leaf .privatePropertyIdentifier privateNameLength, anyName .propertyIdentifier])]⟩,
      ⟨.subscript, some .object,
        onLine false site.endsAtLine (seq [mark "[", role .index index, mark "]"])⟩,
      ⟨.instantiation, none, role .typeArguments g.typeArguments⟩]

def primaryType (site : Site) : Rule := choice [
  predefinedType,
  literalType,
  wordNode .thisType "this",
  node .typeQuery (seq [word "typeof", g.queriedValue site]),
  g.objectType,
  g.tupleType,
  template .templateLiteralType (g.type .inner),
  g.functionType site,
  node .parenthesizedType (seq [mark "(", g.type .inner, mark ")"]),
  g.constructorType site,
  g.namedType,
  leaf .existentialType fun text => if text.head? = some '*' then some 1 else none]

/-- A type with the operators in front of it and the brackets behind it. -/
def operandTypeRule (site : Site) : Rule :=
  choice [
    node .indexTypeQuery (seq [
      followedBy (word "keyof") startsType, g.rule (.operandType site)]),
    node .readonlyType (seq [
      followedBy (word "readonly") startsType, g.rule (.operandType site)]),
    node .inferType (seq [
      followedBy (word "infer") startsName, name .typeIdentifier,
      maybe (seq [word "extends", g.rule (.operandType site)])]),
    chain (g.primaryType site)
      [⟨.arrayType, none, onLine false site.endsAtLine (seq [mark "[", mark "]"])⟩,
        ⟨.lookupType, none,
          onLine false site.endsAtLine (seq [mark "[", g.type .inner, mark "]"])⟩]]
where
  startsType (text : List Char) : Bool :=
    startsName text || startsWithAny "([\x7b<'\"`-0123456789" text

/-- Types joined by a mark, which may also stand in front of the first. -/
def joinedType (kind : Kind) (joint : String) (operand : Rule) : Rule :=
  choice [
    node kind (seq [mark joint, separated operand (mark joint)]),
    joined kind operand (mark joint)]

def unionType (site : Site) : Rule :=
  joinedType .unionType "|" (joinedType .intersectionType "&" (g.rule (.operandType site)))

def typeRule (site : Site) : Rule :=
  chain (g.unionType site)
    [⟨.conditionalType, none, seq [
      onLine false site.endsAtLine (word "extends"), g.unionType .inner,
      mark "?", g.type .inner, mark ":", g.type site]⟩]

end ApiSections.Syntax.Grammar
