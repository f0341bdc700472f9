import ApiSections.Syntax.Grammar.Expression

/-!
Statements and declarations. A statement takes its semicolon, or the end of its line with the
comments on that line.
-/

namespace ApiSections.Syntax.Grammar

open Rule

variable (g : Grammar)

def statementEnd : Rule := semicolon false

/-- A declaration with a body ends with its line if nothing on the next one goes on with it. -/
def bodyEnd : Rule := maybe (lineEnd false)

def functionDeclarationKind (nodes : List Node) : Kind :=
  if !hasBody nodes then .functionSignature
  else if nodes.any (·.isToken "*") then .generatorDeclaration
  else .functionDeclaration

def functionDeclaration : Rule :=
  nodeBy functionDeclarationKind <| seq [
    maybe (word "async"), word "function", maybe (mark "*"),
    role .name (name .identifier), g.callSignature .statement,
    choice [seq [role .body g.block, bodyEnd], statementEnd]]

def className : Rule := role .name (name .typeIdentifier)

def classDeclaration : Rule :=
  node .classDeclaration <| seq [
    many g.decoratorRule, word "class", className, g.classRest, bodyEnd]

def abstractClassDeclaration : Rule :=
  node .abstractClassDeclaration <| seq [
    many g.decoratorRule, word "abstract", word "class", className, g.classRest]

def interfaceDeclaration : Rule :=
  node .interfaceDeclaration <| seq [
    word "interface", className, maybe (role .typeParameters g.typeParameters),
    maybe (node .extendsTypeClause (seq [
      word "extends", separated (g.type .inner) (mark ",")])),
    role .body (node .interfaceBody g.typeMembers)]

def typeAliasDeclaration : Rule :=
  node .typeAliasDeclaration <| seq [
    word "type", className, maybe (role .typeParameters g.typeParameters), mark "=",
    role .value (g.type .statement), statementEnd]

def enumEntry : Rule :=
  chain (role .name g.propertyName) [⟨.enumAssignment, some .name, g.initializer .inner⟩]

def enumDeclaration : Rule :=
  node .enumDeclaration <| seq [
    maybe (word "const"), word "enum", role .name (name .identifier),
    role .body (node .enumBody (bracketed "\x7b" "\x7d" g.enumEntry))]

def declarator (site : Site) : Rule :=
  node .variableDeclarator <| seq [
    role .name (g.rule .pattern), maybe (mark "!"), maybe (role .type (g.typeAscription site)),
    maybe (g.initializer site)]

def lexicalKeyword : Rule := role .kind (choice [word "const", word "let"])

/-- Variables up to the end of their list. -/
def variableList (site : Site) (ending : Rule) : Rule := choice [
  node .lexicalDeclaration (seq [
    lexicalKeyword, separated (g.declarator site) (mark ","), ending]),
  node .variableDeclaration (seq [
    word "var", separated (g.declarator site) (mark ","), ending])]

def namespaceName : Rule := choice [
  stringLiteral,
  chain (name .identifier)
    [⟨.nestedIdentifier, none, seq [mark ".", anyName .propertyIdentifier]⟩]]

def namespaceDeclaration : Rule := choice [
  node .namespaceDeclaration (seq [
    word "namespace", role .name namespaceName, role .body g.block, bodyEnd]),
  node .moduleDeclaration (seq [
    word "module", role .name namespaceName,
    choice [seq [role .body g.block, bodyEnd], statementEnd]])]

def importAlias : Rule :=
  node .importAlias <| seq [
    word "import", maybe (followedBy (word "type") startsName), name .identifier, mark "=",
    namespaceName, statementEnd]

/-- The declarations that a statement can be, apart from ambient ones. -/
def plainDeclaration : Rule := choice [
  g.functionDeclaration,
  g.classDeclaration,
  g.abstractClassDeclaration,
  g.interfaceDeclaration,
  g.typeAliasDeclaration,
  g.enumDeclaration,
  g.variableList .statement statementEnd,
  g.namespaceDeclaration,
  importAlias]

def ambientDeclaration : Rule :=
  node .ambientDeclaration <| seq [
    word "declare",
    choice [
      g.plainDeclaration,
      seq [word "global", g.block, bodyEnd]]]

def declarationRule : Rule := choice [g.ambientDeclaration, g.plainDeclaration]

/-! Imports and exports. -/

def specifierName : Rule := choice [anyName .identifier, stringLiteral]

/-- One entry of an import or export list. -/
def specifier (kind : Kind) : Rule :=
  let plain := role .name specifierName
  let renamed := seq [plain, word "as", role .newName specifierName]
  let marked := choice [word "type", word "typeof"]
  choice [
    node kind renamed, node kind (seq [marked, renamed]), node kind (seq [marked, plain]),
    node kind plain]

def specifierList (kind entry : Kind) : Rule :=
  node kind (bracketed "\x7b" "\x7d" (specifier entry))

def sourceClause : Rule := seq [word "from", role .source stringLiteral]

/-- What is said about how a module is loaded. -/
def importAttribute : Rule :=
  node .importAttribute (seq [choice [word "with", word "assert"], g.object])

def namespaceImport : Rule :=
  node .namespaceImport (seq [mark "*", word "as", name .identifier])

def importClause : Rule :=
  let list := choice [namespaceImport, specifierList .namedImports .importSpecifier]
  node .importClause <| choice [
    list, seq [name .identifier, maybe (seq [mark ",", list])]]

def requireClause : Rule :=
  node .importRequireClause <| seq [
    name .identifier, mark "=", word "require", mark "(", role .source stringLiteral, mark ")"]

def importStatement : Rule :=
  let clause := choice [seq [importClause, sourceClause], requireClause, role .source stringLiteral]
  node .importStatement <| seq [
    word "import",
    choice [clause, seq [choice [word "type", word "typeof"], clause]],
    maybe g.importAttribute, statementEnd]

def exportList : Rule := specifierList .exportClause .exportSpecifier

def exportedNames : Rule := choice [
  seq [mark "*", sourceClause],
  seq [node .namespaceExport (seq [mark "*", word "as", specifierName]), sourceClause],
  seq [exportList, sourceClause],
  exportList]

def defaultExport : Rule :=
  seq [
    word "default",
    choice [
      role .declaration (choice [
        g.functionDeclaration, g.classDeclaration, g.abstractClassDeclaration,
        g.interfaceDeclaration]),
      seq [role .value (g.expression .statement), statementEnd]]]

def exportStatement : Rule :=
  node .exportStatement <| seq [
    many g.decoratorRule, word "export",
    choice [
      seq [exportedNames, maybe g.importAttribute, statementEnd],
      g.defaultExport,
      seq [mark "=", g.expression .statement, statementEnd],
      seq [word "as", word "namespace", name .identifier, statementEnd],
      seq [choice [word "type", word "typeof"], exportedNames, maybe g.importAttribute,
        statementEnd],
      role .declaration g.declarationRule]]

/-! Control. -/

def condition : Rule := g.parenthesized

def ifStatement : Rule :=
  node .ifStatement <| seq [
    word "if", g.condition, role .consequence (g.rule .statement),
    maybe (role .alternative (node .elseClause (seq [word "else", g.rule .statement])))]

def forHeader : Rule :=
  let site : Site := ⟨false, false, true⟩
  choice [
    seq [
      maybe (role .kind (choice [word "const", word "let", word "var"])),
      role .left (choice [
        followedBy (g.rule .pattern) startsSource, g.rule (.operand .inner)]),
      choice [word "in", word "of"], role .right (g.expressions .inner)],
    seq [
      choice [g.variableList site (mark ";"), seq [g.expressions site, mark ";"], mark ";"],
      maybe (g.expressions .inner), mark ";", maybe (g.expressions .inner)]]
where
  startsSource (text : List Char) : Bool :=
    wordAt text = "in".toList || wordAt text = "of".toList

def forKind (nodes : List Node) : Kind :=
  if nodes.any fun node => node.isToken "in" || node.isToken "of" then .forInStatement
  else .forStatement

def forStatement : Rule :=
  nodeBy forKind <| seq [
    word "for", maybe (word "await"), mark "(", g.forHeader, mark ")",
    role .body (g.rule .statement)]

def switchEntry : Rule := choice [
  node .switchCase (seq [
    word "case", role .value (g.expressions .inner), mark ":", many (g.rule .statement)]),
  node .switchDefault (seq [word "default", mark ":", many (g.rule .statement)])]

def tryStatement : Rule :=
  node .tryStatement <| seq [
    word "try", role .body g.block,
    maybe (node .catchClause (seq [
      word "catch",
      maybe (seq [mark "(", g.rule .pattern, maybe (g.typeAscription .inner), mark ")"]),
      role .body g.block, bodyEnd])),
    maybe (node .finallyClause (seq [word "finally", role .body g.block, bodyEnd]))]

/-- A statement of a keyword and an expression, which may be left out. -/
def keywordStatement (kind : Kind) (keyword : String) : Rule :=
  node kind <| seq [
    word keyword,
    choice [statementEnd, seq [g.expressions .statement, statementEnd]]]

def jumpStatement (kind : Kind) (keyword : String) : Rule :=
  node kind <| seq [
    word keyword,
    choice [statementEnd, seq [name .labelName, statementEnd]]]

def controlStatement : Rule := choice [
  g.ifStatement,
  g.forStatement,
  node .whileStatement (seq [word "while", g.condition, role .body (g.rule .statement)]),
  node .doStatement (seq [
    word "do", role .body (g.rule .statement), word "while", g.condition, maybe statementEnd]),
  node .switchStatement (seq [
    word "switch", g.condition,
    node .switchBody (seq [mark "\x7b", many g.switchEntry, glyph "\x7d"])]),
  g.tryStatement,
  node .withStatement (seq [word "with", g.condition, g.rule .statement]),
  g.keywordStatement .returnStatement "return",
  g.keywordStatement .throwStatement "throw",
  jumpStatement .breakStatement "break",
  jumpStatement .continueStatement "continue",
  node .debuggerStatement (seq [word "debugger", statementEnd])]

def expressionStatement : Rule :=
  node .expressionStatement (seq [g.expressions .statement, statementEnd])

def statementRule : Rule := choice [
  node .emptyStatement (mark ";"),
  node .block (seq [mark "\x7b", many (g.rule .statement), glyph "\x7d", bodyEnd]),
  g.exportStatement,
  g.importStatement,
  g.declarationRule,
  g.controlStatement,
  node .labeledStatement (seq [name .labelName, mark ":", g.rule .statement]),
  g.expressionStatement]

end ApiSections.Syntax.Grammar
