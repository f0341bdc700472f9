import ApiSections.Syntax.Grammar.Type

/-!
Classes and their members. Decorators of a method stand beside it, those of a field inside it.
-/

namespace ApiSections.Syntax.Grammar

open Rule

variable (g : Grammar)

def hasBody (nodes : List Node) : Bool := nodes.any (·.field == some .body)

/-- The kind of a method: with a body it is defined, without one it is declared. -/
def methodKind (nodes : List Node) : Kind :=
  if hasBody nodes then .methodDefinition
  else if nodes.any (·.isToken "abstract") then .abstractMethodSignature
  else .methodSignature

/-- A method, with or without a body. -/
def method : Rule :=
  nodeBy methodKind <| seq [
    memberModifiers, maybe (mark "*"), role .name g.propertyName, maybe (glyph "?"),
    g.callSignature .statement, maybe (role .body g.block)]

def field : Rule :=
  node .fieldDefinition <| seq [
    many g.decoratorRule, memberModifiers, role .name g.propertyName,
    maybe (choice [glyph "?", mark "!"]), maybe (role .type (g.typeAscription .statement)),
    maybe (g.initializer .statement)]

def memberEnd : Rule := choice [mark ";", mark ",", lineEnd false]

/-- What follows a method: nothing after a body. -/
def methodEnd : Rule := maybe (choice [mark ";", mark ","])

def classMember : Rule := choice [
  mark ";",
  node .staticBlock (seq [word "static", role .body g.block]),
  seq [g.indexSignature .statement, memberEnd],
  seq [many g.decoratorRule, g.method, methodEnd],
  seq [g.field, memberEnd]]

def classBody : Rule :=
  node .classBody (seq [mark "\x7b", many g.classMember, glyph "\x7d"])

def extendsClause : Rule :=
  node .extendsClause <| seq [
    word "extends",
    separated
      (seq [role .value (g.rule (.operand .inner)),
        maybe (role .typeArguments g.typeArguments)])
      (mark ",")]

def implementsClause : Rule :=
  node .implementsClause (seq [word "implements", separated (g.type .inner) (mark ",")])

def classHeritage : Rule :=
  node .classHeritage <| choice [
    seq [g.extendsClause, maybe g.implementsClause], g.implementsClause]

/-- What follows the name of a class. -/
def classRest : Rule :=
  seq [
    maybe (role .typeParameters g.typeParameters), maybe g.classHeritage, role .body g.classBody]

end ApiSections.Syntax.Grammar
