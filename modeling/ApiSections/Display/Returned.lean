import ApiSections.Syntax.Node

namespace ApiSections.Display

open Syntax (Node Kind)

/-- Nodes whose statements are not those of the function around them. -/
def isFunctionLike (kind : Kind) : Bool :=
  [.arrowFunction, .functionExpression, .generatorFunction, .functionDeclaration,
    .generatorDeclaration, .methodDefinition, .classExpression, .classDeclaration,
    .abstractClassDeclaration].contains kind

mutual

/-- The return statements below a node, in order, without those of functions and classes inside. -/
def returnStatements : Node → List Node
  | .mk _ _ _ _ children => returnStatementsIn children

def returnStatementsIn : List Node → List Node
  | [] => []
  | node :: rest =>
    if isFunctionLike node.kind then returnStatementsIn rest
    else if node.kind == .returnStatement then node :: returnStatementsIn rest
    else returnStatements node ++ returnStatementsIn rest

end

/-- The expressions that a body returns, in order; a bare return has none. -/
def returnedExpressions (body : Node) : List Node :=
  (returnStatements body).filterMap (·.operands.head?)

end ApiSections.Display
