import ApiSections.Syntax.Grammar.Basic

/-!
Patterns: what a parameter or a variable binds.
-/

namespace ApiSections.Syntax.Grammar

open Rule

variable (g : Grammar)

/-- A pattern, possibly with a default value. -/
def patternWithDefault : Rule :=
  chain (g.rule .pattern)
    [⟨.assignmentPattern, some .left, seq [mark "=", role .right (g.expression .inner)]⟩]

def restPattern : Rule := node .restPattern (seq [mark "...", g.rule .pattern])

def patternEntry : Rule := choice [
  g.restPattern,
  node .pairPattern (seq [
    role .key g.propertyName, mark ":", role .value g.patternWithDefault]),
  chain (name .shorthandPattern)
    [⟨.objectAssignmentPattern, some .left, seq [mark "=", role .right (g.expression .inner)]⟩]]

def patternRule : Rule := choice [
  g.restPattern,
  node .objectPattern (bracketed "\x7b" "\x7d" g.patternEntry),
  node .arrayPattern (bracketed "[" "]" g.patternWithDefault),
  name .identifier,
  wordNode .undefinedLiteral "undefined"]

end ApiSections.Syntax.Grammar
