import ApiSections.Syntax.Grammar.Pattern
import ApiSections.Syntax.Grammar.Statement

/-!
The syntax tree of a whole source. Sources are taken to be free of syntax errors: a tree has what stands
in front of the first error, and does not go on behind it.
-/

namespace ApiSections.Syntax

namespace Grammar

/-- The rule of a goal, given the grammar for what is nested in it. -/
def production (g : Grammar) : Goal → Rule
  | .statement => g.statementRule
  | .expression site => g.expressionRule site
  | .operand site => g.operandRule site
  | .type site => g.typeRule site
  | .operandType site => g.operandTypeRule site
  | .pattern => g.patternRule
  | .element => g.elementRule

/-- The grammar of a dialect for sources in which goals are nested at most `depth` deep. -/
def ofDialect (dialect : Dialect) : Nat → Grammar
  | 0 => ⟨dialect, fun _ _ => none⟩
  | depth + 1 => ⟨dialect, fun goal cursor => production (ofDialect dialect depth) goal cursor⟩

end Grammar

/-- The line that names an interpreter. -/
def hashBangLength : List Char → Option Nat
  | '#' :: '!' :: rest => some (2 + (rest.takeWhile (· != '\n')).length)
  | _ => none

/-- A source as a tree. Each nested goal takes at least one character after a bounded number of
goals, so the length bounds the depth. -/
def parse (dialect : Dialect) (source : List Char) : Node :=
  let grammar := Grammar.ofDialect dialect (8 * source.length + 64)
  let rule := Rule.seq [
    Rule.maybe (Rule.leaf .hashBang hashBangLength), Rule.many (grammar.rule .statement)]
  match rule (.start source) with
  | none => .mk .program none ⟨0, source.length, 0⟩ (String.ofList source) []
  | some (nodes, next) =>
    let (comments, _) := gap next
    .mk .program none ⟨0, source.length, 0⟩ (String.ofList source) (nodes ++ comments)

/-- The first statement of a source. -/
def firstStatement? (dialect : Dialect) (source : List Char) : Option Node :=
  (parse dialect source).operands.head?

/-- An expression on its own, in parentheses. -/
def parseExpression? (dialect : Dialect) (text : String) : Option Node :=
  (firstStatement? dialect ("(" ++ text ++ ");").toList).bind (·.operands.head?)

/-- A type on its own. -/
def parseType? (dialect : Dialect) (text : String) : Option Node :=
  (firstStatement? dialect ("type T = " ++ text ++ ";").toList).bind (·.get? .value)

end ApiSections.Syntax
