import ApiSections.Syntax.Grammar.Type

/-!
Markup elements inside expressions.
-/

namespace ApiSections.Syntax.Grammar

open Rule

variable (g : Grammar)

/-- A name of an element or an attribute, which may hold dashes. -/
def elementNameLength (text : List Char) : Option Nat :=
  match text with
  | c :: rest =>
    if isNameStart c then some (1 + (rest.takeWhile fun c => isNamePart c || c == '-').length)
    else none
  | [] => none

def elementName : Rule :=
  chain (leaf .identifier elementNameLength)
    [⟨.memberAccess, some .object,
        seq [mark ".", role .property (leaf .propertyIdentifier elementNameLength)]⟩,
      ⟨.nestedIdentifier, none, seq [mark ":", leaf .identifier elementNameLength]⟩]

/-- Attribute texts have no escapes. -/
def attributeTextLength : List Char → Option Nat
  | '"' :: rest => closed '"' rest
  | '\'' :: rest => closed '\'' rest
  | _ => none
where
  closed (quote : Char) (rest : List Char) : Option Nat :=
    let body := rest.takeWhile (· != quote)
    if body.length < rest.length then some (body.length + 2) else none

def elementExpression : Rule :=
  node .elementExpression <| seq [
    mark "\x7b",
    maybe (choice [
      node .spread (seq [mark "...", g.expression .inner]), g.expressions .inner]),
    glyph "\x7d"]

def elementAttribute : Rule := choice [
  g.elementExpression,
  node .elementAttribute (seq [
    elementName,
    maybe (seq [mark "=", choice [
      leaf .stringLiteral attributeTextLength, g.elementExpression, g.rule .element]])])]

def elementText : Rule := adjacent .elementText fun text =>
  match (text.takeWhile fun c => c != '<' && c != '{').length with
  | 0 => none
  | count => some count

def elementChild : Rule := choice [elementText, g.elementExpression, g.rule .element]

def elementClosing : Rule :=
  node .elementClosing (seq [glyph "<", glyph "/", maybe elementName, glyph ">"])

/-- The name of an element, with type arguments, and its attributes. -/
def elementHead : Rule := seq [
  elementName, maybe (role .typeArguments g.typeArguments), many g.elementAttribute]

def elementRule : Rule := choice [
  node .element (seq [
    node .elementOpening (seq [glyph "<", maybe g.elementHead, glyph ">"]),
    many g.elementChild, elementClosing]),
  node .emptyElement (seq [glyph "<", g.elementHead, glyph "/", glyph ">"])]

end ApiSections.Syntax.Grammar
