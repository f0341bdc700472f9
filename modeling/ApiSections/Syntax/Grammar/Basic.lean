import ApiSections.Syntax.Dialect
import ApiSections.Syntax.Rule

/-!
Grammars with open recursion: a production takes the grammar that it belongs to and asks it for the
rules of nested goals. Names, literals and lists are common to all productions.
-/

namespace ApiSections.Syntax

/-- What surrounds an expression or a type: whether a statement may end after it, whether `in` is an
operator there, and whether an arrow function may have a return type. -/
structure Site where
  endsAtLine : Bool
  allowsIn : Bool
  allowsReturnType : Bool
  deriving Repr, DecidableEq, Inhabited

namespace Site

/-- Inside brackets. -/
def inner : Site := ⟨false, true, true⟩

/-- Directly inside a statement. -/
def statement : Site := ⟨true, true, true⟩

end Site

inductive Goal where
  | statement
  | expression (site : Site)
  | operand (site : Site)
  | type (site : Site)
  | operandType (site : Site)
  | pattern
  | element
  deriving Repr, DecidableEq

structure Grammar where
  dialect : Dialect
  rule : Goal → Rule

namespace Grammar

open Rule

def isReserved (name : List Char) : Bool := reservedWords.contains (String.ofList name)

def plainNameLength (text : List Char) : Option Nat :=
  if isReserved (wordAt text) then none else nameLength text

/-- A name that is no reserved word. -/
def name (kind : Kind) : Rule := leaf kind plainNameLength

/-- Any word, reserved or not. -/
def anyName (kind : Kind) : Rule := leaf kind nameLength

def stringLiteral : Rule := leaf .stringLiteral stringLength

def number : Rule := leaf .number numberLength

/-- A word that is a node of its own. -/
def wordNode (kind : Kind) (expected : String) : Rule :=
  leaf kind fun text => if wordAt text = expected.toList then some expected.length else none

def startsName (text : List Char) : Bool := (nameLength text).isSome

/-- The next character is one of those given. -/
def startsWithAny (characters : String) (text : List Char) : Bool :=
  match text with
  | c :: _ => characters.toList.contains c
  | [] => false

def startsPropertyName (text : List Char) : Bool :=
  startsName text || startsWithAny "'\"[#0123456789" text || (numberLength text).isSome

/-- A list in brackets; items may be left out, and a last separator may stay. -/
def bracketed (opening closing : String) (item : Rule) : Rule :=
  seq [mark opening, maybe item, many (seq [mark ",", maybe item]), glyph closing]

def templateChars : Rule := adjacent .token fun text =>
  match templateCharsLength text with
  | 0 => none
  | count => some count

/-- A template with the given rule for what stands inside a substitution. -/
def template (kind : Kind) (inside : Rule) : Rule :=
  node kind <| seq [
    glyph "`",
    many <| choice [
      templateChars,
      node .templateSubstitution <| seq [
        adjacent .token (fun text => if "$\x7b".toList.isPrefixOf text then some 2 else none),
        inside, glyph "\x7d"]],
    adjacent .token (fun text => if text.head? = some '`' then some 1 else none)]

variable (g : Grammar)

def expression (site : Site) : Rule := g.rule (.expression site)

/-- One or more expressions with commas between them. -/
def expressions (site : Site) : Rule := joined .sequence (g.expression site) (mark ",")

def type (site : Site) : Rule := g.rule (.type site)

def propertyName : Rule :=
  choice [
    leaf .privatePropertyIdentifier privateNameLength,
    anyName .propertyIdentifier,
    stringLiteral,
    number,
    node .computedName <| seq [mark "[", g.expression .inner, mark "]"]]

def typeAscription (site : Site) : Rule := node .typeAscription <| seq [mark ":", g.type site]

def block : Rule :=
  node .block <| seq [mark "\x7b", many (g.rule .statement), glyph "\x7d"]

def spread : Rule := node .spread (seq [mark "...", g.expression .inner])

def arguments : Rule :=
  node .arguments (bracketed "(" ")" (choice [g.spread, g.expression .inner]))

def parenthesized : Rule :=
  node .parenthesized (seq [mark "(", g.expressions .inner, mark ")"])

/-- A decorator: a name or a member, with or without arguments. -/
def decoratorRule : Rule :=
  node .decorator <| seq [
    mark "@",
    chain (choice [name .identifier, g.parenthesized])
      [⟨.memberAccess, some .object, seq [mark ".", role .property (anyName .propertyIdentifier)]⟩,
        ⟨.call, none, g.arguments⟩]]

def initializer (site : Site) : Rule := seq [mark "=", role .value (g.expression site)]

end Grammar

end ApiSections.Syntax
