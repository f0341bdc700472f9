import ApiSections.Declaration.Basic
import ApiSections.Text.Blank
import ApiSections.TypeText.Literal

/-!
Types as they are written, on one line. White space stays only where there was some, object types
become `{ a: T; b?: U; }` and commas at the end of a list disappear.
-/

namespace ApiSections.TypeText

open Syntax (Node Kind)

/-- A piece of a type with its place in the source. -/
structure Token where
  start : Nat
  stop : Nat
  text : String
  deriving Repr, DecidableEq

def closers : List String := [")", "]", ">", "\x7d"]

/-- A comma that nothing but a closing bracket follows. -/
def isTrailingComma (token : Token) (following : Option Token) : Bool :=
  token.text == "," && match following with
    | none => true
    | some next => closers.contains next.text

/-- A bar or an ampersand in front of the first of its types. -/
def isLeadingJoint (previous : Option Token) (token : Token) : Bool :=
  (token.text == "|" || token.text == "&") && match previous with
    | none => true
    | some before => ["(", "<", "[", ":", "=", ","].contains before.text

/-- Whether a space stands between two pieces that are kept. -/
def isSpaced (before token : Token) : Bool :=
  if before.text == "," then !closers.contains token.text
  else if ["(", "[", "<"].contains before.text || [")", "]", ">", ",", ";"].contains token.text then
    false
  else before.stop < token.start

/-- The pieces that are kept, with single spaces; `previous` is the last one kept so far. -/
def joinAfter : Option Token → List Token → String
  | _, [] => ""
  | previous, token :: rest =>
    if isTrailingComma token rest.head? || isLeadingJoint previous token then
      joinAfter previous rest
    else
      let space := match previous with
        | some before => if isSpaced before token then " " else ""
        | none => ""
      space ++ token.text ++ joinAfter (some token) rest

def join (tokens : List Token) : String := joinAfter none tokens

def isObjectType (kind : Kind) : Bool := kind == .objectType || kind == .interfaceBody

/-- Literals are pieces as a whole. -/
def isAtomic (kind : Kind) : Bool :=
  [.stringLiteral, .templateString, .templateLiteralType, .number, .regex].contains kind

def isEnding (c : Char) : Bool := c == ';' || c == ','

/-- A member without the mark that ends it. -/
def withoutEnding (text : String) : String :=
  String.ofList (Text.trimRight (Text.dropTail isEnding text.toList))

def objectText (members : List String) : String :=
  if members.isEmpty then "\x7b\x7d"
  else "\x7b " ++ String.intercalate "; " members ++ "; \x7d"

mutual

/-- The pieces of a type; `inLiteral` says that it stands in a literal type. -/
def tokens (inLiteral : Bool) : Node → List Token
  | .mk kind _ span text children =>
    if kind == .comment then []
    else if isObjectType kind then [⟨span.start, span.stop, objectText (memberTexts children)⟩]
    else if kind == .stringLiteral && inLiteral then
      [⟨span.start, span.stop, String.ofList (stringLiteral text.toList)⟩]
    else if children.isEmpty || isAtomic kind then
      if text.isEmpty then [] else [⟨span.start, span.stop, text⟩]
    else tokensOfAll (kind == .literalType) children

def tokensOfAll (inLiteral : Bool) : List Node → List Token
  | [] => []
  | node :: rest => tokens inLiteral node ++ tokensOfAll inLiteral rest

/-- The members of an object type; empty ones are left out. -/
def memberTexts : List Node → List String
  | [] => []
  | node :: rest =>
    let text := withoutEnding (join (tokens false node))
    if node.isNamed && !node.isComment && !text.isEmpty then text :: memberTexts rest
    else memberTexts rest

end

/-- A type on one line. -/
def print (type : Node) : String := join (tokens false type)

def typeParameter (parameter : TypeParameter) : String :=
  parameter.name ++
    (match parameter.constraint with
      | some constraint => " extends " ++ print constraint
      | none => "") ++
    match parameter.default with
      | some type => " = " ++ print type
      | none => ""

def typeParameters (parameters : List TypeParameter) : String :=
  if parameters.isEmpty then ""
  else "<" ++ String.intercalate ", " (parameters.map typeParameter) ++ ">"

end ApiSections.TypeText
