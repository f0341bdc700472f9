import ApiSections.Comment.Basic
import ApiSections.File.Path
import ApiSections.Syntax.Node

/-!
Declarations: what a source binds to a name, with the parts that documentation shows.
-/

namespace ApiSections

open Syntax (Node Span)

inductive Modifier where
  | isPublic
  | isPrivate
  | isProtected
  | override
  | static
  | readonly
  | abstract
  | async
  | getter
  | setter
  | ambient
  | accessor
  | generator
  deriving Repr, DecidableEq, Inhabited

namespace Modifier

/-- How a modifier is written. -/
def word : Modifier → String
  | isPublic => "public"
  | isPrivate => "private"
  | isProtected => "protected"
  | override => "override"
  | static => "static"
  | readonly => "readonly"
  | abstract => "abstract"
  | async => "async"
  | getter => "get"
  | setter => "set"
  | ambient => "declare"
  | accessor => "accessor"
  | generator => "*"

def all : List Modifier :=
  [isPublic, isPrivate, isProtected, override, static, readonly, abstract, async, getter, setter,
    ambient, accessor, generator]

def ofWord? (text : String) : Option Modifier := all.find? (·.word == text)

end Modifier

structure TypeParameter where
  name : String
  constraint : Option Node
  default : Option Node
  deriving DecidableEq, Inhabited

structure Parameter where
  name : String
  type : Option Node
  initializer : Option Node
  question : Bool
  rest : Bool
  deriving DecidableEq, Inhabited

/-- The call shape of a function. -/
structure Signature where
  typeParameters : List TypeParameter
  parameters : List Parameter
  returnType : Option Node
  body : Option Node
  deriving DecidableEq, Inhabited

/-- Where a declaration stands, which also tells it from every other one. -/
structure Place where
  path : Path
  start : Nat
  stop : Nat
  deriving Repr, DecidableEq, Inhabited

def Place.ofNode (path : Path) (node : Node) : Place := ⟨path, node.start, node.stop⟩

/-- What every declaration has. -/
structure Header where
  path : Path
  span : Span
  name : Option String
  doc : Option DocComment
  modifiers : List Modifier
  deriving DecidableEq, Inhabited

namespace Header

def place (header : Header) : Place := ⟨header.path, header.span.start, header.span.stop⟩

/-- The line of the first character, counted from one. -/
def line (header : Header) : Nat := header.span.row + 1

def has (header : Header) (modifier : Modifier) : Bool := header.modifiers.contains modifier

def isStatic (header : Header) : Bool := header.has .static

end Header

/-- A reading accessor, for the writing one of the same name. -/
structure Getter where
  header : Header
  signature : Signature
  deriving DecidableEq, Inhabited

/-- What a member of a class, an interface or an object is. -/
inductive MemberShape where
  /-- A method of a class or an object. -/
  | method (signature : Signature)
  /-- A method of an interface or an object type. -/
  | methodSignature (signature : Signature)
  | getter (signature : Signature)
  /-- A writing accessor with the reading one of its owner. -/
  | setter (signature : Signature) (getter : Option Getter)
  | constructor (signature : Signature)
  | constructSignature (signature : Signature)
  /-- A field of a class. -/
  | field (type initializer : Option Node) (optional : Bool)
  /-- A property of an interface or an object type. -/
  | property (type : Option Node) (optional : Bool)
  /-- An entry of an object, with whether the object is constant as a whole. -/
  | entry (initializer : Option Node) (isConst : Bool)
  deriving DecidableEq, Inhabited

structure Member where
  header : Header
  shape : MemberShape
  deriving DecidableEq, Inhabited

inductive VariableKeyword where
  | constKeyword
  | letKeyword
  | varKeyword
  deriving Repr, DecidableEq, Inhabited

def VariableKeyword.word : VariableKeyword → String
  | constKeyword => "const"
  | letKeyword => "let"
  | varKeyword => "var"

/-- The statement that a variable is declared in, which holds its doc comment. -/
structure VariableStatement where
  keyword : VariableKeyword
  line : Nat
  doc : Option DocComment
  deriving DecidableEq, Inhabited

inductive Shape where
  | function (signature : Signature)
  | classShape (typeParameters : List TypeParameter) (members : List Member)
  | interface (typeParameters : List TypeParameter) (members : List Member)
  | typeAlias (typeParameters : List TypeParameter) (type : Option Node)
  | enumeration
  | variable (statement : VariableStatement) (type initializer : Option Node)
  | member (shape : MemberShape)
  /-- An entry of an export list: the name inside, and the module it comes from, if another. -/
  | exportSpecifier (inside : String) (source : Option String)
  | importSpecifier (inside : String) (source : String)
  /-- A default export or an exported assignment of an expression. -/
  | exportAssignment (expression : Node)
  deriving DecidableEq, Inhabited

structure Declaration where
  header : Header
  shape : Shape
  deriving DecidableEq, Inhabited

def Member.toDeclaration (member : Member) : Declaration := ⟨member.header, .member member.shape⟩

def MemberShape.label : MemberShape → String
  | method _ => "MethodDeclaration"
  | methodSignature _ => "MethodSignature"
  | getter _ => "GetAccessor"
  | setter _ _ => "SetAccessor"
  | constructor _ => "Constructor"
  | constructSignature _ => "ConstructSignature"
  | field _ _ _ => "PropertyDeclaration"
  | property _ _ => "PropertySignature"
  | entry _ _ => "PropertyAssignment"

/-- The word for a kind of declaration in messages. -/
def Shape.label : Shape → String
  | .function _ => "FunctionDeclaration"
  | .classShape _ _ => "ClassDeclaration"
  | .interface _ _ => "InterfaceDeclaration"
  | .typeAlias _ _ => "TypeAliasDeclaration"
  | .enumeration => "EnumDeclaration"
  | .variable _ _ _ => "VariableDeclaration"
  | .member shape => shape.label
  | .exportSpecifier _ _ => "ExportSpecifier"
  | .importSpecifier _ _ => "ImportSpecifier"
  | .exportAssignment _ => "ExportAssignment"

def MemberShape.signature? : MemberShape → Option Signature
  | method signature | methodSignature signature | getter signature | setter signature _
  | constructor signature | constructSignature signature => some signature
  | field _ _ _ | property _ _ | entry _ _ => none

def Shape.signature? : Shape → Option Signature
  | function signature => some signature
  | member shape => shape.signature?
  | _ => none

/-- The type and the value that a member is written with. -/
def MemberShape.nodes : MemberShape → List Node
  | field type initializer _ => type.toList ++ initializer.toList
  | property type _ => type.toList
  | entry initializer _ => initializer.toList
  | method _ | methodSignature _ | getter _ | setter _ _ | constructor _ | constructSignature _ => []

/-- The types and values that a declaration is written with. -/
def Shape.nodes : Shape → List Node
  | .classShape _ members | .interface _ members => members.flatMap (·.shape.nodes)
  | .typeAlias _ type => type.toList
  | .variable _ type initializer => type.toList ++ initializer.toList
  | .member shape => shape.nodes
  | .exportAssignment expression => [expression]
  | .function _ | .enumeration | .exportSpecifier _ _ | .importSpecifier _ _ => []

def MemberShape.isConstructor : MemberShape → Bool
  | constructor _ => true
  | _ => false

/-- Whether a declaration stands for a value. -/
def Shape.bearsValue : Shape → Bool
  | .function _ | .classShape _ _ | .enumeration | .variable _ _ _ | .exportAssignment _ => true
  | .member (.constructor _) | .member (.constructSignature _) => false
  | .member _ => true
  | .interface _ _ | .typeAlias _ _ | .exportSpecifier _ _ | .importSpecifier _ _ => false

namespace Declaration

def name (declaration : Declaration) : Option String := declaration.header.name

def path (declaration : Declaration) : Path := declaration.header.path

def place (declaration : Declaration) : Place := declaration.header.place

def line (declaration : Declaration) : Nat := declaration.header.line

def label (declaration : Declaration) : String := declaration.shape.label

/-- The doc comment of a declaration; that of a variable is its statement's. -/
def doc? (declaration : Declaration) : Option DocComment :=
  match declaration.shape with
  | .variable statement _ _ => statement.doc
  | _ => declaration.header.doc

end Declaration

end ApiSections
