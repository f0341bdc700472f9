import ApiSections.Declaration.Member
import ApiSections.Module.Basic
import ApiSections.Syntax.Source
import ApiSections.Text.Utf8

/-!
Binding: the tables of a module from the statements of its source, in source order.
-/

namespace ApiSections.Module

open Syntax (Node Kind withPreceding)
open Declaration

/-- The tables while statements are bound. -/
structure Tables where
  path : Path
  locals : List Symbol
  exports : List Export
  isModule : Bool

namespace Tables

def start (path : Path) : Tables := ⟨path, [], [], false⟩

/-- Adds a declaration to a symbol of the module, which is made if there is none. -/
def declare (tables : Tables) (name : String) (declaration : Declaration) (flags : SymbolFlags) :
    Tables :=
  if tables.locals.any (·.name == name) then
    { tables with
      locals := tables.locals.map fun symbol =>
        if symbol.name == name then symbol.add declaration flags else symbol }
  else
    { tables with
      locals := tables.locals ++ [⟨.inModule tables.path name, name, flags, [declaration]⟩] }

/-- Adds a declaration to an exported symbol; a shared one is the module's own. -/
def declareExport (tables : Tables) (name : String) (declaration : Declaration)
    (flags : SymbolFlags) : Tables :=
  match tables.exports.find? (·.name == name) with
  | none =>
    { tables with
      exports := tables.exports ++
        [.own ⟨.exported tables.path name, name, flags, [declaration]⟩] }
  | some (.shared _) => tables.declare name declaration flags
  | some (.own symbol) =>
    let extended := symbol.add declaration flags
    { tables with
      exports := tables.exports.map fun entry =>
        if entry.name == name then .own extended else entry }

/-- Exports the module's own symbol of a name, unless the name is taken. -/
def share (tables : Tables) (name : String) : Tables :=
  if tables.exports.any (·.name == name) then tables
  else { tables with exports := tables.exports ++ [.shared name] }

/-- Records a declaration under its name, and under the name that it is exported by. -/
def publish (tables : Tables) (localName exportName : Option String) (declaration : Declaration)
    (flags : SymbolFlags) : Tables :=
  let tables := match localName with
    | some name => tables.declare name declaration flags
    | none => tables
  match exportName with
  | none => tables
  | some name =>
    if localName == some name then tables.share name
    else tables.declareExport name declaration flags

end Tables

/-- How a declaration is exported. -/
inductive Exposure where
  | hidden
  | byName
  | byDefault (name : String)

def Exposure.nameFor (exposure : Exposure) (name : Option String) : Option String :=
  match exposure with
  | hidden => none
  | byName => name
  | byDefault name => some name

/-- Everything but a destructuring pattern binds a name that can be documented. -/
def variableName? (declarator : Node) : Option String :=
  match declarator.get? .name with
  | some name => if name.kind == .identifier then some name.text else none
  | none => none

def keywordOf (node : Node) : VariableKeyword :=
  match Node.textOf (node.get? .kind) with
  | "const" => .constKeyword
  | "let" => .letKeyword
  | _ => .varKeyword

def bindVariables (tables : Tables) (node : Node) (doc : Option DocComment) (exposure : Exposure) :
    Tables :=
  let statement : VariableStatement := ⟨keywordOf node, node.line, doc⟩
  (node.namedChildren.filter (·.kind == .variableDeclarator)).foldl (fun tables declarator =>
    match variableName? declarator with
    | none => tables
    | some name =>
      let declaration : Declaration :=
        ⟨⟨tables.path, declarator.span, some name, none, []⟩,
          .variable statement (annotatedType? (declarator.get? .type)) (declarator.get? .value)⟩
      let exportName := match exposure with
        | .hidden => none
        | _ => some name
      tables.publish (some name) exportName declaration .ofValue) tables

def classModifiers (node : Node) : List Modifier :=
  let modifiers := modifiersOf node
  if node.kind == .abstractClassDeclaration && !modifiers.contains .abstract then
    modifiers ++ [.abstract]
  else modifiers

/-- The shape, modifiers and flags of a declaration that binds one name. -/
def shapeOf? (path : Path) (node : Node) : Option (Shape × List Modifier × SymbolFlags) :=
  let typeParameters := typeParametersOf (node.get? .typeParameters)
  match node.kind with
  | .functionDeclaration | .generatorDeclaration | .functionSignature | .functionExpression
  | .generatorFunction => some (.function (signatureOf node), modifiersOf node, .ofValue)
  | .classDeclaration | .abstractClassDeclaration | .classExpression =>
    some (.classShape typeParameters (classMembers path (node.get? .body)), classModifiers node,
      .ofValueAndType)
  | .interfaceDeclaration =>
    some (.interface typeParameters (interfaceMembers path (node.get? .body)), [], .ofType)
  | .typeAliasDeclaration => some (.typeAlias typeParameters (node.get? .value), [], .ofType)
  | .enumDeclaration => some (.enumeration, [], .ofValueAndType)
  | _ => none

mutual

/-- What an ambient declaration declares; any other node declares itself. -/
def declaredNode? : Node → Option Node
  | .mk kind field span text children =>
    if kind == .ambientDeclaration then declaredFirst? children
    else some (.mk kind field span text children)

def declaredFirst? : List Node → Option Node
  | [] => none
  | node :: rest =>
    if node.isNamed && !node.isComment then declaredNode? node else declaredFirst? rest

end

def bindDeclaration (tables : Tables) (node : Node) (doc : Option DocComment)
    (exposure : Exposure) : Tables :=
  match declaredNode? node with
  | none => tables
  | some node =>
    match node.kind with
    | .lexicalDeclaration | .variableDeclaration => bindVariables tables node doc exposure
    | _ => match shapeOf? tables.path node with
      | none => tables
      | some (shape, modifiers, flags) =>
        let name := nameOf? node
        tables.publish name (exposure.nameFor name)
          ⟨⟨tables.path, node.span, name, doc, modifiers⟩, shape⟩ flags

def isFunctionOrClass (node : Node) : Bool :=
  [.classExpression, .functionExpression, .generatorFunction].contains node.kind

/-- Binds the value of a default export or an exported assignment. -/
def bindValue (tables : Tables) (value : Node) (doc : Option DocComment) (name : String) : Tables :=
  if isFunctionOrClass value then bindDeclaration tables value doc (.byDefault name)
  else
    tables.declareExport name
      ⟨⟨tables.path, value.span, some name, doc, []⟩, .exportAssignment value⟩
      (if value.kind == .identifier then .ofAlias else .ofValue)

/-- The text of a name or a quoted name. -/
def unquoted (node : Option Node) : String := TypeText.propertyKey (Node.textOf node)

def bindExportList (tables : Tables) (clause : Node) (source : Option String) : Tables :=
  (clause.namedChildren.filter (·.kind == .exportSpecifier)).foldl (fun tables specifier =>
    let inside := unquoted (specifier.get? .name)
    let outside := match specifier.get? .newName with
      | some name => unquoted (some name)
      | none => inside
    tables.declareExport outside
      ⟨⟨tables.path, specifier.span, some outside, none, []⟩, .exportSpecifier inside source⟩
      .ofAlias) tables

def bindExport (tables : Tables) (node : Node) (doc : Option DocComment) : Tables :=
  match node.get? .declaration, node.get? .value with
  | some declaration, _ =>
    bindDeclaration tables declaration doc
      (if node.hasToken "default" then .byDefault "default" else .byName)
  | none, some value => bindValue tables value doc "default"
  | none, none =>
    if node.hasToken "=" then
      match node.operands.head? with
      | some expression => bindValue tables expression doc "export="
      | none => tables
    else match node.namedChildren.find? (·.kind == .exportClause) with
      | some clause =>
        bindExportList tables clause ((node.get? .source).map fun source => unquoted (some source))
      | none => tables

def bindImported (tables : Tables) (node : Node) (name : String) (inside source : String) :
    Tables :=
  if name.isEmpty then tables
  else
    tables.declare name
      ⟨⟨tables.path, node.span, some name, none, []⟩, .importSpecifier inside source⟩ .ofAlias

def bindImport (tables : Tables) (node : Node) : Tables :=
  let source := unquoted (node.get? .source)
  match node.namedChildren.find? (·.kind == .importClause) with
  | none => tables
  | some clause => clause.namedChildren.foldl (fun tables child =>
    match child.kind with
    | .identifier => bindImported tables child child.text "default" source
    | .namedImports =>
      (child.namedChildren.filter (·.kind == .importSpecifier)).foldl (fun tables specifier =>
        let name := specifier.get? .name
        bindImported tables specifier (Node.textOf ((specifier.get? .newName).or name))
          (unquoted name) source) tables
    | _ => tables) tables

def bindStatement (tables : Tables) (before : List Node) (node : Node) : Tables :=
  let doc := leadingDoc? before
  match node.kind with
  | .exportStatement => bindExport { tables with isModule := true } node doc
  | .importStatement => bindImport { tables with isModule := true } node
  | .comment | .token => tables
  | _ => bindDeclaration tables node doc .hidden

def ofTree (path : Path) (tree : Node) : Module :=
  let tables := (withPreceding [] tree.children).foldl
    (fun tables (before, node) => bindStatement tables before node) (Tables.start path)
  { path
    locals := tables.locals
    exports := if tables.isModule then some tables.exports else none }

/-- A module from the bytes of its source. -/
def ofBytes (path : Path) (bytes : List UInt8) : Module :=
  ofTree path (Syntax.parse (.ofPath path) (Text.decodeLossy bytes))

end ApiSections.Module
