import ApiSections.Display.Infer
import ApiSections.Fragment.Block
import ApiSections.Fragment.Kind
import ApiSections.Fragment.Resolve
import ApiSections.Text.LetterCase

/-!
Fragments: one for every exported name of a module, with the members of classes and interfaces one
heading level deeper.
-/

namespace ApiSections.Fragment

def renderLogger (bound : Fields) : Log.Logger := ⟨"tsdocsync.render", bound⟩

/-- The address of a line of a file, if version control knows the file. -/
def linkTo (target : Link.Target) (ask : Path → Link.Answer) (path : Path) (line : Int) :
    Work (Option String) := do
  let (relative, asked, links) := (← get).links.relative ask path
  modify fun pass => { pass with links }
  match asked with
  | some (.failed reason) =>
    Work.debug "tsdocsync.links" "deep_link" "git ls-files failed" [("reason", .text reason)]
  | _ => pure ()
  return target.link relative line

/-- The address of a line of a file, if links are wanted. -/
def linkFor (path : Path) (line : Int) : Work (Option String) := do
  let workspace ← read
  match workspace.target with
  | none => return none
  | some target => linkTo target workspace.ask (workspace.tree.resolve path) line

/-- A label, as a link to a declaration where there is one. -/
def linked (text : String) (header : Header) : Work String := do
  match ← linkFor header.path header.line with
  | some url => return if url.isEmpty then text else "[" ++ text ++ "](" ++ url ++ ")"
  | none => return text

/-- The display type of a declaration; without one the reason is noted. -/
def notedType (symbol : Symbol) (declaration : Declaration) : Work (Option String) := do
  match ← Display.typeAt symbol declaration with
  | .ok type => return some type
  | .error reason =>
    Work.debug "tsdocsync.render" "render" (Failure.typeDisplay symbol.name reason).message
      [("reason", .text reason)]
    return none

def isMethod : MemberShape → Bool
  | .method _ | .methodSignature _ => true
  | _ => false

/-- What stands below the heading of a member that has a display type. -/
def memberBody (member : Member) (type : String) : String :=
  let doc := member.header.doc
  if isMethod member.shape then
    let parameters := (member.shape.signature?.map (·.parameters)).getD []
    codeLine "Signature" type ++ parametersBlock parameters doc ++ tagBlocks doc
  else codeLine "Type" type ++ examplesOf doc

/-- The name of a member with its owner: static members belong to the class, others to an
instance. -/
def memberTitle (owner : String) (member : Member) : String :=
  let owner := if member.header.isStatic then owner else Text.lowerFirst owner
  let name := member.header.name.getD ""
  owner ++ "." ++ if name.isEmpty then "new" else name

def renderMember (marks owner : String) (member : Member) : Work String := do
  let title := memberTitle owner member
  let label ← linked (memberLabel member) member.header
  let top := heading (marks ++ "#") title (some label) member.header.doc
  match ← Display.typeAt (Display.symbolFor member) member.toDeclaration with
  | .ok type => return top ++ memberBody member type
  | .error reason =>
    Work.emit (renderLogger []) warningLevel "Member type unavailable"
      [("operation", .text "render"), ("member", .text title), ("reason", .text reason)]
    return top ++ typeUnavailable

/-- Members whose name starts with an underscore are private, and constructors are shown with their
class. -/
def isDocumented (member : Member) : Bool :=
  (member.header.name.getD "").toList.head? != some '_' && !member.shape.isConstructor

/-- The members that are shown, static ones first. -/
def documentedMembers (members : List Member) : List Member :=
  let shown := members.filter isDocumented
  shown.filter (·.header.isStatic) ++ shown.filter (!·.header.isStatic)

def constructorDoc? (members : List Member) : Option DocComment :=
  (members.find? (·.shape.isConstructor)).bind (·.header.doc)

def membersBody (marks name : String) (declaration : Declaration)
    (typeParameters : List TypeParameter) (members : List Member) : Work String := do
  let doc := declaration.doc?
  let rendered ← (documentedMembers members).mapM (renderMember marks name)
  return typeParametersBlock typeParameters doc ++ tagBlocks doc ++
    parameterTagsBlock "Constructor Parameters" (constructorDoc? members) ": " ++
    String.join rendered

/-- The body of a function; a value of a function type has no parameters of its own to show. -/
def signatureBody (declaration : Declaration) (type : String) (doc : Option DocComment) : String :=
  codeLine "Signature" type ++
    match declaration.shape.signature? with
    | none => parameterTagsBlock "Parameters" doc " - " ++ tagBlocks doc
    | some signature =>
      typeParametersBlock signature.typeParameters doc ++
        parametersBlock signature.parameters declaration.header.doc ++ tagBlocks doc

/-- The type of an alias as it is written. -/
def declaredType (declaration : Declaration) (type : String) : String :=
  match declaration.shape with
  | .typeAlias _ (some node) => node.text
  | _ => type

def body (marks name : String) (declaration : Declaration) (type : Option String)
    (kind : DeclarationKind) (doc : Option DocComment) : Work String := do
  let text := type.getD ""
  match bodyForm declaration type kind with
  | .unavailable => return typeUnavailable
  | .signature => return signatureBody declaration text doc
  | .typeLine => return codeLine "Type" text
  | .declaredType => return codeLine "Type" (declaredType declaration text)
  | .valueLine => return codeLine "Value" text
  | .members =>
    match declaration.shape with
    | .classShape typeParameters members | .interface typeParameters members =>
      membersBody marks name declaration typeParameters members
    | _ => return ""

/-- The fragment of a name, by what it stands for. -/
def rendered (marks name : String) (resolved : Resolved) : Work String := do
  match resolved.declaration with
  | none => return heading marks name none none ++ noDeclaration
  | some declaration =>
    let type ← notedType resolved.symbol declaration
    let kind := classify declaration type
    Work.emit (renderLogger [("operation", .text "render"), ("symbol", .text name)]) debugLevel
      "Rendering symbol" [("kind", .text kind.label), ("typed", .bool type.isSome)]
    let doc := resolved.doc?
    let label ← linked kind.label declaration.header
    return heading marks name (some label) doc ++ (← body marks name declaration type kind doc)

/-- The fragment of an exported name. -/
def renderSymbol (marks name : String) (symbol : Symbol) : Work String := do
  rendered marks name (← resolve name symbol)

/-- The fragments of all exports of a file, in the order of its export table. -/
def render (path : Path) (marks : String) : Work String := do
  let module ← Work.load path
  if !module.isModule then throw (.failure (.noExports (toString path)))
  let fragments ← module.exported.mapM fun symbol => renderSymbol marks symbol.name symbol
  return String.join fragments

end ApiSections.Fragment
