import ApiSections.Comment.Read
import ApiSections.Declaration.Basic
import ApiSections.Text.Blank
import ApiSections.TypeText.Literal

/-!
The parts of declarations as they stand in syntax trees: doc comments, modifiers, signatures and
members.
-/

namespace ApiSections.Declaration

open Syntax (Node Kind withPreceding)

/-- The type inside an annotation; any other node stands for itself. -/
def annotatedType? (ascription : Option Node) : Option Node :=
  ascription.bind fun node =>
    match node.kind with
    | .typeAscription | .assertsAscription | .typePredicateAscription | .omittingTypeAscription
    | .optingTypeAscription => node.namedChildren.head?
    | _ => some node

/-- The nearest doc comment among the comments and decorators in front of a node, which are given
the nearest first. -/
def leadingDoc? : List Node → Option DocComment
  | [] => none
  | node :: rest =>
    match node.kind with
    | .comment =>
      if Comment.isDoc node.text.toList then some (Comment.read node.text) else leadingDoc? rest
    | .decorator => leadingDoc? rest
    | _ => none

def modifierOf? (node : Node) : Option Modifier :=
  match node.kind with
  | .accessibilityModifier => Modifier.ofWord? node.text
  | .overrideModifier => some .override
  | .token =>
    match Modifier.ofWord? node.text with
    | some .isPublic | some .isPrivate | some .isProtected | some .override => none
    | found => found
  | _ => none

/-- The modifiers in front of a node's name. -/
def modifiersOf (node : Node) : List Modifier :=
  let limit := match node.get? .name with
    | some name => name.start
    | none => node.stop
  ((node.children.takeWhile (·.start < limit)).filterMap modifierOf?).eraseDups

def nameOf? (node : Node) : Option String :=
  match node.get? .name with
  | some name => if name.text.isEmpty then none else some name.text
  | none => none

def typeParametersOf (list : Option Node) : List TypeParameter :=
  match list with
  | none => []
  | some list => (list.namedChildren.filter (·.kind == .typeParameter)).map fun node =>
    { name := Node.textOf (node.get? .name)
      constraint := (node.get? .constraint).bind (·.namedChildren.head?)
      default := (node.get? .value).bind (·.namedChildren.head?) }

/-- A parameter; a pattern is shown on one line. -/
def parameterOf (node : Node) : Parameter :=
  let pattern := node.get? .pattern
  let rest := match pattern with
    | some pattern => pattern.kind == .restPattern
    | none => false
  let inner := if rest then pattern.bind (·.namedChildren.head?) else none
  { name := match inner with
      | some inner => inner.text
      | none => Text.squeeze (Node.textOf pattern)
    type := annotatedType? (node.get? .type)
    initializer := node.get? .value
    question := node.kind == .optionalParameter
    rest }

def parametersOf (list : Option Node) : List Parameter :=
  match list with
  | none => []
  | some list =>
    if list.kind == .identifier then
      [{ name := list.text, type := none, initializer := none, question := false, rest := false }]
    else
      (list.namedChildren.filter fun node =>
        node.kind == .requiredParameter || node.kind == .optionalParameter).map parameterOf

def signatureOf (node : Node) : Signature :=
  let returnType := match node.get? .returnType with
    | some type => some type
    | none => if node.kind == .constructSignature then node.get? .type else none
  { typeParameters := typeParametersOf (node.get? .typeParameters)
    parameters := parametersOf ((node.get? .parameters).or (node.get? .parameter))
    returnType := annotatedType? returnType
    body := node.get? .body }

def headerOf (path : Path) (node : Node) (doc : Option DocComment) (modifiers : List Modifier) :
    Header :=
  { path, span := node.span, name := some (Node.textOf (node.get? .name)), doc, modifiers }

/-- The shape of a method by its modifiers. -/
def methodShape (modifiers : List Modifier) (signature : Signature)
    (otherwise : Signature → MemberShape) : MemberShape :=
  if modifiers.contains .getter then .getter signature
  else if modifiers.contains .setter then .setter signature none
  else otherwise signature

def isOptional (node : Node) : Bool := node.hasToken "?"

/-- A member of a class or an object. -/
def classMember? (path : Path) (node : Node) (doc : Option DocComment) : Option Member :=
  match node.kind with
  | .methodDefinition | .methodSignature | .abstractMethodSignature =>
    let modifiers := modifiersOf node
    let modifiers :=
      if node.kind == .abstractMethodSignature && !modifiers.contains .abstract then
        modifiers ++ [.abstract]
      else modifiers
    let signature := signatureOf node
    let header := headerOf path node doc modifiers
    some ⟨header,
      if header.name == some "constructor" then .constructor signature
      else methodShape modifiers signature .method⟩
  | .fieldDefinition =>
    some ⟨headerOf path node doc (modifiersOf node),
      .field (annotatedType? (node.get? .type)) (node.get? .value) (isOptional node)⟩
  | _ => none

/-- A member of an interface or an object type; calls and indices have no name and are left out. -/
def typeMember? (path : Path) (node : Node) (doc : Option DocComment) : Option Member :=
  match node.kind with
  | .propertySignature =>
    some ⟨headerOf path node doc (modifiersOf node),
      .property (annotatedType? (node.get? .type)) (isOptional node)⟩
  | .methodSignature =>
    let modifiers := modifiersOf node
    some ⟨headerOf path node doc modifiers,
      methodShape modifiers (signatureOf node) .methodSignature⟩
  | .constructSignature =>
    some ⟨{ headerOf path node doc [] with name := none }, .constructSignature (signatureOf node)⟩
  | _ => none

/-- The members in a body, each with the doc comment in front of it. -/
def membersIn (build : Node → Option DocComment → Option Member) (body : Option Node) :
    List Member :=
  match body with
  | none => []
  | some body => (withPreceding [] body.children).filterMap fun (before, node) =>
    if node.isNamed && !node.isComment then build node (leadingDoc? before) else none

/-- The first reading accessor with a name. -/
def getterNamed? (members : List Member) (name : Option String) (isStatic : Bool) :
    Option Getter :=
  members.findSome? fun member =>
    match member.shape with
    | .getter signature =>
      if member.header.name == name && member.header.isStatic == isStatic then
        some ⟨member.header, signature⟩
      else none
    | _ => none

/-- Gives every writing accessor the reading one of its name. -/
def pairAccessors (members : List Member) : List Member :=
  members.map fun member =>
    match member.shape with
    | .setter signature _ =>
      { member with
        shape := .setter signature
          (getterNamed? members member.header.name member.header.isStatic) }
    | _ => member

def classMembers (path : Path) (body : Option Node) : List Member :=
  pairAccessors (membersIn (classMember? path) body)

def interfaceMembers (path : Path) (body : Option Node) : List Member :=
  pairAccessors (membersIn (typeMember? path) body)

/-- The members of an object type; its accessors stand alone. -/
def objectTypeMembers (path : Path) (type : Node) : List Member :=
  membersIn (typeMember? path) (some type)

/-- An entry of an object. -/
def entryMember? (path : Path) (isConst : Bool) (node : Node) (doc : Option DocComment) :
    Option Member :=
  match node.kind with
  | .pair =>
    some ⟨{ path, span := node.span, name := some (Node.textOf (node.get? .key)), doc,
            modifiers := if isConst then [.readonly] else [] },
      .entry (node.get? .value) isConst⟩
  | .shorthandProperty =>
    some ⟨{ path, span := node.span, name := some node.text, doc, modifiers := [] },
      .entry (some node) isConst⟩
  | .methodDefinition => classMember? path node doc
  | _ => none

def objectMembers (path : Path) (object : Node) (isConst : Bool) : List Member :=
  membersIn (entryMember? path isConst) (some object)

end ApiSections.Declaration
