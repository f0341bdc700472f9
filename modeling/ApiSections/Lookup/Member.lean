import ApiSections.Lookup.Alias
import ApiSections.TypeText.Literal

/-!
The symbol that an expression refers to, and the members of values and types. A value or a type whose
members are being looked for has none inside that search, so cyclic sources end.
-/

namespace ApiSections.Lookup

open Syntax (Node Kind)

/-- What an initializer comes down to when assertions and parentheses are removed. -/
inductive Core where
  | missing
  | asserted (type : Node)
  | value (node : Node) (isConst : Bool)

mutual

/-- The core of an initializer; `isConst` says that it is constant as a whole. -/
def coreOf (isConst : Bool) : Node → Core
  | .mk kind field span text children =>
    let node := Node.mk kind field span text children
    if kind.isWrapper then coreOfFirst isConst children
    else if kind == .asExpression then
      match node.operands with
      | _ :: type :: _ => .asserted type
      | _ => coreOfFirst (isConst || node.hasToken "const") children
    else if kind == .satisfiesExpression then coreOfFirst isConst children
    else .value node isConst

def coreOfFirst (isConst : Bool) : List Node → Core
  | [] => .missing
  | node :: rest =>
    if node.isNamed && !node.isComment then coreOf isConst node else coreOfFirst isConst rest

end

/-- A name, and the keys of the properties behind it. -/
structure Reference where
  name : String
  keys : List String
  deriving Repr, DecidableEq

def Reference.at (reference : Reference) (key : String) : Reference :=
  { reference with keys := reference.keys ++ [key] }

/-- The key of the property that an expression takes of an object. -/
def keyOf? (node : Node) : Option String :=
  match node.kind with
  | .memberAccess => (node.get? .property).map (·.text)
  | .subscript => (node.get? .index).bind fun index =>
    if index.kind == .stringLiteral then some (TypeText.propertyKey index.text) else none
  | _ => none

mutual

/-- What an expression refers to, if it is a name or a property of such an expression. -/
def referenceOf : Node → Option Reference
  | .mk kind field span text children =>
    if kind.isWrapper then referenceOfFirst children
    else if kind == .identifier || kind == .shorthandProperty then some ⟨text, []⟩
    else match keyOf? (Node.mk kind field span text children) with
      | some key => (referenceOfObject children).map (·.at key)
      | none => none

def referenceOfFirst : List Node → Option Reference
  | [] => none
  | node :: rest =>
    if node.isNamed && !node.isComment then referenceOf node else referenceOfFirst rest

def referenceOfObject : List Node → Option Reference
  | [] => none
  | node :: rest =>
    if node.field == some .object then referenceOf node else referenceOfObject rest

end

mutual

/-- The name of a type that may have members, or the object type itself. -/
def namedPart : Node → Option Node
  | .mk kind field span text children =>
    let node := Node.mk kind field span text children
    match kind with
    | .objectType | .typeIdentifier | .identifier | .nestedTypeIdentifier => some node
    | .genericType => node.get? .name
    | .parenthesizedType | .readonlyType => namedPartOfLast children
    | _ => none

def namedPartOfLast : List Node → Option Node
  | [] => none
  | node :: rest =>
    if rest.any (·.isNamed) then namedPartOfLast rest
    else if node.isNamed then namedPart node else none

end

def declaresType (declaration : Declaration) : Bool :=
  match declaration.shape with
  | .interface _ _ | .classShape _ _ | .typeAlias _ _ => true
  | _ => false

/-- The type that a declaration is annotated with; an alias has none of its own. -/
def ascription? (declaration : Declaration) : Option Node :=
  match declaration.shape with
  | .variable _ type _ => type
  | .member (.field type _ _) => type
  | .member (.property type _) => type
  | _ => none

def initializer? (declaration : Declaration) : Option Node :=
  match declaration.shape with
  | .variable _ _ initializer => initializer
  | .member (.field _ initializer _) => initializer
  | .member (.entry initializer _) => initializer
  | .exportAssignment expression => some expression
  | _ => none

/-- A symbol, with an alias followed; one that leads nowhere is noted. -/
def followNoted (symbol : Symbol) : Work (Option Symbol) := do
  match ← follow symbol with
  | .ok target => return some target
  | .error error =>
    Work.debug "tsdocsync.checker" "lookup" "Alias not followed" [("reason", .text error.reason)]
    return none

/-- The symbol that a name stands for in a module. -/
def named (path : Path) (name : String) : Work (Option Symbol) := do
  match (← Work.load? path).bind (·.local? name) with
  | some symbol => followNoted symbol
  | none => return none

/-- The declaration of the type that a name stands for in a module. -/
def typeDeclaration? (path : Path) (name : String) : Work (Option Declaration) := do
  match (← Work.load? path).bind (·.local? name) with
  | none => return none
  | some symbol =>
    match ← follow symbol with
    | .ok target => return target.declarations.find? declaresType
    | .error _ => return none

/-- A type or a value of a module. -/
structure Site where
  path : Path
  node : Node
  deriving DecidableEq

/-- The members of the instances of a declared type, by the members of types. -/
def instanceMembersBy (members : Site → Work (List Member)) (declaration : Option Declaration) :
    Work (List Member) := do
  match declaration with
  | none => return []
  | some declaration =>
    match declaration.shape with
    | .interface _ members => return members
    | .classShape _ members => return members.filter (!·.header.isStatic)
    | .typeAlias _ (some type) => members ⟨declaration.path, type⟩
    | _ => return []

/-- The walk from type to type, by the names of types. -/
def types : Walk Site (List Member) where
  source := Site.path
  extent := Module.weight
  step members site := do
    match namedPart site.node with
    | none => return []
    | some node =>
      if node.kind == .objectType then
        Work.membersAt (.ofNode site.path node) (Declaration.objectTypeMembers site.path node)
      else instanceMembersBy members (← typeDeclaration? site.path node.text)
  stop := []

/-- The members of a type that is an object type or the name of one. -/
def typeMembers (site : Site) : Work (List Member) := types.run site

/-- The members of the instances of a declared type. -/
def instanceMembers (declaration : Option Declaration) : Work (List Member) :=
  instanceMembersBy typeMembers declaration

/-- The symbol for the member of a symbol's value, if there is one under that name. -/
def memberNamed? (owner : Symbol) (name : String) (members : List Member) : Option Symbol :=
  let found := members.filter fun member =>
    TypeText.propertyKey (member.header.name.getD "") == name
  if found.isEmpty then none
  else some ⟨.property owner.id name, name, .ofValue, found.map Member.toDeclaration⟩

section Values

variable {m : Type → Type} [Monad m]

/-- The property at the end of some keys. -/
def accessBy (property : Symbol → String → m (Option Symbol)) :
    List String → Option Symbol → m (Option Symbol)
  | _, none => pure none
  | [], some symbol => pure (some symbol)
  | key :: keys, some owner => do accessBy property keys (← property owner key)

variable [MonadLiftT Work m]

/-- The symbol that an expression refers to, by the properties of symbols. -/
def symbolBy (property : Symbol → String → m (Option Symbol)) (path : Path) (node : Node) :
    m (Option Symbol) := do
  match referenceOf node with
  | none => pure none
  | some reference => accessBy property reference.keys (← named path reference.name)

/-- The members of the value that a symbol stands for, by the members of initializers. -/
def valueMembersBy (members : Site → m (List Member)) (symbol : Symbol) : m (List Member) := do
  match symbol.primary? with
  | none => pure []
  | some declaration =>
    match declaration.shape with
    | .classShape _ members => pure (members.filter (·.header.isStatic))
    | _ =>
      match ascription? declaration, initializer? declaration with
      | some type, _ => typeMembers ⟨declaration.path, type⟩
      | none, some initializer => members ⟨declaration.path, initializer⟩
      | none, none => pure []

/-- The members of an initializer, by the members of others. -/
def initializerMembersBy (property : Symbol → String → m (Option Symbol))
    (members : Site → m (List Member)) (site : Site) : m (List Member) := do
  match coreOf false site.node with
  | .missing => pure []
  | .asserted type => typeMembers ⟨site.path, type⟩
  | .value node isConst =>
    match node.kind with
    | .object =>
      Work.membersAt (.ofNode site.path node) (Declaration.objectMembers site.path node isConst)
    | .newExpression =>
      match node.get? .constructor with
      | none => pure []
      | some constructor =>
        match ← symbolBy property site.path constructor with
        | some symbol => instanceMembers symbol.primary?
        | none => pure []
    | .identifier | .memberAccess | .subscript =>
      match ← symbolBy property site.path node with
      | some symbol => valueMembersBy members symbol
      | none => pure []
    | _ => pure []

end Values

/-- The member of a symbol's value, by the members of initializers. An answer is remembered, also
that there is none. -/
def propertyBy (members : Site → Work (List Member)) (owner : Symbol) (name : String) :
    Work (Option Symbol) := do
  match ← Work.remembered owner name with
  | some known => return known
  | none =>
    let found := memberNamed? owner name (← valueMembersBy members owner)
    Work.remember owner name found
    return found

/-- The walk from initializer to initializer, by what they refer to. -/
def values : Walk Site (List Member) where
  source := Site.path
  extent := Module.weight
  step members site := initializerMembersBy (propertyBy members) members site
  stop := []

/-- The member of a symbol's value. -/
def propertyOf (owner : Symbol) (name : String) : Work (Option Symbol) :=
  propertyBy values.run owner name

/-- The symbol that an expression in a module refers to. -/
def symbolAt (path : Path) (node : Node) : Work (Option Symbol) :=
  symbolBy propertyOf path node

end ApiSections.Lookup
