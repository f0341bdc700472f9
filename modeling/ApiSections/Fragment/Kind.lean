import ApiSections.Declaration.Basic
import ApiSections.TypeText.Callable

/-!
What a declaration is called beside its heading, and which body it gets.
-/

namespace ApiSections.Fragment

/-- The kinds of exported declarations. -/
inductive DeclarationKind where
  | function
  | plainClass
  | abstractClass
  | interface
  | typeAlias
  | constant
  | variableBinding
  | value
  deriving Repr, DecidableEq, Inhabited

def DeclarationKind.label : DeclarationKind → String
  | .function => "function"
  | .plainClass => "class"
  | .abstractClass => "abstract class"
  | .interface => "interface"
  | .typeAlias => "type"
  | .constant => "constant"
  | .variableBinding => "variable"
  | .value => "value"

/-- Whether a type is known and callable. -/
def isCallable (type : Option String) : Bool :=
  match type with
  | some type => TypeText.isCallable type
  | none => false

/-- Whether a type is the type of a class. -/
def isClassType (type : Option String) : Bool :=
  match type with
  | some type => "typeof ".toList.isPrefixOf type.toList
  | none => false

/-- A type that is known and not empty. -/
def filled? (type : Option String) : Option String := type.filter (!·.isEmpty)

/-- The kind of a declaration with a display type, if there is one. The call shape of a variable
counts before its keyword. -/
def classify (declaration : Declaration) (type : Option String) : DeclarationKind :=
  match declaration.shape with
  | .function _ => .function
  | .classShape _ _ => if declaration.header.has .abstract then .abstractClass else .plainClass
  | .interface _ _ => .interface
  | .typeAlias _ _ => .typeAlias
  | .variable statement _ _ =>
    if isCallable (filled? type) then .function
    else if isClassType (filled? type) then .plainClass
    else if statement.keyword == .constKeyword then .constant
    else .variableBinding
  | _ => if isCallable (filled? type) then .function else .value

def memberWord : MemberShape → String
  | .method _ | .methodSignature _ => "method"
  | .field _ _ _ | .property _ _ | .entry _ _ => "property"
  | .getter _ => "getter"
  | .setter _ _ => "setter"
  | .constructor _ | .constructSignature _ => "constructor"

/-- The label of a member, with what is special about it in front. -/
def memberLabel (member : Member) : String :=
  (if member.header.has .abstract then "abstract " else "") ++
    (if member.header.isStatic then "static " else "") ++ memberWord member.shape

/-- What stands below a heading. -/
inductive BodyForm where
  | unavailable
  | signature
  | typeLine
  | members
  | declaredType
  | valueLine
  deriving Repr, DecidableEq, Inhabited

def isVariable (declaration : Declaration) : Bool :=
  match declaration.shape with
  | .variable _ _ _ => true
  | _ => false

def isFunction (declaration : Declaration) : Bool :=
  match declaration.shape with
  | .function _ => true
  | _ => false

/-- The body of a declaration of some kind with a display type, if there is one. -/
def bodyForm (declaration : Declaration) (type : Option String) (kind : DeclarationKind) : BodyForm :=
  if type.isNone then .unavailable
  else if isVariable declaration && isCallable type then .signature
  else if isVariable declaration && isClassType type then .typeLine
  else if isFunction declaration || kind == .function then .signature
  else match declaration.shape with
    | .classShape _ _ | .interface _ _ => .members
    | .typeAlias _ _ => .declaredType
    | _ => .valueLine

end ApiSections.Fragment
