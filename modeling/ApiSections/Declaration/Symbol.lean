import ApiSections.Declaration.Basic

namespace ApiSections

/-- What tells symbols apart: the table of a module and a name in it, or the symbol that has the
symbol as a property. -/
inductive SymbolId where
  | inModule (path : Path) (name : String)
  | exported (path : Path) (name : String)
  | property (owner : SymbolId) (name : String)
  deriving Repr, DecidableEq, Inhabited

/-- The source that a symbol belongs to. -/
def SymbolId.path : SymbolId → Path
  | inModule path _ => path
  | exported path _ => path
  | property owner _ => owner.path

/-- What a symbol stands for. -/
structure SymbolFlags where
  value : Bool
  type : Bool
  reference : Bool
  deriving Repr, DecidableEq, Inhabited

namespace SymbolFlags

def none : SymbolFlags := ⟨false, false, false⟩

def ofValue : SymbolFlags := ⟨true, false, false⟩

def ofType : SymbolFlags := ⟨false, true, false⟩

def ofValueAndType : SymbolFlags := ⟨true, true, false⟩

def ofAlias : SymbolFlags := ⟨false, false, true⟩

def union (left right : SymbolFlags) : SymbolFlags :=
  ⟨left.value || right.value, left.type || right.type, left.reference || right.reference⟩

end SymbolFlags

/-- A named entity with its declarations in source order. -/
structure Symbol where
  id : SymbolId
  name : String
  flags : SymbolFlags
  declarations : List Declaration
  deriving DecidableEq, Inhabited

namespace Symbol

def isAlias (symbol : Symbol) : Bool := symbol.flags.reference

/-- The first declaration that stands for a value. -/
def valueDeclaration? (symbol : Symbol) : Option Declaration :=
  symbol.declarations.find? (·.shape.bearsValue)

/-- The first declaration of a value, or else the first of all. -/
def primary? (symbol : Symbol) : Option Declaration :=
  symbol.valueDeclaration?.or symbol.declarations.head?

def add (symbol : Symbol) (declaration : Declaration) (flags : SymbolFlags) : Symbol :=
  { symbol with
    declarations := symbol.declarations ++ [declaration]
    flags := symbol.flags.union flags }

end Symbol

end ApiSections
