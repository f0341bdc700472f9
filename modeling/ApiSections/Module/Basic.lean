import ApiSections.Declaration.Symbol

namespace ApiSections

/-- An entry of an export table: the module's own symbol of that name, or one that only the table
has. -/
inductive Export where
  | shared (name : String)
  | own (symbol : Symbol)
  deriving Inhabited

def Export.name : Export → String
  | shared name => name
  | own symbol => symbol.name

/-- A source with what it declares. Without imports and exports it is a script and has no export
table. -/
structure Module where
  path : Path
  locals : List Symbol
  exports : Option (List Export)
  deriving Inhabited

namespace Module

def isModule (module : Module) : Bool := module.exports.isSome

def local? (module : Module) (name : String) : Option Symbol :=
  module.locals.find? (·.name == name)

def symbolOf? (module : Module) : Export → Option Symbol
  | .shared name => module.local? name
  | .own symbol => some symbol

/-- The exported symbols in the order of the table. -/
def exported (module : Module) : List Symbol :=
  (module.exports.getD []).filterMap module.symbolOf?

def export? (module : Module) (name : String) : Option Symbol :=
  ((module.exports.getD []).find? (·.name == name)).bind module.symbolOf?

def ownSymbol? : Export → Option Symbol
  | .own symbol => some symbol
  | .shared _ => none

/-- All symbols of the tables, each once. -/
def symbols (module : Module) : List Symbol :=
  module.locals ++ (module.exports.getD []).filterMap ownSymbol?

/-- The types and values that the declarations of a source are written with. -/
def nodes (module : Module) : List Syntax.Node :=
  module.symbols.flatMap fun symbol => symbol.declarations.flatMap (·.shape.nodes)

/-- How many nodes these types and values have. -/
def weight (module : Module) : Nat := Syntax.Node.weightIn module.nodes

end Module

end ApiSections
