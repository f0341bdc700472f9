import ApiSections.Number.Binary64

namespace ApiSections

/-- A plain data value, as it occurs in log fields and failure contexts. -/
inductive Value where
  | null
  | bool (flag : Bool)
  | int (number : Int)
  | float (number : Number.Binary64)
  | text (content : String)
  | list (items : List Value)
  | object (fields : List (String × Value))
  deriving Repr, Inhabited

/-- The fields of an object, in order. -/
abbrev Fields := List (String × Value)

namespace Fields

def get? (fields : Fields) (key : String) : Option Value :=
  (fields.find? (·.1 == key)).map (·.2)

def has (fields : Fields) (key : String) : Bool := fields.any (·.1 == key)

/-- Sets a field: in its old place if there is one, otherwise at the end. -/
def set (fields : Fields) (key : String) (value : Value) : Fields :=
  if fields.has key then fields.map fun field => if field.1 == key then (key, value) else field
  else fields ++ [(key, value)]

/-- Adds a field at the end unless there is one of that name. -/
def setDefault (fields : Fields) (key : String) (value : Value) : Fields :=
  if fields.has key then fields else fields ++ [(key, value)]

end Fields

end ApiSections
