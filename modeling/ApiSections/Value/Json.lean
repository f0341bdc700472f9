import ApiSections.Value.Basic

namespace ApiSections.Value

open Number

def hexDigits (width code : Nat) : List Char :=
  let digits := Nat.toDigits 16 code
  List.replicate (width - digits.length) '0' ++ digits

def unicodeEscape (code : Nat) : List Char := '\\' :: 'u' :: hexDigits 4 code

/-- One character of a JSON string in ASCII; beyond the basic plane it takes a surrogate pair. -/
def escapeChar (c : Char) : List Char :=
  match c with
  | '"' => ['\\', '"']
  | '\\' => ['\\', '\\']
  | '\n' => ['\\', 'n']
  | '\r' => ['\\', 'r']
  | '\t' => ['\\', 't']
  | _ =>
    let code := c.toNat
    if code == 8 then ['\\', 'b']
    else if code == 12 then ['\\', 'f']
    else if 32 ≤ code && code < 127 then [c]
    else if code < 0x10000 then unicodeEscape code
    else unicodeEscape (0xD800 + (code - 0x10000) / 0x400) ++
      unicodeEscape (0xDC00 + (code - 0x10000) % 0x400)

def quoteJson (content : String) : String :=
  "\"" ++ String.ofList (content.toList.flatMap escapeChar) ++ "\""

def floatJson : Binary64 → String
  | .nan => "NaN"
  | .infinite negative => if negative then "-Infinity" else "Infinity"
  | number => number.render plainStyle

/-- Inserts a field before the first one with a greater key. -/
def insertByKey (field : String × String) : List (String × String) → List (String × String)
  | [] => [field]
  | other :: rest =>
    if field.1 < other.1 then field :: other :: rest else other :: insertByKey field rest

def sortByKey : List (String × String) → List (String × String)
  | [] => []
  | field :: rest => insertByKey field (sortByKey rest)

def objectJson (sorted : Bool) (fields : List (String × String)) : String :=
  let fields := if sorted then sortByKey fields else fields
  let entries := fields.map fun field => quoteJson field.1 ++ ": " ++ field.2
  "\x7b" ++ String.intercalate ", " entries ++ "\x7d"

mutual

/-- JSON on one line with a space after each comma and colon; keys in order or sorted. -/
def toJson (sorted : Bool) : Value → String
  | .null => "null"
  | .bool flag => if flag then "true" else "false"
  | .int number => toString number
  | .float number => floatJson number
  | .text content => quoteJson content
  | .list items => "[" ++ String.intercalate ", " (listJson sorted items) ++ "]"
  | .object fields => objectJson sorted (fieldsJson sorted fields)

def listJson (sorted : Bool) : List Value → List String
  | [] => []
  | item :: rest => toJson sorted item :: listJson sorted rest

def fieldsJson (sorted : Bool) : List (String × Value) → List (String × String)
  | [] => []
  | (key, value) :: rest => (key, toJson sorted value) :: fieldsJson sorted rest

end

end ApiSections.Value
