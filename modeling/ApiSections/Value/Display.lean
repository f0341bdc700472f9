import ApiSections.Value.Json
import ApiSections.Text.Printable

namespace ApiSections.Value

open Number

/-- One character inside a quoted form. -/
def showChar (quote c : Char) : List Char :=
  if c == quote || c == '\\' then ['\\', c]
  else if c == '\n' then ['\\', 'n']
  else if c == '\r' then ['\\', 'r']
  else if c == '\t' then ['\\', 't']
  else if Text.isPrintable c then [c]
  else
    let code := c.toNat
    if code < 0x100 then '\\' :: 'x' :: hexDigits 2 code
    else if code < 0x10000 then '\\' :: 'u' :: hexDigits 4 code
    else '\\' :: 'U' :: hexDigits 8 code

/-- Single quotes, or double ones around a text that has single quotes only. -/
def quoteText (content : String) : String :=
  let chars := content.toList
  let quote := if chars.contains '\'' && !chars.contains '"' then '"' else '\''
  String.ofList (quote :: chars.flatMap (showChar quote) ++ [quote])

mutual

/-- The form of a value inside a list or an object, where texts are quoted. -/
def inspect : Value → String
  | .null => "None"
  | .bool flag => if flag then "True" else "False"
  | .int number => toString number
  | .float number => number.render plainStyle
  | .text content => quoteText content
  | .list items => "[" ++ String.intercalate ", " (inspectList items) ++ "]"
  | .object fields => "\x7b" ++ String.intercalate ", " (inspectFields fields) ++ "\x7d"

def inspectList : List Value → List String
  | [] => []
  | item :: rest => inspect item :: inspectList rest

def inspectFields : List (String × Value) → List String
  | [] => []
  | (key, value) :: rest => (quoteText key ++ ": " ++ inspect value) :: inspectFields rest

end

/-- The form of a value on its own, where a text stands for itself. -/
def display : Value → String
  | .text content => content
  | value => inspect value

end ApiSections.Value
