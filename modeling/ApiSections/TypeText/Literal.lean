import ApiSections.Text.Word

namespace ApiSections.TypeText

/-- Every escaped single quote becomes a bare one. -/
def bareSingleQuotes : List Char → List Char
  | '\\' :: '\'' :: rest => '\'' :: bareSingleQuotes rest
  | c :: rest => c :: bareSingleQuotes rest
  | [] => []

def escapeDoubleQuotes : List Char → List Char
  | [] => []
  | '"' :: rest => '\\' :: '"' :: escapeDoubleQuotes rest
  | c :: rest => c :: escapeDoubleQuotes rest

/-- A string literal in any quotes as a literal type in double quotes. -/
def stringLiteral (raw : List Char) : List Char :=
  match raw with
  | [] => raw
  | [_] => raw
  | quote :: rest =>
    let body := rest.dropLast
    if quote = '"' then raw
    else
      let body := if quote = '\'' then bareSingleQuotes body else body
      '"' :: escapeDoubleQuotes body ++ ['"']

/-- Digits with an optional sign and fraction. One line feed may end the text. -/
def isNumeric (text : List Char) : Bool :=
  let unsigned := match text with
    | '-' :: rest => rest
    | _ => text
  let ends (rest : List Char) : Bool := rest == [] || rest == ['\n']
  let after := unsigned.dropWhile Text.isDigit
  !(unsigned.takeWhile Text.isDigit).isEmpty &&
    (ends after || match after with
      | '.' :: fraction =>
        !(fraction.takeWhile Text.isDigit).isEmpty && ends (fraction.dropWhile Text.isDigit)
      | _ => false)

/-- The primitive type of a literal type; any other type stays as it is. -/
def widen (type : String) : String :=
  let text := type.toList
  if type == "true" || type == "false" then "boolean"
  else if text.head? == some '"' && text.getLast? == some '"' then "string"
  else if isNumeric text then "number"
  else type

/-- A property name without its quotes. -/
def propertyKey (text : String) : String :=
  match text.toList with
  | quote :: rest =>
    if rest.getLast? = some quote ∧ (quote = '\'' ∨ quote = '"' ∨ quote = '`') then
      String.ofList rest.dropLast
    else text
  | [] => text

end ApiSections.TypeText
