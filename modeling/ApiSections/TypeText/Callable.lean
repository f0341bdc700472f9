import ApiSections.Text.Blank

namespace ApiSections.TypeText

def isOpener (c : Char) : Bool := c == '(' || c == '[' || c == '{' || c == '<'

def isCloser (c : Char) : Bool := c == ')' || c == ']' || c == '}' || c == '>'

/-- Whether an arrow stands outside every bracket; `depth` counts the brackets open so far and may
fall below zero. -/
def hasOuterArrow (depth : Int) : List Char → Bool
  | [] => false
  | '=' :: '>' :: rest => depth == 0 || hasOuterArrow depth rest
  | c :: rest =>
    hasOuterArrow (if isOpener c then depth + 1 else if isCloser c then depth - 1 else depth) rest

/-- Whether a type is written as something callable: an arrow outside every bracket, or an object
type that starts with a call signature. -/
def isCallable (type : String) : Bool :=
  let text := Text.trim type.toList
  "\x7b (".toList.isPrefixOf text || hasOuterArrow 0 text

end ApiSections.TypeText
