/-!
The lexical rules of sources: how many characters a token at the start of a text takes.
-/

namespace ApiSections.Syntax

/-- White space between tokens, zero-width marks included. -/
def isGap (c : Char) : Bool :=
  let code := c.toNat
  (9 ≤ code && code ≤ 13) || code == 32 || code == 0x85 || code == 0xA0 || code == 0x1680 ||
    (0x2000 ≤ code && code ≤ 0x200B) || code == 0x2028 || code == 0x2029 || code == 0x202F ||
    code == 0x205F || code == 0x2060 || code == 0x3000 || code == 0xFEFF

/-- The marks that no name contains. -/
def isMark (c : Char) : Bool := ":;`\"'@#.,|^&<=>+-*/\\%?!~()[]\x7b\x7d".toList.contains c

def isNamePart (c : Char) : Bool := 0x20 ≤ c.toNat && !isGap c && !isMark c

def isNameStart (c : Char) : Bool := isNamePart c && !c.isDigit

/-- The end of a line for a comment that runs to it. -/
def endsComment (c : Char) : Bool :=
  c == '\n' || c == '\r' || c.toNat == 0x2028 || c.toNat == 0x2029

/-- How many characters a block comment takes after its opening. -/
def blockLength : List Char → Option Nat
  | '*' :: '/' :: _ => some 2
  | _ :: rest => (blockLength rest).map (· + 1)
  | [] => none

def commentLength : List Char → Option Nat
  | '/' :: '/' :: rest => some (2 + (rest.takeWhile (!endsComment ·)).length)
  | '/' :: '*' :: rest => (blockLength rest).map (· + 2)
  | _ => none

def nameLength (text : List Char) : Option Nat :=
  match text with
  | c :: rest => if isNameStart c then some (1 + (rest.takeWhile isNamePart).length) else none
  | [] => none

def privateNameLength : List Char → Option Nat
  | '#' :: rest => (nameLength rest).map (· + 1)
  | _ => none

def wordAt (text : List Char) : List Char := text.take ((nameLength text).getD 0)

def isHex (c : Char) : Bool :=
  c.isDigit || ('a' ≤ c && c ≤ 'f') || ('A' ≤ c && c ≤ 'F') || c == '_'

def isDecimal (c : Char) : Bool := c.isDigit || c == '_'

def exponentLength : List Char → Nat
  | e :: rest =>
    if e == 'e' || e == 'E' then
      let (signs, digits) := match rest with
        | '+' :: digits => (1, digits)
        | '-' :: digits => (1, digits)
        | digits => (0, digits)
      let count := (digits.takeWhile isDecimal).length
      if count == 0 then 0 else 1 + signs + count
    else 0
  | [] => 0

def largeMark (text : List Char) : Nat := if text.head? == some 'n' then 1 else 0

def fractionLength : List Char → Nat
  | '.' :: rest =>
    let digits := (rest.takeWhile isDecimal).length
    1 + digits + exponentLength (rest.drop digits)
  | text => exponentLength text

def basedLength (rest : List Char) : Nat :=
  let digits := (rest.takeWhile isHex).length
  2 + digits + largeMark (rest.drop digits)

def numberLength (text : List Char) : Option Nat :=
  match text with
  | '0' :: 'x' :: rest | '0' :: 'X' :: rest | '0' :: 'o' :: rest | '0' :: 'O' :: rest
  | '0' :: 'b' :: rest | '0' :: 'B' :: rest => some (basedLength rest)
  | '.' :: c :: _ => if c.isDigit then some (fractionLength text) else none
  | c :: _ =>
    if c.isDigit then
      let digits := (text.takeWhile isDecimal).length
      let rest := text.drop digits
      some (digits + if largeMark rest == 1 then 1 else fractionLength rest)
    else none
  | [] => none

/-- How many characters a quoted text takes after its opening quote. -/
def quotedLength (quote : Char) : List Char → Option Nat
  | [] => none
  | '\\' :: _ :: rest => (quotedLength quote rest).map (· + 2)
  | c :: rest => if c = quote then some 1 else (quotedLength quote rest).map (· + 1)

def stringLength : List Char → Option Nat
  | '"' :: rest => (quotedLength '"' rest).map (· + 1)
  | '\'' :: rest => (quotedLength '\'' rest).map (· + 1)
  | _ => none

/-- How many characters a regular expression takes after its first slash, up to its last. -/
def regexBodyLength (inClass : Bool) : List Char → Option Nat
  | [] => none
  | '\n' :: _ => none
  | '\\' :: _ :: rest => (regexBodyLength inClass rest).map (· + 2)
  | c :: rest =>
    if c = '/' ∧ !inClass then some 1
    else (regexBodyLength (if c = '[' then true else if c = ']' then false else inClass) rest).map
      (· + 1)

def regexLength : List Char → Option Nat
  | '/' :: rest => (regexBodyLength false rest).map fun body =>
      1 + body + ((rest.drop body).takeWhile Char.isAlpha).length
  | _ => none

/-- How many characters of a template stand before its end or the next substitution. -/
def templateCharsLength : List Char → Nat
  | [] => 0
  | '`' :: _ => 0
  | '$' :: '{' :: _ => 0
  | '\\' :: _ :: rest => 2 + templateCharsLength rest
  | _ :: rest => 1 + templateCharsLength rest

/-- The operators and brackets of expressions, longer ones before their beginnings. -/
def marks : List String :=
  [">>>=", "...", "===", "!==", "**=", "<<=", ">>=", ">>>", "&&=", "||=", "??=", "=>", "==", "!=",
    "<=", ">=", "&&", "||", "??", "?.", "++", "--", "+=", "-=", "*=", "/=", "%=", "&=", "|=", "^=",
    "<<", ">>", "**"]

/-- The longest mark at the start of a text. -/
def markAt (text : List Char) : List Char :=
  match text with
  | '?' :: '.' :: c :: _ => if c.isDigit then ['?'] else ['?', '.']
  | _ => match marks.find? (·.toList.isPrefixOf text) with
    | some mark => mark.toList
    | none => text.take 1

/-- Words that are never plain names. -/
def reservedWords : List String :=
  ["break", "case", "catch", "class", "const", "continue", "debugger", "default", "delete", "do",
    "else", "enum", "export", "extends", "finally", "for", "function", "if", "import", "in",
    "instanceof", "new", "return", "super", "switch", "this", "throw", "try", "typeof", "var",
    "void", "while", "with", "null", "true", "false", "undefined"]

end ApiSections.Syntax
