import ApiSections.Comment.Basic
import ApiSections.Text.Blank
import ApiSections.Text.Lines
import ApiSections.Text.Word

namespace ApiSections.Comment

open Text

/-- Whether a comment is a doc comment; the shortest block comment is a plain one. -/
def isDoc (comment : List Char) : Bool :=
  "/**".toList.isPrefixOf comment && !"/**/".toList.isPrefixOf comment &&
    "*/".toList.isSuffixOf comment

/-- What stands between the delimiters of a block. -/
def body (comment : List Char) : List Char := (comment.drop 3).take (comment.length - 5)

/-- Drops a leading star with the blanks before it and at most one space after it. -/
def dropMargin (line : List Char) : List Char :=
  match trimLeft line with
  | '*' :: ' ' :: rest => rest
  | '*' :: rest => rest
  | _ => line

def dropSpace : List Char → List Char
  | ' ' :: rest => rest
  | line => line

/-- The lines of a comment without delimiters, margins and blanks at their ends. -/
def contentLines (comment : List Char) : List (List Char) :=
  match splitAt '\n' (body comment) with
  | [] => []
  | first :: others =>
    trimRight (dropSpace first) :: others.map fun line => trimRight (dropMargin line)

/-- A line that opens or closes fenced code. -/
def isFence (line : List Char) : Bool :=
  let start := trimLeft line
  "```".toList.isPrefixOf start || "~~~".toList.isPrefixOf start

def isTagChar (c : Char) : Bool := isWord c || c == '-'

/-- The name on a tag line and what follows it. -/
def tagLine? (line : List Char) : Option (List Char × List Char) :=
  match trimLeft line with
  | '@' :: c :: rest =>
    if c.isAlpha then some (c :: rest.takeWhile isTagChar, rest.dropWhile isTagChar) else none
  | _ => none

/-- Cuts content lines at the tag lines outside fenced code: the lines before the first tag, then
each tag's name with its own lines. -/
def sections (fenced : Bool) :
    List (List Char) → List (List Char) × List (List Char × List (List Char))
  | [] => ([], [])
  | line :: rest =>
    let (leading, tags) := sections (if isFence line then !fenced else fenced) rest
    match if fenced then none else tagLine? line with
    | some (name, first) => ([], (name, first :: leading) :: tags)
    | none => (line :: leading, tags)

/-- What follows the bracket that closes the ones opened so far; the depth counts those. -/
def afterClosing (opener closer : Char) : Nat → List Char → Option (List Char × List Char)
  | _, [] => none
  | depth, c :: rest =>
    let deeper := if c = opener then depth + 1 else depth
    if c = closer ∧ deeper ≤ 1 then some ([], rest)
    else (afterClosing opener closer (if c = closer then deeper - 1 else deeper) rest).map
      fun (inside, after) => (c :: inside, after)

/-- Drops a type expression in braces at the start; an unclosed one takes the whole line. -/
def skipType (rest : List Char) : List Char :=
  match trimLeft rest with
  | '{' :: inside => ((afterClosing '{' '}' 1 inside).map (·.2)).getD []
  | _ => rest

def isNameChar (c : Char) : Bool := !isBlank c && c != ','

/-- Drops further names, each after a comma. -/
def skipNames (rest : List Char) : List Char :=
  match _outer : trimLeft rest with
  | ',' :: after =>
    match _inner : trimLeft after with
    | [] => rest
    | c :: more => if isNameChar c then skipNames (more.dropWhile isNameChar) else rest
  | _ => rest
termination_by rest.length
decreasing_by
  have rest_le := length_trimLeft_le rest
  have after_le := length_trimLeft_le after
  have names_le := length_dropWhile_le isNameChar more
  simp only [_outer, _inner, List.length_cons] at rest_le after_le
  omega

/-- The name that a tag is about, and the text after it. -/
def splitIdentifier (name : String) (rest : List Char) : Option (List Char) × List Char :=
  match trimLeft (skipType rest) with
  | [] => (none, [])
  | '[' :: inside =>
    if name = "param" then
      match afterClosing '[' ']' 1 inside with
      | some (entry, after) =>
        let identifier := trim (entry.takeWhile (· != '='))
        (if identifier.isEmpty then none else some identifier, after)
      | none => (none, '[' :: inside)
    else (some ('[' :: inside.takeWhile isNameChar), skipNames (inside.dropWhile isNameChar))
  | c :: more =>
    if isNameChar c then
      (some (c :: more.takeWhile isNameChar), skipNames (more.dropWhile isNameChar))
    else (none, c :: more)

/-- The spelling under which a tag is kept. -/
def canonicalName : String → String
  | "return" => "returns"
  | "arg" => "param"
  | "argument" => "param"
  | "exception" => "throws"
  | "typeParam" => "template"
  | name => name

def namesSomething (name : String) : Bool := name == "param" || name == "template"

/-- Tags whose type expression is dropped although they name nothing. -/
def isTyped (name : String) : Bool := name == "returns" || name == "throws" || name == "type"

def tagOf (name : List Char) (lines : List (List Char)) : Tag :=
  let canonical := canonicalName (String.ofList name)
  let first := lines.headD []
  let (identifier, first) :=
    if namesSomething canonical then splitIdentifier canonical first
    else if isTyped canonical then (none, skipType first)
    else (none, first)
  { name := canonical
    identifier := identifier.map String.ofList
    text := String.ofList (trim (joinWith '\n' (first :: lines.tail))) }

/-- Reads a comment, delimiters included. -/
def read (comment : String) : DocComment :=
  let (leading, tags) := sections false (contentLines comment.toList)
  { summary := String.ofList (trim (joinWith '\n' leading))
    tags := tags.map fun (name, lines) => tagOf name lines }

end ApiSections.Comment
