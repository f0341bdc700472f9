/-!
Documentation comments: a summary and the tags that follow it, in source order.
-/

namespace ApiSections

/-- One `@name` entry of a doc comment. -/
structure Tag where
  name : String
  /-- The parameter or type parameter that the entry is about. -/
  identifier : Option String
  text : String
  deriving Repr, DecidableEq, Inhabited

structure DocComment where
  summary : String
  tags : List Tag
  deriving Repr, DecidableEq, Inhabited

namespace DocComment

def tagsNamed (doc : DocComment) (name : String) : List Tag :=
  doc.tags.filter (·.name == name)

def firstTag? (doc : DocComment) (name : String) : Option Tag :=
  doc.tags.find? (·.name == name)

def parameterTags (doc : DocComment) : List Tag := doc.tagsNamed "param"

/-- The text of the first `@param` entry about `name`. -/
def parameterText? (doc : DocComment) (name : String) : Option String :=
  (doc.parameterTags.find? (·.identifier == some name)).map (·.text)

/-- The text of the first `@returns` entry, unless it is empty. -/
def returnsText? (doc : DocComment) : Option String :=
  match doc.firstTag? "returns" with
  | some tag => if tag.text.isEmpty then none else some tag.text
  | none => none

def throwsTexts (doc : DocComment) : List String := (doc.tagsNamed "throws").map (·.text)

def exampleTexts (doc : DocComment) : List String := (doc.tagsNamed "example").map (·.text)

/-- The `@template` texts in order, without the dash that may introduce one. -/
def templateTexts (doc : DocComment) : List String :=
  (doc.tagsNamed "template").map fun tag =>
    match tag.text.toList with
    | '-' :: ' ' :: rest => String.ofList rest
    | _ => tag.text

/-- Type parameters are matched to `@template` entries by position; of two parameters with one name
the later text counts. -/
def templateText? (doc : DocComment) (parameters : List String) (name : String) : Option String :=
  ((parameters.zip doc.templateTexts).reverse.find? (·.1 == name)).map (·.2)

end DocComment

end ApiSections
