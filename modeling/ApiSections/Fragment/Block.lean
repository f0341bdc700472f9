import ApiSections.TypeText.Print

/-!
The blocks that fragments are made of. Each ends with a blank line, and one with nothing to show is
empty.
-/

namespace ApiSections.Fragment

def typeUnavailable : String := "*Type information unavailable*\n\n"

def noDeclaration : String := "*No declaration found*\n\n"

/-- A text after a dash, unless it is missing or empty. -/
def comment (text : Option String) : String :=
  match text with
  | some text => if text.isEmpty then "" else " - " ++ text
  | none => ""

/-- A heading with a label beside it and the summary below. -/
def heading (marks title : String) (label : Option String) (doc : Option DocComment) : String :=
  let beside := match label with
    | some label => if label.isEmpty then "" else " · " ++ label
    | none => ""
  let below := match doc with
    | some doc => if doc.summary.isEmpty then "" else doc.summary ++ "\n\n"
    | none => ""
  marks ++ " " ++ title ++ beside ++ "\n\n" ++ below

def codeLine (field code : String) : String := "**" ++ field ++ ":** `" ++ code ++ "`\n\n"

/-- A title and a list below it. -/
def listBlock (title : String) (items : List String) : String :=
  "**" ++ title ++ ":**\n\n" ++ String.join (items.map fun item => "- " ++ item ++ "\n") ++ "\n"

def examplesBlock (examples : List String) : String :=
  if examples.isEmpty then ""
  else "**Examples:**\n\n" ++ String.join (examples.map (· ++ "\n\n"))

/-- What a doc comment says about results, failures and use. -/
def tagBlocks (doc : Option DocComment) : String :=
  match doc with
  | none => ""
  | some doc =>
    (match doc.returnsText? with
      | some text => "**Returns:** " ++ text ++ "\n\n"
      | none => "") ++
    (if doc.throwsTexts.isEmpty then "" else listBlock "Throws" doc.throwsTexts) ++
    examplesBlock doc.exampleTexts

def examplesOf (doc : Option DocComment) : String :=
  match doc with
  | some doc => examplesBlock doc.exampleTexts
  | none => ""

def typeParametersBlock (parameters : List TypeParameter) (doc : Option DocComment) : String :=
  if parameters.isEmpty then ""
  else
    let names := parameters.map (·.name)
    listBlock "Type Parameters" <| parameters.map fun parameter =>
      "`" ++ TypeText.typeParameter parameter ++ "`" ++
        comment (doc.bind (·.templateText? names parameter.name))

def parameterItem (doc : Option DocComment) (parameter : Parameter) : String :=
  let type := match parameter.type with
    | some type => TypeText.print type
    | none => "any"
  "`" ++ parameter.name ++ (if parameter.question then "?" else "") ++ ": " ++ type ++ "`" ++
    (if parameter.initializer.isSome then " (optional)" else "") ++
    comment (doc.bind (·.parameterText? parameter.name))

def parametersBlock (parameters : List Parameter) (doc : Option DocComment) : String :=
  if parameters.isEmpty then ""
  else listBlock "Parameters" (parameters.map (parameterItem doc))

/-- Parameters by what a doc comment says of them. -/
def parameterTagsBlock (title : String) (doc : Option DocComment) (separator : String) : String :=
  match doc with
  | none => ""
  | some doc =>
    if doc.parameterTags.isEmpty then ""
    else listBlock title <| doc.parameterTags.map fun tag =>
      let name := match tag.identifier with
        | some name => if name.isEmpty then "unknown" else name
        | none => "unknown"
      "`" ++ name ++ "`" ++ separator ++ tag.text

end ApiSections.Fragment
