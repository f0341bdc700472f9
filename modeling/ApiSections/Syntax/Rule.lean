import ApiSections.Syntax.Node
import ApiSections.Syntax.Scanner

/-!
Rules read a source from left to right and give the nodes that they read.

A comment is read with the token that follows it. When nodes are enclosed in a parent, the comments
in front of them stay outside; so a comment always ends up in the innermost node that holds a token
on either side of it.
-/

namespace ApiSections.Syntax

/-- A place in a source: what is left of it and how much that is, and how much is behind. -/
structure Cursor where
  rest : List Char
  left : Nat
  offset : Nat
  row : Nat
  deriving Repr, Inhabited

def Cursor.start (source : List Char) : Cursor := ⟨source, source.length, 0, 0⟩

def Cursor.step (cursor : Cursor) : Cursor :=
  match cursor.rest with
  | [] => cursor
  | c :: rest =>
    ⟨rest, cursor.left - 1, cursor.offset + 1, if c = '\n' then cursor.row + 1 else cursor.row⟩

def Cursor.advance (cursor : Cursor) : Nat → Cursor
  | 0 => cursor
  | count + 1 => cursor.step.advance count

abbrev Rule := Cursor → Option (List Node × Cursor)

/-- The node of the next `count` characters. -/
def leafAt (kind : Kind) (cursor : Cursor) (count : Nat) : Node × Cursor :=
  let after := cursor.advance count
  (.mk kind none ⟨cursor.offset, after.offset, cursor.row⟩
      (String.ofList (cursor.rest.take count)) [],
    after)

/-- The comments in front of the next token, and where that stands. -/
def gapFrom : Nat → Cursor → List Node × Cursor
  | 0, cursor => ([], cursor)
  | fuel + 1, cursor =>
    match cursor.rest with
    | [] => ([], cursor)
    | c :: _ =>
      if isGap c then gapFrom fuel cursor.step
      else match commentLength cursor.rest with
        | some count =>
          let (comment, after) := leafAt .comment cursor count
          let (comments, next) := gapFrom fuel after
          (comment :: comments, next)
        | none => ([], cursor)

def gap (cursor : Cursor) : List Node × Cursor := gapFrom (cursor.left + 1) cursor

/-- What stands at the next token. -/
def ahead (cursor : Cursor) : List Char := (gap cursor).2.rest

namespace Rule

def nothing : Rule := fun cursor => some ([], cursor)

def fail : Rule := fun _ => none

/-- One token of the given kind, as long as `measure` says. -/
def leaf (kind : Kind) (measure : List Char → Option Nat) : Rule := fun cursor =>
  let (comments, start) := gap cursor
  match measure start.rest with
  | some count =>
    let (node, after) := leafAt kind start count
    some (comments ++ [node], after)
  | none => none

/-- A token that follows without a gap. -/
def adjacent (kind : Kind) (measure : List Char → Option Nat) : Rule := fun cursor =>
  match measure cursor.rest with
  | some count =>
    let (node, after) := leafAt kind cursor count
    some ([node], after)
  | none => none

/-- A keyword. -/
def word (expected : String) : Rule :=
  leaf .token fun text => if wordAt text = expected.toList then some expected.length else none

/-- A mark that no longer mark begins at. -/
def mark (expected : String) : Rule :=
  leaf .token fun text => if markAt text = expected.toList then some expected.length else none

/-- A mark, whatever follows it. -/
def glyph (expected : String) : Rule :=
  leaf .token fun text => if expected.toList.isPrefixOf text then some expected.length else none

def seq : List Rule → Rule
  | [], cursor => some ([], cursor)
  | rule :: rules, cursor =>
    match rule cursor with
    | none => none
    | some (nodes, next) => match seq rules next with
      | none => none
      | some (others, last) => some (nodes ++ others, last)

/-- The first of the rules that applies. -/
def choice : List Rule → Rule
  | [], _ => none
  | rule :: rules, cursor =>
    match rule cursor with
    | some result => some result
    | none => choice rules cursor

def maybe (rule : Rule) : Rule := fun cursor =>
  match rule cursor with
  | some result => some result
  | none => some ([], cursor)

/-- A rule under a condition on what stands at the next token. -/
def whenAhead (condition : List Char → Bool) (rule : Rule) : Rule := fun cursor =>
  if condition (ahead cursor) then rule cursor else none

/-- A rule that has to be followed by a token of some form. -/
def followedBy (rule : Rule) (condition : List Char → Bool) : Rule := fun cursor =>
  match rule cursor with
  | some (nodes, next) => if condition (ahead next) then some (nodes, next) else none
  | none => none

def manyFrom (rule : Rule) : Nat → Rule
  | 0, cursor => some ([], cursor)
  | fuel + 1, cursor =>
    match rule cursor with
    | none => some ([], cursor)
    | some (nodes, next) =>
      if next.offset = cursor.offset then some ([], cursor)
      else match manyFrom rule fuel next with
        | none => some (nodes, next)
        | some (others, last) => some (nodes ++ others, last)

/-- As often as the rule applies and reads something. -/
def many (rule : Rule) : Rule := fun cursor => manyFrom rule (cursor.left + 1) cursor

/-- One or more, with a separator between neighbours. -/
def separated (rule separator : Rule) : Rule := seq [rule, many (seq [separator, rule])]

/-- Puts nodes that were read from `start` to `stop` into a parent; comments in front stay
outside. -/
def enclose (kind : Kind) (start : Cursor) (nodes : List Node) (stop : Cursor) : List Node :=
  let comments := nodes.takeWhile (·.isComment)
  let children := nodes.dropWhile (·.isComment)
  let (offset, row) := match children with
    | first :: _ => (first.span.start, first.span.row)
    | [] => (stop.offset, stop.row)
  let text := (start.rest.drop (offset - start.offset)).take (stop.offset - offset)
  comments ++ [.mk kind none ⟨offset, stop.offset, row⟩ (String.ofList text) children]

/-- A parent whose kind depends on what it holds. -/
def nodeBy (kindOf : List Node → Kind) (rule : Rule) : Rule := fun cursor =>
  match rule cursor with
  | some (nodes, next) => some (enclose (kindOf nodes) cursor nodes next, next)
  | none => none

def node (kind : Kind) (rule : Rule) : Rule := nodeBy (fun _ => kind) rule

/-- One operand as it is, or several with a parent around them. -/
def joined (kind : Kind) (operand separator : Rule) : Rule := fun cursor =>
  match operand cursor with
  | none => none
  | some (nodes, next) => match many (seq [separator, operand]) next with
    | some ([], _) | none => some (nodes, next)
    | some (others, last) => some (enclose kind cursor (nodes ++ others) last, last)

/-- Gives the nodes a role in the parent that will enclose them. -/
def setRole (field : Field) (nodes : List Node) : List Node :=
  nodes.map fun node => if node.isComment then node else node.withField field

def role (field : Field) (rule : Rule) : Rule := fun cursor =>
  match rule cursor with
  | some (nodes, next) => some (setRole field nodes, next)
  | none => none

/-- What may follow nodes read so far: the kind of the parent, and the rule for the rest of it. -/
structure Extension where
  kind : Kind
  role : Option Field
  rest : Rule

def extendFrom (extensions : List Extension) (start : Cursor) :
    Nat → List Node → Cursor → Option (List Node × Cursor)
  | 0, nodes, cursor => some (nodes, cursor)
  | fuel + 1, nodes, cursor =>
    let step := extensions.findSome? fun extension =>
      match extension.rest cursor with
      | some (rest, next) =>
        let operand := match extension.role with
          | some field => setRole field nodes
          | none => nodes
        some (enclose extension.kind start (operand ++ rest) next, next)
      | none => none
    match step with
    | some (nodes, next) => extendFrom extensions start fuel nodes next
    | none => some (nodes, cursor)

/-- A first part, and around it as many parents as there are extensions that follow. -/
def chain (first : Rule) (extensions : List Extension) : Rule := fun cursor =>
  match first cursor with
  | some (nodes, next) => extendFrom extensions cursor (cursor.left + 1) nodes next
  | none => none

end Rule

/-- Whether a statement can end in front of what starts the next line. Brackets go on with an
expression but not with a type. -/
def endsBefore (inExpression : Bool) (text : List Char) : Bool :=
  match text with
  | [] => true
  | '(' :: _ | '[' :: _ => !inExpression
  | '+' :: rest => rest.head? == some '+'
  | '-' :: rest => rest.head? == some '-'
  | '!' :: rest => rest.head? != some '='
  | c :: _ =>
    !("`,.;*%><=?^|&/:".toList.contains c) && wordAt text != "in".toList &&
      wordAt text != "instanceof".toList

/-- The end of a statement that has no semicolon: at the end of the source, before a closing brace
or at the end of a line. Comments on that line still belong to the statement. -/
def lineEndFrom (inExpression : Bool) : Nat → List Node → Cursor → Cursor →
    Option (List Node × Cursor)
  | 0, _, _, _ => none
  | fuel + 1, comments, last, cursor =>
    match cursor.rest with
    | [] => some (comments, last)
    | '}' :: _ => some (comments, last)
    | '\n' :: _ =>
      if endsBefore inExpression (ahead cursor) then some (comments, last) else none
    | c :: _ =>
      if isGap c then lineEndFrom inExpression fuel comments last cursor.step
      else match commentLength cursor.rest with
        | some count =>
          let (comment, after) := leafAt .comment cursor count
          lineEndFrom inExpression fuel (comments ++ [comment]) after after
        | none => none

namespace Rule

def lineEnd (inExpression : Bool) : Rule := fun cursor =>
  lineEndFrom inExpression (cursor.left + 1) [] cursor cursor

def semicolon (inExpression : Bool) : Rule := choice [mark ";", lineEnd inExpression]

/-- A rule that does not go on where a statement can end. -/
def onLine (inExpression endsAtLine : Bool) (rule : Rule) : Rule := fun cursor =>
  if endsAtLine && (lineEnd inExpression cursor).isSome then none else rule cursor

end Rule

end ApiSections.Syntax
