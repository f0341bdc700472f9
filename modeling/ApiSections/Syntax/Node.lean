import ApiSections.Syntax.Kind

namespace ApiSections.Syntax

/-- Where a node stands: offsets in characters, and the row of its first one, counted from zero. -/
structure Span where
  start : Nat
  stop : Nat
  row : Nat
  deriving Repr, DecidableEq, Inhabited

/-- A concrete syntax tree. Comments are nodes in the place where they stand. -/
inductive Node where
  | mk (kind : Kind) (field : Option Field) (span : Span) (text : String) (children : List Node)
  deriving Repr, Inhabited

namespace Node

mutual

def decEq : (first second : Node) → Decidable (first = second)
  | mk kind field span text children, mk kind' field' span' text' children' =>
    if same : kind = kind' ∧ field = field' ∧ span = span' ∧ text = text' then
      match decEqList children children' with
      | isTrue below => isTrue (by rw [same.1, same.2.1, same.2.2.1, same.2.2.2, below])
      | isFalse differ => isFalse fun equal => differ (mk.inj equal).2.2.2.2
    else isFalse fun equal =>
      same ⟨(mk.inj equal).1, (mk.inj equal).2.1, (mk.inj equal).2.2.1, (mk.inj equal).2.2.2.1⟩

def decEqList : (first second : List Node) → Decidable (first = second)
  | [], [] => isTrue rfl
  | [], _ :: _ => isFalse nofun
  | _ :: _, [] => isFalse nofun
  | node :: rest, node' :: rest' =>
    match decEq node node' with
    | isFalse differ => isFalse fun equal => differ (List.cons.inj equal).1
    | isTrue here =>
      match decEqList rest rest' with
      | isTrue below => isTrue (by rw [here, below])
      | isFalse differ => isFalse fun equal => differ (List.cons.inj equal).2

end

instance : DecidableEq Node := decEq

mutual

/-- How many nodes there are from a node on downwards. -/
def weight : Node → Nat
  | mk _ _ _ _ children => weightIn children + 1

def weightIn : List Node → Nat
  | [] => 0
  | node :: rest => node.weight + weightIn rest

end

def kind : Node → Kind
  | mk kind _ _ _ _ => kind

def field : Node → Option Field
  | mk _ field _ _ _ => field

def span : Node → Span
  | mk _ _ span _ _ => span

def text : Node → String
  | mk _ _ _ text _ => text

def children : Node → List Node
  | mk _ _ _ _ children => children

def start (node : Node) : Nat := node.span.start

def stop (node : Node) : Nat := node.span.stop

/-- The line of the first character, counted from one. -/
def line (node : Node) : Nat := node.span.row + 1

def withField (node : Node) (field : Field) : Node :=
  match node with
  | mk kind _ span text children => mk kind (some field) span text children

def isComment (node : Node) : Bool := node.kind == .comment

/-- Everything but keywords and marks. -/
def isNamed (node : Node) : Bool := node.kind != .token

def isToken (node : Node) (text : String) : Bool := node.kind == .token && node.text == text

def namedChildren (node : Node) : List Node := node.children.filter isNamed

/-- The named children without the comments. -/
def operands (node : Node) : List Node := node.namedChildren.filter (!·.isComment)

/-- The first child in the given role. -/
def get? (node : Node) (field : Field) : Option Node :=
  node.children.find? (·.field == some field)

def hasToken (node : Node) (text : String) : Bool := node.children.any (·.isToken text)

def textOf : Option Node → String
  | some node => node.text
  | none => ""

end Node

/-- Whether a node only puts parentheses or a mark around an expression. -/
def Kind.isWrapper (kind : Kind) : Bool := kind == .parenthesized || kind == .nonNull

mutual

/-- An expression without the parentheses and non-null marks around it. -/
def unwrap : Node → Option Node
  | .mk kind field span text children =>
    if kind.isWrapper then unwrapFirst children else some (.mk kind field span text children)

def unwrapFirst : List Node → Option Node
  | [] => none
  | node :: rest => if node.isNamed && !node.isComment then unwrap node else unwrapFirst rest

end

/-- Each of the nodes with the nodes before it, the nearest first. -/
def withPreceding : List Node → List Node → List (List Node × Node)
  | _, [] => []
  | before, node :: rest => (before, node) :: withPreceding (node :: before) rest

end ApiSections.Syntax
