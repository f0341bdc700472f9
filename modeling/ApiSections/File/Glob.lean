namespace ApiSections.Glob

/-- One element of a file name pattern. -/
inductive Piece where
  | literal (c : Char)
  | anyChar
  | anyRun
  /-- A character inside, or outside, the given closed ranges. -/
  | oneOf (negated : Bool) (ranges : List (Char × Char))
  deriving Repr, DecidableEq

/-- Splits the inside of brackets at each hyphen that stands for a range: it has a character on
either side that belongs to no range before it. The last chunk keeps a hyphen that ends the set. -/
def chunks : List Char → List Char → List (List Char)
  | current, [] => [current.reverse]
  | [], c :: rest => chunks [c] rest
  | current, ['-'] => [('-' :: current).reverse]
  | current, ['-', c] => [current.reverse, [c]]
  | current, '-' :: c :: d :: rest => current.reverse :: chunks [d, c] rest
  | current, c :: rest => chunks (c :: current) rest

def single (c : Char) : Char × Char := (c, c)

/-- Joins chunks into ranges; a range that runs backwards holds nothing, and neither do its ends. -/
def rangesFrom (chunk : List Char) : List (List Char) → List (Char × Char)
  | [] => chunk.map single
  | next :: rest =>
    match chunk.getLast?, next with
    | some low, high :: after =>
      chunk.dropLast.map single ++ (if high < low then [] else [(low, high)]) ++
        rangesFrom after rest
    | _, _ => chunk.map single ++ rangesFrom next rest

def ranges (body : List Char) : List (Char × Char) := rangesFrom [] (chunks [] body)

/-- The characters up to a closing bracket; one right at the start belongs to the set. -/
def bracketBody? (text : List Char) : Option (List Char × List Char) :=
  let (head, rest) := match text with
    | '!' :: ']' :: rest => (['!', ']'], rest)
    | '!' :: rest => (['!'], rest)
    | ']' :: rest => ([']'], rest)
    | _ => ([], text)
  match rest.dropWhile (· != ']') with
  | ']' :: after => some (head ++ rest.takeWhile (· != ']'), after)
  | _ => none

def bracket (body : List Char) : Piece :=
  match body with
  | ['!'] => .anyChar
  | '!' :: inside => .oneOf true (ranges inside)
  | inside => .oneOf false (ranges inside)

/-- Reads a pattern; `fuel` is at least its length. -/
def piecesFrom : Nat → List Char → List Piece
  | _, [] => []
  | 0, _ => []
  | fuel + 1, c :: rest =>
    match c with
    | '*' => .anyRun :: piecesFrom fuel rest
    | '?' => .anyChar :: piecesFrom fuel rest
    | '[' => match bracketBody? rest with
      | some (body, after) => bracket body :: piecesFrom fuel after
      | none => .literal '[' :: piecesFrom fuel rest
    | c => .literal c :: piecesFrom fuel rest

def Piece.accepts : Piece → Char → Bool
  | .literal expected, c => c == expected
  | .anyChar, _ => true
  | .anyRun, _ => true
  | .oneOf negated ranges, c => (ranges.any fun range => range.1 ≤ c && c ≤ range.2) != negated

/-- Whether some tail of `text` satisfies `p`. -/
def anyTail (p : List Char → Bool) : List Char → Bool
  | [] => p []
  | c :: rest => p (c :: rest) || anyTail p rest

def accepts : List Piece → List Char → Bool
  | [], text => text.isEmpty
  | .anyRun :: pieces, text => anyTail (accepts pieces) text
  | piece :: pieces, c :: rest => piece.accepts c && accepts pieces rest
  | _ :: _, [] => false

/-- Whether the whole name fits the pattern; letter case counts. -/
def fits (pattern name : String) : Bool :=
  let text := pattern.toList
  accepts (piecesFrom text.length text) name.toList

end ApiSections.Glob
