import ApiSections.Document.Heading

/-!
Marker lines: the search phrase at the start of a line and then the path of a source, with the line
above them, which may be a heading.
-/

namespace ApiSections.Document

open Text

def isQuoteOrSpace (c : Char) : Bool := c == ' ' || c == '`'

/-- A character that ends a source path. -/
def endsPath (c : Char) : Bool := c == '`' || c == ':' || c == ' '

/-- What stands before the last line feed of a run, if anything does. -/
def upToLastNewline : List Char → Option (List Char)
  | [] => none
  | c :: rest =>
    match upToLastNewline rest with
    | some kept => some (c :: kept)
    | none => match rest with
      | '\n' :: _ => some [c]
      | _ => none

/-- The source path at the start of `text` and how many characters the marker takes up to and
including its line feed.

The path runs up to a back quote, colon or space, over line feeds too. If those marks do not lead to
the end of the line, it stops short at the last line feed it ran over. -/
def sourcePath (text : List Char) : Option (List Char × Nat) :=
  let path := text.takeWhile (!endsPath ·)
  let after := text.dropWhile (!endsPath ·)
  let marks := after.takeWhile endsPath
  match path, after.dropWhile endsPath with
  | [], _ => none
  | path, '\n' :: _ => some (path, path.length + marks.length + 1)
  | path, _ => (upToLastNewline path).map fun kept => (kept, kept.length + 1)

/-- A marker whose line above starts at some point of the text. -/
structure Marking where
  /-- The rest of the line above, then the marker line with its line feed. -/
  text : List Char
  source : List Char
  deriving Repr, DecidableEq, Inhabited

/-- Reads the rest of a line and the marker line below it. -/
def marking? (phrase text : List Char) : Option Marking :=
  let (above, below) := takeLine text
  if above.getLast? = some '\n' ∧ phrase.isPrefixOf below then
    let afterPhrase := below.drop phrase.length
    let decoration := (afterPhrase.takeWhile isQuoteOrSpace).length
    match sourcePath (afterPhrase.drop decoration) with
    | some (source, taken) =>
      some { text := text.take (above.length + phrase.length + decoration + taken), source }
    | none => none
  else none

/-- A marking behind at most `blanks` blanks, taking as many of them as it can and at least one. -/
def markingBehind? (phrase text : List Char) : Nat → Option (Nat × Marking)
  | 0 => none
  | blanks + 1 =>
    match marking? phrase (text.drop (blanks + 1)) with
    | some found => some (blanks + 1, found)
    | none => markingBehind? phrase text blanks

/-- A marking found at a position, with what the heading in front of it takes. -/
structure Match where
  hashes : Option Nat
  lead : Nat
  marking : Marking
  deriving Repr, DecidableEq, Inhabited

def Match.length (found : Match) : Nat := found.lead + found.marking.text.length

/-- The match at the start of `text`: a heading counts only at the start of a line. -/
def matchAt? (phrase : List Char) (atLineStart : Bool) (text : List Char) : Option Match :=
  let depth := (text.takeWhile isHash).length
  let rest := text.dropWhile isHash
  let headed :=
    if atLineStart && 1 ≤ depth && depth ≤ 6 then
      markingBehind? phrase rest (rest.takeWhile isBlank).length
    else none
  match headed with
  | some (blanks, marking) => some { hashes := some depth, lead := depth + blanks, marking }
  | none => (marking? phrase text).map fun marking => { hashes := none, lead := 0, marking }

/-- The matches of a text from left to right, none overlapping another, with their offsets. `skip`
counts the characters that the last match still covers. -/
def matchesFrom (phrase : List Char) : (offset skip : Nat) → (atLineStart : Bool) → List Char →
    List (Nat × Match)
  | _, _, _, [] => []
  | offset, skip + 1, _, c :: rest => matchesFrom phrase (offset + 1) skip (c == '\n') rest
  | offset, 0, atLineStart, c :: rest =>
    match matchAt? phrase atLineStart (c :: rest) with
    | some found =>
      (offset, found) :: matchesFrom phrase (offset + 1) (found.length - 1) (c == '\n') rest
    | none => matchesFrom phrase (offset + 1) 0 (c == '\n') rest

/-- One marker and the generated text that follows it. -/
structure Region where
  start : Nat
  stop : Nat
  baseLevel : Nat
  hashes : Option Nat
  markerText : List Char
  source : List Char
  deriving Repr, DecidableEq, Inhabited

/-- The heading depth of a marker without a heading. -/
def defaultLevel : Nat := 2

/-- The region of a match; it ends at a heading or where the next match starts. -/
def regionOf (text : List Char) (offset : Nat) (found : Match) (next : Option Nat) : Region :=
  let baseLevel := found.hashes.getD defaultLevel
  let boundary := headingBoundary text (offset + found.length) baseLevel
  { start := offset
    stop := match next with
      | some limit => min boundary limit
      | none => boundary
    baseLevel
    hashes := found.hashes
    markerText := found.marking.text
    source := found.marking.source }

def regionsOf (text : List Char) : List (Nat × Match) → List Region
  | [] => []
  | (offset, found) :: rest =>
    regionOf text offset found (rest.head?.map (·.1)) :: regionsOf text rest

/-- The marker regions of a document, in order. -/
def findMarkers (text phrase : List Char) : List Region :=
  regionsOf text (matchesFrom phrase 0 0 true text)

end ApiSections.Document
