import ApiSections.Text.Blank
import ApiSections.Text.Lines

namespace ApiSections.Document

open Text

/-- A line that opens or closes fenced code. -/
def isFenceLine (line : List Char) : Bool :=
  let start := trimLeft line
  "```".toList.isPrefixOf start || "~~~".toList.isPrefixOf start

def isHash (c : Char) : Bool := c == '#'

/-- The depth of a heading line: one to six hash marks and then a blank. -/
def headingLevel? (line : List Char) : Option Nat :=
  let depth := (line.takeWhile isHash).length
  match line.dropWhile isHash with
  | c :: _ => if 1 ≤ depth && depth ≤ 6 && isBlank c then some depth else none
  | [] => none

/-- Whether a line is a heading of depth at most `maxLevel`. -/
def endsRegion (maxLevel : Int) (line : List Char) : Bool :=
  match headingLevel? line with
  | some level => (level : Int) ≤ maxLevel
  | none => false

/-- How many characters stand before the first line that ends a region; lines of fenced code never
do. -/
def boundaryAfter (maxLevel : Int) (fenced : Bool) : List (List Char) → Nat
  | [] => 0
  | line :: rest =>
    if isFenceLine line then line.length + boundaryAfter maxLevel (!fenced) rest
    else if !fenced && endsRegion maxLevel line then 0
    else line.length + boundaryAfter maxLevel fenced rest

/-- The offset of the next heading of depth at most `maxLevel` at or after `start`, or the end of
the text. -/
def headingBoundary (text : List Char) (start : Nat) (maxLevel : Int) : Nat :=
  min start text.length + boundaryAfter maxLevel false (lines (text.drop start))

/-- The hash marks of a heading one level below `level`. -/
def headingMarks (level : Nat) : String := String.ofList (List.replicate (level + 1) '#')

end ApiSections.Document
