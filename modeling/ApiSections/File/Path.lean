import ApiSections.Text.Lines

namespace ApiSections

/-- A file path in normal form: no empty parts and no single dots; a double dot stays. -/
structure Path where
  /-- Nothing for a relative path, otherwise one or two slashes. -/
  root : String
  parts : List String
  deriving Repr, DecidableEq, Inhabited

namespace Path

/-- Two leading slashes are a root of their own, three are one. -/
def rootOf : List Char → String
  | '/' :: '/' :: '/' :: _ => "/"
  | '/' :: '/' :: _ => "//"
  | '/' :: _ => "/"
  | _ => ""

def ofString (text : String) : Path :=
  { root := rootOf text.toList
    parts := ((Text.splitAt '/' text.toList).map String.ofList).filter
      fun part => part != "" && part != "." }

instance : ToString Path where
  toString path :=
    if path.root.isEmpty && path.parts.isEmpty then "."
    else path.root ++ String.intercalate "/" path.parts

def isAbsolute (path : Path) : Bool := !path.root.isEmpty

/-- The last part, or nothing. -/
def name (path : Path) : String := path.parts.getLast?.getD ""

def parent (path : Path) : Path := { path with parts := path.parts.dropLast }

/-- An absolute right-hand side replaces the left one. -/
def join (base path : Path) : Path :=
  if path.isAbsolute then path else { base with parts := base.parts ++ path.parts }

def child (path : Path) (name : String) : Path := { path with parts := path.parts ++ [name] }

/-- The name up to its last dot and the rest of it; a dot at either end does not count. -/
def splitName (name : List Char) : List Char × List Char :=
  let tail := (name.reverse.takeWhile (· != '.')).reverse
  let stem := name.take (name.length - tail.length - 1)
  if stem.isEmpty || tail.isEmpty || tail.length == name.length then (name, [])
  else (stem, '.' :: tail)

def suffix (path : Path) : String := String.ofList (splitName path.name.toList).2

def stem (path : Path) : String := String.ofList (splitName path.name.toList).1

/-- Removes each double dot with the part before it; at the root it goes nowhere. -/
def collapse : List String → List String → List String
  | done, [] => done.reverse
  | done, ".." :: rest => collapse done.tail rest
  | done, part :: rest => collapse (part :: done) rest

/-- The path from the root without double dots, seen from a working directory. -/
def resolve (directory path : Path) : Path := ⟨"/", collapse [] (directory.join path).parts⟩

end Path

end ApiSections
