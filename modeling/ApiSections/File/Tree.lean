import ApiSections.File.Path
import ApiSections.Text.Utf8

/-!
A tree of files as a value: the working directory, the directories that exist and the files with
their bytes.

Every file of the tree can be read, and every path can be looked up. Permissions, the limits that an
operating system sets on names, and files that change while they are read are left out. So a look-up
answers that there is a file or that there is none, and never fails, and a file that was found never
fails to be read.
-/

namespace ApiSections

structure FileTree where
  /-- The working directory, which exists. -/
  directory : Path
  directories : List (List String)
  files : List (List String × List UInt8)
  deriving Repr, DecidableEq

namespace FileTree

def empty (directory : Path) : FileTree := ⟨directory, [], []⟩

/-- Whether a directory, given by its parts from the root, exists. -/
def hasDirectory (tree : FileTree) (parts : List String) : Bool :=
  parts.isPrefixOf tree.directory.parts || tree.directories.contains parts

def bytesAt? (tree : FileTree) (parts : List String) : Option (List UInt8) :=
  (tree.files.find? (·.1 == parts)).map (·.2)

/-- Follows the parts of a path from a directory; every part but the last has to be a directory that
exists, also in front of a double dot. -/
def walk? (tree : FileTree) : List String → List String → Option (List String)
  | here, [] => some here
  | here, part :: rest =>
    if tree.hasDirectory here then
      tree.walk? (if part = ".." then here.dropLast else here ++ [part]) rest
    else none

/-- Where a path leads, from the working directory on. -/
def locate? (tree : FileTree) (path : Path) : Option (List String) :=
  tree.walk? [] (tree.directory.join path).parts

/-- The bytes of the file that a path leads to. -/
def read? (tree : FileTree) (path : Path) : Option (List UInt8) :=
  (tree.locate? path).bind tree.bytesAt?

def isFile (tree : FileTree) (path : Path) : Bool := (tree.read? path).isSome

/-- A path seen from the working directory, with double dots removed. -/
def resolve (tree : FileTree) (path : Path) : Path := Path.resolve tree.directory path

/-- The proper beginnings of a path, the directories that it needs. -/
def ancestors : List String → List (List String)
  | [] => []
  | [_] => []
  | part :: rest => [part] :: (ancestors rest).map (part :: ·)

/-- Puts bytes at a place of a directory that exists. -/
def set (tree : FileTree) (parts : List String) (bytes : List UInt8) : FileTree :=
  { tree with
    files :=
      if tree.files.any (·.1 == parts) then
        tree.files.map fun file => if file.1 == parts then (parts, bytes) else file
      else tree.files ++ [(parts, bytes)] }

def erase (tree : FileTree) (parts : List String) : FileTree :=
  { tree with files := tree.files.filter (·.1 != parts) }

/-- Puts bytes at a place, and makes the directories that it needs. -/
def put (tree : FileTree) (parts : List String) (bytes : List UInt8) : FileTree :=
  { tree with
    directories := tree.directories ++
      (ancestors parts).filter fun place => !tree.directories.contains place }.set parts bytes

def write (tree : FileTree) (path : Path) (bytes : List UInt8) : FileTree :=
  tree.put (tree.resolve path).parts bytes

def delete (tree : FileTree) (path : Path) : FileTree := tree.erase (tree.resolve path).parts

/-- The path of a place below the working directory, as seen from there. -/
def relative (tree : FileTree) (path : Path) : Path :=
  if tree.directory.parts.isPrefixOf path.parts then
    ⟨"", path.parts.drop tree.directory.parts.length⟩
  else path

/-- All files below the working directory, sorted. -/
def listing (tree : FileTree) : List String :=
  (tree.files.map fun file => toString (tree.relative ⟨"/", file.1⟩)).mergeSort (· ≤ ·)

end FileTree

end ApiSections
