import ApiSections.File.Tree

/-!
Replacing a file at once: the bytes go to a temporary sibling, which then takes the file's place.
-/

namespace ApiSections

/-- The steps of a replacement at which the system can refuse. -/
inductive ReplaceStep where
  | create
  | fill
  | rename
  deriving Repr, DecidableEq

namespace FileTree

/-- The name of the temporary sibling number `count`. -/
def temporary (parts : List String) (count : Nat) : List String :=
  parts.dropLast ++ ["." ++ parts.getLast?.getD "" ++ "." ++ toString count]

/-- A temporary sibling that does not exist yet. Of more names than there are files one is free. -/
def freshSibling (tree : FileTree) (parts : List String) : List String :=
  let names := (List.range (tree.files.length + 1)).map (temporary parts)
  (names.find? fun name => (tree.bytesAt? name).isNone).getD (temporary parts tree.files.length)

/-- Replaces a file, unless the system refuses a step; the temporary sibling goes either way. The
flag says whether the file was replaced. -/
def replace (tree : FileTree) (refused : Option ReplaceStep) (path : Path) (bytes : List UInt8) :
    Bool × FileTree :=
  let target := (tree.resolve path).parts
  let sibling := tree.freshSibling target
  match refused with
  | some .create => (false, tree)
  | some .fill => (false, (tree.set sibling []).erase sibling)
  | some .rename => (false, (tree.set sibling bytes).erase sibling)
  | none => (true, ((tree.set sibling bytes).set target bytes).erase sibling)

end FileTree

end ApiSections
