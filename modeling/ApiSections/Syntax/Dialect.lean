import ApiSections.Failure.Basic
import ApiSections.File.Path

namespace ApiSections.Syntax

/-- Sources with or without element markup in expressions. -/
inductive Dialect where
  | plain
  | markup
  deriving Repr, DecidableEq, Inhabited

namespace Dialect

def name : Dialect → String
  | plain => "typescript"
  | markup => "tsx"

/-- The dialect of a file by its suffix. -/
def ofPath (path : Path) : Dialect :=
  let suffix := path.suffix.toLower
  if suffix == ".tsx" || suffix == ".jsx" then markup else plain

def ofName (name : String) : Except Failure Dialect :=
  match [plain, markup].find? (·.name == name) with
  | some dialect => .ok dialect
  | none => .error (.configuration
      ("Tree-sitter package 'tree_sitter_typescript' does not expose 'language_" ++ name ++ "()'.")
      (some "AttributeError") [("dialect", .text name)])

end Dialect

end ApiSections.Syntax
