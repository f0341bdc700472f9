import ApiSections.File.Tree

/-!
Where a module specifier may lead: the file itself, the file with a suffix, or the index of a
directory.
-/

namespace ApiSections.Module

def scriptSuffixes : List String := [".ts", ".tsx", ".d.ts", ".js", ".jsx", ".mts", ".cts"]

/-- The sources that a compiled file may come from, before the file itself. -/
def sourceSuffixes : String → List String
  | ".js" => [".ts", ".tsx", ".d.ts", ".js"]
  | ".jsx" => [".tsx", ".jsx"]
  | ".mjs" => [".mts", ".d.mts", ".mjs"]
  | ".cjs" => [".cts", ".d.cts", ".cjs"]
  | _ => []

/-- Packages are not looked for: only relative and absolute specifiers lead to files. -/
def isPathSpecifier (specifier : String) : Bool :=
  specifier.toList.head? == some '.' || specifier.toList.head? == some '/'

/-- The files to try, in order; none for a path without a last part, such as the root. -/
def candidates? (base : Path) : Option (List Path) :=
  if base.name.isEmpty then none
  else
    let sources := (sourceSuffixes base.suffix).map fun suffix =>
      base.parent.child (base.stem ++ suffix)
    let suffixed := scriptSuffixes.map fun suffix => base.parent.child (base.name ++ suffix)
    let indices := scriptSuffixes.map fun suffix => base.child ("index" ++ suffix)
    some (sources ++ base :: suffixed ++ indices)

end ApiSections.Module
