import ApiSections.Module.Bind
import ApiSections.Module.Specifier
import ApiSections.Workspace.Basic

namespace ApiSections.Work

def known? (path : Path) : Work (Option Module) := do
  return (← get).modules.find? (·.path == path)

/-- The module of a file with such bytes; one that is known is not bound again. -/
def loadFrom (path : Path) (bytes : Option (List UInt8)) : Work (Option Module) := do
  match ← known? path with
  | some module => return some module
  | none =>
    match bytes with
    | none => return none
    | some bytes =>
      let module := Module.ofBytes path bytes
      modify fun pass => { pass with modules := pass.modules ++ [module] }
      debug "tsdocsync.program" "bind" "Bound source module"
        [("path", .text (toString path)),
          ("exports", .int (module.exports.getD []).length),
          ("syntax_errors", .bool false)]
      return some module

/-- The module of a file, which is read at most once; none if it cannot be read. -/
def load? (path : Path) : Work (Option Module) := do
  let tree := (← read).tree
  loadFrom (tree.resolve path) (tree.read? (tree.resolve path))

/-- The module of a file that has to be there. -/
def load (path : Path) : Work Module := do
  match ← load? path with
  | some module => return module
  | none => throw (.failure (.unreadable (toString path) (some "OSError")))

/-- The module of the first of some paths that is a file. -/
def loadFirst (candidates : List Path) : Work (Option Module) := do
  match candidates.find? (← read).tree.isFile with
  | some path => load? path
  | none => return none

/-- The module that a specifier in a file leads to. -/
def resolveModule (importer : Path) (specifier : String) : Work (Option Module) := do
  if !Module.isPathSpecifier specifier then return none
  match Module.candidates? (importer.parent.join (Path.ofString specifier)) with
  | none => throw .emptyName
  | some candidates => loadFirst candidates

/-- There are no more modules than files. -/
def moduleLimit : Work Nat := do
  return (← read).tree.files.length

end ApiSections.Work
