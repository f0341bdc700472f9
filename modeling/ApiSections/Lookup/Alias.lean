import ApiSections.Workspace.Walk

/-!
Aliases: imports, entries of export lists and default exports of names lead to other symbols. All files
of the tree can be read, so none of the reasons to lead nowhere is a file that cannot.
-/

namespace ApiSections.Lookup

open Syntax (Node)

/-- Why an alias leads nowhere. -/
structure AliasError where
  name : String
  reason : String
  deriving Repr, DecidableEq

def AliasError.toFailure (error : AliasError) : Failure := .unresolved error.name error.reason

/-- The symbol that a module has under a name. -/
def localOf (path : Path) (name referrer : String) : Work (Except AliasError Symbol) := do
  match (← Work.load? path).bind (·.local? name) with
  | some symbol => return .ok symbol
  | none => return .error ⟨referrer, s!"'{name}' is not declared in {path.name}"⟩

/-- The symbol that a module exports under a name; a default may be an exported assignment. -/
def exportNamed? (module : Module) (name : String) : Option Symbol :=
  match module.export? name with
  | some symbol => some symbol
  | none => if name == "default" then module.export? "export=" else none

/-- The symbol that another module exports. -/
def exportOf (importer : Path) (specifier name : String) : Work (Except AliasError Symbol) := do
  match ← Work.resolveModule importer specifier with
  | none => return .error ⟨name, s!"cannot resolve module '{specifier}'"⟩
  | some module =>
    if !module.isModule then return .error ⟨name, s!"'{specifier}' has no exports"⟩
    match exportNamed? module name with
    | some symbol => return .ok symbol
    | none => return .error ⟨name, s!"'{specifier}' does not export '{name}'"⟩

/-- The symbol that an alias names, by its first declaration. -/
def aliasTarget (symbol : Symbol) : Work (Except AliasError Symbol) := do
  match symbol.declarations.head? with
  | none => return .error ⟨symbol.name, "unsupported alias"⟩
  | some declaration =>
    match declaration.shape with
    | .exportSpecifier inside none => localOf declaration.path inside symbol.name
    | .exportSpecifier inside (some source) => exportOf declaration.path source inside
    | .importSpecifier inside source => exportOf declaration.path source inside
    | .exportAssignment expression =>
      match Syntax.unwrap expression with
      | some node =>
        if node.kind == .identifier then localOf declaration.path node.text symbol.name
        else return .error ⟨symbol.name, s!"unsupported alias {declaration.label}"⟩
      | none => return .error ⟨symbol.name, s!"unsupported alias {declaration.label}"⟩
    | _ => return .error ⟨symbol.name, s!"unsupported alias {declaration.label}"⟩

/-- The walk from alias to alias, on behalf of the one with a name. -/
def aliases (name : String) : Walk Symbol (Except AliasError Symbol) where
  source symbol := symbol.id.path
  extent module := module.symbols.length
  step follow symbol := do
    match ← aliasTarget symbol with
    | .error error => return .error error
    | .ok next => if next.isAlias then follow next else return .ok next
  stop := .error ⟨name, "circular alias chain"⟩

/-- The symbol at the end of a chain of aliases. -/
def follow (symbol : Symbol) : Work (Except AliasError Symbol) := do
  if symbol.isAlias then (aliases symbol.name).run symbol else return .ok symbol

end ApiSections.Lookup
