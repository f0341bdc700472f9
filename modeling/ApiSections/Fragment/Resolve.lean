import ApiSections.Lookup.Member

/-!
The declaration behind an exported name: aliases and assertions lead to another one.
-/

namespace ApiSections.Fragment

open Syntax (Node unwrap)

structure Resolved where
  /-- The declaration that is shown. -/
  declaration : Option Declaration
  /-- The symbol whose type is shown. -/
  symbol : Symbol
  /-- The declaration of the export itself, whose doc comment comes first. -/
  exported : Option Declaration

def resolverLogger (name : String) : Log.Logger :=
  ⟨"tsdocsync.resolver", [("operation", .text "resolve"), ("symbol", .text name)]⟩

/-- The expression under a type assertion. -/
def assertedExpression? (initializer : Option Node) : Option Node :=
  (initializer.bind unwrap).bind fun node =>
    if node.kind == .asExpression then node.operands.head? else none

/-- Whether an initializer is a type assertion. -/
def isAsserted (initializer : Option Node) : Bool :=
  match initializer.bind unwrap with
  | some node => node.kind == .asExpression
  | none => false

def isExport (declaration : Declaration) : Bool :=
  match declaration.shape with
  | .exportSpecifier _ _ | .exportAssignment _ => true
  | _ => false

def resolveAlias (name : String) (symbol : Symbol) (declaration : Declaration) : Work Resolved := do
  match ← Lookup.follow symbol with
  | .error error =>
    Work.emit (resolverLogger name) debugLevel "Alias kept unresolved"
      [("reason", .text error.reason)]
    return ⟨some declaration, symbol, some declaration⟩
  | .ok target =>
    match target.primary? with
    | some found => return ⟨some found, target, some declaration⟩
    | none => return ⟨some declaration, symbol, some declaration⟩

def resolveAssertion (name : String) (symbol : Symbol) (declaration : Declaration)
    (initializer : Option Node) : Work Resolved := do
  let found ← match assertedExpression? initializer with
    | some expression => Lookup.symbolAt declaration.path expression
    | none => pure none
  match found, found.bind (·.valueDeclaration?) with
  | some inner, some value => return ⟨some value, inner, some declaration⟩
  | _, _ =>
    Work.emit (resolverLogger name) debugLevel "Type assertion target not found" []
    return ⟨some declaration, symbol, some declaration⟩

/-- What an exported name stands for. A chain that leads nowhere leaves the export as it is. -/
def resolve (name : String) (symbol : Symbol) : Work Resolved := do
  match symbol.primary? with
  | none => return ⟨none, symbol, none⟩
  | some declaration =>
    if isExport declaration && symbol.isAlias then resolveAlias name symbol declaration
    else match declaration.shape with
      | .variable _ _ initializer =>
        if isAsserted initializer then resolveAssertion name symbol declaration initializer
        else return ⟨some declaration, symbol, some declaration⟩
      | _ => return ⟨some declaration, symbol, some declaration⟩

/-- The doc comment of an export, or else that of the declaration behind it. -/
def Resolved.doc? (resolved : Resolved) : Option DocComment :=
  (resolved.exported.bind (·.doc?)).or (resolved.declaration.bind (·.doc?))

end ApiSections.Fragment
