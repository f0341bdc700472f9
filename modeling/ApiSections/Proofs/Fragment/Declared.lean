import ApiSections.Proofs.Fragment.Ended
import ApiSections.Proofs.Fragment.Faults
import ApiSections.Proofs.Fragment.Reexport
import ApiSections.Proofs.Module.Bound

/-!
No name is without a declaration: the tables of every source are bound as they should be, aliases lead
from symbol to symbol of such tables, and every fragment shows a declaration.
-/

namespace ApiSections

open Syntax (Laid)
open Text (encode)

namespace Fragment

variable {workspace : Workspace} {pass last : Pass}

section Exported

variable {name : String} {symbol : Symbol} {exported : Declaration} {resolved : Resolved}

theorem returns_resolveAlias
    (ran : Returns (resolveAlias name symbol exported) workspace pass resolved last) :
    resolved.exported = some exported ∧ ∃ shown, resolved.declaration = some shown := by
  rw [resolveAlias, returns_bind] at ran
  obtain ⟨target, _, _, ran⟩ := ran
  cases target with
  | error error =>
    simp only [returns_bind, returns_pure] at ran
    obtain ⟨_, _, _, rfl, _⟩ := ran
    exact ⟨rfl, exported, rfl⟩
  | ok target =>
    dsimp only at ran
    split at ran
    · rename_i found _
      rw [(returns_pure.mp ran).1]
      exact ⟨rfl, found, rfl⟩
    · rw [(returns_pure.mp ran).1]
      exact ⟨rfl, exported, rfl⟩

/-- What the search for the asserted name comes to does not matter below, nor whether there is one. -/
theorem exists_search_of_resolveAssertion {initializer : Option Syntax.Node}
    (ran : Returns (resolveAssertion name symbol exported initializer) workspace pass resolved last) :
    ∃ (search : Work (Option Symbol)), Returns (do
      let found ← search
      match found, found.bind (·.valueDeclaration?) with
      | some inner, some value => return ⟨some value, inner, some exported⟩
      | _, _ =>
        Work.emit (resolverLogger name) debugLevel "Type assertion target not found" []
        return ⟨some exported, symbol, some exported⟩) workspace pass resolved last := by
  rw [resolveAssertion] at ran
  split at ran
  · exact ⟨_, ran⟩
  · exact ⟨_, ran⟩

theorem returns_resolveAssertion {initializer : Option Syntax.Node}
    (ran : Returns (resolveAssertion name symbol exported initializer) workspace pass resolved last) :
    resolved.exported = some exported ∧ ∃ shown, resolved.declaration = some shown := by
  obtain ⟨search, ran⟩ := exists_search_of_resolveAssertion ran
  rw [returns_bind] at ran
  obtain ⟨found, _, _, ran⟩ := ran
  split at ran
  · rename_i value _ _
    rw [(returns_pure.mp ran).1]
    exact ⟨rfl, value, rfl⟩
  · simp only [returns_bind, returns_pure] at ran
    obtain ⟨_, _, _, rfl, _⟩ := ran
    exact ⟨rfl, exported, rfl⟩

/-- An export keeps its own declaration, and shows another one only as an alias or an assertion. -/
theorem returns_resolve (declared : symbol.primary? = some exported)
    (ran : Returns (resolve name symbol) workspace pass resolved last) :
    resolved.exported = some exported ∧ (∃ shown, resolved.declaration = some shown) ∧
      (resolved.declaration = some exported ∨ isExport exported = true ∨
        isVariable exported = true) := by
  have itself : Returns (pure ⟨some exported, symbol, some exported⟩ : Work Resolved) workspace pass
      resolved last → resolved.exported = some exported ∧
        (∃ shown, resolved.declaration = some shown) ∧ (resolved.declaration = some exported ∨
          isExport exported = true ∨ isVariable exported = true) := by
    intro ran
    rw [(returns_pure.mp ran).1]
    exact ⟨rfl, ⟨exported, rfl⟩, .inl rfl⟩
  rw [resolve, declared] at ran
  dsimp only at ran
  split at ran
  · rename_i leads
    obtain ⟨keeps, shows⟩ := returns_resolveAlias ran
    exact ⟨keeps, shows, .inr (.inl (Bool.and_eq_true_iff.mp leads).1)⟩
  · split at ran
    · rename_i shape
      split at ran
      · obtain ⟨keeps, shows⟩ := returns_resolveAssertion ran
        exact ⟨keeps, shows, .inr (.inr (by rw [isVariable, shape]))⟩
      · exact itself ran
    · exact itself ran

/-- What a symbol with a declaration stands for has a declaration to show. -/
theorem resolve_declared (found : symbol.primary? = some exported)
    (ran : Returns (resolve name symbol) workspace pass resolved last) :
    ∃ shown, resolved.declaration = some shown :=
  (returns_resolve found ran).2.1

end Exported

/-- The fragment of a name is made from a declaration. -/
def Shown (workspace : Workspace) (marks name fragment : String) : Prop :=
  ∃ resolved declaration pass last, resolved.declaration = some declaration ∧
    Returns (rendered marks name resolved) workspace pass fragment last

theorem label_ne_empty (kind : DeclarationKind) : kind.label ≠ "" := by
  cases kind <;> decide

theorem linked_ne_empty {text label : String} {header : Header} (some_text : text ≠ "")
    (ran : Returns (linked text header) workspace pass label last) : label ≠ "" := by
  simp only [linked, returns_bind] at ran
  obtain ⟨url, _, _, ran⟩ := ran
  cases url with
  | none =>
    rw [(returns_pure.mp ran).1]
    exact some_text
  | some url =>
    rw [(returns_pure.mp ran).1]
    split
    · exact some_text
    · simp

/-- The heading of such a fragment has a label, which that of a name without a declaration has not. -/
theorem Shown.ne_undeclared {marks name fragment : String}
    (shown : Shown workspace marks name fragment) :
    fragment ≠ heading marks name none none ++ noDeclaration := by
  obtain ⟨resolved, declaration, _, _, declared, ran⟩ := shown
  simp only [rendered, declared, returns_bind, returns_pure] at ran
  obtain ⟨_, _, _, _, _, _, label, _, links, below, _, _, rfl, _⟩ := ran
  have labelled := linked_ne_empty (label_ne_empty _) links
  intro same
  have lists := congrArg String.toList same
  simp [heading, labelled, String.toList_append] at lists

theorem renderSymbol_shown {marks name text : String} {symbol : Symbol} {declaration : Declaration}
    (found : symbol.primary? = some declaration)
    (ran : Returns (renderSymbol marks name symbol) workspace pass text last) :
    Shown workspace marks name text := by
  rw [renderSymbol, returns_bind] at ran
  obtain ⟨resolved, between, resolves, ran⟩ := ran
  obtain ⟨shown, declared⟩ := resolve_declared found resolves
  exact ⟨resolved, shown, between, last, declared, ran⟩

/-- Every export of a file has a fragment of its own, which shows a declaration. -/
theorem render_shown {right : Work.Rightness} (sound : Work.Sound workspace right pass)
    {path : Path} {marks text : String}
    (ran : Returns (render path marks) workspace pass text last) :
    ∃ module fragments, workspace.module? path = some module ∧ text = String.join fragments ∧
      List.Forall₂ (fun symbol fragment => Shown workspace marks symbol.name fragment) module.exported
        fragments := by
  obtain ⟨module, between, fragments, loads, renders, rfl⟩ := returns_render ran
  have found : workspace.module? path = some module := by
    rw [Work.load, returns_bind] at loads
    obtain ⟨loaded, _, reads, loads⟩ := loads
    obtain ⟨_, same, _⟩ := Work.settles_load? path pass sound
    cases same.symm.trans reads
    split at loads
    · rename_i known
      rw [known, (returns_pure.mp loads).1]
    · exact absurd loads not_returns_throw
  refine ⟨module, fragments, found, rfl, forall₂_of_returns_mapM ?_ renders⟩
  intro symbol member _ _ _ shows
  obtain ⟨declaration, declared⟩ := exists_primary? (Module.listed_of_exported found member)
  exact renderSymbol_shown declared shows

end Fragment

/-- The tables of every source keep their names, declarations, flags and order. So an alias has a first
declaration to be followed by, from one symbol of a table to another, and no fragment is the one of a
name without a declaration. -/
theorem tables_bound :
    (∀ (path : Path) (tree : Syntax.Node) (start stop : Nat), Laid start stop tree.children →
      Module.Bound path tree.children (Module.ofTree path tree)) ∧
    (∀ (path : Path) (bytes : List UInt8),
      Module.Bound path (Module.statements path bytes) (Module.ofBytes path bytes)) ∧
    ∀ (workspace : Workspace) (right : Work.Rightness) (pass : Pass),
      Work.Sound workspace right pass →
      (∀ symbol : Symbol, symbol.Listed workspace →
        (∃ declaration, symbol.declarations.head? = some declaration) ∧
        ∀ next last, (Lookup.aliasTarget symbol).execute workspace pass = (.ok (.ok next), last) →
          next.Listed workspace) ∧
      ∀ (path : Path) (marks text : String) (last : Pass),
        Returns (Fragment.render path marks) workspace pass text last →
        ∃ module fragments, workspace.module? path = some module ∧ text = String.join fragments ∧
          List.Forall₂ (fun symbol fragment => Fragment.Shown workspace marks symbol.name fragment ∧
            fragment ≠ Fragment.heading marks symbol.name none none ++ Fragment.noDeclaration)
            module.exported fragments := by
  refine ⟨fun path tree start stop laid => Module.bound_ofTree path laid, Module.bound_ofBytes, ?_⟩
  intro workspace right pass sound
  refine ⟨?_, ?_⟩
  · intro symbol listed
    obtain ⟨_, _, _, stands⟩ := listed.standsIn
    refine ⟨⟨_, List.head?_eq_some_head stands.declared⟩, ?_⟩
    intro next last ran
    obtain ⟨outcome, settles, leads⟩ := @Lookup.yields_aliasTarget workspace right symbol
    obtain ⟨_, same, _⟩ := settles pass sound
    cases same.symm.trans ran
    exact leads _ rfl next rfl
  · intro path marks text last ran
    obtain ⟨module, fragments, found, joined, shown⟩ := Fragment.render_shown sound ran
    exact ⟨module, fragments, found, joined, shown.imp fun _ _ here => ⟨here, here.ne_undeclared⟩⟩

/-- A name that is listed for export before it is declared, and then twice: the exported symbol and the
one of the module are two, both are declared, and the first is followed to the second. -/
theorem tables_bound_redeclared :
    let source := encode "export{x};var x;var x"
    let path := Path.ofString "/w/a"
    let tree := Syntax.parse (.ofPath path) (Text.decodeLossy source)
    let module := Module.ofTree path tree
    let workspace : Workspace :=
      ⟨⟨Path.ofString "/w", [], [(["w", "a"], source)]⟩, none, fun _ => .failed "not found"⟩
    Module.Bound path tree.children module ∧
    (module.locals ++ module.exported).map (fun symbol => (symbol.name, symbol.declarations.length)) =
      [("x", 2), ("x", 1)] ∧
    ∃ text last module fragments symbol declaration next following,
      Returns (Fragment.render (Path.ofString "a") "#") workspace .empty text last ∧
      workspace.module? (Path.ofString "a") = some module ∧ text = String.join fragments ∧
      List.Forall₂ (fun symbol fragment => Fragment.Shown workspace "#" symbol.name fragment ∧
        fragment ≠ Fragment.heading "#" symbol.name none none ++ Fragment.noDeclaration)
        module.exported fragments ∧
      module.exported = [symbol] ∧ symbol.declarations.head? = some declaration ∧
      (Lookup.aliasTarget symbol).execute workspace .empty = (.ok (.ok next), following) ∧
      next.Listed workspace := by
  intro source path tree module workspace
  -- Stated for every text, since this one would be parsed again at each step.
  have bound : ∀ dialect text, let tree := Syntax.parse dialect text
      Module.Bound path tree.children (Module.ofTree path tree) := by
    intro dialect text
    obtain ⟨stop, laid⟩ := Syntax.laid_parse dialect text
    exact tables_bound.1 path _ 0 stop laid
  have counted : (module.locals ++ module.exported).map
      (fun symbol => (symbol.name, symbol.declarations.length)) = [("x", 2), ("x", 1)] := by
    decide +kernel
  let render := Fragment.render (Path.ofString "a") "#"
  have returns : (render.execute workspace .empty).1.isOk = true := by decide +kernel
  have targets : (workspace.module? (Path.ofString "a")).map (fun module =>
      module.exported.map fun symbol =>
        (((Lookup.aliasTarget symbol).execute workspace .empty).1.toOption.bind
          Except.toOption).isSome) = some [true] := by
    decide +kernel
  obtain ⟨text, last, ran⟩ : ∃ text last, render.execute workspace .empty = (.ok text, last) := by
    generalize render.execute workspace .empty = outcome at returns
    obtain ⟨fault | text, last⟩ := outcome
    · cases returns
    · exact ⟨text, last, rfl⟩
  obtain ⟨follows, shows⟩ := tables_bound.2.2 workspace Work.anything .empty Work.sound_empty
  obtain ⟨listed, fragments, found, joined, shown⟩ := shows _ _ text last ran
  rw [found, Option.map_some, Option.some.injEq, List.map_eq_singleton_iff] at targets
  obtain ⟨symbol, only, leads⟩ := targets
  have among : symbol.Listed workspace := Module.listed_of_exported found (by simp [only])
  obtain ⟨⟨declaration, declared⟩, onward⟩ := follows symbol among
  obtain ⟨next, following, target⟩ : ∃ next following,
      (Lookup.aliasTarget symbol).execute workspace .empty = (.ok (.ok next), following) := by
    generalize (Lookup.aliasTarget symbol).execute workspace .empty = outcome at leads
    obtain ⟨fault | fault | next, following⟩ := outcome
    · cases leads
    · cases leads
    · exact ⟨next, following, rfl⟩
  exact ⟨bound _ _, counted, text, last, listed, fragments, symbol, declaration, next, following, ran,
    found, joined, shown, only, declared, target, onward next following target⟩

end ApiSections
