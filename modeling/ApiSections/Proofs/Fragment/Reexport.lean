import ApiSections.Proofs.Fragment.Settled
import ApiSections.Proofs.Lookup.Chain

/-!
The fragment of a name that is exported again. A chain of specifiers shows the declaration at its end
with that declaration's own doc comment, which is what the declaration's own export shows unless a type
assertion in it leads further.
-/

namespace ApiSections.Fragment

open Text (encode)
open Work (Settles answer)

variable {workspace : Workspace}

/-- The value that the type assertion of a variable leads to, with its symbol. -/
def asserted (workspace : Workspace) (declaration : Declaration) :
    Except Fault (Option (Symbol × Declaration)) :=
  match declaration.shape with
  | .variable _ _ initializer =>
    match assertedExpression? initializer with
    | none => .ok none
    | some expression => (answer workspace (Lookup.symbolAt declaration.path expression)).map
        (·.bind fun inner => inner.valueDeclaration?.map (inner, ·))
  | _ => .ok none

/-- What the name of a declaration stands for that is no alias. -/
def own (symbol : Symbol) (declaration : Declaration) : Option (Symbol × Declaration) → Resolved
  | none => ⟨some declaration, symbol, some declaration⟩
  | some (inner, value) => ⟨some value, inner, some declaration⟩

theorem isAsserted_of_assertedExpression? {initializer : Option Syntax.Node}
    {expression : Syntax.Node} (found : assertedExpression? initializer = some expression) :
    isAsserted initializer = true := by
  obtain ⟨node, bare, found⟩ := Option.bind_eq_some_iff.mp found
  rw [isAsserted, bare]
  dsimp only at found ⊢
  split at found
  · assumption
  · cases found

section Asserted

variable {declaration : Declaration} {statement : VariableStatement}
  {type initializer : Option Syntax.Node} {expression : Syntax.Node}
  (shape : declaration.shape = .variable statement type initializer)

include shape

theorem asserted_none (plain : assertedExpression? initializer = none) :
    asserted workspace declaration = .ok none := by
  simp only [asserted, shape, plain]

theorem asserted_some (found : assertedExpression? initializer = some expression) :
    asserted workspace declaration =
      (answer workspace (Lookup.symbolAt declaration.path expression)).map
        (·.bind fun inner => inner.valueDeclaration?.map (inner, ·)) := by
  simp only [asserted, shape, found]

theorem settles_resolveAssertion (name : String) (symbol : Symbol) :
    Settles workspace (Lookup.rightly workspace)
      (resolveAssertion name symbol declaration initializer)
      ((asserted workspace declaration).map (own symbol declaration)) := by
  rw [resolveAssertion]
  cases found : assertedExpression? initializer with
  | none =>
    rw [asserted_none shape found]
    dsimp only
    rw [pure_bind]
    exact .bind (.emit _ _ _ _) (.pure _)
  | some expression =>
    rw [asserted_some shape found]
    have settles : Settles workspace (Lookup.rightly workspace)
        (Lookup.symbolAt declaration.path expression) _ := Lookup.settles_symbolAt _ _
    cases outcome : answer workspace (Lookup.symbolAt declaration.path expression) with
    | error fault =>
      rw [outcome] at settles
      exact settles.stop _
    | ok inner =>
      rw [outcome] at settles
      apply settles.bind
      simp only [Except.map]
      cases inner with
      | none => exact .bind (.emit _ _ _ _) (.pure _)
      | some inner =>
        simp only [Option.bind_some]
        cases inner.valueDeclaration? with
        | none => exact .bind (.emit _ _ _ _) (.pure _)
        | some value => exact .pure _

end Asserted

/-- The export of a declaration itself. -/
theorem settles_resolve_own (name : String) {symbol : Symbol} {declaration : Declaration}
    (declared : symbol.primary? = some declaration) (noAlias : symbol.isAlias = false) :
    Settles workspace (Lookup.rightly workspace) (resolve name symbol)
      ((asserted workspace declaration).map (own symbol declaration)) := by
  rw [resolve, declared]
  simp only [noAlias, Bool.and_false, Bool.false_eq_true, ↓reduceIte]
  split
  · rename_i initializer shape
    split
    · exact settles_resolveAssertion shape name symbol
    · rename_i plain
      have none : assertedExpression? initializer = none := by
        cases found : assertedExpression? initializer with
        | none => rfl
        | some expression => exact absurd (isAsserted_of_assertedExpression? found) plain
      rw [asserted_none shape none]
      exact .pure _
  · rename_i other
    have none : asserted workspace declaration = .ok none := by
      rw [asserted]
      split
      · exact absurd ‹_› (other _ _ _)
      · rfl
    rw [none]
    exact .pure _

/-- An entry of an export list at the start of a chain. -/
theorem settles_resolve_chain (name : String) {symbol target : Symbol} {length : Nat}
    {specifier declaration : Declaration} {inside : String} {origin : Option String}
    (listed : symbol.Listed workspace) (entry : symbol.primary? = some specifier)
    (shape : specifier.shape = .exportSpecifier inside origin)
    (chain : Lookup.Chain workspace target length symbol)
    (declared : target.primary? = some declaration) :
    Settles workspace (Lookup.rightly workspace) (resolve name symbol)
      (.ok ⟨some declaration, target, some specifier⟩) := by
  rw [resolve, entry]
  simp only [isExport, shape, chain.isAlias listed, Bool.and_self, ↓reduceIte]
  apply (chain.settles_follow listed).bind
  simp only [declared]
  exact .pure _

/-- A specifier has no doc comment, so that the comment behind it is shown. -/
theorem rendered_specifier (marks name : String) {symbol : Symbol}
    {specifier declaration : Declaration} (bare : specifier.doc? = none) :
    rendered marks name ⟨some declaration, symbol, some specifier⟩ =
      rendered marks name ⟨some declaration, symbol, some declaration⟩ := by
  have same : Resolved.doc? ⟨some declaration, symbol, some specifier⟩ =
      Resolved.doc? ⟨some declaration, symbol, some declaration⟩ := by
    simp only [Resolved.doc?, Option.bind_some, bare, Option.none_or, Option.or_self]
  rw [rendered, rendered]
  dsimp only
  rw [same]

theorem doc?_of_listed {symbol : Symbol} {specifier : Declaration} (listed : symbol.Listed workspace)
    (entry : symbol.primary? = some specifier) {inside : String} {origin : Option String}
    (shape : specifier.shape = .exportSpecifier inside origin) : specifier.doc? = none := by
  obtain ⟨module, _, _, stands⟩ := listed.standsIn
  have member : specifier ∈ symbol.declarations := by
    rcases Option.or_eq_some_iff.mp entry with value | ⟨_, first⟩
    · exact List.mem_of_find?_eq_some value
    · exact List.mem_of_head? first
  have bare := ((stands.declarations specifier member).bare (by rw [shape, Shape.isSpecifier])).1
  rw [Declaration.doc?, shape]
  exact bare

theorem exists_primary? {symbol : Symbol} (listed : symbol.Listed workspace) :
    ∃ declaration, symbol.primary? = some declaration := by
  obtain ⟨module, _, _, stands⟩ := listed.standsIn
  rw [Symbol.primary?]
  cases symbol.valueDeclaration? with
  | some declaration => exact ⟨declaration, rfl⟩
  | none =>
    rw [Option.none_or]
    exact ⟨_, List.head?_eq_some_head stands.declared⟩

theorem settles_rendered (marks name : String) (resolved : Resolved) :
    Settles workspace (Lookup.rightly workspace) (rendered marks name resolved)
      (answer workspace (rendered marks name resolved)) :=
  (keeps_rendered (settling_lookups workspace) marks name resolved).settles

theorem answer_renderSymbol (marks : String) {name : String} {symbol : Symbol} {resolved : Resolved}
    (settles : Settles workspace (Lookup.rightly workspace) (resolve name symbol) (.ok resolved)) :
    answer workspace (renderSymbol marks name symbol) =
      answer workspace (rendered marks name resolved) :=
  (settles.bind (settles_rendered marks name resolved)).answer

/-- A name that a chain of specifiers exports again shows the declaration at the end of the chain. Its
fragment is that of the declaration's own export unless the declaration is a type assertion: there the
declaration's own export shows the value that is asserted, and the chain does not. -/
theorem renderSymbol_chain (marks name : String) {symbol target : Symbol} {length : Nat}
    {specifier : Declaration} {inside : String} {origin : Option String}
    (listed : symbol.Listed workspace) (entry : symbol.primary? = some specifier)
    (shape : specifier.shape = .exportSpecifier inside origin)
    (chain : Lookup.Chain workspace target length symbol) :
    ∃ declaration, target.primary? = some declaration ∧
      answer workspace (renderSymbol marks name symbol) =
        answer workspace (rendered marks name ⟨some declaration, target, some declaration⟩) ∧
      (asserted workspace declaration = .ok none →
        answer workspace (renderSymbol marks name symbol) =
          answer workspace (renderSymbol marks name target)) ∧
      ∀ inner value, asserted workspace declaration = .ok (some (inner, value)) →
        answer workspace (renderSymbol marks name target) =
          answer workspace (rendered marks name ⟨some value, inner, some declaration⟩) := by
  have there : target.Listed workspace ∧ target.isAlias = false := chain.ends
  obtain ⟨declaration, declared⟩ := exists_primary? there.1
  have bare := doc?_of_listed listed entry shape
  have shown : answer workspace (renderSymbol marks name symbol) =
      answer workspace (rendered marks name ⟨some declaration, target, some declaration⟩) := by
    rw [← rendered_specifier marks name bare]
    exact answer_renderSymbol marks (settles_resolve_chain name listed entry shape chain declared)
  have direct : Settles workspace _ (resolve name target) _ :=
    settles_resolve_own name declared there.2
  refine ⟨declaration, declared, shown, ?_, ?_⟩
  · intro none
    rw [none] at direct
    rw [shown]
    exact (answer_renderSymbol marks direct).symm
  · intro inner value found
    rw [found] at direct
    exact answer_renderSymbol marks direct

/-- A constant that one module imports and exports under another name, and that a second one exports
again. -/
theorem renderSymbol_chain_imported :
    let tree : FileTree := ⟨Path.ofString "/w", [],
      [(["w", "a"], encode "/** D. */export const x=1"),
        (["w", "b"], encode "import{x as y}from'./a';export{y}"),
        (["w", "c"], encode "export{y as z}from'./b'")]⟩
    let workspace : Workspace := ⟨tree, none, fun _ => .failed "not found"⟩
    ∃ symbol target length,
      (workspace.module? (Path.ofString "c")).bind (·.export? "z") = some symbol ∧
      (workspace.module? (Path.ofString "a")).bind (·.export? "x") = some target ∧
      Lookup.Chain workspace target length symbol ∧
      answer workspace (renderSymbol "#" "n" target) =
        .ok "# n · constant\n\nD.\n\n**Value:** `1`\n\n" ∧
      answer workspace (renderSymbol "#" "n" symbol) =
        answer workspace (renderSymbol "#" "n" target) := by
  intro tree workspace
  have facts :
      ((((workspace.module? (Path.ofString "c")).bind (·.export? "z")).bind
        (·.named? workspace)).bind (·.named? workspace)).bind (·.named? workspace) =
          (workspace.module? (Path.ofString "a")).bind (·.export? "x") ∧
      (((workspace.module? (Path.ofString "c")).bind (·.export? "z")).bind (·.primary?)).map
        (·.shape) = some (.exportSpecifier "y" (some "./b")) ∧
      ((workspace.module? (Path.ofString "a")).bind (·.export? "x")).map (fun target =>
        (target.isAlias, target.primary?.map fun declaration =>
          (asserted workspace declaration).toOption)) = some (false, some (some none)) ∧
      ((workspace.module? (Path.ofString "a")).bind (·.export? "x")).map (fun target =>
        (answer workspace (renderSymbol "#" "n" target)).toOption) =
          some (some "# n · constant\n\nD.\n\n**Value:** `1`\n\n") := by decide +kernel
  obtain ⟨path, entry, own, shown⟩ := facts
  obtain ⟨target, there, own⟩ := Option.map_eq_some_iff.mp own
  obtain ⟨noAlias, plain⟩ := Prod.mk.inj own
  rw [there, Option.map_some] at shown
  rw [there] at path
  obtain ⟨imported, path, last⟩ := Option.bind_eq_some_iff.mp path
  obtain ⟨between, path, second⟩ := Option.bind_eq_some_iff.mp path
  obtain ⟨symbol, exported, first⟩ := Option.bind_eq_some_iff.mp path
  have chain : Lookup.Chain workspace target 2 symbol :=
    .link first (.link second (.last last noAlias))
  obtain ⟨module, found, member⟩ := Option.bind_eq_some_iff.mp exported
  rw [exported, Option.bind_some] at entry
  obtain ⟨specifier, primary, shape⟩ := Option.map_eq_some_iff.mp entry
  obtain ⟨declaration, declared, _, same, _⟩ := renderSymbol_chain "#" "n"
    (Module.listed_of_export? found member) primary shape chain
  rw [declared] at plain
  exact ⟨symbol, target, 2, exported, there, chain, eq_ok_of_toOption (Option.some.inj shown),
    same (eq_ok_of_toOption (Option.some.inj plain))⟩

/-- A type assertion is shown by its value where it is exported, and by its type where it is exported
again. -/
theorem renderSymbol_chain_asserted :
    let tree : FileTree := ⟨Path.ofString "/w", [],
      [(["w", "a"], encode "const i=(x:T)=>x;export const g=i as G"),
        (["w", "b"], encode "export{g}from'./a'")]⟩
    let workspace : Workspace := ⟨tree, none, fun _ => .failed "not found"⟩
    ∃ symbol target,
      (workspace.module? (Path.ofString "b")).bind (·.export? "g") = some symbol ∧
      (workspace.module? (Path.ofString "a")).bind (·.export? "g") = some target ∧
      Lookup.Chain workspace target 0 symbol ∧
      answer workspace (renderSymbol "#" "n" symbol) = .ok "# n · constant\n\n**Value:** `G`\n\n" ∧
      answer workspace (renderSymbol "#" "n" target) =
        .ok "# n · function\n\n**Signature:** `(x: T) => T`\n\n" := by
  intro tree workspace
  have facts :
      ((workspace.module? (Path.ofString "b")).bind (·.export? "g")).bind (·.named? workspace) =
        (workspace.module? (Path.ofString "a")).bind (·.export? "g") ∧
      ((workspace.module? (Path.ofString "b")).bind (·.export? "g")).map (fun symbol =>
        (answer workspace (renderSymbol "#" "n" symbol)).toOption) =
          some (some "# n · constant\n\n**Value:** `G`\n\n") ∧
      ((workspace.module? (Path.ofString "a")).bind (·.export? "g")).map (fun target =>
        (target.isAlias, (answer workspace (renderSymbol "#" "n" target)).toOption)) =
          some (false, some "# n · function\n\n**Signature:** `(x: T) => T`\n\n") := by
    decide +kernel
  obtain ⟨path, again, own⟩ := facts
  obtain ⟨target, there, own⟩ := Option.map_eq_some_iff.mp own
  obtain ⟨noAlias, own⟩ := Prod.mk.inj own
  rw [there] at path
  obtain ⟨symbol, exported, names⟩ := Option.bind_eq_some_iff.mp path
  rw [exported] at again
  exact ⟨symbol, target, exported, there, .last names noAlias,
    eq_ok_of_toOption (Option.some.inj again), eq_ok_of_toOption own⟩

end ApiSections.Fragment
