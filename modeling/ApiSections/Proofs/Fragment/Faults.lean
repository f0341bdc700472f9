import ApiSections.Proofs.Fragment.Likeness
import ApiSections.Proofs.Lookup.Placed

/-!
What can stop the rendering of a module. Aliases and types that lead nowhere have answers of their
own; a module specifier whose path has no last part has none.
-/

namespace ApiSections

/-- The specifier of the module that a declaration takes its symbol from. -/
def Declaration.specifier? (declaration : Declaration) : Option String :=
  match declaration.shape with
  | .exportSpecifier _ source => source
  | .importSpecifier _ source => some source
  | _ => none

/-- Some module of the tree takes a symbol from a path without a last part. -/
def Workspace.Nameless (workspace : Workspace) : Prop :=
  ∃ module symbol declaration specifier, workspace.module? module.path = some module ∧
    symbol ∈ module.symbols ∧ declaration ∈ symbol.declarations ∧
    declaration.specifier? = some specifier ∧ Module.isPathSpecifier specifier = true ∧
    Module.candidates? (declaration.path.parent.join (Path.ofString specifier)) = none

namespace Work

variable {workspace : Workspace} {α β : Type}

/-- Anything is taken for rightly remembered. -/
def anything : Rightness where
  property _ _ _ := True
  members _ _ := True

/-- If a step stops, then at a specifier without a last part. -/
def Blames (workspace : Workspace) (step : Work α) : Prop :=
  Ends workspace anything step fun outcome =>
    ∀ fault, outcome = .error fault → fault = .emptyName ∧ workspace.Nameless

theorem Settles.blames {step : Work α} {value : α}
    (settles : Settles workspace anything step (.ok value)) : Blames workspace step :=
  settles.ends fun _ same => nomatch same

theorem Blames.bind {step : Work α} {next : α → Work β} (start : Blames workspace step)
    (rest : ∀ value, Blames workspace (next value)) : Blames workspace (step >>= next) := by
  apply Ends.bind start (fun value _ => rest value)
  intro fault held other same
  cases same
  exact held fault rfl

/-- A step that yields something, and what follows from it. -/
theorem Blames.bindYields {step : Work α} {next : α → Work β} {given : α → Prop}
    (start : Blames workspace step) (yields : Yields workspace anything step given)
    (rest : ∀ value, given value → Blames workspace (next value)) :
    Blames workspace (step >>= next) := by
  have both : Ends workspace anything step fun outcome =>
      (∀ fault, outcome = .error fault → fault = .emptyName ∧ workspace.Nameless) ∧
        ∀ value, outcome = .ok value → given value := by
    intro pass sound
    obtain ⟨outcome, last, ran, kept, held⟩ := start pass sound
    obtain ⟨_, settles, yielded⟩ := yields
    obtain ⟨_, ran', _⟩ := settles pass sound
    cases ran.symm.trans ran'
    exact ⟨outcome, last, ran, kept, held, yielded⟩
  apply Ends.bind both (fun value held => rest value (held.2 value rfl))
  intro fault held other same
  cases same
  exact held.1 fault rfl

/-- To stop for that reason only is kept when steps are put together. -/
def blaming (workspace : Workspace) : Likeness where
  alike first second := first = second ∧ Blames workspace first
  pure value := ⟨rfl, (Settles.pure value).blames⟩
  bind start rest := by
    obtain ⟨rfl, start⟩ := start
    exact ⟨congrArg _ (funext fun value => (rest value).1), start.bind fun value => (rest value).2⟩
  emit logger level message extra := ⟨rfl, (Settles.emit logger level message extra).blames⟩

theorem Blames.keeps {step : Work α} (blames : Blames workspace step) :
    (blaming workspace).Keeps step :=
  ⟨rfl, blames⟩

theorem blames_remembered (owner : Symbol) (name : String) :
    Blames workspace (remembered owner name) :=
  fun pass sound => ⟨_, pass, rfl, sound, fun _ same => nomatch same⟩

theorem blames_remember (owner : Symbol) (name : String) (found : Option Symbol) :
    Blames workspace (remember owner name found) := by
  have noted : Settles workspace anything (remember owner name found) (.ok ()) :=
    .note fun _ sound => ⟨sound.modules, sound.links, sound.members, fun _ _ => trivial⟩
  exact noted.blames

theorem blames_membersAt (place : Place) (members : List Member) :
    Blames workspace (membersAt place members) := by
  apply Ends.look
  intro pass sound
  split
  · exact (Settles.pure _).blames pass sound
  · apply Blames.bind (Settles.note _).blames (fun _ => (Settles.pure _).blames) pass sound
    exact fun _ sound => ⟨sound.modules, sound.links, fun _ _ => trivial, sound.properties⟩

end Work

namespace Lookup

open Work (Blames Settles anything blaming)

variable {workspace : Workspace}

theorem blames_localOf (path : Path) (name referrer : String) :
    Blames workspace (localOf path name referrer) :=
  (keeps_localOf (L := blaming workspace) (fun path => (Work.settles_load? path).blames.keeps)
    path name referrer).2

theorem blames_exportOf {importer : Path} {specifier : String}
    (listed : Module.isPathSpecifier specifier = true →
      Module.candidates? (importer.parent.join (Path.ofString specifier)) = none →
      workspace.Nameless) (name : String) : Blames workspace (exportOf importer specifier name) := by
  apply Blames.bind
  · apply (Work.settles_resolveModule importer specifier).ends
    intro fault same
    rw [Work.resolution] at same
    split at same
    · rename_i isPath
      split at same
      · rename_i nameless
        cases same
        exact ⟨rfl, listed isPath nameless⟩
      · cases same
    · cases same
  · intro found
    split
    · exact (Settles.pure _).blames
    · split
      · exact (Settles.pure _).blames
      · split
        · exact (Settles.pure _).blames
        · exact (Settles.pure _).blames

/-- From a symbol of a module the step along an alias stops only at a specifier of that module. -/
theorem blames_aliasTarget {symbol : Symbol} (listed : symbol.Listed workspace) :
    Blames workspace (aliasTarget symbol) := by
  obtain ⟨module, found, member⟩ := listed
  have named : ∀ declaration specifier, symbol.declarations.head? = some declaration →
      declaration.specifier? = some specifier → Module.isPathSpecifier specifier = true →
      Module.candidates? (declaration.path.parent.join (Path.ofString specifier)) = none →
      workspace.Nameless := fun declaration specifier first source isPath nameless =>
    ⟨module, symbol, declaration, specifier, found, member, List.mem_of_head? first, source, isPath,
      nameless⟩
  rw [aliasTarget]
  split
  · exact (Settles.pure _).blames
  · rename_i declaration first
    split
    · exact blames_localOf _ _ _
    · rename_i shape
      exact blames_exportOf (named declaration _ first (by rw [Declaration.specifier?, shape])) _
    · rename_i shape
      exact blames_exportOf (named declaration _ first (by rw [Declaration.specifier?, shape])) _
    · split
      · split
        · exact blames_localOf _ _ _
        · exact (Settles.pure _).blames
      · exact (Settles.pure _).blames
    · exact (Settles.pure _).blames

theorem blames_follow {symbol : Symbol} (listed : symbol.Listed workspace) :
    Blames workspace (follow symbol) := by
  have load : ∀ path, (blaming workspace).Keeps (Work.load? path) :=
    fun path => (Work.settles_load? path).blames.keeps
  rw [follow]
  split
  · apply And.right
    apply Work.Likeness.keeps_run (L := blaming workspace) (Symbol.Listed workspace) load
      Work.settles_moduleLimit.blames.keeps _ listed
    intro next item listed ih
    apply Blames.keeps
    apply Blames.bindYields (blames_aliasTarget listed) (yields_aliasTarget item)
    intro target found
    split
    · exact (Settles.pure _).blames
    · split
      · exact (ih _ (found _ rfl)).2
      · exact (Settles.pure _).blames
  · exact (Settles.pure _).blames

theorem blaming_names (workspace : Workspace) : Names (blaming workspace) where
  load path := (Work.settles_load? path).blames.keeps
  limit := Work.settles_moduleLimit.blames.keeps
  named path name := by
    apply Blames.keeps
    apply Blames.bindYields (Work.settles_load? path).blames
      ((Work.settles_load? path).yields fun _ => Except.ok.inj)
    rintro _ rfl
    split
    · rename_i symbol found
      exact (keeps_followNoted (L := blaming workspace)
        (blames_follow (Module.listed_of_declared found)).keeps).2
    · exact (Settles.pure _).blames
  type path name := by
    apply Blames.keeps
    apply Blames.bindYields (Work.settles_load? path).blames
      ((Work.settles_load? path).yields fun _ => Except.ok.inj)
    rintro _ rfl
    split
    · exact (Settles.pure _).blames
    · rename_i symbol found
      apply Blames.bind (blames_follow (Module.listed_of_declared found))
      intro target
      split
      · exact (Settles.pure _).blames
      · exact (Settles.pure _).blames

end Lookup

namespace Fragment

open Text (encode)
open Work (Blames Settles blaming)

variable {workspace : Workspace}

theorem blaming_lookups (workspace : Workspace) : Lookups (blaming workspace) where
  symbol := Lookup.keeps_symbolAt (Lookup.blaming_names workspace)
    (fun place members => (Work.blames_membersAt place members).keeps)
    (fun owner name => (Work.blames_remembered owner name).keeps)
    (fun owner name found => (Work.blames_remember owner name found).keeps)
  link path line := (Work.settles_linkFor path line).blames.keeps

theorem blames_renderSymbol (marks name : String) {symbol : Symbol}
    (listed : symbol.Listed workspace) : Blames workspace (renderSymbol marks name symbol) :=
  (keeps_renderSymbol (blaming_lookups workspace) marks name
    (Lookup.blames_follow listed).keeps).2

theorem blames_render {path : Path} (marks : String)
    (exports : (workspace.module? path).any (·.isModule) = true) :
    Blames workspace (render path marks) := by
  obtain ⟨module, found, isModule⟩ := (Option.any_eq_true _ _).mp exports
  have loads : Settles workspace Work.anything (Work.load path) (.ok module) := by
    apply (Work.settles_load? path).bind
    rw [found]
    exact .pure module
  apply Blames.bindYields loads.blames (loads.yields fun _ => Except.ok.inj)
  rintro _ rfl
  rw [isModule]
  have fragments : (blaming workspace).Keeps
      (module.exported.mapM fun symbol => renderSymbol marks symbol.name symbol) :=
    Work.Likeness.keeps_mapM fun symbol member =>
      (blames_renderSymbol marks symbol.name (Module.listed_of_exported found member)).keeps
  exact fragments.2.bind fun texts => (Settles.pure _).blames

/-- The fragments of a readable module are always given, but for one reason: some module of the tree
takes a symbol from a path without a last part, and rendering came to it. -/
theorem render_returns_or_nameless (workspace : Workspace) (path : Path) (marks : String)
    (exports : (workspace.module? path).any (·.isModule) = true) :
    (∃ text last, Returns (render path marks) workspace .empty text last) ∨
      workspace.Nameless ∧
        ∃ last, (render path marks).execute workspace .empty = (.error .emptyName, last) := by
  obtain ⟨outcome, last, ran, _, held⟩ := blames_render marks exports .empty Work.sound_empty
  cases outcome with
  | ok text => exact .inl ⟨text, last, ran⟩
  | error fault =>
    obtain ⟨rfl, nameless⟩ := held fault rfl
    exact .inr ⟨nameless, last, ran⟩

/-- An export that leads back to itself, and an expression that no rule covers. -/
theorem render_returns_circular :
    let source := "export{x}from'./a';export const y=f(z)"
    let tree : FileTree := ⟨Path.ofString "/w", [], [(["w", "a"], encode source)]⟩
    let workspace : Workspace := ⟨tree, none, fun _ => .failed "not found"⟩
    let path := Path.ofString "a"
    (workspace.module? path).any (·.isModule) = true ∧
      ∃ last, Returns (render path "#") workspace .empty
        ("# x · value\n\n*Type information unavailable*\n\n" ++
          "# y · constant\n\n*Type information unavailable*\n\n") last := by
  intro source tree workspace path
  have exports : (workspace.module? path).any (·.isModule) = true := by decide +kernel
  have shown : ((render path "#").execute workspace .empty).1.toOption =
      some ("# x · value\n\n*Type information unavailable*\n\n" ++
        "# y · constant\n\n*Type information unavailable*\n\n") := by decide +kernel
  refine ⟨exports, ?_⟩
  obtain ⟨text, last, returns⟩ | ⟨_, last, stopped⟩ :=
    render_returns_or_nameless workspace path "#" exports
  · change (render path "#").execute workspace .empty = _ at returns
    rw [returns] at shown
    cases shown
    exact ⟨last, returns⟩
  · rw [stopped] at shown
    cases shown

/-- A specifier that names the root stops rendering. -/
theorem render_stops_at_root :
    let tree : FileTree := ⟨Path.ofString "/w", [], [(["w", "a"], encode "export{x}from'/'")]⟩
    let workspace : Workspace := ⟨tree, none, fun _ => .failed "not found"⟩
    let path := Path.ofString "a"
    (workspace.module? path).any (·.isModule) = true ∧
      ¬ ∃ text last, Returns (render path "#") workspace .empty text last := by
  intro tree workspace path
  have exports : (workspace.module? path).any (·.isModule) = true := by decide +kernel
  have stops : ((render path "#").execute workspace .empty).1.toOption = none := by decide +kernel
  refine ⟨exports, ?_⟩
  rintro ⟨text, last, returns⟩
  change (render path "#").execute workspace .empty = _ at returns
  rw [returns] at stops
  cases stops

end Fragment

end ApiSections
