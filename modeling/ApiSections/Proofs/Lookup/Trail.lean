import ApiSections.Proofs.Fragment.Faults
import ApiSections.Proofs.Lookup.Chain

/-!
The trail of an alias: the symbols that it leads to, one after another. Following the alias ends at the
first symbol on the trail that is no alias; it fails if the trail comes back to a symbol, and if an
alias on it names nothing. One of these happens, since a tree has finitely many symbols.
-/

namespace ApiSections

/-- Whether a module takes a symbol from a path without a last part. -/
def Module.takesNameless (module : Module) : Bool :=
  module.symbols.any fun symbol => symbol.declarations.any fun declaration =>
    declaration.specifier?.any fun specifier => Module.isPathSpecifier specifier &&
      (Module.candidates? (declaration.path.parent.join (Path.ofString specifier))).isNone

theorem Workspace.nameless_iff {workspace : Workspace} : workspace.Nameless ↔
    workspace.paths.any (fun path => (workspace.module? path).any Module.takesNameless) = true := by
  simp only [Nameless, Module.takesNameless, List.any_eq_true, Option.any_eq_true, Bool.and_eq_true,
    Option.isNone_iff_eq_none]
  constructor
  · rintro ⟨module, symbol, declaration, specifier, found, member, declared, source, isPath, none⟩
    exact ⟨module.path, path_mem_paths found, module, found, symbol, member, declaration, declared,
      specifier, source, isPath, none⟩
  · rintro ⟨path, _, module, found, symbol, member, declaration, declared, specifier, source, isPath,
      none⟩
    exact ⟨module, symbol, declaration, specifier, module?_path found, member, declared, source,
      isPath, none⟩

instance (workspace : Workspace) : Decidable workspace.Nameless :=
  decidable_of_iff' _ Workspace.nameless_iff

namespace Lookup

open Text (encode)
open Work (Settles Yields answer)

variable {workspace : Workspace} {right : Work.Rightness}

/-- The symbol that an alias names, if there is one. -/
def next? (workspace : Workspace) (symbol : Symbol) : Option Symbol :=
  if symbol.isAlias then
    match answer workspace (aliasTarget symbol) with
    | .ok (.ok target) => some target
    | _ => none
  else none

/-- The symbol that so many steps lead to, each of them from an alias to what it names. -/
def trail (workspace : Workspace) (symbol : Symbol) : Nat → Option Symbol
  | 0 => some symbol
  | steps + 1 => (trail workspace symbol steps).bind (next? workspace)

/-- The trail ends at a symbol that is no alias. -/
def Reaches (workspace : Workspace) (symbol target : Symbol) : Prop :=
  ∃ steps, trail workspace symbol steps = some target ∧ target.isAlias = false

/-- The trail comes back to a symbol. -/
def Repeats (workspace : Workspace) (symbol : Symbol) : Prop :=
  ∃ first second again, first < second ∧ trail workspace symbol first = some again ∧
    trail workspace symbol second = some again

/-- The trail ends at an alias that names nothing, for a reason. -/
def Fails (workspace : Workspace) (symbol : Symbol) (error : AliasError) : Prop :=
  ∃ steps last, trail workspace symbol steps = some last ∧ last.isAlias = true ∧
    answer workspace (aliasTarget last) = .ok (.error error)

/-- The reason to give up an alias whose trail comes back to a symbol. -/
def circular : String := "circular alias chain"

section Trails

variable {symbol last target : Symbol} {error : AliasError} {steps : Nat}

theorem trail_add (workspace : Workspace) (symbol : Symbol) (first second : Nat) :
    trail workspace symbol (first + second) =
      (trail workspace symbol first).bind (trail workspace · second) := by
  induction second with
  | zero => exact (Option.bind_fun_some _).symm
  | succ second ih =>
    rw [← Nat.add_assoc, trail, ih, Option.bind_assoc]
    rfl

/-- A trail that has come so far has come to every point before. -/
theorem exists_trail_of_le {more : Nat} (le : steps ≤ more)
    (found : trail workspace symbol more = some last) :
    ∃ before, trail workspace symbol steps = some before := by
  obtain ⟨rest, rfl⟩ := Nat.exists_eq_add_of_le le
  rw [trail_add] at found
  obtain ⟨before, there, _⟩ := Option.bind_eq_some_iff.mp found
  exact ⟨before, there⟩

/-- A trail that ends does so at one point. -/
theorem trail_end_unique {other : Nat} {last' : Symbol}
    (here : trail workspace symbol steps = some last) (ends : next? workspace last = none)
    (there : trail workspace symbol other = some last') (ends' : next? workspace last' = none) :
    last = last' := by
  have stopped : ∀ {less more : Nat} {last last' : Symbol}, trail workspace symbol less = some last →
      next? workspace last = none → trail workspace symbol more = some last' → more ≤ less := by
    intro less more last last' here ends there
    by_contra later
    obtain ⟨before, found⟩ := exists_trail_of_le (Nat.succ_le_of_lt (Nat.lt_of_not_le later)) there
    rw [trail, here, Option.bind_some, ends] at found
    cases found
  have same := Nat.le_antisymm (stopped there ends' here) (stopped here ends there)
  rw [same, there] at here
  exact (Option.some.inj here).symm

/-- A trail that ends comes back to no symbol. -/
theorem not_repeats_of_end (here : trail workspace symbol steps = some last)
    (ends : next? workspace last = none) : ¬ Repeats workspace symbol := by
  rintro ⟨first, second, again, before, found, found'⟩
  -- From both points the trail goes on in the same way, so it would end at two points.
  have along : ∀ more, trail workspace symbol (first + more) =
      trail workspace symbol (second + more) := by
    intro more
    rw [trail_add, found, trail_add, found']
  have nothing : trail workspace symbol (steps + 1) = none := by
    rw [trail, here, Option.bind_some, ends]
  have reached : second ≤ steps := by
    by_contra later
    obtain ⟨before, there⟩ := exists_trail_of_le (Nat.succ_le_of_lt (Nat.lt_of_not_le later)) found'
    rw [nothing] at there
    cases there
  obtain ⟨more, rfl⟩ := Nat.exists_eq_add_of_le reached
  obtain ⟨earlier, there⟩ := exists_trail_of_le (by omega : first + (more + 1) ≤ second + more) here
  rw [along, ← Nat.add_assoc, nothing] at there
  cases there

theorem next?_of_not_isAlias (ends : last.isAlias = false) : next? workspace last = none := by
  rw [next?, ends]
  rfl

theorem next?_of_error (failed : answer workspace (aliasTarget last) = .ok (.error error)) :
    next? workspace last = none := by
  rw [next?, failed]
  split <;> rfl

theorem next?_of_ok (isAlias : last.isAlias = true)
    (names : answer workspace (aliasTarget last) = .ok (.ok target)) :
    next? workspace last = some target := by
  rw [next?, if_pos isAlias, names]

theorem Reaches.not_repeats (reaches : Reaches workspace symbol target) :
    ¬ Repeats workspace symbol := by
  obtain ⟨_, here, ends⟩ := reaches
  exact not_repeats_of_end here (next?_of_not_isAlias ends)

theorem Fails.not_repeats (fails : Fails workspace symbol error) : ¬ Repeats workspace symbol := by
  obtain ⟨_, _, here, _, failed⟩ := fails
  exact not_repeats_of_end here (next?_of_error failed)

theorem Reaches.unique {other : Symbol} (here : Reaches workspace symbol target)
    (there : Reaches workspace symbol other) : target = other := by
  obtain ⟨_, here, ends⟩ := here
  obtain ⟨_, there, ends'⟩ := there
  exact trail_end_unique here (next?_of_not_isAlias ends) there (next?_of_not_isAlias ends')

theorem Reaches.not_fails (reaches : Reaches workspace symbol target) :
    ¬ Fails workspace symbol error := by
  rintro ⟨_, last, there, isAlias, failed⟩
  obtain ⟨_, here, ends⟩ := reaches
  rw [trail_end_unique here (next?_of_not_isAlias ends) there (next?_of_error failed),
    isAlias] at ends
  cases ends

theorem Fails.unique {other : AliasError} (here : Fails workspace symbol error)
    (there : Fails workspace symbol other) : error = other := by
  obtain ⟨_, last, here, _, failed⟩ := here
  obtain ⟨_, last', there, _, failed'⟩ := there
  rw [trail_end_unique here (next?_of_error failed) there (next?_of_error failed'), failed'] at failed
  exact (Except.error.inj (Except.ok.inj failed)).symm

end Trails

section Reasons

/-- A single step along an alias fails for a reason of its own. -/
def NotCircular (target : Except AliasError Symbol) : Prop :=
  ∀ error, target = .error error → error.reason ≠ circular

theorem notCircular_ok (symbol : Symbol) : NotCircular (.ok symbol) :=
  fun _ same => nomatch same

theorem notCircular_error {name reason : String}
    (differs : reason.toList.take 2 ≠ ['c', 'i']) : NotCircular (.error ⟨name, reason⟩) := by
  intro error same reason_eq
  cases same
  apply differs
  have equal : reason = circular := reason_eq
  rw [equal]
  rfl

theorem yields_localOf_reason (path : Path) (name referrer : String) :
    Yields workspace right (localOf path name referrer) NotCircular := by
  apply Yields.bind ((Work.settles_load? path).yields fun _ _ => trivial)
  intro module _
  split
  · exact Yields.pure (notCircular_ok _)
  · exact Yields.pure (notCircular_error (by simp [toString]))

theorem yields_exportOf_reason (importer : Path) (specifier name : String) :
    Yields workspace right (exportOf importer specifier name) NotCircular := by
  apply Yields.bind ((Work.settles_resolveModule importer specifier).yields fun _ _ => trivial)
  intro found _
  split
  · exact Yields.pure (notCircular_error (by simp [toString]))
  · split
    · exact Yields.pure (notCircular_error (by simp [toString]))
    · split
      · exact Yields.pure (notCircular_ok _)
      · exact Yields.pure (notCircular_error (by simp [toString]))

theorem yields_aliasTarget_reason (symbol : Symbol) :
    Yields workspace right (aliasTarget symbol) NotCircular := by
  have unsupported : ∀ label : String, NotCircular
      (.error ⟨symbol.name, s!"unsupported alias {label}"⟩) :=
    fun label => notCircular_error (by simp [toString])
  rw [aliasTarget]
  split
  · exact Yields.pure (notCircular_error (by simp))
  · split
    · exact yields_localOf_reason _ _ _
    · exact yields_exportOf_reason _ _ _
    · exact yields_exportOf_reason _ _ _
    · split
      · split
        · exact yields_localOf_reason _ _ _
        · exact Yields.pure (unsupported _)
      · exact Yields.pure (unsupported _)
    · exact Yields.pure (unsupported _)

end Reasons

/-- What one step along an alias of the tree comes to, if every specifier has a last part. -/
theorem settles_aliasTarget {symbol : Symbol} (named : ¬ workspace.Nameless)
    (listed : symbol.Listed workspace) :
    ∃ target, Settles workspace right (aliasTarget symbol) (.ok target) ∧
      answer workspace (aliasTarget symbol) = .ok target ∧ LeadsToListed workspace target ∧
      NotCircular target := by
  obtain ⟨outcome, settles, leads⟩ : Yields workspace right (aliasTarget symbol) _ :=
    yields_aliasTarget symbol
  obtain ⟨_, settles', reasons⟩ : Yields workspace right (aliasTarget symbol) _ :=
    yields_aliasTarget_reason symbol
  obtain ⟨_, last, ran, _, blamed⟩ := blames_aliasTarget listed .empty Work.sound_empty
  have same : answer workspace (aliasTarget symbol) = outcome := settles.answer
  cases same.symm.trans settles'.answer
  rw [answer, ran] at same
  cases outcome with
  | error fault => exact absurd (blamed fault same).2 named
  | ok target => exact ⟨target, settles, settles.answer, leads target rfl, reasons target rfl⟩

/-- The end of following an alias, by its trail. -/
inductive Traced (workspace : Workspace) (symbol : Symbol) : Except AliasError Symbol → Prop
  | reached {target : Symbol} (reaches : Reaches workspace symbol target) :
      Traced workspace symbol (.ok target)
  | repeated (repeats : Repeats workspace symbol) :
      Traced workspace symbol (.error ⟨symbol.name, circular⟩)
  | failed {error : AliasError} (fails : Fails workspace symbol error)
      (reason : error.reason ≠ circular) : Traced workspace symbol (.error error)

theorem settles_follow_traced (right : Work.Rightness) {symbol : Symbol}
    (named : ¬ workspace.Nameless) (listed : symbol.Listed workspace)
    (isAlias : symbol.isAlias = true) :
    ∃ outcome, Settles workspace right (follow symbol) (.ok outcome) ∧
      Traced workspace symbol outcome := by
  rw [follow, if_pos isAlias]
  -- The walk has come to the symbols of the trail so far, and goes on from its last one.
  refine Walk.Chart.run_charted (symbolChart workspace symbol.name)
    (fun seen item step => ∀ steps, trail workspace symbol steps = some item →
      (∀ other ∈ seen, ∃ earlier < steps, trail workspace symbol earlier = some other) →
      item.Listed workspace → item.isAlias = true →
      ∃ outcome, Settles workspace right step (.ok outcome) ∧ Traced workspace symbol outcome)
    ?_ ?_ ?_ ?_ (charted_of_listed listed) 0 rfl (by simp) listed isAlias
  · intro seen item _ member steps here behind _ _
    obtain ⟨earlier, before, there⟩ := behind item member
    exact ⟨_, .pure _, .repeated ⟨earlier, steps, item, before, there, here⟩⟩
  · intro seen item next _ _ ih steps here behind listed isAlias
    obtain ⟨target, settles, found, leads, reason⟩ := settles_aliasTarget named listed
    cases target with
    | error error =>
      exact ⟨_, settles.bind (.pure _),
        .failed ⟨steps, item, here, isAlias, found⟩ (reason error rfl)⟩
    | ok target =>
      have listed := leads target rfl
      have there : trail workspace symbol (steps + 1) = some target := by
        rw [trail, here, Option.bind_some, next?_of_ok isAlias found]
      cases goesOn : target.isAlias with
      | false =>
        refine ⟨.ok target, settles.bind ?_, .reached ⟨steps + 1, there, goesOn⟩⟩
        simp only [goesOn, Bool.false_eq_true, ↓reduceIte]
        exact .pure _
      | true =>
        obtain ⟨outcome, rest, traced⟩ := ih target (charted_of_listed listed) (steps + 1) there (by
          intro other member
          rcases List.mem_cons.mp member with rfl | member
          · exact ⟨steps, Nat.lt_succ_self steps, here⟩
          · obtain ⟨earlier, before, there⟩ := behind other member
            exact ⟨earlier, Nat.lt_succ_of_lt before, there⟩) listed goesOn
        refine ⟨outcome, settles.bind ?_, traced⟩
        simp only [goesOn, ↓reduceIte]
        exact rest
  · intro seen item path next good steps here behind listed isAlias
    obtain ⟨outcome, settles, traced⟩ := good steps here behind listed isAlias
    exact ⟨outcome, (Work.settles_load? path).bind settles, traced⟩
  · intro item next good steps here behind listed isAlias
    obtain ⟨outcome, settles, traced⟩ := good steps here behind listed isAlias
    exact ⟨outcome, Work.settles_moduleLimit.bind settles, traced⟩

/-- Following an alias of a tree always comes to an end. It gives a symbol if and only if that is the
first on the trail that is no alias; it complains of a circle if and only if the trail comes back to a
symbol; and otherwise it gives the reason why an alias on the trail names nothing. -/
theorem follow_traced (right : Work.Rightness) {symbol : Symbol} (named : ¬ workspace.Nameless)
    (listed : symbol.Listed workspace) (isAlias : symbol.isAlias = true) :
    ∃ outcome, Settles workspace right (follow symbol) (.ok outcome) ∧
      (∀ target, outcome = .ok target ↔ Reaches workspace symbol target) ∧
      ((∃ error, outcome = .error error ∧ error.reason = "circular alias chain") ↔
        Repeats workspace symbol) ∧
      ∀ error, (outcome = .error error ∧ ¬ Repeats workspace symbol) ↔
        Fails workspace symbol error := by
  obtain ⟨outcome, settles, traced⟩ := settles_follow_traced right named listed isAlias
  refine ⟨outcome, settles, ?_⟩
  cases traced with
  | reached reaches =>
    refine ⟨fun target => ⟨?_, fun there => ?_⟩, ⟨?_, fun repeats => ?_⟩, fun error => ⟨?_, ?_⟩⟩
    · rintro same
      cases same
      exact reaches
    · rw [reaches.unique there]
    · rintro ⟨_, same, _⟩
      cases same
    · exact absurd repeats reaches.not_repeats
    · rintro ⟨same, _⟩
      cases same
    · intro fails
      exact absurd fails reaches.not_fails
  | repeated repeats =>
    refine ⟨fun target => ⟨?_, fun reaches => ?_⟩, ⟨fun _ => repeats, fun _ => ?_⟩,
      fun error => ⟨?_, fun fails => ?_⟩⟩
    · intro same
      cases same
    · exact absurd repeats reaches.not_repeats
    · exact ⟨_, rfl, rfl⟩
    · rintro ⟨_, once⟩
      exact absurd repeats once
    · exact absurd repeats fails.not_repeats
  | failed fails reason =>
    refine ⟨fun target => ⟨?_, fun reaches => ?_⟩, ⟨?_, fun repeats => ?_⟩,
      fun error => ⟨?_, fun there => ?_⟩⟩
    · intro same
      cases same
    · exact absurd fails reaches.not_fails
    · rintro ⟨_, same, again⟩
      cases same
      exact absurd again reason
    · exact absurd repeats fails.not_repeats
    · rintro ⟨same, _⟩
      cases same
      exact fails
    · rw [fails.unique there]
      exact ⟨rfl, there.not_repeats⟩

/-- An alias whose trail runs into a circle that it does not belong to itself. -/
theorem follow_traced_lasso :
    let tree : FileTree := ⟨Path.ofString "/w", [],
      [(["w", "a"], encode "export{x as y}from'./b'"), (["w", "b"], encode "export{x}from'./b'")]⟩
    let workspace : Workspace := ⟨tree, none, fun _ => .failed "not found"⟩
    ∃ symbol, (workspace.module? (Path.ofString "a")).bind (·.export? "y") = some symbol ∧
      ¬ workspace.Nameless ∧ symbol.Listed workspace ∧ symbol.isAlias = true ∧
      ∃ error, answer workspace (follow symbol) = .ok (.error error) ∧
        error.reason = "circular alias chain" := by
  intro tree workspace
  have named : ¬ workspace.Nameless := by decide +kernel
  have facts : ((workspace.module? (Path.ofString "a")).bind (·.export? "y")).map (fun symbol =>
      (symbol.isAlias, (trail workspace symbol 1).isSome,
        decide (trail workspace symbol 1 = trail workspace symbol 2))) = some (true, true, true) := by
    decide +kernel
  obtain ⟨symbol, found, facts⟩ := Option.map_eq_some_iff.mp facts
  simp only [Prod.mk.injEq, decide_eq_true_eq] at facts
  obtain ⟨isAlias, goesOn, again⟩ := facts
  obtain ⟨module, loaded, exported⟩ := Option.bind_eq_some_iff.mp found
  have listed : symbol.Listed workspace := Module.listed_of_export? loaded exported
  obtain ⟨next, there⟩ := Option.isSome_iff_exists.mp goesOn
  have repeats : Repeats workspace symbol :=
    ⟨1, 2, next, Nat.lt_succ_self 1, there, again ▸ there⟩
  obtain ⟨outcome, settles, _, circles, _⟩ :=
    follow_traced Work.anything named listed isAlias
  obtain ⟨error, same, reason⟩ := circles.mpr repeats
  refine ⟨symbol, found, named, listed, isAlias, error, ?_, reason⟩
  rw [settles.answer, same]

end Lookup

end ApiSections
