import ApiSections.Proofs.Display.Likeness
import ApiSections.Proofs.Lookup.Values

/-!
References inside functions. The parameters in scope stay in scope while the type of a declaration is
inferred that the body of a function refers to: the declaration has its own type there if none of the
names that its type is inferred from is a parameter's.
-/

namespace ApiSections.Display

open Text (encode)
open Work (Settles answer settling)

variable {workspace : Workspace}

/-- The names of the parameters in scope. -/
def Context.names (context : Context) : List String :=
  context.scopes.flatMap (·.map (·.1))

/-- Whether an expression is the name of a parameter around it. -/
def Part.isBound (part : Part) : Bool :=
  part.node.kind == .identifier && part.bound.contains part.node.text

/-- The declarations that the type of a declaration is inferred from, with their symbols. -/
def referred (workspace : Workspace) (declaration : Declaration) (symbol : Option Symbol) :
    List (Declaration × Option Symbol) :=
  (getterOf? declaration).toList.map (·, none) ++
    ((references declaration symbol).filter (!·.isBound)).filterMap fun part =>
      match answer workspace (Lookup.symbolAt part.path part.node) with
      | .ok (some found) => found.primary?.map (·, some found)
      | _ => none

/-- The references through a declaration come to an end: they lead to no declaration again, to none
that is active, and through no more than `depth` of them. -/
def Acyclic (workspace : Workspace) : Nat → List Place → Declaration → Option Symbol → Prop
  | 0, _, _, _ => False
  | depth + 1, active, declaration, symbol =>
    declaration.place ∉ active ∧
      ∀ target ∈ referred workspace declaration symbol,
        Acyclic workspace depth (declaration.place :: active) target.1 target.2

/-- No type on the way through `depth` declarations is inferred from one of the names, unless it is
the name of a parameter there. -/
def Untouched (workspace : Workspace) (names : List String) :
    Nat → Declaration → Option Symbol → Prop
  | 0, _, _ => True
  | depth + 1, declaration, symbol =>
    (∀ part ∈ references declaration symbol, part.node.kind = .identifier →
      part.node.text ∈ names → part.node.text ∈ part.bound) ∧
      ∀ target ∈ referred workspace declaration symbol,
        Untouched workspace names depth target.1 target.2

instance decidableAcyclic : ∀ depth active declaration symbol,
    Decidable (Acyclic workspace depth active declaration symbol)
  | 0, _, _, _ => inferInstanceAs (Decidable False)
  | depth + 1, active, declaration, symbol =>
    have := fun target : Declaration × Option Symbol =>
      decidableAcyclic depth (declaration.place :: active) target.1 target.2
    inferInstanceAs (Decidable (declaration.place ∉ active ∧
      ∀ target ∈ referred workspace declaration symbol,
        Acyclic workspace depth (declaration.place :: active) target.1 target.2))

instance decidableUntouched (names : List String) : ∀ depth declaration symbol,
    Decidable (Untouched workspace names depth declaration symbol)
  | 0, _, _ => inferInstanceAs (Decidable True)
  | depth + 1, declaration, symbol =>
    have := fun target : Declaration × Option Symbol =>
      decidableUntouched names depth target.1 target.2
    inferInstanceAs (Decidable ((∀ part ∈ references declaration symbol,
      part.node.kind = .identifier → part.node.text ∈ names → part.node.text ∈ part.bound) ∧
      ∀ target ∈ referred workspace declaration symbol,
        Untouched workspace names depth target.1 target.2))

theorem mem_referred_of_reference {declaration target : Declaration} {symbol : Option Symbol}
    {part : Part} {found : Symbol} (member : part ∈ references declaration symbol)
    (free : part.isBound = false)
    (leads : answer workspace (Lookup.symbolAt part.path part.node) = .ok (some found))
    (primary : found.primary? = some target) :
    (target, some found) ∈ referred workspace declaration symbol := by
  apply List.mem_append_right
  apply List.mem_filterMap.mpr
  refine ⟨part, List.mem_filter.mpr ⟨member, by rw [free]; rfl⟩, ?_⟩
  rw [leads]
  dsimp only
  rw [primary]
  rfl

theorem mem_referred_of_getterOf? {declaration target : Declaration} {symbol : Option Symbol}
    (found : getterOf? declaration = some target) :
    (target, none) ∈ referred workspace declaration symbol := by
  apply List.mem_append_left
  rw [found]
  exact List.mem_cons_self

/-- Contexts that differ in parameters with certain names, unless these are bound inside both. -/
structure Near (names : List String) (active active' : List Place) (bound : List String)
    (context context' : Context) : Prop where
  here : context.active = active
  there : context'.active = active'
  same : ∀ name, (name ∈ names → name ∈ bound) → context.scoped? name = context'.scoped? name
  known : ∀ name ∈ bound, context.scoped? name ≠ none

section Scope

variable {names bound : List String} {active active' : List Place} {context context' : Context}
  {scope : List (String × String)} {name : String}

theorem scoped?_within (context : Context) (scope : List (String × String)) (name : String) :
    (context.within scope).scoped? name =
      ((scope.reverse.find? (·.1 == name)).map (·.2)).or (context.scoped? name) := by
  simp only [Context.scoped?, Context.within, List.findSome?_cons]
  cases (scope.reverse.find? (·.1 == name)).map (·.2) with
  | none => rfl
  | some type => rfl

theorem exists_find?_of_mem (member : name ∈ scope.map (·.1)) :
    ∃ type, (scope.reverse.find? (·.1 == name)).map (·.2) = some type := by
  obtain ⟨entry, listed, rfl⟩ := List.mem_map.mp member
  have found : (scope.reverse.find? (·.1 == entry.1)).isSome :=
    List.find?_isSome.mpr ⟨entry, List.mem_reverse.mpr listed, beq_self_eq_true _⟩
  obtain ⟨other, found⟩ := Option.isSome_iff_exists.mp found
  exact ⟨other.2, by rw [found, Option.map_some]⟩

theorem near_within : Scoping (Near names active active') := by
  intro bound context context' scope close
  refine ⟨close.here, close.there, ?_, ?_⟩
  · intro name clear
    rw [scoped?_within, scoped?_within]
    by_cases member : name ∈ scope.map (·.1)
    · obtain ⟨type, found⟩ := exists_find?_of_mem member
      rw [found, Option.some_or, Option.some_or]
    · rw [close.same name fun touched => (List.mem_append.mp (clear touched)).resolve_left member]
  · intro name member
    rw [scoped?_within]
    rcases List.mem_append.mp member with member | member
    · obtain ⟨type, found⟩ := exists_find?_of_mem member
      rw [found, Option.some_or]
      exact Option.some_ne_none type
    · rw [Ne, Option.or_eq_none_iff]
      exact fun both => close.known name member both.2

theorem scoped?_eq_none (absent : name ∉ context.names) : context.scoped? name = none := by
  rw [Context.scoped?, List.findSome?_eq_none_iff]
  intro scope listed
  rw [Option.map_eq_none_iff, List.find?_eq_none]
  intro entry member same
  apply absent
  rw [← beq_iff_eq.mp same]
  exact List.mem_flatMap.mpr
    ⟨scope, listed, List.mem_map_of_mem (List.mem_reverse.mp member)⟩

end Scope

theorem typeOf?_eq {context context' : Context} {node : Syntax.Node}
    (same : node.kind = .identifier → context.scoped? node.text = context'.scoped? node.text) :
    context.typeOf? node = context'.typeOf? node := by
  rw [Context.typeOf?, Context.typeOf?]
  split
  · exact same (beq_iff_eq.mp ‹_›)
  · rfl

theorem run_lift_bind {α β : Type} (step : Work α) (next : α → Inference β) :
    ((liftM step : Inference α) >>= next).run = step >>= fun value => (next value).run := by
  rw [ExceptT.run_bind]
  change (Except.ok <$> step) >>= _ = _
  rw [map_eq_pure_bind, bind_assoc]
  simp only [pure_bind]

/-- After a step that settles only what it ends with counts. -/
theorem agrees_lift_bind {α β : Type} {right : Work.Rightness}
    {step : Work α} {outcome : Except Fault α} {next other : α → Inference β}
    (settles : Settles workspace right step outcome)
    (rest : ∀ value, outcome = .ok value →
      Agrees (settling workspace right) (next value) (other value)) :
    Agrees (settling workspace right) ((liftM step : Inference α) >>= next)
      ((liftM step : Inference α) >>= other) := by
  rw [Agrees, run_lift_bind, run_lift_bind]
  cases outcome with
  | error fault => exact ⟨_, settles.stop _, settles.stop _⟩
  | ok value =>
    obtain ⟨outcome, first, second⟩ := rest value rfl
    exact ⟨outcome, settles.bind first, settles.bind second⟩

section References

variable {names : List String} {active active' : List Place} {declare declare' : Declare}
  {part : Part}

/-- A name that is no parameter in either context, or bound inside both. -/
theorem agreeOn_nameBy_near
    (clear : part.node.kind = .identifier → part.node.text ∈ names → part.node.text ∈ part.bound)
    (declarations : ∀ {context context'}, Near names active active' part.bound context context' →
      ∀ found target, part.isBound = false →
        answer workspace (Lookup.symbolAt part.path part.node) = .ok (some found) →
        found.primary? = some target →
        Agrees (settling workspace (Lookup.rightly workspace)) (declare context target (some found))
          (declare' context' target (some found))) :
    AgreeOn (settling workspace (Lookup.rightly workspace)) (Near names active active')
      (nameBy declare) (nameBy declare') part := by
  intro context context' mode close
  have same : context.typeOf? part.node = context'.typeOf? part.node :=
    typeOf?_eq fun kind => close.same part.node.text (clear kind)
  rw [nameBy, nameBy, ← same]
  cases known : context.typeOf? part.node with
  | some type => exact .pure _
  | none =>
    have free : part.isBound = false := by
      rw [Part.isBound, Bool.and_eq_false_imp]
      intro kind
      rw [Context.typeOf?, if_pos kind] at known
      rw [Bool.eq_false_iff, Ne, List.contains_iff_mem]
      exact fun member => close.known part.node.text member known
    apply agrees_lift_bind (Lookup.settles_symbolAt part.path part.node)
    intro found leads
    cases found with
    | none => exact .throw _
    | some found =>
      cases primary : found.primary? with
      | none =>
        simp only [primary]
        exact .throw _
      | some target =>
        simp only [primary]
        exact .bind (declarations close found target free leads primary) fun _ => .pure _

end References

/-- A declaration that the references of a function lead to has the type that it has elsewhere, where
fewer declarations are active and other parameters in scope. -/
theorem agrees_declarationFrom_near {names : List String} {depth depth' : Nat}
    {context context' : Context} {declaration : Declaration} {symbol : Option Symbol}
    (deeper : depth ≤ depth') (fewer : ∀ place ∈ context'.active, place ∈ context.active)
    (same : ∀ name, name ∉ names → context.scoped? name = context'.scoped? name)
    (acyclic : Acyclic workspace depth context.active declaration symbol)
    (untouched : Untouched workspace names depth declaration symbol) :
    Agrees (settling workspace (Lookup.rightly workspace))
      (declarationFrom depth context declaration symbol)
      (declarationFrom depth' context' declaration symbol) := by
  induction depth generalizing depth' context context' declaration symbol with
  | zero => exact acyclic.elim
  | succ depth ih =>
    obtain ⟨depth', rfl⟩ : ∃ less, depth' = less + 1 := ⟨depth' - 1, by omega⟩
    obtain ⟨fresh, acyclic⟩ := acyclic
    obtain ⟨clear, untouched⟩ := untouched
    have inactive : ¬ context.active.contains declaration.place = true := by
      rw [List.contains_iff_mem]
      exact fresh
    have inactive' : ¬ context'.active.contains declaration.place = true := by
      rw [List.contains_iff_mem]
      exact fun member => fresh (fewer _ member)
    -- Whatever functions are entered on the way, a reference goes on from contexts of this kind.
    have next : ∀ {bound context₁ context₂}, Near names (declaration.place :: context.active)
        (declaration.place :: context'.active) bound context₁ context₂ →
        ∀ target ∈ referred workspace declaration symbol,
          Agrees (settling workspace (Lookup.rightly workspace))
            (declarationFrom depth context₁ target.1 target.2)
            (declarationFrom depth' context₂ target.1 target.2) := by
      intro bound context₁ context₂ close target member
      apply ih (Nat.le_of_succ_le_succ deeper)
      · rw [close.here, close.there]
        exact List.cons_subset_cons _ fewer
      · exact fun name absent => close.same name fun touched => absurd touched absent
      · rw [close.here]
        exact acyclic target member
      · exact untouched target member
    have close : Near names (declaration.place :: context.active)
        (declaration.place :: context'.active) [] (context.enter declaration.place)
        (context'.enter declaration.place) :=
      ⟨rfl, rfl, fun name absent => same name fun touched => List.not_mem_nil (absent touched),
        fun _ member => absurd member List.not_mem_nil⟩
    rw [declarationFrom, declarationFrom, if_neg inactive, if_neg inactive']
    apply agrees_declarationBy near_within close
    · intro part member _ _ mode close
      apply agreeOn_expressionFrom near_within part.node.weight _ mode close
      intro name reference
      have listed : name ∈ references declaration symbol :=
        List.mem_flatMap.mpr ⟨part, member, reference⟩
      apply agreeOn_nameBy_near (clear name listed)
      intro context₁ context₂ close found target free leads primary
      exact next close _ (mem_referred_of_reference listed free leads primary)
    · intro target found
      exact next close _ (mem_referred_of_getterOf? found)

/-- Inside a function, a name that is no parameter has the type of what it refers to on its own,
widened as the place asks for, whatever the parameters in scope are: if the references from there come
to an end, and their types are inferred from none of the parameters' names. -/
theorem nameBy_unscoped {depth : Nat} {context : Context} {path : Path} {node : Syntax.Node}
    {symbol : Symbol} {declaration : Declaration} (mode : Mode) (limit : depth ≤ maxDepth)
    (unscoped : context.typeOf? node = none)
    (refers : answer workspace (Lookup.symbolAt path node) = .ok (some symbol))
    (primary : symbol.primary? = some declaration)
    (acyclic : Acyclic workspace depth context.active declaration (some symbol))
    (untouched : Untouched workspace context.names depth declaration (some symbol)) :
    answer workspace (nameBy (declarationFrom depth) context path mode node).run =
      (answer workspace (typeAt symbol declaration)).map fun outcome =>
        outcome.map fun type => if mode.literal then type else TypeText.widen type := by
  have own : Agrees (settling workspace (Lookup.rightly workspace))
      (declarationFrom depth context declaration (some symbol))
      (declarationType declaration (some symbol)) := by
    apply agrees_declarationFrom_near limit _ _ acyclic untouched
    · exact fun place member => absurd member List.not_mem_nil
    · exact fun name absent => scoped?_eq_none absent
  obtain ⟨outcome, here, there⟩ := own
  have leads : Settles workspace (Lookup.rightly workspace) (Lookup.symbolAt path node)
      (.ok (some symbol)) := refers ▸ Lookup.settles_symbolAt path node
  have alone : answer workspace (typeAt symbol declaration) = outcome := there.answer
  have settles : Settles workspace (Lookup.rightly workspace)
      (nameBy (declarationFrom depth) context path mode node).run
      (outcome.map fun outcome =>
        outcome.map fun type => if mode.literal then type else TypeText.widen type) := by
    rw [nameBy, unscoped]
    dsimp only
    rw [referenceBy, run_lift_bind]
    apply leads.bind
    simp only [primary]
    rw [ExceptT.run_bind]
    rcases outcome with fault | reason | type
    · exact here.stop _
    · exact here.bind (.pure _)
    · exact here.bind (.pure _)
  rw [alone, settles.answer]

/-- The function of a name in a module, the first expression that it returns, and the symbol and the
declaration that the expression refers to. -/
def returned? (workspace : Workspace) (path : Path) (name : String) :
    Option (Declaration × Syntax.Node × Symbol × Declaration) :=
  (((workspace.module? path).bind (·.local? name)).bind (·.primary?)).bind fun function =>
    (function.shape.signature?.bind (·.body)).bind fun body =>
      (returnedExpressions body).head?.bind fun node =>
        (answer workspace (Lookup.symbolAt function.path node)).toOption.join.bind fun symbol =>
          symbol.primary?.map fun declaration => (function, node, symbol, declaration)

theorem refers_of_returned? {path : Path} {name : String} {function declaration : Declaration}
    {node : Syntax.Node} {symbol : Symbol}
    (found : returned? workspace path name = some (function, node, symbol, declaration)) :
    answer workspace (Lookup.symbolAt function.path node) = .ok (some symbol) ∧
      symbol.primary? = some declaration := by
  obtain ⟨_, _, found⟩ := Option.bind_eq_some_iff.mp found
  obtain ⟨_, _, found⟩ := Option.bind_eq_some_iff.mp found
  obtain ⟨_, _, found⟩ := Option.bind_eq_some_iff.mp found
  obtain ⟨_, refers, found⟩ := Option.bind_eq_some_iff.mp found
  obtain ⟨_, primary, same⟩ := Option.map_eq_some_iff.mp found
  cases same
  exact ⟨eq_ok_of_toOption (Option.join_eq_some_iff.mp refers), primary⟩

/-- A function returns a constant whose type is that of another one. -/
theorem nameBy_unscoped_constant :
    let source := "const y=1,d=y;export function f(z:string){return d}"
    let tree : FileTree := ⟨Path.ofString "/w", [], [(["w", "a"], encode source)]⟩
    let workspace : Workspace := ⟨tree, none, fun _ => .failed "not found"⟩
    ∃ function node symbol declaration,
      returned? workspace (Path.ofString "a") "f" = some (function, node, symbol, declaration) ∧
      let context := (Context.empty.enter function.place).within [("z", "string")]
      answer workspace (typeAt symbol declaration) = .ok (.ok "1") ∧
      answer workspace (nameBy (declarationFrom 31) context function.path .widened node).run =
        .ok (.ok "number") := by
  intro source tree workspace
  have facts : (returned? workspace (Path.ofString "a") "f").map
      (fun (function, node, symbol, declaration) =>
        let context := (Context.empty.enter function.place).within [("z", "string")]
        (context.typeOf? node,
          decide (Acyclic workspace 31 context.active declaration (some symbol)),
          decide (Untouched workspace context.names 31 declaration (some symbol)),
          (answer workspace (typeAt symbol declaration)).toOption.bind (·.toOption))) =
      some (none, true, true, some "1") := by decide +kernel
  obtain ⟨⟨function, node, symbol, declaration⟩, found, facts⟩ := Option.map_eq_some_iff.mp facts
  simp only [Prod.mk.injEq, decide_eq_true_eq] at facts
  obtain ⟨unscoped, acyclic, untouched, own⟩ := facts
  obtain ⟨outcome, own, type⟩ := Option.bind_eq_some_iff.mp own
  obtain ⟨refers, primary⟩ := refers_of_returned? found
  have widened : TypeText.widen "1" = "number" := by decide +kernel
  have alone : answer workspace (typeAt symbol declaration) = .ok (.ok "1") := by
    rw [eq_ok_of_toOption own, eq_ok_of_toOption type]
  refine ⟨function, node, symbol, declaration, found, alone, ?_⟩
  rw [nameBy_unscoped .widened (by decide) unscoped refers primary acyclic untouched, alone, ← widened]
  rfl

/-- A parameter takes the place of the constant of its name, to which another constant refers. -/
theorem nameBy_captured :
    let source := "const y=1,d=y;export function f(y:string){return d}"
    let tree : FileTree := ⟨Path.ofString "/w", [], [(["w", "a"], encode source)]⟩
    let workspace : Workspace := ⟨tree, none, fun _ => .failed "not found"⟩
    ∃ function node symbol declaration,
      returned? workspace (Path.ofString "a") "f" = some (function, node, symbol, declaration) ∧
      let context := (Context.empty.enter function.place).within [("y", "string")]
      context.typeOf? node = none ∧
      Acyclic workspace 31 context.active declaration (some symbol) ∧
      answer workspace (typeAt symbol declaration) = .ok (.ok "1") ∧
      answer workspace (nameBy (declarationFrom 31) context function.path .widened node).run =
        .ok (.ok "string") := by
  intro source tree workspace
  have facts : (returned? workspace (Path.ofString "a") "f").map
      (fun (function, node, symbol, declaration) =>
        let context := (Context.empty.enter function.place).within [("y", "string")]
        (context.typeOf? node,
          decide (Acyclic workspace 31 context.active declaration (some symbol)),
          (answer workspace (typeAt symbol declaration)).toOption.bind (·.toOption),
          (answer workspace (nameBy (declarationFrom 31) context function.path .widened
            node).run).toOption.bind (·.toOption))) =
      some (none, true, some "1", some "string") := by decide +kernel
  obtain ⟨⟨function, node, symbol, declaration⟩, found, facts⟩ := Option.map_eq_some_iff.mp facts
  simp only [Prod.mk.injEq, decide_eq_true_eq] at facts
  obtain ⟨unscoped, acyclic, own, inside⟩ := facts
  obtain ⟨alone, own, type⟩ := Option.bind_eq_some_iff.mp own
  obtain ⟨captured, inside, type'⟩ := Option.bind_eq_some_iff.mp inside
  refine ⟨function, node, symbol, declaration, found, unscoped, acyclic, ?_, ?_⟩
  · rw [eq_ok_of_toOption own, eq_ok_of_toOption type]
  · rw [eq_ok_of_toOption inside, eq_ok_of_toOption type']

end ApiSections.Display
