import ApiSections.Proofs.Display.Parts
import ApiSections.Proofs.Lookup.Likeness

/-!
Inferences in contexts that are near to each other. A reason why there is no type is an answer among
others, so a likeness of steps is one of inferences. Agreement on the names and properties in an
expression is agreement on the expression.
-/

namespace ApiSections.Display

open Work (Likeness)
open Syntax (Node unwrap)

variable {L : Likeness}

/-- Inferences whose steps are alike. -/
def Agrees {α : Type} (L : Likeness) (first second : Inference α) : Prop :=
  L.alike first.run second.run

namespace Agrees

variable {α β : Type}

theorem pure (value : α) : Agrees L (Pure.pure value) (Pure.pure value) :=
  L.pure (Except.ok value : Except String α)

theorem throw (reason : String) :
    Agrees L (MonadExcept.throw reason : Inference α) (MonadExcept.throw reason) :=
  L.pure (Except.error reason : Except String α)

theorem bind {first second : Inference α} {next other : α → Inference β}
    (start : Agrees L first second) (rest : ∀ value, Agrees L (next value) (other value)) :
    Agrees L (first >>= next) (second >>= other) := by
  rw [Agrees, ExceptT.run_bind, ExceptT.run_bind]
  apply L.bind start
  intro outcome
  cases outcome with
  | error reason => exact L.pure _
  | ok value => exact rest value

/-- What follows a reason to stop is not run. -/
theorem stop (reason : String) (next other : α → Inference β) :
    Agrees L (MonadExcept.throw reason >>= next) (MonadExcept.throw reason >>= other) :=
  throw reason

theorem lift {first second : Work α} (same : L.alike first second) :
    Agrees L (liftM first : Inference α) (liftM second) :=
  Likeness.alike_map same Except.ok

theorem attempt {first second : Inference String} (same : Agrees L first second) :
    Agrees L (Display.attempt first) (Display.attempt second) :=
  lift same

theorem except (result : Except String α) :
    Agrees L (liftExcept result : Inference α) (liftExcept result) := by
  cases result with
  | error reason => exact throw reason
  | ok value => exact pure value

theorem mapM {step other : α → Inference β} {items : List α}
    (each : ∀ item ∈ items, Agrees L (step item) (other item)) :
    Agrees L (items.mapM step) (items.mapM other) := by
  induction items with
  | nil =>
    rw [List.mapM_nil, List.mapM_nil]
    exact pure []
  | cons item items ih =>
    rw [List.mapM_cons, List.mapM_cons]
    apply bind (each item List.mem_cons_self)
    intro value
    apply bind (ih fun other member => each other (List.mem_cons_of_mem _ member))
    intro values
    exact pure (value :: values)

/-- The types of the parameters of a function, each with its name. -/
theorem scope {name : α → String} {step other : α → Inference String} {items : List α}
    {next rest : List (String × String) → Inference β}
    (each : ∀ item ∈ items, Agrees L (step item) (other item))
    (after : ∀ scope : List (String × String), scope.map (·.1) = items.map name →
      Agrees L (next scope) (rest scope)) :
    Agrees L ((items.mapM fun item => do return (name item, ← step item)) >>= next)
      ((items.mapM fun item => do return (name item, ← other item)) >>= rest) := by
  induction items generalizing next rest with
  | nil =>
    rw [List.mapM_nil, List.mapM_nil, pure_bind, pure_bind]
    exact after [] rfl
  | cons item items ih =>
    simp only [List.mapM_cons, bind_assoc, pure_bind]
    apply bind (each item List.mem_cons_self)
    intro type
    apply ih (fun other member => each other (List.mem_cons_of_mem _ member))
    intro scope names
    exact after ((name item, type) :: scope) (by rw [List.map_cons, List.map_cons, names])

end Agrees

/-- Two ways to infer types agree on an expression, in contexts that are near to each other; how near,
depends on the names that are bound around the expression. -/
def AgreeOn (L : Likeness) (near : List String → Context → Context → Prop) (infer other : Infer)
    (part : Part) : Prop :=
  ∀ {context context' : Context} (mode : Mode), near part.bound context context' →
    Agrees L (infer context part.path mode part.node) (other context' part.path mode part.node)

/-- Contexts stay near to each other inside one more function, which binds its parameters. -/
def Scoping (near : List String → Context → Context → Prop) : Prop :=
  ∀ ⦃bound : List String⦄ ⦃context context' : Context⦄ (scope : List (String × String)),
    near bound context context' →
    near (scope.map (·.1) ++ bound) (context.within scope) (context'.within scope)

section Expressions

variable {near : List String → Context → Context → Prop} {infer other : Infer}
  {context context' : Context} {path : Path} {bound : List String}

theorem agrees_parameterBy (close : near bound context context') {parameter : Parameter}
    (each : ∀ node, default? parameter = some node → AgreeOn L near infer other ⟨path, bound, node⟩) :
    Agrees L (parameterBy infer context path parameter)
      (parameterBy other context' path parameter) := by
  rw [parameterBy, parameterBy]
  split
  · exact .pure _
  · rename_i initializer type initial
    have used : default? parameter = some initializer := by rw [default?, type, initial]
    exact .bind (.attempt (each initializer used _ close)) fun _ => .pure _
  · exact .pure _

theorem agrees_bodyBy (close : near bound context context') {nodes : List Node}
    (each : ∀ node ∈ nodes, AgreeOn L near infer other ⟨path, bound, node⟩) (types : List String) :
    Agrees L (bodyBy infer context path nodes types) (bodyBy other context' path nodes types) := by
  induction nodes generalizing types with
  | nil => exact .pure _
  | cons node rest ih =>
    rw [bodyBy, bodyBy]
    apply Agrees.bind (.attempt (each node List.mem_cons_self _ close))
    intro outcome
    cases outcome with
    | error reason => exact .pure _
    | ok type => exact ih (fun other member => each other (List.mem_cons_of_mem _ member)) _

/-- Agreement on the parts of a function is agreement on its parameters. -/
theorem agrees_parameter (close : near bound context context') {callable : Callable}
    (each : ∀ part ∈ callableParts bound callable, AgreeOn L near infer other part)
    {parameter : Parameter} (member : parameter ∈ callable.signature.parameters) :
    Agrees L (parameterBy infer context callable.path parameter)
      (parameterBy other context' callable.path parameter) := by
  apply agrees_parameterBy close
  intro node used
  exact each _ (List.mem_append_left _
    (List.mem_map_of_mem (List.mem_filterMap.mpr ⟨parameter, member, used⟩)))

variable (scoping : Scoping near)

include scoping

theorem agrees_returnBy (close : near bound context context') {callable : Callable}
    (each : ∀ part ∈ callableParts bound callable, AgreeOn L near infer other part) :
    Agrees L (returnBy infer context callable) (returnBy other context' callable) := by
  have results : ∀ node ∈ resultsOf callable, AgreeOn L near infer other
      ⟨callable.path, callable.signature.parameters.map (·.name) ++ bound, node⟩ :=
    fun node member => each _ (List.mem_append_right _ (List.mem_map_of_mem member))
  rw [returnBy, returnBy]
  split
  · exact .pure _
  · exact .pure _
  · rename_i body inferred present
    rw [resultsOf, inferred, present] at results
    split
    · exact .pure _
    · rename_i plain
      dsimp only at results
      rw [if_neg plain] at results
      apply Agrees.scope (fun parameter member => agrees_parameter close each member)
      intro scope names
      have inside := scoping scope close
      rw [names] at inside
      dsimp only
      split
      · rename_i block
        rw [if_pos block] at results
        exact .bind (agrees_bodyBy inside results _) fun _ => .pure _
      · rename_i block
        rw [if_neg block] at results
        exact .bind (.attempt (results body List.mem_cons_self _ inside)) fun _ => .pure _

theorem agrees_signatureBy (close : near bound context context') (arrow : Bool) {callable : Callable}
    (each : ∀ part ∈ callableParts bound callable, AgreeOn L near infer other part) :
    Agrees L (signatureBy infer context arrow callable)
      (signatureBy other context' arrow callable) := by
  rw [signatureBy, signatureBy]
  apply Agrees.bind
  · apply Agrees.mapM
    intro parameter member
    exact .bind (agrees_parameter close each member) fun _ => .pure _
  · intro parameters
    exact .bind (agrees_returnBy scoping close each) fun _ => .pure _

omit scoping

theorem agrees_distinctBy (close : near bound context context') (mode : Mode) {nodes : List Node}
    (each : ∀ node ∈ nodes, AgreeOn L near infer other ⟨path, bound, node⟩) :
    Agrees L (distinctBy infer context path mode nodes)
      (distinctBy other context' path mode nodes) :=
  .bind (.mapM fun node member => each node member mode close) fun _ => .pure _

theorem agrees_binaryBy (close : near bound context context') {node : Node}
    (each : Node.textOf (node.get? .operator) = "+" →
      ∀ operand ∈ (node.get? .left).toList ++ (node.get? .right).toList,
        AgreeOn L near infer other ⟨path, bound, operand⟩) :
    Agrees L (binaryBy infer context path node) (binaryBy other context' path node) := by
  simp only [binaryBy]
  split
  · exact .pure _
  · split
    · exact .pure _
    · split
      · rename_i plus left right
        have each := each plus
        rw [left, right] at each
        apply Agrees.bind (each _ List.mem_cons_self _ close)
        intro first
        apply Agrees.bind (each _ (List.mem_cons_of_mem _ List.mem_cons_self) _ close)
        intro second
        exact .except _
      · exact .throw _

theorem agrees_arrayBy (close : near bound context context') (readonly : Bool) {elements : List Node}
    (each : ∀ node ∈ elements, AgreeOn L near infer other ⟨path, bound, node⟩) :
    Agrees L (arrayBy infer context path readonly elements)
      (arrayBy other context' path readonly elements) := by
  rw [arrayBy, arrayBy]
  dsimp only
  split
  · exact .stop _ _ _
  · split
    · exact .bind (.mapM fun node member => each node member _ close) fun _ => .pure _
    · exact .bind (agrees_distinctBy close _ each) fun _ => .pure _

theorem agrees_assertedBy (close : near bound context context') {node : Node}
    (each : ∀ inner, node.operands = [inner] → AgreeOn L near infer other ⟨path, bound, inner⟩) :
    Agrees L (assertedBy infer context path node) (assertedBy other context' path node) := by
  rw [assertedBy, assertedBy]
  split
  · exact .pure _
  · rename_i inner operands
    split
    · exact each inner operands _ close
    · exact .throw _
  · exact .throw _

include scoping

theorem agrees_entryBy (close : near bound context context') (readonly : Bool) {node : Node}
    (each : ∀ part ∈ entryParts ⟨path, bound, node⟩, AgreeOn L near infer other part) :
    Agrees L (entryBy infer context path readonly node)
      (entryBy other context' path readonly node) := by
  rw [entryBy, entryBy]
  rw [entryParts] at each
  dsimp only at each ⊢
  split
  · rename_i kind
    rw [kind] at each
    split
    · rename_i value
      rw [value] at each
      split
      · exact .stop _ _ _
      · exact .bind (each _ List.mem_cons_self _ close) fun _ => .pure _
    · exact .throw _
  · rename_i kind
    rw [kind] at each
    exact .bind (each _ List.mem_cons_self _ close) fun _ => .pure _
  · rename_i kind
    rw [kind] at each
    exact .bind (agrees_signatureBy scoping close _ each) fun _ => .pure _
  · exact .throw _

variable {refer reference : Infer}

theorem agrees_expressionBy (close : near bound context context') (mode : Mode) {node : Node}
    (parts : ∀ part ∈ partsOf ⟨path, bound, node⟩, AgreeOn L near infer other part)
    (names : ∀ name, referenceOf? node = some name →
      AgreeOn L near refer reference ⟨path, bound, name⟩) :
    Agrees L (expressionBy infer refer context path mode node)
      (expressionBy other reference context' path mode node) := by
  rw [expressionBy, expressionBy]
  rw [partsOf] at parts
  rw [referenceOf?] at names
  cases found : unwrap node with
  | none => exact .throw _
  | some inner =>
    rw [found] at names
    simp only [found] at parts ⊢
    have name : [.identifier, .shorthandProperty, .memberAccess, .subscript].contains inner.kind =
        true → Agrees L (refer context path mode inner) (reference context' path mode inner) := by
      intro kind
      exact names inner (Option.filter_some_eq_some.mpr kind) mode close
    split
    · exact .except _
    · split
      all_goals rename_i kind
      all_goals first | exact .throw _ | rw [kind] at parts name
      · exact agrees_binaryBy close fun plus operand member =>
          parts _ (by rw [plus]; exact List.mem_map_of_mem member)
      · apply Agrees.bind _ fun _ => .pure _
        exact agrees_distinctBy close _ fun branch member => parts _ (List.mem_map_of_mem member)
      · exact agrees_arrayBy close _ fun element member => parts _ (List.mem_map_of_mem member)
      · apply Agrees.bind _ fun _ => .pure _
        apply Agrees.mapM
        intro entry member
        apply agrees_entryBy scoping close
        intro part inside
        exact parts part (List.mem_flatMap.mpr ⟨entry, member, inside⟩)
      · apply agrees_assertedBy close
        intro operand only
        exact parts _ (by rw [only]; exact List.mem_cons_self)
      · split
        · rename_i first
          rw [first] at parts
          exact parts _ List.mem_cons_self _ close
        · exact .throw _
      · exact agrees_signatureBy scoping close _ parts
      · exact agrees_signatureBy scoping close _ parts
      · exact agrees_signatureBy scoping close _ parts
      · exact name rfl
      · exact name rfl
      · exact name rfl
      · exact name rfl

/-- With the same fuel, agreement on names is agreement on expressions. -/
theorem agreeOn_expressionFrom (fuel : Nat) {part : Part}
    (names : ∀ name ∈ referencesFrom fuel part, AgreeOn L near refer reference name) :
    AgreeOn L near (expressionFrom refer fuel) (expressionFrom reference fuel) part := by
  induction fuel generalizing part with
  | zero =>
    intro _ _ _ _
    exact .throw _
  | succ fuel ih =>
    intro _ _ mode close
    apply agrees_expressionBy scoping close mode
    · intro inner member
      apply ih
      intro name deeper
      exact names name (List.mem_append_right _ (List.mem_flatMap.mpr ⟨inner, member, deeper⟩))
    · intro name found
      apply names
      rw [referencesFrom, found]
      exact List.mem_append_left _ List.mem_cons_self

end Expressions

section Declarations

variable {near : List String → Context → Context → Prop} {infer other : Infer}
  {context context' : Context} (scoping : Scoping near)

theorem agrees_annotatedBy (close : near [] context context') {path : Path}
    {type initializer : Option Node} (mode : Mode)
    (each : type = none → ∀ node ∈ initializer.toList, AgreeOn L near infer other ⟨path, [], node⟩) :
    Agrees L (annotatedBy infer context path type initializer mode)
      (annotatedBy other context' path type initializer mode) := by
  cases type with
  | some type => exact .pure _
  | none =>
    cases initializer with
    | some initializer => exact each rfl initializer (List.mem_singleton.mpr rfl) mode close
    | none => exact .pure _

include scoping

theorem agrees_functionBy (close : near [] context context') {header : Header}
    {signature : Signature} {symbol : Option Symbol}
    (each : ∀ function ∈ shownFunctions (header, signature) symbol,
      ∀ part ∈ callableParts [] (.ofHeader function.1 function.2), AgreeOn L near infer other part) :
    Agrees L (functionBy infer context (.ofHeader header signature) symbol)
      (functionBy other context' (.ofHeader header signature) symbol) := by
  rw [functionBy, functionBy]
  rw [shownFunctions] at each
  dsimp only
  split
  · rename_i single
    rw [if_pos single] at each
    exact agrees_signatureBy scoping close _ (each _ List.mem_cons_self)
  · rename_i several
    rw [if_neg several] at each
    split
    · rename_i shown
      rw [shown] at each
      exact agrees_signatureBy scoping close _ (each _ List.mem_cons_self)
    · apply Agrees.bind _ fun _ => .pure _
      apply Agrees.mapM
      intro function member
      exact agrees_signatureBy scoping close _ (each function member)

theorem agrees_memberBy {declare declare' : Declare} (close : near [] context context')
    {header : Header} {shape : MemberShape}
    (each : ∀ part ∈ memberParts header shape, AgreeOn L near infer other part)
    (getter : ∀ target, getterOf? ⟨header, .member shape⟩ = some target →
      Agrees L (declare context target none) (declare' context' target none)) :
    Agrees L (memberBy infer declare context header shape)
      (memberBy other declare' context' header shape) := by
  cases shape with
  | field type initializer optional =>
    apply agrees_annotatedBy close
    rintro rfl node member
    exact each _ (List.mem_map_of_mem member)
  | property type optional => exact agrees_annotatedBy close _ fun _ _ member => nomatch member
  | entry initializer isConst =>
    exact agrees_annotatedBy close _ fun _ node member => each _ (List.mem_map_of_mem member)
  | getter signature => exact agrees_returnBy scoping close each
  | setter signature paired =>
    cases paired with
    | some paired => exact getter _ rfl
    | none =>
      rw [memberBy, memberBy]
      split
      · exact .pure _
      · exact .pure _
  | constructor signature => exact .bind (agrees_signatureBy scoping close _ each) fun _ => .pure _
  | constructSignature signature =>
    exact .bind (agrees_signatureBy scoping close _ each) fun _ => .pure _
  | method signature => exact agrees_signatureBy scoping close _ each
  | methodSignature signature => exact agrees_signatureBy scoping close _ each

theorem agrees_declarationBy {declare declare' : Declare} (close : near [] context context')
    {declaration : Declaration} {symbol : Option Symbol}
    (each : ∀ part ∈ declarationParts declaration symbol, AgreeOn L near infer other part)
    (getter : ∀ target, getterOf? declaration = some target →
      Agrees L (declare context target none) (declare' context' target none)) :
    Agrees L (declarationBy infer declare context declaration symbol)
      (declarationBy other declare' context' declaration symbol) := by
  obtain ⟨header, shape⟩ := declaration
  cases shape with
  | function signature =>
    apply agrees_functionBy scoping close
    intro function shown part member
    exact each part (List.mem_flatMap.mpr ⟨function, shown, member⟩)
  | classShape typeParameters members =>
    rw [declarationBy, declarationBy]
    dsimp only
    split
    · exact .pure _
    · exact .throw _
  | enumeration =>
    rw [declarationBy, declarationBy]
    dsimp only
    split
    · exact .pure _
    · exact .throw _
  | interface typeParameters members => exact .pure _
  | typeAlias typeParameters type =>
    cases type with
    | some type => exact .pure _
    | none => exact .throw _
  | «variable» statement type initializer =>
    apply agrees_annotatedBy close
    rintro rfl node member
    exact each _ (List.mem_map_of_mem member)
  | member shape => exact agrees_memberBy scoping close each getter
  | exportAssignment expression => exact each _ List.mem_cons_self _ close
  | exportSpecifier inside source => exact .throw _
  | importSpecifier inside source => exact .throw _

end Declarations

section Types

variable (symbols : ∀ path node, L.Keeps (Lookup.symbolAt path node))

include symbols

theorem agreeOn_nameBy {declare : Declare}
    (declarations : ∀ context declaration symbol,
      Agrees L (declare context declaration symbol) (declare context declaration symbol))
    (part : Part) : AgreeOn L (fun _ => (· = ·)) (nameBy declare) (nameBy declare) part := by
  rintro context _ mode rfl
  rw [nameBy]
  split
  · exact .pure _
  · apply Agrees.bind (.lift (symbols part.path part.node))
    intro found
    split
    · exact .throw _
    · split
      · exact .throw _
      · exact .bind (declarations _ _ _) fun _ => .pure _

theorem agrees_declarationFrom (depth : Nat) (context : Context) (declaration : Declaration)
    (symbol : Option Symbol) :
    Agrees L (declarationFrom depth context declaration symbol)
      (declarationFrom depth context declaration symbol) := by
  have scoping : Scoping fun _ => (· = ·) := by
    rintro bound context _ scope rfl
    rfl
  induction depth generalizing context declaration symbol with
  | zero => exact .throw _
  | succ depth ih =>
    rw [declarationFrom]
    split
    · exact .throw _
    · apply agrees_declarationBy scoping rfl
      · intro part _ _ _ mode close
        exact agreeOn_expressionFrom scoping part.node.weight
          (fun name _ => agreeOn_nameBy symbols ih name) mode close
      · intro target _
        exact ih _ target none

/-- What holds of the look-ups of symbols holds of the inference of types. -/
theorem keeps_typeAt (symbol : Symbol) (declaration : Declaration) :
    L.Keeps (typeAt symbol declaration) :=
  agrees_declarationFrom symbols maxDepth .empty declaration (some symbol)

end Types

end ApiSections.Display
