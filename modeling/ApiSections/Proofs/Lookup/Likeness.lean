import ApiSections.Proofs.Workspace.Likeness

namespace ApiSections.Lookup

open Work (Likeness StepRelation)
open Syntax (Node)

variable {L : Likeness}

section Aliases

variable (load : ∀ path, L.Keeps (Work.load? path))

include load

theorem keeps_localOf (path : Path) (name referrer : String) :
    L.Keeps (localOf path name referrer) := by
  apply L.bind (load path)
  intro module
  split
  · exact L.pure _
  · exact L.pure _

variable (resolve : ∀ importer specifier, L.Keeps (Work.resolveModule importer specifier))

omit load

include resolve

theorem keeps_exportOf (importer : Path) (specifier name : String) :
    L.Keeps (exportOf importer specifier name) := by
  apply L.bind (resolve importer specifier)
  intro found
  split
  · exact L.pure _
  · split
    · exact L.pure _
    · split
      · exact L.pure _
      · exact L.pure _

include load

theorem keeps_aliasTarget (symbol : Symbol) : L.Keeps (aliasTarget symbol) := by
  rw [aliasTarget]
  split
  · exact L.pure _
  · split
    · exact keeps_localOf load _ _ _
    · exact keeps_exportOf resolve _ _ _
    · exact keeps_exportOf resolve _ _ _
    · split
      · split
        · exact keeps_localOf load _ _ _
        · exact L.pure _
      · exact L.pure _
    · exact L.pure _

theorem keeps_follow (limit : L.Keeps Work.moduleLimit) (symbol : Symbol) :
    L.Keeps (follow symbol) := by
  rw [follow]
  split
  · apply Likeness.keeps_run (fun _ => True) load limit _ trivial
    intro next item _ ih
    apply L.bind (keeps_aliasTarget load resolve item)
    intro target
    split
    · exact L.pure _
    · split
      · exact ih _ trivial
      · exact L.pure _
  · exact L.pure _

end Aliases

theorem keeps_followNoted {symbol : Symbol} (follows : L.Keeps (follow symbol)) :
    L.Keeps (followNoted symbol) := by
  apply L.bind follows
  intro target
  split
  · exact L.pure _
  · exact L.bind (Likeness.keeps_debug _ _ _ _) fun _ => L.pure _

/-- A likeness that holds of the look-ups of names in modules. -/
structure Names (L : Likeness) : Prop where
  load : ∀ path, L.Keeps (Work.load? path)
  limit : L.Keeps Work.moduleLimit
  named : ∀ path name, L.Keeps (named path name)
  type : ∀ path name, L.Keeps (typeDeclaration? path name)

/-- It is enough that the likeness holds of what modules are found with. -/
theorem Names.of_modules (load : ∀ path, L.Keeps (Work.load? path))
    (resolve : ∀ importer specifier, L.Keeps (Work.resolveModule importer specifier))
    (limit : L.Keeps Work.moduleLimit) : Names L where
  load := load
  limit := limit
  named path name := by
    apply L.bind (load path)
    intro module
    split
    · exact keeps_followNoted (keeps_follow load resolve limit _)
    · exact L.pure _
  type path name := by
    apply L.bind (load path)
    intro module
    split
    · exact L.pure _
    · apply L.bind (keeps_follow load resolve limit _)
      intro target
      split
      · exact L.pure _
      · exact L.pure _

section Values

variable {m m' : Type → Type} [Monad m] [Monad m'] [MonadLiftT Work m] [MonadLiftT Work m']

/-- A relation that holds of names, of what is bound once and of the members of types. -/
structure Lifts (R : StepRelation m m') : Prop where
  named : ∀ path name, R.alike (liftM (named path name)) (liftM (named path name))
  bound : ∀ place members,
    R.alike (liftM (Work.membersAt place members)) (liftM (Work.membersAt place members))
  types : ∀ site, R.alike (liftM (typeMembers site)) (liftM (typeMembers site))
  instances : ∀ declaration,
    R.alike (liftM (instanceMembers declaration)) (liftM (instanceMembers declaration))

variable {R : StepRelation m m'} (lifts : Lifts R) {property : Symbol → String → m (Option Symbol)}
  {property' : Symbol → String → m' (Option Symbol)} {members : Site → m (List Member)}
  {members' : Site → m' (List Member)}

omit [MonadLiftT Work m] [MonadLiftT Work m'] in
theorem alike_accessBy
    (properties : ∀ owner name, R.alike (property owner name) (property' owner name))
    (keys : List String) (symbol : Option Symbol) :
    R.alike (accessBy property keys symbol) (accessBy property' keys symbol) := by
  induction keys generalizing symbol with
  | nil =>
    cases symbol with
    | none => exact R.pure _
    | some symbol => exact R.pure _
  | cons key keys ih =>
    cases symbol with
    | none => exact R.pure _
    | some owner => exact R.bind (properties owner key) ih

include lifts

theorem alike_symbolBy
    (properties : ∀ owner name, R.alike (property owner name) (property' owner name))
    (path : Path) (node : Node) :
    R.alike (symbolBy property path node) (symbolBy property' path node) := by
  rw [symbolBy, symbolBy]
  split
  · exact R.pure _
  · exact R.bind (lifts.named _ _) (alike_accessBy properties _)

theorem alike_valueMembersBy (others : ∀ site, R.alike (members site) (members' site))
    (symbol : Symbol) :
    R.alike (valueMembersBy members symbol) (valueMembersBy members' symbol) := by
  rw [valueMembersBy, valueMembersBy]
  split
  · exact R.pure _
  · split
    · exact R.pure _
    · split
      · exact lifts.types _
      · exact others _
      · exact R.pure _

theorem alike_referredMembersBy
    (properties : ∀ owner name, R.alike (property owner name) (property' owner name))
    (others : ∀ site, R.alike (members site) (members' site)) (path : Path) (node : Node) :
    R.alike
      (symbolBy property path node >>= fun found => match found with
        | some symbol => valueMembersBy members symbol
        | none => pure [])
      (symbolBy property' path node >>= fun found => match found with
        | some symbol => valueMembersBy members' symbol
        | none => pure []) := by
  apply R.bind (alike_symbolBy lifts properties _ _)
  intro found
  cases found with
  | some symbol => exact alike_valueMembersBy lifts others symbol
  | none => exact R.pure _

theorem alike_initializerMembersBy
    (properties : ∀ owner name, R.alike (property owner name) (property' owner name))
    (others : ∀ site, R.alike (members site) (members' site)) (site : Site) :
    R.alike (initializerMembersBy property members site)
      (initializerMembersBy property' members' site) := by
  have values := alike_referredMembersBy lifts properties others site.path
  rw [initializerMembersBy, initializerMembersBy]
  split
  · exact R.pure _
  · exact lifts.types _
  · split
    · exact lifts.bound _ _
    · split
      · exact R.pure _
      · apply R.bind (alike_symbolBy lifts properties _ _)
        intro found
        cases found with
        | some symbol => exact lifts.instances _
        | none => exact R.pure _
    · exact values _
    · exact values _
    · exact values _
    · exact R.pure _

end Values

section Members

variable (names : Names L) (bound : ∀ place members, L.Keeps (Work.membersAt place members))

include names bound

theorem keeps_typeMembers (site : Site) : L.Keeps (typeMembers site) := by
  apply Likeness.keeps_run (fun _ => True) names.load names.limit _ trivial
  intro next site _ ih
  dsimp only [types]
  split
  · exact L.pure _
  · split
    · exact bound _ _
    · apply L.bind (names.type _ _)
      intro declaration
      rw [instanceMembersBy.eq_def]
      split
      · exact L.pure _
      · split
        · exact L.pure _
        · exact L.pure _
        · exact ih _ trivial
        · exact L.pure _

theorem keeps_instanceMembers (declaration : Option Declaration) :
    L.Keeps (instanceMembers declaration) := by
  rw [instanceMembers, instanceMembersBy.eq_def]
  split
  · exact L.pure _
  · split
    · exact L.pure _
    · exact L.pure _
    · exact keeps_typeMembers names bound _
    · exact L.pure _

theorem lifts_names : Lifts L.toStepRelation where
  named := names.named
  bound := bound
  types := keeps_typeMembers names bound
  instances := keeps_instanceMembers names bound

variable (remembered : ∀ owner name, L.Keeps (Work.remembered owner name))
  (remember : ∀ owner name found, L.Keeps (Work.remember owner name found))

include remembered remember

theorem keeps_propertyBy {members : Site → Work (List Member)}
    (keeps : ∀ site, L.Keeps (members site)) (owner : Symbol) (name : String) :
    L.Keeps (propertyBy members owner name) := by
  apply L.bind (remembered owner name)
  intro known
  split
  · exact L.pure _
  · apply L.bind (alike_valueMembersBy (lifts_names names bound) keeps owner)
    intro members
    exact L.bind (remember _ _ _) fun _ => L.pure _

/-- What holds of names and of what is remembered holds of the symbol that an expression refers
to. -/
theorem keeps_symbolAt (path : Path) (node : Node) : L.Keeps (symbolAt path node) := by
  have values : ∀ site, L.Keeps (values.run site) := by
    intro site
    apply Likeness.keeps_run (fun _ => True) names.load names.limit _ trivial
    intro next site _ ih
    have members : ∀ site, L.Keeps (next site) := fun site => ih site trivial
    exact alike_initializerMembersBy (lifts_names names bound)
      (keeps_propertyBy names bound remembered remember members) members site
  exact alike_symbolBy (lifts_names names bound)
    (keeps_propertyBy names bound remembered remember values) path node

end Members

end ApiSections.Lookup
