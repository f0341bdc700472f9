import ApiSections.Proofs.Lookup.Placed

/-!
What the look-ups of members of values come to. A look-up that needs its own result has none, and the
search answers that there are no members; so does every search inside which it is cut off. What is
remembered in the middle of a search is therefore what a search of its own would find.
-/

namespace ApiSections.Lookup

open Work (StepRelation Settles Ends Yields Sound)
open Syntax (Node)

variable {workspace : Workspace} {α β : Type}

/-- Look-ups that read the answers of a workspace and may have no end. -/
def Verdict (_ : Workspace) (α : Type) : Type := ExceptT Fault Option α

namespace Verdict

def run (verdict : Verdict workspace α) : Option (Except Fault α) := ExceptT.run verdict

instance : Monad (Verdict workspace) := inferInstanceAs (Monad (ExceptT Fault Option))

instance : MonadLift Work (Verdict workspace) where
  monadLift step := ExceptT.mk (some (Work.answer workspace step))

theorem run_lift (step : Work α) :
    (liftM step : Verdict workspace α).run = some (Work.answer workspace step) := rfl

theorem run_bind (verdict : Verdict workspace α) (next : α → Verdict workspace β) :
    (verdict >>= next).run = match verdict.run with
      | none => none
      | some (.error fault) => some (.error fault)
      | some (.ok value) => (next value).run := by
  change Option.bind (ExceptT.run verdict) _ = _
  rw [run]
  rcases ExceptT.run verdict with _ | fault | value <;> rfl

end Verdict

/-- The member of a symbol's value, by the members of initializers; nothing is remembered. -/
def propertyWithin (members : Site → Verdict workspace (List Member)) (owner : Symbol)
    (name : String) : Verdict workspace (Option Symbol) := do
  return memberNamed? owner name (← valueMembersBy members owner)

theorem run_propertyWithin (members : Site → Verdict workspace (List Member)) (owner : Symbol)
    (name : String) : (propertyWithin members owner name).run =
      (valueMembersBy members owner).run.map (Except.map (memberNamed? owner name)) := by
  rw [propertyWithin, Verdict.run_bind]
  rcases (valueMembersBy members owner).run with _ | fault | found <;> rfl

/-- The members of an initializer, if no more than so many initializers lead to them. -/
def membersWithin (workspace : Workspace) : Nat → Site → Verdict workspace (List Member)
  | 0, _ => ExceptT.mk none
  | depth + 1, site =>
    initializerMembersBy (propertyWithin (membersWithin workspace depth))
      (membersWithin workspace depth) site

section Depth

/-- A result stays with more depth. -/
def Grows (family : Nat → Verdict workspace α) : Prop :=
  ∀ depth outcome, (family depth).run = some outcome → (family (depth + 1)).run = some outcome

/-- The second has the result of the first, if the first has one. -/
def extends_ (workspace : Workspace) : StepRelation (Verdict workspace) (Verdict workspace) where
  alike first second := ∀ outcome, first.run = some outcome → second.run = some outcome
  pure _ _ same := same
  bind := by
    intro _ _ first second next other start rest outcome found
    rw [Verdict.run_bind] at found ⊢
    cases ran : first.run with
    | none =>
      rw [ran] at found
      cases found
    | some result =>
      rw [ran] at found
      rw [start result ran]
      cases result with
      | error fault => exact found
      | ok value => exact rest value outcome found

theorem lifts_extends : Lifts (extends_ workspace) where
  named _ _ _ same := same
  bound _ _ _ same := same
  types _ _ same := same
  instances _ _ same := same

theorem extends_property {members others : Site → Verdict workspace (List Member)}
    (more : ∀ site, (extends_ workspace).alike (members site) (others site)) (owner : Symbol)
    (name : String) :
    (extends_ workspace).alike (propertyWithin members owner name)
      (propertyWithin others owner name) :=
  (extends_ workspace).bind (alike_valueMembersBy lifts_extends more owner) fun _ =>
    (extends_ workspace).pure _

theorem grows_members (site : Site) : Grows fun depth => membersWithin workspace depth site := by
  intro depth
  induction depth generalizing site with
  | zero => exact fun _ same => nomatch same
  | succ depth ih =>
    exact alike_initializerMembersBy lifts_extends (extends_property fun site => ih site)
      (fun site => ih site) site

theorem grows_valueMembers (symbol : Symbol) :
    Grows fun depth => valueMembersBy (membersWithin workspace depth) symbol :=
  fun depth => alike_valueMembersBy lifts_extends (fun site => grows_members site depth) symbol

theorem grows_property (owner : Symbol) (name : String) :
    Grows fun depth => propertyWithin (membersWithin workspace depth) owner name :=
  fun depth => extends_property (fun site => grows_members site depth) owner name

theorem grows_symbol (path : Path) (node : Node) :
    Grows fun depth => symbolBy (propertyWithin (membersWithin workspace depth)) path node :=
  fun depth => alike_symbolBy lifts_extends (fun owner name => grows_property owner name depth) path
    node

theorem Grows.le {family : Nat → Verdict workspace α} (grows : Grows family) {less more : Nat}
    (le : less ≤ more) {outcome : Except Fault α} (found : (family less).run = some outcome) :
    (family more).run = some outcome := by
  induction le with
  | refl => exact found
  | step _ ih => exact grows _ _ ih

theorem Grows.unique {family : Nat → Verdict workspace α} (grows : Grows family)
    {first second : Nat} {outcome other : Except Fault α}
    (here : (family first).run = some outcome) (there : (family second).run = some other) :
    outcome = other := by
  have before := grows.le (Nat.le_max_left first second) here
  rw [grows.le (Nat.le_max_right first second) there] at before
  exact (Option.some.inj before).symm

end Depth

/-- Where a look-up ends: at the result that some depth gives, and where there is none at what stands
for nothing. -/
def Comes (family : Nat → Verdict workspace α) (nothing : α) (outcome : Except Fault α) : Prop :=
  (∃ depth, (family depth).run = some outcome) ∨
    (∀ depth, (family depth).run = none) ∧ outcome = .ok nothing

theorem Comes.unique {family : Nat → Verdict workspace α} (grows : Grows family) {nothing : α}
    {first second : Except Fault α} (here : Comes family nothing first)
    (there : Comes family nothing second) : first = second := by
  rcases here with ⟨depth, found⟩ | ⟨none, rfl⟩ <;> rcases there with ⟨other, also⟩ | ⟨none', rfl⟩
  · exact grows.unique found also
  · rw [none' depth] at found
    cases found
  · rw [none other] at also
    cases also
  · rfl

/-- What is rightly remembered about a member of a symbol. -/
structure Right (workspace : Workspace) (owner : Symbol) (name : String) (found : Option Symbol) :
    Prop where
  placed : owner.Placed workspace
  comes : Comes (fun depth => propertyWithin (membersWithin workspace depth) owner name) none
    (.ok found)
  member : PlacedSymbol workspace found

/-- What is rightly remembered. -/
def rightly (workspace : Workspace) : Work.Rightness := ⟨Right workspace, Bound workspace⟩

/-- A step follows a look-up: it ends where the look-up does. This may use that the look-up has a
result at the depths at which another one, which needs it, has one. -/
def Tracks (workspace : Workspace) (needed : Nat → Prop) (nothing : α) (given : α → Prop)
    (step : Work α) (family : Nat → Verdict workspace α) : Prop :=
  (∀ depth, needed depth → (family depth).run ≠ none) →
    Ends workspace (rightly workspace) step fun outcome =>
      Comes family nothing outcome ∧ ∀ value, outcome = .ok value → given value

namespace Tracks

variable {needed : Nat → Prop} {nothing : α} {given : α → Prop}

theorem pure {value : α} (held : given value) :
    Tracks workspace needed nothing given (Pure.pure value) fun _ => Pure.pure value := by
  intro _
  apply Ends.pure
  refine ⟨.inl ⟨0, rfl⟩, ?_⟩
  intro other same
  rw [← Except.ok.inj same]
  exact held

/-- A step that settles is its own look-up. -/
theorem lift {step : Work α} (yields : Yields workspace (rightly workspace) step given) :
    Tracks workspace needed nothing given step fun _ => liftM step := by
  intro _
  obtain ⟨outcome, settles, held⟩ := yields
  refine settles.ends ⟨.inl ⟨0, ?_⟩, held⟩
  rw [Verdict.run_lift, settles.answer]

/-- Putting steps together; the second makes nothing of nothing. -/
theorem bind {step : Work α} {family : Nat → Verdict workspace α} {next : α → Work β}
    {after : Nat → α → Verdict workspace β} {nothing' : β} {given' : β → Prop}
    (grows : Grows family) (growing : ∀ value, Grows fun depth => after depth value)
    (start : Tracks workspace needed nothing given step family) (rest : ∀ value, given value →
      Tracks workspace needed nothing' given' (next value) fun depth => after depth value)
    (strict : next nothing = Pure.pure nothing') (empty : given' nothing') :
    Tracks workspace needed nothing' given' (step >>= next)
      fun depth => family depth >>= after depth := by
  intro need
  have started : ∀ depth, needed depth → (family depth).run ≠ none := by
    intro depth wanted none
    apply need depth wanted
    rw [Verdict.run_bind, none]
  intro pass sound
  obtain ⟨outcome, between, ran, kept, comes, held⟩ := start started pass sound
  rcases comes with ⟨depth, found⟩ | ⟨none, rfl⟩
  · cases outcome with
    | error fault =>
      refine ⟨.error fault, between, by rw [Work.execute_bind, ran], kept, .inl ⟨depth, ?_⟩,
        fun _ same => nomatch same⟩
      rw [Verdict.run_bind, found]
    | ok value =>
      have followed : ∀ depth, needed depth → (after depth value).run ≠ none := by
        intro other wanted none
        apply need other wanted
        rw [Verdict.run_bind]
        cases ran : (family other).run with
        | none => exact absurd ran (started other wanted)
        | some result =>
          cases grows.unique ran found
          exact none
      obtain ⟨outcome, last, ran', kept, comes, held⟩ :=
        rest value (held value rfl) followed between kept
      refine ⟨outcome, last, by rw [Work.execute_bind, ran]; exact ran', kept, ?_, held⟩
      rcases comes with ⟨more, result⟩ | ⟨none, same⟩
      · refine .inl ⟨max depth more, ?_⟩
        rw [Verdict.run_bind, grows.le (Nat.le_max_left depth more) found]
        exact (growing value).le (Nat.le_max_right depth more) result
      · refine .inr ⟨fun other => ?_, same⟩
        rw [Verdict.run_bind]
        cases ran : (family other).run with
        | none => rfl
        | some result =>
          cases grows.unique ran found
          exact none other
  · refine ⟨.ok nothing', between, ?_, kept, .inr ⟨fun depth => ?_, rfl⟩, ?_⟩
    · rw [Work.execute_bind, ran]
      dsimp only
      rw [strict]
      rfl
    · rw [Verdict.run_bind, none depth]
    · intro value same
      rw [← Except.ok.inj same]
      exact empty

end Tracks

theorem accessBy_none {m : Type → Type} [Monad m] (property : Symbol → String → m (Option Symbol))
    (keys : List String) : accessBy property keys none = pure none := by
  cases keys <;> rfl

theorem placed_of_primary? {symbol : Symbol} {declaration : Declaration}
    (placed : symbol.Placed workspace) (found : symbol.primary? = some declaration) :
    declaration.Placed workspace := by
  rcases Option.or_eq_some_iff.mp found with value | ⟨_, first⟩
  · exact placed declaration (List.mem_of_find?_eq_some value)
  · exact placed declaration (List.mem_of_head? first)

theorem mem_nodes_of_ascription? {declaration : Declaration} {type : Node}
    (found : ascription? declaration = some type) : type ∈ declaration.shape.nodes := by
  obtain ⟨header, shape⟩ := declaration
  cases shape with
  | «variable» statement annotated initializer =>
    exact List.mem_append_left _ (Option.mem_toList.mpr found)
  | member shape =>
    cases shape with
    | field annotated initializer optional =>
      exact List.mem_append_left _ (Option.mem_toList.mpr found)
    | property annotated optional => exact Option.mem_toList.mpr found
    | _ => cases found
  | _ => cases found

theorem mem_nodes_of_initializer? {declaration : Declaration} {value : Node}
    (found : initializer? declaration = some value) : value ∈ declaration.shape.nodes := by
  obtain ⟨header, shape⟩ := declaration
  cases shape with
  | «variable» statement annotated initializer =>
    exact List.mem_append_right _ (Option.mem_toList.mpr found)
  | member shape =>
    cases shape with
    | field annotated initializer optional =>
      exact List.mem_append_right _ (Option.mem_toList.mpr found)
    | entry initializer isConst => exact Option.mem_toList.mpr found
    | _ => cases found
  | exportAssignment expression => exact List.mem_singleton.mpr (Option.some.inj found).symm
  | _ => cases found

theorem placed_memberNamed? {owner : Symbol} {name : String} {members : List Member}
    (placed : PlacedMembers workspace members) :
    PlacedSymbol workspace (memberNamed? owner name members) := by
  intro symbol found declaration declared
  rw [memberNamed?] at found
  split at found
  · cases found
  · rw [← Option.some.inj found] at declared
    obtain ⟨member, listed, rfl⟩ := List.mem_map.mp declared
    exact Declaration.placed_toDeclaration (placed member (List.mem_filter.mp listed).1)

section Steps

variable {needed : Nat → Prop} {property : Symbol → String → Work (Option Symbol)}
  {members : Site → Work (List Member)}

/-- The properties of placed symbols are followed. -/
def TracksProperties (workspace : Workspace) (needed : Nat → Prop)
    (property : Symbol → String → Work (Option Symbol)) : Prop :=
  ∀ owner name, owner.Placed workspace →
    Tracks workspace needed none (PlacedSymbol workspace) (property owner name) fun depth =>
      propertyWithin (membersWithin workspace depth) owner name

/-- The members of initializers that are written in modules are followed. -/
def TracksMembers (workspace : Workspace) (needed : Nat → Prop)
    (members : Site → Work (List Member)) : Prop :=
  ∀ site, site.Placed workspace →
    Tracks workspace needed [] (PlacedMembers workspace) (members site) fun depth =>
      membersWithin workspace depth site

theorem tracks_accessBy (properties : TracksProperties workspace needed property)
    (keys : List String) {symbol : Option Symbol} (placed : PlacedSymbol workspace symbol) :
    Tracks workspace needed none (PlacedSymbol workspace) (accessBy property keys symbol) fun depth =>
      accessBy (propertyWithin (membersWithin workspace depth)) keys symbol := by
  induction keys generalizing symbol with
  | nil =>
    cases symbol with
    | none => exact .pure placed
    | some symbol => exact .pure placed
  | cons key keys ih =>
    cases symbol with
    | none => exact .pure placed
    | some owner =>
      apply Tracks.bind (grows_property owner key) _ (properties owner key (placed owner rfl))
        (fun value => ih) (accessBy_none property keys) placedSymbol_none
      intro value depth
      exact alike_accessBy (R := extends_ workspace)
        (fun owner name => grows_property owner name depth) keys value

theorem tracks_symbolBy (properties : TracksProperties workspace needed property) (path : Path)
    (node : Node) :
    Tracks workspace needed none (PlacedSymbol workspace) (symbolBy property path node) fun depth =>
      symbolBy (propertyWithin (membersWithin workspace depth)) path node := by
  unfold symbolBy
  cases referenceOf node with
  | none => exact .pure placedSymbol_none
  | some reference =>
    have first : Tracks workspace needed none (PlacedSymbol workspace) (named path reference.name)
        fun _ => liftM (named path reference.name) :=
      .lift (yields_named path reference.name)
    apply Tracks.bind _ _ first (fun value => tracks_accessBy properties reference.keys)
      (accessBy_none property _) placedSymbol_none
    · exact fun _ _ same => same
    · intro value depth
      exact alike_accessBy (R := extends_ workspace)
        (fun owner name => grows_property owner name depth) reference.keys value

theorem tracks_typeMembers {site : Site} (stands : site.Stands workspace) :
    Tracks workspace needed [] (PlacedMembers workspace) (typeMembers site) fun _ =>
      liftM (typeMembers site) :=
  .lift (yields_typeMembers stands)

theorem tracks_valueMembersBy (others : TracksMembers workspace needed members) {symbol : Symbol}
    (placed : symbol.Placed workspace) :
    Tracks workspace needed [] (PlacedMembers workspace) (valueMembersBy members symbol)
      fun depth => valueMembersBy (membersWithin workspace depth) symbol := by
  unfold valueMembersBy
  cases found : symbol.primary? with
  | none => exact .pure placedMembers_nil
  | some declaration =>
    have placed := placed_of_primary? placed found
    dsimp only
    split
    · rename_i shape
      apply Tracks.pure
      intro member listed
      apply placed.member
      rw [shape]
      exact (List.mem_filter.mp listed).1
    · split
      · exact tracks_typeMembers (placed.nodes _ (mem_nodes_of_ascription? ‹_›)).stands
      · exact others _ (placed.nodes _ (mem_nodes_of_initializer? ‹_›))
      · exact .pure placedMembers_nil

theorem tracks_referredMembersBy (properties : TracksProperties workspace needed property)
    (others : TracksMembers workspace needed members) (path : Path) (node : Node) :
    Tracks workspace needed [] (PlacedMembers workspace)
      (symbolBy property path node >>= fun found => match found with
        | some symbol => valueMembersBy members symbol
        | none => pure [])
      fun depth => symbolBy (propertyWithin (membersWithin workspace depth)) path node >>=
        fun found => match found with
          | some symbol => valueMembersBy (membersWithin workspace depth) symbol
          | none => pure [] := by
  refine Tracks.bind (grows_symbol _ _) ?_ (tracks_symbolBy properties _ _) ?_ ?_ placedMembers_nil
  · intro found depth
    cases found with
    | none => exact (extends_ workspace).pure _
    | some symbol => exact grows_valueMembers symbol depth
  · intro found placed
    cases found with
    | none => exact .pure placedMembers_nil
    | some symbol => exact tracks_valueMembersBy others (placed symbol rfl)
  · rfl

theorem tracks_initializerMembersBy (properties : TracksProperties workspace needed property)
    (others : TracksMembers workspace needed members) {site : Site} (placed : site.Placed workspace) :
    Tracks workspace needed [] (PlacedMembers workspace) (initializerMembersBy property members site)
      fun depth => membersWithin workspace (depth + 1) site := by
  have values := tracks_referredMembersBy properties others site.path
  simp only [membersWithin]
  unfold initializerMembersBy
  cases core : coreOf false site.node with
  | missing => exact .pure placedMembers_nil
  | asserted type =>
    exact tracks_typeMembers (placed.stands.part (mem_subnodes_of_coreOf (by rw [core]; rfl)))
  | value node isConst =>
    dsimp only
    split
    · rename_i kind
      apply Tracks.lift
      apply (settles_membersAt (.value placed.given core kind)).yields
      intro members same
      rw [← Except.ok.inj same]
      exact Declaration.placed_objectMembers (placed.stands.part (mem_subnodes_of_core core)) kind
    · split
      · exact .pure placedMembers_nil
      · refine Tracks.bind (grows_symbol _ _) ?_ (tracks_symbolBy properties _ _) ?_ ?_
          placedMembers_nil
        · intro found depth
          cases found with
          | none => exact (extends_ workspace).pure _
          | some symbol => exact fun _ same => same
        · intro found placed
          cases found with
          | none => exact .pure placedMembers_nil
          | some symbol =>
            apply Tracks.lift
            apply yields_instanceMembers
            intro declaration primary
            exact placed_of_primary? (placed symbol rfl) primary
        · rfl
    · exact values _
    · exact values _
    · exact values _
    · exact .pure placedMembers_nil

theorem comes_property {owner : Symbol} {outcome : Except Fault (List Member)}
    (comes : Comes (fun depth => valueMembersBy (membersWithin workspace depth) owner) [] outcome)
    (name : String) :
    Comes (fun depth => propertyWithin (membersWithin workspace depth) owner name) none
      (outcome.map (memberNamed? owner name)) := by
  rcases comes with ⟨depth, found⟩ | ⟨none, rfl⟩
  · refine .inl ⟨depth, ?_⟩
    dsimp only at found ⊢
    rw [run_propertyWithin, found, Option.map_some]
  · refine .inr ⟨fun depth => ?_, rfl⟩
    dsimp only at none ⊢
    rw [run_propertyWithin, none depth, Option.map_none]

theorem settles_remember {owner : Symbol} {name : String} {found : Option Symbol}
    (right : Right workspace owner name found) :
    Settles workspace (rightly workspace) (Work.remember owner name found) (.ok ()) := by
  apply Settles.note
  intro pass sound
  refine ⟨sound.modules, sound.links, sound.members, ?_⟩
  intro entry member
  rcases List.mem_append.mp member with member | member
  · exact sound.properties entry member
  · rw [List.mem_singleton.mp member]
    exact right

/-- A property that is remembered is right, and one that is found is rightly remembered. -/
theorem tracks_propertyBy (others : TracksMembers workspace needed members) :
    TracksProperties workspace needed (propertyBy members) := by
  intro owner name placed need
  have values := tracks_valueMembersBy others placed fun depth wanted none =>
    need depth wanted (by dsimp only at none ⊢; rw [run_propertyWithin, none, Option.map_none])
  unfold propertyBy Work.remembered
  rw [bind_assoc]
  apply Ends.look
  intro pass sound
  rw [pure_bind]
  cases known : pass.properties.find? _ with
  | some entry =>
    obtain ⟨other, label, found⟩ := entry
    have same : label = name ∧ other = owner := by simpa using List.find?_some known
    have right : Right workspace owner name found := by
      rw [← same.1, ← same.2]
      exact sound.properties _ (List.mem_of_find?_eq_some known)
    apply Ends.pure _ pass sound
    refine ⟨right.comes, fun value equal => ?_⟩
    rw [← Except.ok.inj equal]
    exact right.member
  | none =>
    apply Ends.bind values _ _ pass sound
    · rintro found ⟨comes, held⟩
      have right : Right workspace owner name (memberNamed? owner name found) :=
        ⟨placed, comes_property comes name, placed_memberNamed? (held found rfl)⟩
      have remembers : Settles workspace (rightly workspace)
          (Work.remember owner name (memberNamed? owner name found) >>= fun _ =>
            pure (memberNamed? owner name found)) (.ok (memberNamed? owner name found)) :=
        (settles_remember right).bind (.pure _)
      apply remembers.ends
      refine ⟨right.comes, fun value equal => ?_⟩
      rw [← Except.ok.inj equal]
      exact right.member
    · rintro fault ⟨comes, _⟩
      refine ⟨comes_property comes name, ?_⟩
      intro _ same
      cases same

end Steps

/-- The initializers of a module: the nodes of its declarations. -/
def valueChart (workspace : Workspace) : Walk.Chart workspace values where
  items path :=
    match workspace.module? path with
    | none => []
    | some module => (Node.subnodesIn module.nodes).map (Site.mk path)
  bounded path := by
    cases workspace.module? path with
    | none => exact Nat.le_refl _
    | some module =>
      dsimp only
      rw [List.length_map, Node.length_subnodesIn]
      exact Nat.le_refl _

theorem Site.Stands.charted {site : Site} (stands : site.Stands workspace) :
    (valueChart workspace).Has site := by
  obtain ⟨module, found, here, written⟩ := stands
  constructor
  · change site ∈ match workspace.module? site.path with
      | none => []
      | some module => (Node.subnodesIn module.nodes).map (Site.mk site.path)
    rw [found]
    exact List.mem_map.mpr ⟨site.node, written, rfl⟩
  · change site.path ∈ workspace.paths
    rw [← here]
    exact Workspace.path_mem_paths found

/-- One look-up has a result only if another has one with less depth. -/
def Needs (workspace : Workspace) (site other : Site) : Prop :=
  ∀ depth, (membersWithin workspace (depth + 1) site).run ≠ none →
    (membersWithin workspace depth other).run ≠ none

theorem Needs.trans {first second third : Site} (here : Needs workspace first second)
    (there : Needs workspace second third) : Needs workspace first third := by
  intro depth ends
  have middle := here depth ends
  cases depth with
  | zero => exact absurd rfl middle
  | succ depth =>
    intro none
    cases found : (membersWithin workspace depth third).run with
    | none => exact there depth middle found
    | some outcome =>
      rw [grows_members third depth outcome found] at none
      cases none

/-- A look-up that needs itself has no result. -/
theorem Needs.none {site : Site} (needs : Needs workspace site site) (depth : Nat) :
    (membersWithin workspace depth site).run = none := by
  induction depth with
  | zero => rfl
  | succ depth ih =>
    apply Classical.byContradiction
    intro ends
    exact needs depth ends ih

/-- A step finds what the look-up from a value comes to, while others are being looked into that need
it. -/
def TracksFrom (workspace : Workspace) (seen : List Site) (site : Site) (step : Work (List Member)) :
    Prop :=
  site.Placed workspace → (∀ other ∈ seen, Needs workspace other site) →
    Tracks workspace (fun _ => False) [] (PlacedMembers workspace) step fun depth =>
      membersWithin workspace depth site

/-- A value that is being looked into needs itself and has no result. -/
theorem tracksFrom_stop {seen : List Site} {site : Site} (member : site ∈ seen) :
    TracksFrom workspace seen site (pure []) := by
  intro _ needs _
  apply Ends.pure
  refine ⟨.inr ⟨(needs site member).none, rfl⟩, ?_⟩
  intro value same
  cases same
  exact placedMembers_nil

theorem tracksFrom_step {seen : List Site} {site : Site} {next : Site → Work (List Member)}
    (ih : ∀ other, (valueChart workspace).Has other →
      TracksFrom workspace (site :: seen) other (next other)) :
    TracksFrom workspace seen site (values.step next site) := by
  intro placed needs _
  have others : TracksMembers workspace
      (fun depth => (membersWithin workspace (depth + 1) site).run ≠ none) next := by
    intro other there need
    apply ih other there.stands.charted there _ fun _ wanted => wanted.elim
    intro earlier member
    rcases List.mem_cons.mp member with rfl | member
    · exact need
    · exact (needs earlier member).trans need
  apply (tracks_initializerMembersBy (tracks_propertyBy others) others placed
    fun depth ends => ends).mono
  rintro outcome ⟨comes, held⟩
  refine ⟨?_, held⟩
  rcases comes with ⟨depth, found⟩ | ⟨none, same⟩
  · exact .inl ⟨depth + 1, found⟩
  · refine .inr ⟨fun depth => ?_, same⟩
    cases depth with
    | zero => rfl
    | succ depth => exact none depth

/-- A search for the members of a value finds what the look-up comes to. -/
theorem tracks_values : TracksMembers workspace (fun _ => False) values.run := by
  intro site placed
  refine Walk.Chart.run_charted (valueChart workspace) (TracksFrom workspace) ?_ ?_ ?_ ?_
    placed.stands.charted placed (by simp)
  · exact fun seen site _ member => tracksFrom_stop member
  · exact fun seen site next _ _ ih => tracksFrom_step ih
  · intro seen site path next good placed needs need
    exact ((Work.settles_load? path).ends rfl).bind
      (fun _ same => by cases same; exact good placed needs need) fun _ same => nomatch same
  · intro site next good placed needs need
    exact (Work.settles_moduleLimit.ends rfl).bind
      (fun _ same => by cases same; exact good placed needs need) fun _ same => nomatch same

/-- The symbol that an expression refers to does not depend on what a sound pass remembers. -/
theorem settles_symbolAt (path : Path) (node : Node) :
    Settles workspace (rightly workspace) (symbolAt path node)
      (Work.answer workspace (symbolAt path node)) := by
  have tracks : Tracks workspace (fun _ => False) none (PlacedSymbol workspace)
      (symbolAt path node)
      fun depth => symbolBy (propertyWithin (membersWithin workspace depth)) path node :=
    tracks_symbolBy (tracks_propertyBy tracks_values) path node
  exact (tracks fun _ wanted => wanted.elim).settles fun first second here there =>
    here.1.unique (grows_symbol path node) there.1

end ApiSections.Lookup
