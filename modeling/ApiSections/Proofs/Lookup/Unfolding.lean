import ApiSections.Proofs.Lookup.Chain
import ApiSections.Proofs.Lookup.Values
import ApiSections.Proofs.Workspace.Unfolding

/-!
Look-ups end on cyclic sources. The searches along aliases, names of types and values give, unfolded
finitely often, what the walks give.
-/

namespace ApiSections.Lookup

open Syntax (Node)
open Work (Settles Yields Ends settling)

variable {workspace : Workspace}

/-- Steps that come to one end, whatever a sound pass remembers. -/
def SameEnd {α : Type} (workspace : Workspace) (first second : Work α) : Prop :=
  (settling workspace (rightly workspace)).alike first second

section Aliases

theorem sameEnd_aliases_step {name : String} {next other : Symbol → Work (Except AliasError Symbol)}
    (rest : ∀ symbol, symbol.Listed workspace →
      SameEnd workspace (next symbol) (other symbol)) (symbol : Symbol) :
    SameEnd workspace ((aliases name).step next symbol)
      ((aliases name).step other symbol) := by
  apply Yields.alike (yields_aliasTarget symbol)
  intro target leads
  cases target with
  | error error => exact (settling workspace (rightly workspace)).pure _
  | ok target =>
    dsimp only
    split
    · exact rest target (leads target rfl)
    · exact (settling workspace (rightly workspace)).pure _

theorem unfolds_follow {symbol : Symbol} (listed : symbol.Listed workspace) :
    Unfolds (aliases symbol.name).look fun search =>
      SameEnd workspace (if symbol.isAlias then search [] symbol else return .ok symbol)
        (follow symbol) := by
  obtain ⟨depth, ends⟩ := Work.unfolds_look (symbolChart workspace symbol.name)
    (Symbol.Listed workspace) (fun _ listed => charted_of_listed listed)
    (fun _ _ symbol _ rest => sameEnd_aliases_step rest symbol) listed
  refine ⟨depth, fun beyond => ?_⟩
  rw [follow]
  split
  · exact ends beyond
  · exact (settling workspace (rightly workspace)).pure _

end Aliases

section Types

/-- The types of a module are among the nodes of its declarations, as the initializers are. -/
def typeChart (workspace : Workspace) : Walk.Chart workspace types where
  items := (valueChart workspace).items
  bounded := (valueChart workspace).bounded

theorem sameEnd_instanceMembersBy {members others : Site → Work (List Member)}
    (rest : ∀ site, site.Stands workspace →
      SameEnd workspace (members site) (others site))
    {declaration : Option Declaration} (placed : PlacedDeclaration workspace declaration) :
    SameEnd workspace (instanceMembersBy members declaration)
      (instanceMembersBy others declaration) := by
  rw [instanceMembersBy.eq_def, instanceMembersBy.eq_def]
  split
  · exact (settling workspace (rightly workspace)).pure _
  · have placed := placed _ rfl
    split
    · exact (settling workspace (rightly workspace)).pure _
    · exact (settling workspace (rightly workspace)).pure _
    · rename_i shape
      apply rest
      apply Site.Placed.stands
      apply placed.nodes
      rw [shape]
      exact List.mem_singleton.mpr rfl
    · exact (settling workspace (rightly workspace)).pure _

theorem sameEnd_types_step {next other : Site → Work (List Member)}
    (rest : ∀ site, site.Stands workspace →
      SameEnd workspace (next site) (other site)) {site : Site}
    (stands : site.Stands workspace) :
    SameEnd workspace (types.step next site)
      (types.step other site) := by
  dsimp only [types]
  split
  · exact (settling workspace (rightly workspace)).pure _
  · rename_i node part
    have stands := stands.part (mem_subnodes_of_namedPart part)
    split
    · rename_i kind
      exact (settles_membersAt (.type stands.written (beq_iff_eq.mp kind))).keeps
    · apply Yields.alike (yields_typeDeclaration? _ _)
      intro declaration placed
      exact sameEnd_instanceMembersBy rest placed

theorem unfolds_types {site : Site} (stands : site.Stands workspace) :
    Unfolds types.look fun search =>
      SameEnd workspace (search [] site) (typeMembers site) :=
  Work.unfolds_look (typeChart workspace) (Site.Stands workspace) (fun _ stands => stands.charted)
    (fun _ _ _ stands rest => sameEnd_types_step rest stands) stands

end Types

section Values

/-- The search for the members of values that is unfolded so often finds what the look-ups come to. -/
theorem tracks_look (beyond : List Site → Site → Work (List Member)) :
    TracksMembers workspace (fun _ => False)
      (values.look^[(valueChart workspace).size + 1] beyond []) := by
  intro site placed
  exact Walk.Chart.look_charted (TracksFrom workspace)
    (fun _ _ _ member => tracksFrom_stop member) (fun _ _ _ _ _ ih => tracksFrom_step ih) beyond
    (Nat.lt_succ_self _) List.nodup_nil (by simp) placed.stands.charted placed (by simp)

theorem unfolds_propertyOf {owner : Symbol} (placed : owner.Placed workspace) (name : String) :
    Unfolds values.look fun search =>
      SameEnd workspace (propertyBy (search []) owner name)
        (propertyOf owner name) := by
  refine ⟨(valueChart workspace).size + 1, fun beyond => ?_⟩
  exact Ends.alike (tracks_propertyBy (tracks_look beyond) owner name placed fun _ => False.elim)
    (tracks_propertyBy tracks_values owner name placed fun _ => False.elim)
    fun first second here there => here.1.unique (grows_property owner name) there.1

theorem unfolds_symbolAt (path : Path) (node : Node) :
    Unfolds values.look fun search =>
      SameEnd workspace (symbolBy (propertyBy (search [])) path node)
        (symbolAt path node) := by
  refine ⟨(valueChart workspace).size + 1, fun beyond => ?_⟩
  exact Ends.alike
    (tracks_symbolBy (tracks_propertyBy (tracks_look beyond)) path node fun _ => False.elim)
    (tracks_symbolBy (tracks_propertyBy tracks_values) path node fun _ => False.elim)
    fun first second here there => here.1.unique (grows_symbol path node) there.1

end Values

end ApiSections.Lookup
