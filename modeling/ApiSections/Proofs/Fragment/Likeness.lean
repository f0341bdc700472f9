import ApiSections.Proofs.Display.Likeness

namespace ApiSections.Fragment

open Work (Likeness)

variable {L : Likeness}

/-- A likeness that holds of the look-ups of symbols and of links. -/
structure Lookups (L : Likeness) : Prop where
  symbol : ∀ path node, L.Keeps (Lookup.symbolAt path node)
  link : ∀ path line, L.Keeps (linkFor path line)

variable (lookups : Lookups L)

include lookups

theorem keeps_resolveAssertion (name : String) (symbol : Symbol) (declaration : Declaration)
    (initializer : Option Syntax.Node) :
    L.Keeps (resolveAssertion name symbol declaration initializer) := by
  rw [resolveAssertion]
  split
  · apply L.bind (lookups.symbol _ _)
    intro found
    dsimp only
    split
    · exact L.pure _
    · exact L.bind (L.emit _ _ _ _) fun _ => L.pure _
  · rw [pure_bind]
    exact L.bind (L.emit _ _ _ _) fun _ => L.pure _

theorem keeps_resolve (name : String) {symbol : Symbol} (follows : L.Keeps (Lookup.follow symbol)) :
    L.Keeps (resolve name symbol) := by
  rw [resolve]
  split
  · exact L.pure _
  · split
    · apply L.bind follows
      intro target
      split
      · exact L.bind (L.emit _ _ _ _) fun _ => L.pure _
      · split
        · exact L.pure _
        · exact L.pure _
    · split
      · split
        · exact keeps_resolveAssertion lookups _ _ _ _
        · exact L.pure _
      · exact L.pure _

theorem keeps_linked (text : String) (header : Header) : L.Keeps (linked text header) := by
  apply L.bind (lookups.link header.path header.line)
  intro url
  split
  · exact L.pure _
  · exact L.pure _

theorem keeps_notedType (symbol : Symbol) (declaration : Declaration) :
    L.Keeps (notedType symbol declaration) := by
  apply L.bind (Display.keeps_typeAt lookups.symbol symbol declaration)
  intro type
  split
  · exact L.pure _
  · exact L.bind (Likeness.keeps_debug _ _ _ _) fun _ => L.pure _

theorem keeps_renderMember (marks owner : String) (member : Member) :
    L.Keeps (renderMember marks owner member) := by
  apply L.bind (keeps_linked lookups _ _)
  intro label
  apply L.bind (Display.keeps_typeAt lookups.symbol _ _)
  intro type
  split
  · exact L.pure _
  · exact L.bind (L.emit _ _ _ _) fun _ => L.pure _

theorem keeps_membersBody (marks name : String) (declaration : Declaration)
    (typeParameters : List TypeParameter) (members : List Member) :
    L.Keeps (membersBody marks name declaration typeParameters members) :=
  L.bind (Likeness.keeps_mapM fun member _ => keeps_renderMember lookups marks name member)
    fun _ => L.pure _

theorem keeps_body (marks name : String) (declaration : Declaration) (type : Option String)
    (kind : DeclarationKind) (doc : Option DocComment) :
    L.Keeps (body marks name declaration type kind doc) := by
  rw [body]
  split
  · exact L.pure _
  · exact L.pure _
  · exact L.pure _
  · exact L.pure _
  · exact L.pure _
  · split
    · exact keeps_membersBody lookups _ _ _ _ _
    · exact keeps_membersBody lookups _ _ _ _ _
    · exact L.pure _

/-- What is shown of a name once it is known what the name stands for. -/
theorem keeps_rendered (marks name : String) (resolved : Resolved) :
    L.Keeps (rendered marks name resolved) := by
  rw [rendered]
  split
  · exact L.pure _
  · apply L.bind (keeps_notedType lookups _ _)
    intro type
    apply L.bind (L.emit _ _ _ _)
    intro _
    apply L.bind (keeps_linked lookups _ _)
    intro label
    exact L.bind (keeps_body lookups _ _ _ _ _ _) fun _ => L.pure _

/-- What holds of the look-ups, and of following a symbol, holds of rendering it. -/
theorem keeps_renderSymbol (marks name : String) {symbol : Symbol}
    (follows : L.Keeps (Lookup.follow symbol)) : L.Keeps (renderSymbol marks name symbol) :=
  L.bind (keeps_resolve lookups name follows) (keeps_rendered lookups marks name)

end ApiSections.Fragment
