import ApiSections.Proofs.Fragment.Likeness
import ApiSections.Proofs.Lookup.Values

/-!
Fragments do not depend on what a sound pass remembers.
-/

namespace ApiSections.Fragment

open Work (Settles)

variable {workspace : Workspace}

theorem settling_lookups (workspace : Workspace) :
    Lookups (Work.settling workspace (Lookup.rightly workspace)) where
  symbol path node := (Lookup.settles_symbolAt path node).keeps
  link path line := (Work.settles_linkFor path line).keeps

theorem settles_renderSymbol (marks name : String) (symbol : Symbol) :
    Settles workspace (Lookup.rightly workspace) (renderSymbol marks name symbol)
      (Work.answer workspace (renderSymbol marks name symbol)) :=
  (keeps_renderSymbol (settling_lookups workspace) marks name
    (Lookup.settles_follow symbol).keeps).settles

/-- The fragments of a file are the same whatever was rendered before. -/
theorem settles_render (path : Path) (marks : String) :
    Settles workspace (Lookup.rightly workspace) (render path marks)
      (Work.answer workspace (render path marks)) := by
  have load : (Work.settling workspace (Lookup.rightly workspace)).Keeps (Work.load path) := by
    apply (Work.settling workspace _).bind (Work.settles_load? path).keeps
    intro found
    cases found with
    | some module => exact (Settles.pure module).keeps
    | none => exact (Settles.throw _).keeps
  apply Work.Likeness.Keeps.settles
  apply (Work.settling workspace _).bind load
  intro module
  have fragments : (Work.settling workspace (Lookup.rightly workspace)).Keeps (do
      let fragments ← module.exported.mapM fun symbol => renderSymbol marks symbol.name symbol
      return String.join fragments) := by
    apply (Work.settling workspace _).bind
    · exact Work.Likeness.keeps_mapM fun symbol _ => (settles_renderSymbol _ _ symbol).keeps
    · intro texts
      exact (Settles.pure _).keeps
  split
  · exact (Work.settling workspace _).bind (Settles.throw _).keeps fun _ => fragments
  · exact fragments

end ApiSections.Fragment
