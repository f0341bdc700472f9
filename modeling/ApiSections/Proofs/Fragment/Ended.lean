import ApiSections.Fragment.Render
import ApiSections.Proofs.Text.Lines
import ApiSections.Proofs.Workspace.Returns

/-!
A fragment consists of whole lines.
-/

namespace ApiSections.Fragment

open Text

/-- A text that is empty or ends with a line feed. -/
def Ended (text : String) : Prop := EndsLine text.toList

namespace Ended

theorem empty : Ended "" := .inl rfl

theorem append {first second : String} (left : Ended first) (right : Ended second) :
    Ended (first ++ second) := by
  rw [Ended, String.toList_append]
  exact EndsLine.append left right

theorem feed (text : String) : Ended (text ++ "\n") := by
  rw [Ended, String.toList_append]
  exact EndsLine.of_getLast? _ rfl

theorem feeds (text : String) : Ended (text ++ "\n\n") := by
  rw [Ended, String.toList_append]
  exact EndsLine.of_getLast? _ rfl

theorem join {parts : List String} (ended : ∀ part ∈ parts, Ended part) :
    Ended (String.join parts) := by
  have folded : ∀ (parts : List String) (front : String), Ended front →
      (∀ part ∈ parts, Ended part) → Ended (parts.foldl (· ++ ·) front) := by
    intro parts
    induction parts with
    | nil => exact fun _ ended _ => ended
    | cons part parts ih =>
      intro front ended each
      exact ih _ (ended.append (each part List.mem_cons_self))
        (fun other member => each other (List.mem_cons_of_mem _ member))
  exact folded parts "" empty ended

end Ended

theorem ended_typeUnavailable : Ended typeUnavailable := .feeds "*Type information unavailable*"

theorem ended_noDeclaration : Ended noDeclaration := .feeds "*No declaration found*"

theorem ended_heading (marks title : String) (label : Option String) (doc : Option DocComment) :
    Ended (heading marks title label doc) := by
  apply Ended.append (.feeds _)
  split
  · split
    · exact .empty
    · exact .feeds _
  · exact .empty

theorem ended_codeLine (field code : String) : Ended (codeLine field code) := by
  rw [codeLine, show "`\n\n" = "`" ++ "\n\n" from rfl, ← String.append_assoc]
  exact .feeds _

theorem ended_listBlock (title : String) (items : List String) : Ended (listBlock title items) :=
  .feed _

theorem ended_examplesBlock (examples : List String) : Ended (examplesBlock examples) := by
  rw [examplesBlock]
  split
  · exact .empty
  · apply Ended.append (.feeds "**Examples:**")
    apply Ended.join
    intro part member
    obtain ⟨text, _, rfl⟩ := List.mem_map.mp member
    exact .feeds text

theorem ended_tagBlocks (doc : Option DocComment) : Ended (tagBlocks doc) := by
  cases doc with
  | none => exact .empty
  | some doc =>
    apply Ended.append _ (ended_examplesBlock _)
    apply Ended.append
    · split
      · exact .feeds _
      · exact .empty
    · split
      · exact .empty
      · exact ended_listBlock _ _

theorem ended_examplesOf (doc : Option DocComment) : Ended (examplesOf doc) := by
  cases doc with
  | none => exact .empty
  | some doc => exact ended_examplesBlock _

theorem ended_typeParametersBlock (parameters : List TypeParameter) (doc : Option DocComment) :
    Ended (typeParametersBlock parameters doc) := by
  rw [typeParametersBlock]
  split
  · exact .empty
  · exact ended_listBlock _ _

theorem ended_parametersBlock (parameters : List Parameter) (doc : Option DocComment) :
    Ended (parametersBlock parameters doc) := by
  rw [parametersBlock]
  split
  · exact .empty
  · exact ended_listBlock _ _

theorem ended_parameterTagsBlock (title : String) (doc : Option DocComment) (separator : String) :
    Ended (parameterTagsBlock title doc separator) := by
  cases doc with
  | none => exact .empty
  | some doc =>
    rw [parameterTagsBlock]
    split
    · exact .empty
    · exact ended_listBlock _ _

theorem ended_memberBody (member : Member) (type : String) : Ended (memberBody member type) := by
  rw [memberBody]
  split
  · exact ((ended_codeLine _ _).append (ended_parametersBlock _ _)).append (ended_tagBlocks _)
  · exact (ended_codeLine _ _).append (ended_examplesOf _)

theorem ended_signatureBody (declaration : Declaration) (type : String)
    (doc : Option DocComment) : Ended (signatureBody declaration type doc) := by
  apply Ended.append (ended_codeLine _ _)
  split
  · exact (ended_parameterTagsBlock _ _ _).append (ended_tagBlocks _)
  · exact ((ended_typeParametersBlock _ _).append (ended_parametersBlock _ _)).append
      (ended_tagBlocks _)

section Rendering

variable {workspace : Workspace} {pass last : Pass} {text : String}

theorem ended_renderMember {marks owner : String} {member : Member}
    (ran : Returns (renderMember marks owner member) workspace pass text last) : Ended text := by
  simp only [renderMember, returns_bind] at ran
  obtain ⟨label, _, _, type, _, _, ran⟩ := ran
  cases type with
  | ok type =>
    rw [(returns_pure.mp ran).1]
    exact (ended_heading _ _ _ _).append (ended_memberBody _ _)
  | error reason =>
    rw [returns_bind] at ran
    obtain ⟨_, _, _, ran⟩ := ran
    rw [(returns_pure.mp ran).1]
    exact (ended_heading _ _ _ _).append ended_typeUnavailable

theorem ended_membersBody {marks name : String} {declaration : Declaration}
    {typeParameters : List TypeParameter} {members : List Member}
    (ran : Returns (membersBody marks name declaration typeParameters members) workspace pass text
      last) : Ended text := by
  simp only [membersBody, returns_bind, returns_pure] at ran
  obtain ⟨rendered, _, members, rfl, _⟩ := ran
  have each : ∀ part ∈ rendered, Ended part :=
    forall_of_returns_mapM (fun _ _ _ _ => ended_renderMember) members
  exact (((ended_typeParametersBlock _ _).append (ended_tagBlocks _)).append
    (ended_parameterTagsBlock _ _ _)).append (.join each)

theorem ended_body {marks name : String} {declaration : Declaration} {type : Option String}
    {kind : DeclarationKind} {doc : Option DocComment}
    (ran : Returns (body marks name declaration type kind doc) workspace pass text last) :
    Ended text := by
  rw [body] at ran
  split at ran
  · rw [(returns_pure.mp ran).1]
    exact ended_typeUnavailable
  · rw [(returns_pure.mp ran).1]
    exact ended_signatureBody _ _ _
  · rw [(returns_pure.mp ran).1]
    exact ended_codeLine _ _
  · rw [(returns_pure.mp ran).1]
    exact ended_codeLine _ _
  · rw [(returns_pure.mp ran).1]
    exact ended_codeLine _ _
  · split at ran
    · exact ended_membersBody ran
    · exact ended_membersBody ran
    · rw [(returns_pure.mp ran).1]
      exact .empty

theorem ended_renderSymbol {marks name : String} {symbol : Symbol}
    (ran : Returns (renderSymbol marks name symbol) workspace pass text last) : Ended text := by
  rw [renderSymbol, returns_bind] at ran
  obtain ⟨resolved, _, _, ran⟩ := ran
  rw [rendered] at ran
  split at ran
  · rw [(returns_pure.mp ran).1]
    exact (ended_heading _ _ _ _).append ended_noDeclaration
  · simp only [returns_bind, returns_pure] at ran
    obtain ⟨_, _, _, _, _, _, _, _, _, below, _, inner, rfl, _⟩ := ran
    exact (ended_heading _ _ _ _).append (ended_body inner)

/-- The text of a file is made of one fragment for each export. -/
theorem returns_render {path : Path} {marks : String}
    (ran : Returns (render path marks) workspace pass text last) :
    ∃ module loaded fragments, Returns (Work.load path) workspace pass module loaded ∧
      Returns (module.exported.mapM fun symbol => renderSymbol marks symbol.name symbol) workspace
        loaded fragments last ∧
      text = String.join fragments := by
  rw [render, returns_bind] at ran
  obtain ⟨module, loaded, loads, ran⟩ := ran
  split at ran
  · rw [returns_bind] at ran
    obtain ⟨_, _, stops, _⟩ := ran
    exact absurd stops not_returns_throw
  · simp only [returns_bind, returns_pure] at ran
    obtain ⟨fragments, _, renders, rfl, rfl⟩ := ran
    exact ⟨module, loaded, fragments, loads, renders, rfl⟩

/-- The fragments of a file are whole lines. -/
theorem ended_render {path : Path} {marks : String}
    (ran : Returns (render path marks) workspace pass text last) : Ended text := by
  obtain ⟨_, _, _, _, renders, rfl⟩ := returns_render ran
  apply Ended.join
  exact forall_of_returns_mapM (fun _ _ _ _ => ended_renderSymbol) renders

end Rendering

end ApiSections.Fragment
