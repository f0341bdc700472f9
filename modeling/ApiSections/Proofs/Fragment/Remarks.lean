import ApiSections.Proofs.Fragment.Bodies
import ApiSections.Proofs.Fragment.Declared

/-!
Whose remarks a fragment repeats. The summary below the heading is that of the export's own doc comment,
if it has one, or else of the declaration behind it. The remarks on parameters, and all remarks on a
class or an interface, are looked up at that declaration once more.
-/

namespace ApiSections.Fragment

open Text (encode)
open Work (answer)

/-- A part of a declaration that a doc comment can speak of. -/
inductive Part where
  /-- A type parameter, among the names of all of them. -/
  | typeParameter (names : List String) (name : String)
  | parameter (name : String)
  | results
  | failures
  | examples
  deriving DecidableEq

/-- What a doc comment tells of a part, as far as it is shown. -/
def told (doc : Option DocComment) : Part → List String
  | .typeParameter names name => (filled? (doc.bind (·.templateText? names name))).toList
  | .parameter name => (filled? (doc.bind (·.parameterText? name))).toList
  | .results => (doc.bind (·.returnsText?)).toList
  | .failures => (doc.map (·.throwsTexts)).getD []
  | .examples => (doc.map (·.exampleTexts)).getD []

/-- The parts of a declaration with these parameters. -/
def parts (typeParameters : List TypeParameter) (parameters : List Parameter) : List Part :=
  let names := typeParameters.map (·.name)
  names.map (.typeParameter names) ++ parameters.map (.parameter ·.name) ++
    [.results, .failures, .examples]

section Written

variable (said : Part → List String)

def remark (texts : List String) : String := String.join (texts.map (" - " ++ ·))

def typeParameterRemarks (parameters : List TypeParameter) : String :=
  if parameters.isEmpty then ""
  else
    let names := parameters.map (·.name)
    listBlock "Type Parameters" <| parameters.map fun parameter =>
      "`" ++ TypeText.typeParameter parameter ++ "`" ++
        remark (said (.typeParameter names parameter.name))

def parameterRemarks (parameters : List Parameter) : String :=
  if parameters.isEmpty then ""
  else listBlock "Parameters" <| parameters.map fun parameter =>
    parameterItem none parameter ++ remark (said (.parameter parameter.name))

def otherRemarks : String :=
  String.join ((said .results).map fun text => "**Returns:** " ++ text ++ "\n\n") ++
    (if (said .failures).isEmpty then "" else listBlock "Throws" (said .failures)) ++
    examplesBlock (said .examples)

/-- The blocks that show what is said of the parts of a declaration. -/
def remarks (typeParameters : List TypeParameter) (parameters : List Parameter) : String :=
  typeParameterRemarks said typeParameters ++ parameterRemarks said parameters ++ otherRemarks said

end Written

section Blocks

variable {said : Part → List String} {doc : Option DocComment}

theorem remark_filled (text : Option String) : remark (filled? text).toList = comment text := by
  cases text with
  | none => rfl
  | some text =>
    by_cases empty : text = ""
    · rw [empty]
      rfl
    · simp [filled?, Option.filter, empty, remark, comment]

theorem typeParameterRemarks_eq {parameters : List TypeParameter}
    (same : ∀ names name, said (.typeParameter names name) = told doc (.typeParameter names name)) :
    typeParameterRemarks said parameters = typeParametersBlock parameters doc := by
  simp only [typeParameterRemarks, typeParametersBlock, same, told, remark_filled]

theorem parameterItem_eq (doc : Option DocComment) (parameter : Parameter) :
    parameterItem doc parameter =
      parameterItem none parameter ++ comment (doc.bind (·.parameterText? parameter.name)) := by
  rw [parameterItem, parameterItem, Option.bind_none, comment.eq_2, String.append_empty]

theorem parameterRemarks_eq {parameters : List Parameter}
    (same : ∀ name, said (.parameter name) = told doc (.parameter name)) :
    parameterRemarks said parameters = parametersBlock parameters doc := by
  rw [parameterRemarks, parametersBlock]
  simp only [same, told, remark_filled, ← parameterItem_eq]

theorem otherRemarks_eq (results : said .results = told doc .results)
    (failures : said .failures = told doc .failures) (examples : said .examples = told doc .examples) :
    otherRemarks said = tagBlocks doc := by
  rw [otherRemarks, results, failures, examples]
  cases doc with
  | none => rfl
  | some doc =>
    simp only [tagBlocks, told, Option.bind_some, Option.map_some, Option.getD_some]
    cases doc.returnsText? with
    | none => rfl
    | some text => simp

end Blocks

/-- What the body of a declaration tells of a part of it, below the summary of a doc comment. -/
def cited (declaration : Declaration) (doc : Option DocComment) : Part → List String
  | .parameter name => told declaration.doc? (.parameter name)
  | part => told (if isFunction declaration then doc else declaration.doc?) part

/-- All that is shown of a declaration's own parts is what one doc comment tells of them. -/
def OneVoice (declaration : Declaration) (doc : Option DocComment)
    (typeParameters : List TypeParameter) (parameters : List Parameter) : Prop :=
  ∀ part ∈ parts typeParameters parameters, cited declaration doc part = told doc part

section Voices

variable {declaration : Declaration} {doc : Option DocComment}

theorem cited_own (part : Part) :
    cited declaration declaration.doc? part = told declaration.doc? part := by
  cases part <;> simp only [cited, ite_self]

theorem oneVoice_function_iff {signature : Signature}
    (shape : declaration.shape = .function signature) :
    OneVoice declaration doc signature.typeParameters signature.parameters ↔
      ∀ parameter ∈ signature.parameters, told declaration.doc? (.parameter parameter.name) =
        told doc (.parameter parameter.name) := by
  have function : isFunction declaration = true := by rw [isFunction, shape]
  simp only [OneVoice, parts, List.mem_append, List.mem_map, or_imp, forall_and]
  simp [cited, function]

theorem cited_members {listing : List TypeParameter × List Member}
    (shape : membersOf? declaration.shape = some listing) :
    cited declaration doc = told declaration.doc? := by
  have notFunction : isFunction declaration = false := by
    rw [isFunction]
    split
    · rename_i same
      rw [same] at shape
      cases shape
    · rfl
  funext part
  cases part <;> simp [cited, notFunction]

theorem signatureBody_function {signature : Signature} {type : String}
    (shape : declaration.shape = .function signature) :
    signatureBody declaration type doc = codeLine "Signature" type ++
      remarks (cited declaration doc) signature.typeParameters signature.parameters := by
  have function : isFunction declaration = true := by rw [isFunction, shape]
  have own : declaration.header.doc = declaration.doc? := by rw [Declaration.doc?, shape]
  have results : otherRemarks (cited declaration doc) = tagBlocks doc := by
    apply otherRemarks_eq <;> simp [cited, function]
  have types : typeParameterRemarks (cited declaration doc) signature.typeParameters =
      typeParametersBlock signature.typeParameters doc := by
    apply typeParameterRemarks_eq
    simp [cited, function]
  have values : parameterRemarks (cited declaration doc) signature.parameters =
      parametersBlock signature.parameters declaration.doc? := parameterRemarks_eq fun _ => rfl
  rw [signatureBody, shape, remarks, results, types, values, own]
  rfl

end Voices

section Exported

variable {workspace : Workspace} {pass last : Pass} {name : String} {symbol : Symbol}
  {exported : Declaration} {resolved : Resolved}

theorem resolve_exported (declared : symbol.primary? = some exported)
    (ran : Returns (resolve name symbol) workspace pass resolved last) :
    resolved.exported = some exported ∧ (resolved.declaration = some exported ∨
      isExport exported = true ∨ isVariable exported = true) := by
  obtain ⟨keeps, _, shows⟩ := returns_resolve declared ran
  exact ⟨keeps, shows⟩

/-- An entry of an export list has no doc comment, and every other export that is not an assignment or
a variable shows itself. -/
theorem oneVoice_or_documented (listed : symbol.Listed workspace)
    (declared : symbol.primary? = some exported)
    (ran : Returns (resolve name symbol) workspace pass resolved last) {effective : Declaration}
    (shown : resolved.declaration = some effective) :
    (∀ typeParameters parameters,
      OneVoice effective (exported.doc?.or effective.doc?) typeParameters parameters) ∨
    exported.doc? ≠ none ∧ effective ≠ exported ∧
      ((∃ expression, exported.shape = .exportAssignment expression) ∨ isVariable exported = true) := by
  have voiced : exported.doc?.or effective.doc? = effective.doc? → ∀ typeParameters parameters,
      OneVoice effective (exported.doc?.or effective.doc?) typeParameters parameters := by
    intro same _ _ part _
    rw [same]
    exact cited_own part
  by_cases bare : exported.doc? = none
  · exact .inl (voiced (by rw [bare, Option.none_or]))
  by_cases itself : effective = exported
  · exact .inl (voiced (by rw [itself, Option.or_self]))
  refine .inr ⟨bare, itself, ?_⟩
  rcases (resolve_exported declared ran).2 with same | isExported | isVariable
  · rw [shown, Option.some.injEq] at same
    exact absurd same itself
  · rw [isExport] at isExported
    split at isExported
    · rename_i shape
      exact absurd (doc?_of_listed listed declared shape) bare
    · rename_i expression shape
      exact .inl ⟨expression, shape⟩
    · cases isExported
  · exact .inr isVariable

end Exported

section Fragments

variable {workspace : Workspace} {pass last : Pass} {marks name text : String}

theorem returns_rendered {resolved : Resolved} {effective : Declaration}
    (shown : resolved.declaration = some effective)
    (ran : Returns (rendered marks name resolved) workspace pass text last) :
    ∃ type typed label labelled below,
      Returns (notedType resolved.symbol effective) workspace pass type typed ∧
      Returns (body marks name effective type (classify effective type) resolved.doc?) workspace
        labelled below last ∧
      text = heading marks name (some label) resolved.doc? ++ below := by
  simp only [rendered, shown, returns_bind, returns_pure] at ran
  obtain ⟨type, typed, types, _, _, _, label, labelled, _, below, _, shows, rfl, rfl⟩ := ran
  exact ⟨type, typed, label, labelled, below, types, shows, rfl⟩

variable {declaration : Declaration} {doc : Option DocComment} {below type : String}

theorem body_unavailable {kind : DeclarationKind}
    (ran : Returns (body marks name declaration none kind doc) workspace pass below last) :
    below = typeUnavailable :=
  (returns_pure.mp ran).1

/-- A body of the kind of a function is a signature. -/
theorem body_function (function : classify declaration (some type) = .function)
    (ran : Returns (body marks name declaration (some type) (classify declaration (some type)) doc)
      workspace pass below last) : below = signatureBody declaration type doc := by
  have form : bodyForm declaration (some type) (classify declaration (some type)) = .signature := by
    rw [bodyForm_classify, function]
    rfl
  rw [body, form] at ran
  exact (returns_pure.mp ran).1

theorem body_remarks {typeParameters : List TypeParameter} {members : List Member}
    (shape : membersOf? declaration.shape = some (typeParameters, members))
    (ran : Returns (body marks name declaration (some type) (classify declaration (some type)) doc)
      workspace pass below last) :
    ∃ fragments, Returns ((documentedMembers members).mapM (renderMember marks name)) workspace pass
        fragments last ∧
      below = remarks (cited declaration doc) typeParameters [] ++
        parameterTagsBlock "Constructor Parameters" (constructorDoc? members) ": " ++
        String.join fragments := by
  have form : bodyForm declaration (some type) (classify declaration (some type)) = .members := by
    rw [bodyForm_eq_members_iff, shape]
    rfl
  rw [body_members form shape, membersBody, returns_bind] at ran
  obtain ⟨fragments, _, renders, ran⟩ := ran
  obtain ⟨rfl, rfl⟩ := returns_pure.mp ran
  refine ⟨fragments, renders, ?_⟩
  have types : typeParameterRemarks (told declaration.doc?) typeParameters =
      typeParametersBlock typeParameters declaration.doc? := typeParameterRemarks_eq fun _ _ => rfl
  have others : otherRemarks (told declaration.doc?) = tagBlocks declaration.doc? :=
    otherRemarks_eq rfl rfl rfl
  rw [cited_members shape, remarks, types, others, parameterRemarks]
  simp

/-- The fragment of an exported name tells of the declaration behind it what the doc comment below the
heading tells, except that the parameters of a function and all parts of a class or an interface are
told of by that declaration's own comment. The two comments differ only where an assignment or an
assertion with a comment of its own is exported. -/
theorem renderSymbol_oneVoice_iff {symbol : Symbol} (listed : symbol.Listed workspace)
    (ran : Returns (renderSymbol marks name symbol) workspace pass text last) :
    ∃ exported resolved effective between typed type label below,
      symbol.primary? = some exported ∧
      Returns (resolve name symbol) workspace pass resolved between ∧
      resolved.declaration = some effective ∧
      Returns (notedType resolved.symbol effective) workspace between type typed ∧
      let doc := exported.doc?.or effective.doc?
      text = heading marks name (some label) doc ++ below ∧
      (type = none → below = typeUnavailable) ∧
      (∀ signature, effective.shape = .function signature →
        (∀ shown, type = some shown → below = codeLine "Signature" shown ++
          remarks (cited effective doc) signature.typeParameters signature.parameters) ∧
        (OneVoice effective doc signature.typeParameters signature.parameters ↔
          ∀ parameter ∈ signature.parameters, told effective.doc? (.parameter parameter.name) =
            told doc (.parameter parameter.name))) ∧
      (effective.shape.signature? = none → classify effective type = .function →
        ∀ shown, type = some shown → below = codeLine "Signature" shown ++
          (parameterTagsBlock "Parameters" doc " - " ++ tagBlocks doc)) ∧
      (∀ typeParameters members, membersOf? effective.shape = some (typeParameters, members) →
        (type ≠ none → ∃ labelled fragments,
          Returns ((documentedMembers members).mapM (renderMember marks name)) workspace labelled
            fragments last ∧
          below = remarks (cited effective doc) typeParameters [] ++
            parameterTagsBlock "Constructor Parameters" (constructorDoc? members) ": " ++
            String.join fragments) ∧
        (OneVoice effective doc typeParameters [] ↔
          ∀ part ∈ parts typeParameters [], told effective.doc? part = told doc part)) ∧
      ((∀ typeParameters parameters, OneVoice effective doc typeParameters parameters) ∨
        exported.doc? ≠ none ∧ effective ≠ exported ∧
          ((∃ expression, exported.shape = .exportAssignment expression) ∨
            isVariable exported = true)) := by
  rw [renderSymbol, returns_bind] at ran
  obtain ⟨resolved, between, resolves, ran⟩ := ran
  obtain ⟨exported, declared⟩ := exists_primary? listed
  obtain ⟨effective, shown⟩ := resolve_declared declared resolves
  obtain ⟨type, typed, label, labelled, below, types, shows, rfl⟩ := returns_rendered shown ran
  have chosen : resolved.doc? = exported.doc?.or effective.doc? := by
    rw [Resolved.doc?, (resolve_exported declared resolves).1, shown]
    rfl
  rw [chosen] at shows ⊢
  refine ⟨exported, resolved, effective, between, typed, type, label, below, declared, resolves, shown,
    types, rfl, ?_, ?_, ?_, ?_, oneVoice_or_documented listed declared resolves shown⟩
  · rintro rfl
    exact body_unavailable shows
  · intro signature shape
    refine ⟨?_, oneVoice_function_iff shape⟩
    rintro shown rfl
    rw [body_function (by rw [classify, shape]) shows, signatureBody_function shape]
  · rintro unsigned function shown rfl
    rw [body_function function shows, signatureBody, unsigned]
  · intro typeParameters members shape
    refine ⟨?_, by rw [OneVoice, cited_members shape]⟩
    intro known
    obtain ⟨shown, rfl⟩ := Option.ne_none_iff_exists'.mp known
    obtain ⟨fragments, renders, rfl⟩ := body_remarks shape shows
    exact ⟨labelled, fragments, renders, rfl⟩

end Fragments

/-- The function that a name stands for, with the declaration of the export itself. -/
def function? (workspace : Workspace) (name : String) (symbol : Symbol) :
    Option (Declaration × Declaration × Signature) := do
  let exported ← symbol.primary?
  let resolved ← (answer workspace (resolve name symbol)).toOption
  let effective ← resolved.declaration
  match effective.shape with
  | .function signature => some (exported, effective, signature)
  | _ => none

theorem of_function? {workspace : Workspace} {name : String} {symbol : Symbol}
    {exported effective : Declaration} {signature : Signature}
    (found : function? workspace name symbol = some (exported, effective, signature)) :
    symbol.primary? = some exported ∧
      (∃ resolved, answer workspace (resolve name symbol) = .ok resolved ∧
        resolved.declaration = some effective) ∧
      effective.shape = .function signature := by
  simp only [function?, Option.bind_eq_bind, Option.bind_eq_some_iff] at found
  obtain ⟨_, declared, resolved, resolves, _, shown, found⟩ := found
  split at found
  · cases found
    exact ⟨declared, ⟨resolved, eq_ok_of_toOption resolves, shown⟩, ‹_›⟩
  · cases found

/-- A function that is exported by assignment, with comments that differ in their summaries and in what
they tell of the result. -/
theorem renderSymbol_oneVoice_assigned :
    let tree : FileTree := ⟨Path.ofString "/w", [], [(["w", "a"], encode
      "/** O.\n@param x p\n@returns r */function f(x:T):T\x7b\x7d/** E.\n@param x p */export default f")]⟩
    let workspace : Workspace := ⟨tree, none, fun _ => .failed "not found"⟩
    ∃ symbol exported effective signature,
      (workspace.module? (Path.ofString "a")).bind (·.export? "default") = some symbol ∧
      function? workspace "n" symbol = some (exported, effective, signature) ∧
      answer workspace (renderSymbol "#" "n" symbol) = .ok ("# n · function\n\nE.\n\n" ++
        "**Signature:** `(x: T) => T`\n\n**Parameters:**\n\n- `x: T` - p\n\n") ∧
      OneVoice effective (exported.doc?.or effective.doc?) signature.typeParameters
        signature.parameters := by
  intro tree workspace
  let text := "# n · function\n\nE.\n\n" ++
    "**Signature:** `(x: T) => T`\n\n**Parameters:**\n\n- `x: T` - p\n\n"
  have facts : ((workspace.module? (Path.ofString "a")).bind (·.export? "default")).bind (fun symbol =>
      (function? workspace "n" symbol).map fun (exported, effective, signature) =>
        ((answer workspace (renderSymbol "#" "n" symbol)).toOption,
          decide (∀ parameter ∈ signature.parameters,
            told effective.doc? (.parameter parameter.name) =
              told (exported.doc?.or effective.doc?) (.parameter parameter.name)))) =
      some (some text, true) := by decide +kernel
  obtain ⟨symbol, found, facts⟩ := Option.bind_eq_some_iff.mp facts
  obtain ⟨⟨exported, effective, signature⟩, function, facts⟩ := Option.map_eq_some_iff.mp facts
  simp only [Prod.mk.injEq, decide_eq_true_eq] at facts
  obtain ⟨module, there, named⟩ := Option.bind_eq_some_iff.mp found
  obtain ⟨last, ran⟩ := returns_of_answer (eq_ok_of_toOption facts.1)
  obtain ⟨_, _, _, _, _, _, _, _, declared', resolves', shown', _, _, _, voiced, _⟩ :=
    renderSymbol_oneVoice_iff (Module.listed_of_export? there named) ran
  obtain ⟨declared, ⟨resolved, resolves, shown⟩, shape⟩ := of_function? function
  cases declared'.symm.trans declared
  cases (congrArg Prod.fst resolves').symm.trans resolves
  cases shown'.symm.trans shown
  exact ⟨symbol, exported, effective, signature, found, function, eq_ok_of_toOption facts.1,
    (voiced signature shape).2.mpr facts.2⟩

/-- What the heading's comment tells of a parameter is passed over for what the function's own tells. -/
theorem renderSymbol_other_voice :
    let tree : FileTree := ⟨Path.ofString "/w", [], [(["w", "a"], encode
      "/** O.\n@param x o */function f(x:T):T\x7b\x7d/** E.\n@param x e */export default f")]⟩
    let workspace : Workspace := ⟨tree, none, fun _ => .failed "not found"⟩
    ∃ symbol exported effective signature,
      (workspace.module? (Path.ofString "a")).bind (·.export? "default") = some symbol ∧
      function? workspace "n" symbol = some (exported, effective, signature) ∧
      exported.doc? = some ⟨"E.", [⟨"param", some "x", "e"⟩]⟩ ∧
      answer workspace (renderSymbol "#" "n" symbol) = .ok ("# n · function\n\nE.\n\n" ++
        "**Signature:** `(x: T) => T`\n\n**Parameters:**\n\n- `x: T` - o\n\n") ∧
      ¬ OneVoice effective exported.doc? signature.typeParameters signature.parameters := by
  intro tree workspace
  let text := "# n · function\n\nE.\n\n" ++
    "**Signature:** `(x: T) => T`\n\n**Parameters:**\n\n- `x: T` - o\n\n"
  have facts : ((workspace.module? (Path.ofString "a")).bind (·.export? "default")).bind (fun symbol =>
      (function? workspace "n" symbol).map fun (exported, effective, signature) =>
        (exported.doc?, (answer workspace (renderSymbol "#" "n" symbol)).toOption,
          decide (∀ parameter ∈ signature.parameters, told effective.doc? (.parameter parameter.name) =
            told exported.doc? (.parameter parameter.name)))) =
      some (some ⟨"E.", [⟨"param", some "x", "e"⟩]⟩, some text, false) := by decide +kernel
  obtain ⟨symbol, found, facts⟩ := Option.bind_eq_some_iff.mp facts
  obtain ⟨⟨exported, effective, signature⟩, function, facts⟩ := Option.map_eq_some_iff.mp facts
  simp only [Prod.mk.injEq, decide_eq_false_iff_not] at facts
  obtain ⟨doc, rendered, differ⟩ := facts
  refine ⟨symbol, exported, effective, signature, found, function, doc, eq_ok_of_toOption rendered, ?_⟩
  rwa [oneVoice_function_iff (of_function? function).2.2]

end ApiSections.Fragment
