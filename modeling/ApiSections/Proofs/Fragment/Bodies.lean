import ApiSections.Fragment.Render
import ApiSections.Proofs.Workspace.Returns

/-!
The body below a heading goes with the label beside it. The label is chosen first, and the body looks
at the declaration and its type once more; each label has one form of body, and the forms are told
apart by what they start with.
-/

namespace ApiSections.Fragment

/-- A text starts with the title of an entry. -/
def Leads (title text : String) : Prop := ("**" ++ title ++ ":**").toList <+: text.toList

instance (title text : String) : Decidable (Leads title text) := inferInstanceAs (Decidable (_ <+: _))

namespace Leads

variable {title other text : String}

theorem append (leads : Leads title text) (rest : String) : Leads title (text ++ rest) := by
  have whole : text.toList <+: (text ++ rest).toList := by simp
  exact List.IsPrefix.trans leads whole

/-- The title of an entry can be read off its text. -/
theorem titled (leads : Leads title text) (free : ':' ∉ title.toList) :
    (text.toList.drop 2).takeWhile (· != ':') = title.toList := by
  obtain ⟨rest, same⟩ := leads
  have inner : text.toList.drop 2 = title.toList ++ ':' :: ("**".toList ++ rest) := by
    rw [← same]
    simp
  have each : ∀ c ∈ title.toList, (c != ':') = true := by
    intro c member
    rw [bne_iff_ne]
    rintro rfl
    exact free member
  rw [inner, List.takeWhile_append_of_pos each]
  simp

theorem unique (leads : Leads title text) (also : Leads other text) (free : ':' ∉ title.toList)
    (free' : ':' ∉ other.toList) : title = other := by
  rw [← String.toList_inj, ← leads.titled free, also.titled free']

end Leads

theorem leads_codeLine (field code : String) : Leads field (codeLine field code) := by
  refine ⟨(" `" ++ code ++ "`\n\n").toList, ?_⟩
  simp [codeLine]

theorem leads_listBlock (title : String) (items : List String) :
    Leads title (listBlock title items) := by
  refine ⟨("\n\n" ++ String.join (items.map fun item => "- " ++ item ++ "\n") ++ "\n").toList, ?_⟩
  simp [listBlock]

/-- The titles of the entries that a type is shown in. -/
def entryTitles : List String := ["Signature", "Type", "Value"]

/-- The titles that the body of a class or an interface may start with. -/
def memberTitles : List String :=
  ["Type Parameters", "Returns", "Throws", "Examples", "Constructor Parameters"]

/-- A text that the body of a class or an interface may be: it is empty, or starts with one of its
blocks or with the heading of a member. -/
def Opens (text : String) : Prop :=
  text = "" ∨ text.toList.head? = some '#' ∨ ∃ title ∈ memberTitles, Leads title text

namespace Opens

variable {first second text : String}

theorem empty : Opens "" := .inl rfl

theorem of_leads {title : String} (leads : Leads title text) (listed : title ∈ memberTitles) :
    Opens text := .inr (.inr ⟨title, listed, leads⟩)

theorem append (left : Opens first) (right : Opens second) : Opens (first ++ second) := by
  rcases left with rfl | mark | ⟨title, listed, leads⟩
  · rwa [String.empty_append]
  · refine .inr (.inl ?_)
    rw [String.toList_append, List.head?_append, mark]
    rfl
  · exact of_leads (leads.append second) listed

theorem join {parts : List String} (each : ∀ part ∈ parts, Opens part) : Opens (String.join parts) := by
  induction parts with
  | nil => exact empty
  | cons part parts ih =>
    rw [String.join_cons]
    exact (each part List.mem_cons_self).append
      (ih fun other member => each other (List.mem_cons_of_mem _ member))

theorem not_leads (opens : Opens text) {field : String} (entry : field ∈ entryTitles) :
    ¬ Leads field text := by
  intro leads
  rcases opens with rfl | mark | ⟨title, listed, also⟩
  · have short := List.IsPrefix.length_le leads
    simp at short
  · obtain ⟨rest, same⟩ := leads
    rw [← same] at mark
    simp at mark
  · have apart : ∀ field ∈ entryTitles, ∀ title ∈ memberTitles,
        ':' ∉ field.toList ∧ ':' ∉ title.toList ∧ field ≠ title := by decide
    obtain ⟨free, free', ne⟩ := apart field entry title listed
    exact ne (leads.unique also free free')

end Opens

theorem opens_typeParametersBlock (parameters : List TypeParameter) (doc : Option DocComment) :
    Opens (typeParametersBlock parameters doc) := by
  rw [typeParametersBlock]
  split
  · exact .empty
  · exact .of_leads (leads_listBlock _ _) (by decide)

theorem opens_examplesBlock (examples : List String) : Opens (examplesBlock examples) := by
  rw [examplesBlock]
  split
  · exact .empty
  · have leads : Leads "Examples" "**Examples:**\n\n" := by decide
    exact .of_leads (leads.append _) (by decide)

theorem opens_tagBlocks (doc : Option DocComment) : Opens (tagBlocks doc) := by
  cases doc with
  | none => exact .empty
  | some doc =>
    apply Opens.append _ (opens_examplesBlock _)
    apply Opens.append
    · split
      · have leads : Leads "Returns" "**Returns:** " := by decide
        exact .of_leads ((leads.append _).append _) (by decide)
      · exact .empty
    · split
      · exact .empty
      · exact .of_leads (leads_listBlock _ _) (by decide)

theorem opens_constructorParameters (doc : Option DocComment) (separator : String) :
    Opens (parameterTagsBlock "Constructor Parameters" doc separator) := by
  cases doc with
  | none => exact .empty
  | some doc =>
    rw [parameterTagsBlock]
    split
    · exact .empty
    · exact .of_leads (leads_listBlock _ _) (by decide)

/-- The marks of a heading of some level. -/
def hashes (level : Nat) : String := String.ofList (List.replicate level '#')

theorem opens_heading (level : Nat) (title : String) (label : Option String)
    (doc : Option DocComment) (rest : String) :
    Opens (heading (hashes level ++ "#") title label doc ++ rest) := by
  refine .inr (.inl ?_)
  cases level with
  | zero => simp [heading, hashes]
  | succ level => simp [heading, hashes, List.replicate_succ]

section Rendering

variable {workspace : Workspace} {pass last : Pass} {text name : String} {level : Nat}

theorem opens_renderMember {owner : String} {member : Member}
    (ran : Returns (renderMember (hashes level) owner member) workspace pass text last) :
    Opens text := by
  simp only [renderMember, returns_bind] at ran
  obtain ⟨label, _, _, type, _, _, ran⟩ := ran
  cases type with
  | ok type =>
    rw [(returns_pure.mp ran).1]
    exact opens_heading _ _ _ _ _
  | error reason =>
    rw [returns_bind] at ran
    obtain ⟨_, _, _, ran⟩ := ran
    rw [(returns_pure.mp ran).1]
    exact opens_heading _ _ _ _ _

theorem opens_membersBody {declaration : Declaration} {typeParameters : List TypeParameter}
    {members : List Member}
    (ran : Returns (membersBody (hashes level) name declaration typeParameters members) workspace pass
      text last) : Opens text := by
  simp only [membersBody, returns_bind, returns_pure] at ran
  obtain ⟨rendered, _, members, rfl, _⟩ := ran
  have each : ∀ part ∈ rendered, Opens part :=
    forall_of_returns_mapM (fun _ _ _ _ => opens_renderMember) members
  exact (((opens_typeParametersBlock _ _).append (opens_tagBlocks _)).append
    (opens_constructorParameters _ _)).append (.join each)

end Rendering

section Forms

variable {declaration : Declaration} {type : String}

theorem isCallable_filled (type : String) : isCallable (filled? (some type)) = isCallable (some type) := by
  by_cases empty : type = ""
  · rw [empty]
    decide
  · simp [filled?, Option.filter, empty]

theorem isClassType_filled (type : String) :
    isClassType (filled? (some type)) = isClassType (some type) := by
  by_cases empty : type = ""
  · rw [empty]
    decide
  · simp [filled?, Option.filter, empty]

theorem isClassType_of_head {c : Char} (other : c ≠ 't') (starts : type.toList.head? = some c) :
    isClassType (some type) = false := by
  obtain ⟨rest, same⟩ := List.head?_eq_some_iff.mp starts
  rw [isClassType, same]
  simp [List.isPrefixOf, other.symm]

/-- A constant whose type is not that of a class is a function or a constant by its call shape. -/
theorem classify_const {statement : VariableStatement} {node initializer : Option Syntax.Node}
    (shape : declaration.shape = .variable statement node initializer)
    (keyword : statement.keyword = .constKeyword) (notClass : isClassType (some type) = false) :
    (classify declaration (some type) = .function ↔ TypeText.isCallable type = true) ∧
      (classify declaration (some type) = .constant ↔ ¬ TypeText.isCallable type = true) := by
  have kind : classify declaration (some type) =
      if TypeText.isCallable type = true then .function else .constant := by
    rw [classify, shape]
    dsimp only
    rw [isCallable_filled, isClassType_filled, notClass, keyword]
    rfl
  rw [kind]
  by_cases called : TypeText.isCallable type = true
  · simp [called]
  · simp [called]

/-- The form of the body that belongs to a kind. A variable is of the kind of a class by its type. -/
def DeclarationKind.form (kind : DeclarationKind) (isVariable : Bool) : BodyForm :=
  match kind with
  | function => .signature
  | plainClass => if isVariable then .typeLine else .members
  | abstractClass | interface => .members
  | typeAlias => .declaredType
  | constant | variableBinding | value => .valueLine

theorem bodyForm_classify (declaration : Declaration) (type : String) :
    bodyForm declaration (some type) (classify declaration (some type)) =
      (classify declaration (some type)).form (isVariable declaration) := by
  obtain ⟨header, shape⟩ := declaration
  cases shape with
  | function signature => rfl
  | interface typeParameters members => rfl
  | typeAlias typeParameters node => rfl
  | classShape typeParameters members =>
    by_cases abstract : header.has .abstract = true
    · simp [classify, bodyForm, isVariable, isFunction, abstract, DeclarationKind.form]
    · simp [classify, bodyForm, isVariable, isFunction, abstract, DeclarationKind.form]
  | «variable» statement node initializer =>
    simp only [classify, bodyForm, isVariable, isFunction, isCallable_filled, isClassType_filled]
    by_cases callable : isCallable (some type) = true
    · simp [callable, DeclarationKind.form]
    · by_cases classType : isClassType (some type) = true
      · simp [callable, classType, DeclarationKind.form]
      · by_cases constant : (statement.keyword == .constKeyword) = true
        · simp [callable, classType, constant, DeclarationKind.form]
        · simp [callable, classType, constant, DeclarationKind.form]
  | _ =>
    simp only [classify, bodyForm, isVariable, isFunction, isCallable_filled]
    by_cases callable : isCallable (some type) = true
    · simp [callable, DeclarationKind.form]
    · simp [callable, DeclarationKind.form]

/-- What a class or an interface is declared with. -/
def membersOf? : Shape → Option (List TypeParameter × List Member)
  | .classShape typeParameters members | .interface typeParameters members =>
    some (typeParameters, members)
  | _ => none

theorem exists_members {kind : DeclarationKind}
    (form : bodyForm declaration (some type) kind = .members) :
    ∃ parts, membersOf? declaration.shape = some parts := by
  unfold bodyForm at form
  split at form
  · cases form
  · split at form
    · cases form
    · split at form
      · cases form
      · split at form
        · cases form
        · split at form
          · rename_i same
            exact ⟨_, by rw [same]; rfl⟩
          · rename_i same
            exact ⟨_, by rw [same]; rfl⟩
          · cases form
          · cases form

/-- Classes and interfaces are those declarations whose body shows members. -/
theorem bodyForm_eq_members_iff (declaration : Declaration) (type : String) :
    bodyForm declaration (some type) (classify declaration (some type)) = .members ↔
      (membersOf? declaration.shape).isSome = true := by
  constructor
  · intro form
    exact Option.isSome_iff_exists.mpr (exists_members form)
  · intro listed
    obtain ⟨header, shape⟩ := declaration
    rw [bodyForm_classify]
    cases shape with
    | classShape typeParameters members =>
      by_cases abstract : header.has .abstract = true
      · simp [classify, abstract, DeclarationKind.form]
      · simp [classify, isVariable, abstract, DeclarationKind.form]
    | interface typeParameters members => rfl
    | _ => cases listed

end Forms

namespace BodyForm

/-- The title of the entry that a body starts with, if it starts with one. -/
def title? : BodyForm → Option String
  | signature => some "Signature"
  | typeLine | declaredType => some "Type"
  | valueLine => some "Value"
  | members | unavailable => none

/-- What a body of some form looks like. -/
def Fits (form : BodyForm) (text : String) : Prop :=
  match form with
  | signature => Leads "Signature" text
  | typeLine | declaredType => ∃ code, text = codeLine "Type" code
  | valueLine => ∃ code, text = codeLine "Value" code
  | members => Opens text
  | unavailable => text = typeUnavailable

theorem Fits.leads {form : BodyForm} {text field : String} (fits : form.Fits text)
    (titled : form.title? = some field) : Leads field text := by
  cases form with
  | signature => cases titled; exact fits
  | typeLine => cases titled; obtain ⟨code, rfl⟩ := fits; exact leads_codeLine _ _
  | declaredType => cases titled; obtain ⟨code, rfl⟩ := fits; exact leads_codeLine _ _
  | valueLine => cases titled; obtain ⟨code, rfl⟩ := fits; exact leads_codeLine _ _
  | members => cases titled
  | unavailable => cases titled

/-- The title that a body starts with tells its form. -/
theorem Fits.leads_iff {form : BodyForm} {text field : String} (fits : form.Fits text)
    (entry : field ∈ entryTitles) : Leads field text ↔ form.title? = some field := by
  refine ⟨fun leads => ?_, fits.leads⟩
  cases titled : form.title? with
  | some other =>
    have free : ∀ field ∈ entryTitles, ':' ∉ field.toList := by decide
    have listed : other ∈ entryTitles := by
      revert titled
      cases form <;> simp +contextual [title?, entryTitles]
    rw [leads.unique (fits.leads titled) (free field entry) (free other listed)]
  | none =>
    cases form with
    | members => exact absurd leads (fits.not_leads entry)
    | unavailable =>
      have none : ∀ field ∈ entryTitles, ¬ Leads field typeUnavailable := by decide
      rw [show text = typeUnavailable from fits] at leads
      exact absurd leads (none field entry)
    | signature | typeLine | declaredType | valueLine => cases titled

theorem Fits.isType_iff {form : BodyForm} {text : String} (fits : form.Fits text) :
    (∃ code, text = codeLine "Type" code) ↔ form = typeLine ∨ form = declaredType := by
  constructor
  · rintro ⟨code, rfl⟩
    have titled := (fits.leads_iff (by decide)).mp (leads_codeLine "Type" code)
    cases form <;> simp_all [title?]
  · rintro (rfl | rfl)
    · exact fits
    · exact fits

theorem Fits.isValue_iff {form : BodyForm} {text : String} (fits : form.Fits text) :
    (∃ code, text = codeLine "Value" code) ↔ form = valueLine := by
  constructor
  · rintro ⟨code, rfl⟩
    have titled := (fits.leads_iff (by decide)).mp (leads_codeLine "Value" code)
    cases form <;> simp_all [title?]
  · rintro rfl
    exact fits

end BodyForm

/-- The kinds with bodies of each form. -/
theorem DeclarationKind.form_iff (kind : DeclarationKind) (isVariable : Bool) :
    ((kind.form isVariable).title? = some "Signature" ↔ kind = .function) ∧
    (kind.form isVariable = .typeLine ∨ kind.form isVariable = .declaredType ↔
      kind = .typeAlias ∨ kind = .plainClass ∧ isVariable = true) ∧
    (kind.form isVariable = .valueLine ↔
      kind = .constant ∨ kind = .variableBinding ∨ kind = .value) ∧
    (kind.form isVariable = .members ↔
      kind = .abstractClass ∨ kind = .interface ∨ kind = .plainClass ∧ isVariable = false) ∧
    kind.form isVariable ≠ .unavailable := by
  cases kind <;> cases isVariable <;> decide

section Bodies

variable {declaration : Declaration} {type : String} {kind : DeclarationKind}

theorem body_members {typeParameters : List TypeParameter} {members : List Member}
    (form : bodyForm declaration (some type) kind = .members)
    (parts : membersOf? declaration.shape = some (typeParameters, members)) (marks name : String)
    (doc : Option DocComment) : body marks name declaration (some type) kind doc =
      membersBody marks name declaration typeParameters members := by
  obtain ⟨header, shape⟩ := declaration
  cases shape with
  | classShape typeParameters members =>
    cases parts
    rw [body, form]
  | interface typeParameters members =>
    cases parts
    rw [body, form]
  | _ => cases parts

/-- Every body but that of a class or an interface is made from what is known of the declaration. -/
theorem body_entry (other : bodyForm declaration (some type) kind ≠ .members) (marks name : String)
    (doc : Option DocComment) : ∃ text, body marks name declaration (some type) kind doc = pure text ∧
      (bodyForm declaration (some type) kind).Fits text := by
  rw [body]
  generalize bodyForm declaration (some type) kind = form at other
  cases form with
  | unavailable => exact ⟨_, rfl, rfl⟩
  | signature => exact ⟨_, rfl, (leads_codeLine _ _).append _⟩
  | typeLine => exact ⟨_, rfl, _, rfl⟩
  | declaredType => exact ⟨_, rfl, _, rfl⟩
  | valueLine => exact ⟨_, rfl, _, rfl⟩
  | members => exact absurd rfl other

/-- A body without members starts as a signature if it is that of a function. -/
theorem body_signature (single : membersOf? declaration.shape = none) (marks name : String)
    (doc : Option DocComment) : ∃ text,
      body marks name declaration (some type) (classify declaration (some type)) doc = pure text ∧
        (Leads "Signature" text ↔ classify declaration (some type) = .function) := by
  have other : bodyForm declaration (some type) (classify declaration (some type)) ≠ .members := by
    rw [Ne, bodyForm_eq_members_iff, single]
    exact Bool.false_ne_true
  obtain ⟨text, same, fits⟩ := body_entry other marks name doc
  rw [bodyForm_classify] at fits
  exact ⟨text, same, (fits.leads_iff (by decide)).trans (DeclarationKind.form_iff _ _).1⟩

theorem fits_of_returns {workspace : Workspace} {pass last : Pass} {text name : String} {level : Nat}
    {doc : Option DocComment}
    (ran : Returns (body (hashes level) name declaration (some type) kind doc) workspace pass text
      last) : (bodyForm declaration (some type) kind).Fits text := by
  by_cases form : bodyForm declaration (some type) kind = .members
  · obtain ⟨⟨typeParameters, members⟩, parts⟩ := exists_members form
    rw [body_members form parts] at ran
    rw [form]
    exact opens_membersBody ran
  · obtain ⟨known, same, fits⟩ := body_entry form (hashes level) name doc
    rw [same] at ran
    rw [(returns_pure.mp ran).1]
    exact fits

/-- An entry is never the body of a class or an interface. -/
theorem body_ne_membersBody (other : bodyForm declaration (some type) kind ≠ .members)
    (known : bodyForm declaration (some type) kind ≠ .unavailable) (level : Nat) (name : String)
    (doc : Option DocComment) (typeParameters : List TypeParameter) (members : List Member) :
    body (hashes level) name declaration (some type) kind doc ≠
      membersBody (hashes level) name declaration typeParameters members := by
  intro same
  obtain ⟨text, shown, fits⟩ := body_entry other (hashes level) name doc
  rw [shown] at same
  -- In a workspace without files the entry would be what the members render as.
  let workspace : Workspace := ⟨⟨Path.ofString "/", [], []⟩, none, fun _ => .failed ""⟩
  have ran : Returns (pure text : Work String) workspace .empty text .empty :=
    returns_pure.mpr ⟨rfl, rfl⟩
  rw [same] at ran
  have opens := opens_membersBody ran
  have titled : ∃ field ∈ entryTitles, (bodyForm declaration (some type) kind).title? = some field := by
    revert other known
    cases bodyForm declaration (some type) kind <;> simp [BodyForm.title?, entryTitles]
  obtain ⟨field, entry, titled⟩ := titled
  exact opens.not_leads entry (fits.leads titled)

end Bodies

/-- The label of a declaration and the body below it go together: a function has a signature, a class or
an interface its members, an alias or a variable that is a class a single type, and every other one a
single value. -/
theorem body_goes_with_kind (level : Nat) (name : String) (declaration : Declaration) (type : String)
    (doc : Option DocComment) :
    let kind := classify declaration (some type)
    let shown := body (hashes level) name declaration (some type) kind doc
    (∀ workspace pass text last, Returns shown workspace pass text last →
      (Leads "Signature" text ↔ kind = .function) ∧
      ((∃ code, text = codeLine "Type" code) ↔
        kind = .typeAlias ∨ kind = .plainClass ∧ isVariable declaration = true) ∧
      ((∃ code, text = codeLine "Value" code) ↔
        kind = .constant ∨ kind = .variableBinding ∨ kind = .value)) ∧
    (membersOf? declaration.shape = none → ∃ text, shown = pure text) ∧
    (∀ typeParameters members, membersOf? declaration.shape = some (typeParameters, members) →
      shown = membersBody (hashes level) name declaration typeParameters members) ∧
    ((∃ typeParameters members,
        shown = membersBody (hashes level) name declaration typeParameters members) ↔
      (membersOf? declaration.shape).isSome = true) ∧
    ((membersOf? declaration.shape).isSome = true ↔
      kind = .abstractClass ∨ kind = .interface ∨
        kind = .plainClass ∧ isVariable declaration = false) := by
  intro kind shown
  have form : bodyForm declaration (some type) kind = kind.form (isVariable declaration) :=
    bodyForm_classify declaration type
  have listed : bodyForm declaration (some type) kind = .members ↔
      (membersOf? declaration.shape).isSome = true := bodyForm_eq_members_iff declaration type
  obtain ⟨isFunction, isType, isValue, isClass, known⟩ := kind.form_iff (isVariable declaration)
  rw [← form] at known
  refine ⟨fun workspace pass text last ran => ?_, fun none => ?_, fun typeParameters members parts => ?_,
    ⟨?_, fun some_parts => ?_⟩, ?_⟩
  · have fits := fits_of_returns ran
    rw [form] at fits
    exact ⟨(fits.leads_iff (by decide)).trans isFunction, fits.isType_iff.trans isType,
      fits.isValue_iff.trans isValue⟩
  · have other : bodyForm declaration (some type) kind ≠ .members := by
      rw [Ne, listed, none]
      exact Bool.false_ne_true
    obtain ⟨text, same, _⟩ := body_entry other (hashes level) name doc
    exact ⟨text, same⟩
  · have members_form := listed.mpr (by rw [parts]; rfl)
    exact body_members members_form parts (hashes level) name doc
  · rintro ⟨typeParameters, members, same⟩
    by_cases members_form : bodyForm declaration (some type) kind = .members
    · exact listed.mp members_form
    · exact absurd same
        (body_ne_membersBody members_form known level name doc typeParameters members)
  · obtain ⟨⟨typeParameters, members⟩, parts⟩ := Option.isSome_iff_exists.mp some_parts
    exact ⟨typeParameters, members, body_members (listed.mpr some_parts) parts (hashes level) name doc⟩
  · rw [← listed, form]
    exact isClass

/-- An interface with a property, and a variable that is a class. -/
theorem body_goes_with_kind_members :
    let header (name : String) : Header := ⟨Path.ofString "a", ⟨0, 1, 0⟩, some name, none, []⟩
    let workspace : Workspace := ⟨⟨Path.ofString "/", [], []⟩, none, fun _ => .failed ""⟩
    let member : Member := ⟨header "x", .property none false⟩
    let shape : Declaration := ⟨header "Shape", .interface [] [member]⟩
    let renamed : Declaration := ⟨header "Alias", .variable ⟨.constKeyword, 1, none⟩ none none⟩
    let inner := "#### shape.x · property\n\n**Type:** `any`\n\n"
    let shown := body (hashes 3) "Shape" shape (some "Shape") (classify shape (some "Shape")) none
    (∃ last, Returns shown workspace .empty inner last) ∧
      ¬ Leads "Signature" inner ∧ (¬ ∃ code, inner = codeLine "Type" code) ∧
      shown = membersBody (hashes 3) "Shape" shape [] [member] ∧
      classify renamed (some "typeof C") = .plainClass ∧
      ∃ text, body (hashes 3) "Alias" renamed (some "typeof C") (classify renamed (some "typeof C")) none =
        pure text ∧ ∃ code, text = codeLine "Type" code := by
  intro header workspace member shape renamed inner shown
  have done : (shown.execute workspace .empty).1.toOption = some inner := by decide +kernel
  have ran : Returns shown workspace .empty inner (shown.execute workspace .empty).2 :=
    Prod.ext (eq_ok_of_toOption done) rfl
  have kinds : classify shape (some "Shape") = .interface ∧
      classify renamed (some "typeof C") = .plainClass := by decide
  obtain ⟨entries, _, whole, _⟩ := body_goes_with_kind 3 "Shape" shape "Shape" none
  obtain ⟨isFunction, isType, _⟩ := entries workspace .empty inner _ ran
  obtain ⟨entries', single, _⟩ := body_goes_with_kind 3 "Alias" renamed "typeof C" none
  obtain ⟨text, same⟩ := single rfl
  refine ⟨⟨_, ran⟩, ?_, ?_, whole [] [member] rfl, kinds.2, text, same, ?_⟩
  · rw [isFunction, kinds.1]
    decide
  · rw [isType, kinds.1]
    decide
  · have ran' : Returns (pure text : Work String) workspace .empty text .empty :=
      returns_pure.mpr ⟨rfl, rfl⟩
    rw [← same] at ran'
    exact (entries' workspace .empty text .empty ran').2.1.mpr (.inr ⟨kinds.2, rfl⟩)

end ApiSections.Fragment
