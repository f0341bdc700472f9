import ApiSections.Proofs.Syntax.Orderly
import ApiSections.Syntax.Source

/-!
All rules of the grammar give their nodes in order, so the tree of a source is laid out in it.
-/

namespace ApiSections.Syntax.Grammar

open Rule

/-- A grammar whose rules all give their nodes in order. -/
class Orderly (g : Grammar) : Prop where
  rule : ∀ goal, (g.rule goal).Orderly

attribute [instance] Orderly.rule

variable (g : Grammar)

instance (kind : Kind) [Plain kind.isBraced] : (name kind).Orderly :=
  inferInstanceAs (leaf _ _).Orderly

instance (kind : Kind) [Plain kind.isBraced] : (anyName kind).Orderly :=
  inferInstanceAs (leaf _ _).Orderly

instance (kind : Kind) (expected : String) [Plain kind.isBraced] :
    (wordNode kind expected).Orderly :=
  inferInstanceAs (leaf _ _).Orderly

instance : stringLiteral.Orderly := inferInstanceAs (leaf _ _).Orderly

instance : number.Orderly := inferInstanceAs (leaf _ _).Orderly

instance (opening closing : String) {item : Rule} [item.Orderly] :
    (bracketed opening closing item).Orderly :=
  inferInstanceAs (seq _).Orderly

instance (kind : Kind) {inside : Rule} [Plain kind.isBraced] [inside.Orderly] :
    (template kind inside).Orderly := by
  dsimp only [template, templateChars]
  infer_instance

variable [g.Orderly] (site : Site)

instance : (g.expression site).Orderly := Orderly.rule _

instance : (g.type site).Orderly := Orderly.rule _

instance : (g.expressions site).Orderly := inferInstanceAs (joined _ _ _).Orderly

instance : (g.propertyName).Orderly := by
  dsimp only [propertyName]
  infer_instance

instance : (g.typeAscription site).Orderly := by
  dsimp only [typeAscription]
  infer_instance

instance : (g.block).Orderly := by
  dsimp only [block]
  infer_instance

instance : (g.arguments).Orderly := by
  dsimp only [arguments, spread]
  infer_instance

instance : (g.parenthesized).Orderly := by
  dsimp only [parenthesized]
  infer_instance

instance : (g.decoratorRule).Orderly := by
  dsimp only [decoratorRule]
  infer_instance

instance : (g.initializer site).Orderly := by
  dsimp only [initializer]
  infer_instance

/-! Types. -/

instance : predefinedType.Orderly := by
  dsimp only [predefinedType]
  infer_instance

instance : memberModifiers.Orderly := by
  dsimp only [memberModifiers, memberModifier, accessibility]
  infer_instance

instance : (g.typeArguments).Orderly := by
  dsimp only [typeArguments]
  infer_instance

instance : (g.typeParameters).Orderly := by
  dsimp only [typeParameters, typeParameter, constraintClause]
  infer_instance

instance (nodes : List Node) : Plain (Kind.isBraced (
    if nodes.any (·.isToken "?") then .optionalParameter else .requiredParameter)) := by
  split <;> infer_instance

instance : (g.formalParameters).Orderly := by
  dsimp only [formalParameters, parameter, parameterModifier, accessibility]
  infer_instance

instance : (g.typePredicate site).Orderly := by
  dsimp only [typePredicate, predicateSubject]
  infer_instance

instance : (g.asserts site).Orderly := by
  dsimp only [asserts, predicateSubject]
  infer_instance

instance : (g.returnAscription site).Orderly := by
  dsimp only [returnAscription]
  infer_instance

instance : (g.callSignature site).Orderly := by
  dsimp only [callSignature]
  infer_instance

instance : (g.indexSignature site).Orderly := by
  dsimp only [indexSignature, indexAscription, mappedClause]
  infer_instance

instance : (g.typeMembers).Orderly := by
  dsimp only [typeMembers, typeMember, constructSignature, methodSignature, propertySignature]
  infer_instance

instance : (g.objectType).Orderly :=
  have : (g.typeMembers).Opening := opening_seq_mark (by decide)
  orderly_node

instance : (g.importedModule).Orderly := by
  dsimp only [importedModule]
  infer_instance

instance : (g.namedType).Orderly := by
  change (chain _ _).Orderly
  infer_instance

instance : literalType.Orderly := by
  dsimp only [literalType]
  infer_instance

instance : (g.queriedValue site).Orderly := by
  dsimp only [queriedValue]
  infer_instance

instance : (g.tupleType).Orderly := by
  dsimp only [tupleType, tupleMember]
  infer_instance

instance : (g.primaryType site).Orderly := by
  dsimp only [primaryType, functionType, constructorType, returnOfType]
  infer_instance

instance : (g.operandTypeRule site).Orderly := by
  dsimp only [operandTypeRule]
  infer_instance

instance : (g.unionType site).Orderly := by
  dsimp only [unionType, joinedType]
  infer_instance

instance : (g.typeRule site).Orderly := by
  dsimp only [typeRule]
  infer_instance

/-! Patterns and elements. -/

instance : (g.patternRule).Orderly := by
  dsimp only [patternRule, patternEntry, patternWithDefault, restPattern]
  infer_instance

instance : elementName.Orderly := by
  dsimp only [elementName]
  infer_instance

instance : (g.elementExpression).Orderly := by
  dsimp only [elementExpression]
  infer_instance

instance : (g.elementHead).Orderly := by
  dsimp only [elementHead, elementAttribute]
  infer_instance

instance : (g.elementRule).Orderly := by
  dsimp only [elementRule, elementChild, elementText, elementClosing]
  infer_instance

/-! Classes. -/

instance (nodes : List Node) : Plain (methodKind nodes).isBraced := by
  unfold methodKind
  split
  · infer_instance
  · split <;> infer_instance

instance : (g.method).Orderly := by
  dsimp only [method]
  infer_instance

instance : (g.classHeritage).Orderly := by
  dsimp only [classHeritage, extendsClause, implementsClause]
  infer_instance

instance : (g.field).Orderly := by
  dsimp only [field]
  infer_instance

instance : (g.classRest).Orderly := by
  dsimp only [classRest, classBody, classMember, memberEnd, methodEnd]
  infer_instance

/-! Expressions. -/

instance : (g.object).Orderly :=
  have : (bracketed "\x7b" "\x7d" g.objectEntry).Opening := opening_seq_mark (by decide)
  have : (g.objectEntry).Orderly := by
    dsimp only [objectEntry, spread]
    infer_instance
  orderly_node

instance (nodes : List Node) : Plain (functionKind nodes).isBraced := by
  unfold functionKind
  split <;> infer_instance

instance : (g.templateString).Orderly := by
  dsimp only [templateString]
  infer_instance

instance : (g.literal).Orderly := by
  dsimp only [literal]
  infer_instance

instance : (g.functionExpression).Orderly := by
  dsimp only [functionExpression]
  infer_instance

instance : (g.primary).Orderly := by
  dsimp only [primary, metaProperty, classExpression, array, spread]
  infer_instance

instance : Extending g.accesses := by
  dsimp only [accesses, memberName]
  infer_instance

instance : Extending (g.assertions site) := by
  dsimp only [assertions]
  infer_instance

instance : (g.arrowFunction site).Orderly := by
  dsimp only [arrowFunction, arrowParameters, arrowBody]
  infer_instance

instance : Extending (g.calls site) := by
  dsimp only [calls]
  infer_instance

instance : (g.newExpression).Orderly := by
  dsimp only [newExpression]
  infer_instance

instance : (g.operandRule site).Orderly := by
  have : Rule.Orderly (match g.dialect with
      | .plain => node .typeAssertion (seq [g.typeArguments, g.rule (.operand site)])
      | .markup => g.rule .element) := by
    split <;> infer_instance
  dsimp only [operandRule, unaryOperator, updateOperator, awaited, postfixed]
  infer_instance

omit [g.Orderly] in
theorem orderly_operation {fuel : Nat}
    (operand : ∀ asserted least, (g.binaryFrom site asserted fuel least).Orderly) (least : Nat) :
    Rule.Orderly fun cursor =>
      let operator := operatorAt (ahead cursor)
      match (operatorsFrom site least).find? (·.1 == operator) with
      | none => none
      | some (_, level) =>
        let isPower := operator == "**"
        seq [
          role .operator (leaf .token fun _ => some operator.length),
          role .right (g.binaryFrom site isPower fuel (if isPower then level else level + 1))]
          cursor := by
  constructor
  intro cursor next nodes found
  dsimp only at found
  split at found
  · cases found
  · exact Orderly.laid found

theorem orderly_binaryFrom (asserted : Bool) (fuel least : Nat) :
    (g.binaryFrom site asserted fuel least).Orderly := by
  induction fuel generalizing asserted least with
  | zero => exact inferInstanceAs fail.Orderly
  | succ fuel ih =>
    rw [binaryFrom]
    have := orderly_operation g site ih least
    infer_instance

instance : (g.binary site).Orderly where
  laid found := (g.orderly_binaryFrom site true _ 0).laid found

instance : (g.expressionRule site).Orderly := by
  dsimp only [expressionRule, ternary, yieldExpression, augmentedOperator]
  infer_instance

/-! Statements. -/

instance : statementEnd.Orderly := inferInstanceAs (semicolon _).Orderly

instance : bodyEnd.Orderly := inferInstanceAs (maybe _).Orderly

instance : className.Orderly := inferInstanceAs (role _ _).Orderly

instance : namespaceName.Orderly := by
  dsimp only [namespaceName]
  infer_instance

instance (nodes : List Node) : Plain (functionDeclarationKind nodes).isBraced := by
  unfold functionDeclarationKind
  split
  · infer_instance
  · split <;> infer_instance

instance : (g.functionDeclaration).Orderly := by
  dsimp only [functionDeclaration]
  infer_instance

instance : (g.classDeclaration).Orderly := by
  dsimp only [classDeclaration]
  infer_instance

instance : (g.abstractClassDeclaration).Orderly := by
  dsimp only [abstractClassDeclaration]
  infer_instance

instance : (g.interfaceDeclaration).Orderly := by
  dsimp only [interfaceDeclaration]
  infer_instance

instance {ending : Rule} [ending.Orderly] : (g.variableList site ending).Orderly := by
  dsimp only [variableList, declarator, lexicalKeyword]
  infer_instance

instance : (g.enumDeclaration).Orderly := by
  dsimp only [enumDeclaration, enumEntry]
  infer_instance

instance : (g.namespaceDeclaration).Orderly := by
  dsimp only [namespaceDeclaration]
  infer_instance

instance : (g.plainDeclaration).Orderly := by
  dsimp only [plainDeclaration, typeAliasDeclaration, importAlias]
  infer_instance

instance : (g.declarationRule).Orderly := by
  dsimp only [declarationRule, ambientDeclaration]
  infer_instance

instance (kind entry : Kind) [Plain kind.isBraced] [Plain entry.isBraced] :
    (specifierList kind entry).Orderly := by
  dsimp only [specifierList, specifier, specifierName]
  infer_instance

instance : sourceClause.Orderly := inferInstanceAs (seq _).Orderly

instance : (g.importAttribute).Orderly := by
  dsimp only [importAttribute]
  infer_instance

instance : importClause.Orderly := by
  dsimp only [importClause, namespaceImport]
  infer_instance

instance : (g.importStatement).Orderly := by
  dsimp only [importStatement, requireClause]
  infer_instance

instance : exportedNames.Orderly := by
  dsimp only [exportedNames, exportList, specifierName]
  infer_instance

instance : (g.exportStatement).Orderly := by
  dsimp only [exportStatement, defaultExport]
  infer_instance

instance (nodes : List Node) : Plain (forKind nodes).isBraced := by
  unfold forKind
  split <;> infer_instance

instance : (g.forStatement).Orderly := by
  dsimp only [forStatement, forHeader]
  infer_instance

instance : (g.tryStatement).Orderly := by
  dsimp only [tryStatement]
  infer_instance

instance (kind : Kind) (keyword : String) [Plain kind.isBraced] :
    (g.keywordStatement kind keyword).Orderly := by
  dsimp only [keywordStatement]
  infer_instance

instance (kind : Kind) (keyword : String) [Plain kind.isBraced] :
    (jumpStatement kind keyword).Orderly := by
  dsimp only [jumpStatement]
  infer_instance

instance : (g.ifStatement).Orderly := by
  dsimp only [ifStatement, condition]
  infer_instance

instance : (g.switchEntry).Orderly := by
  dsimp only [switchEntry]
  infer_instance

instance : (g.controlStatement).Orderly := by
  dsimp only [controlStatement, condition]
  infer_instance

instance : (g.statementRule).Orderly := by
  dsimp only [statementRule, expressionStatement]
  infer_instance

theorem orderly_production (goal : Goal) : (g.production goal).Orderly := by
  cases goal with
  | statement => exact inferInstanceAs (g.statementRule).Orderly
  | expression site => exact inferInstanceAs (g.expressionRule site).Orderly
  | operand site => exact inferInstanceAs (g.operandRule site).Orderly
  | type site => exact inferInstanceAs (g.typeRule site).Orderly
  | operandType site => exact inferInstanceAs (g.operandTypeRule site).Orderly
  | pattern => exact inferInstanceAs (g.patternRule).Orderly
  | element => exact inferInstanceAs (g.elementRule).Orderly

instance orderly_ofDialect (dialect : Dialect) (depth : Nat) : (ofDialect dialect depth).Orderly := by
  induction depth with
  | zero => exact ⟨fun _ => inferInstanceAs fail.Orderly⟩
  | succ depth ih => exact ⟨(ofDialect dialect depth).orderly_production⟩

end ApiSections.Syntax.Grammar

namespace ApiSections.Syntax

/-- The tree of a source is laid out in it. -/
theorem laid_parse (dialect : Dialect) (source : List Char) :
    ∃ stop, Laid 0 stop (parse dialect source).children := by
  rw [parse]
  dsimp only
  split
  · exact ⟨0, laid_nil (Nat.le_refl _)⟩
  · rename_i found
    exact ⟨_, (Rule.Orderly.laid found).append (laid_gap _)⟩

end ApiSections.Syntax
