namespace ApiSections.Syntax

/-- What a node of a syntax tree is. A `token` is a keyword or a mark and is told apart by its
text. -/
inductive Kind where
  | token
  | comment
  | program
  | hashBang
  | identifier
  | propertyIdentifier
  | privatePropertyIdentifier
  | typeIdentifier
  | shorthandProperty
  | shorthandPattern
  | labelName
  | number
  | stringLiteral
  | templateString
  | templateSubstitution
  | regex
  | trueLiteral
  | falseLiteral
  | nullLiteral
  | undefinedLiteral
  | thisValue
  | superValue
  | importCall
  | parenthesized
  | sequence
  | assignment
  | augmentedAssignment
  | ternary
  | binary
  | unary
  | update
  | awaited
  | yielded
  | asExpression
  | satisfiesExpression
  | nonNull
  | typeAssertion
  | instantiation
  | call
  | newExpression
  | memberAccess
  | subscript
  | optionalChain
  | metaProperty
  | arguments
  | spread
  | array
  | object
  | pair
  | computedName
  | arrowFunction
  | functionExpression
  | generatorFunction
  | classExpression
  | methodDefinition
  | objectPattern
  | arrayPattern
  | restPattern
  | assignmentPattern
  | objectAssignmentPattern
  | pairPattern
  | formalParameters
  | requiredParameter
  | optionalParameter
  | accessibilityModifier
  | overrideModifier
  | decorator
  | typeAscription
  | assertsAscription
  | typePredicateAscription
  | omittingTypeAscription
  | addingTypeAscription
  | optingTypeAscription
  | assertsClause
  | typePredicate
  | typeParameters
  | typeParameter
  | constraint
  | defaultType
  | typeArguments
  | predefinedType
  | literalType
  | thisType
  | genericType
  | nestedTypeIdentifier
  | nestedIdentifier
  | objectType
  | arrayType
  | tupleType
  | optionalType
  | restType
  | unionType
  | intersectionType
  | conditionalType
  | inferType
  | functionType
  | constructorType
  | parenthesizedType
  | readonlyType
  | typeQuery
  | indexTypeQuery
  | lookupType
  | templateLiteralType
  | existentialType
  | propertySignature
  | methodSignature
  | abstractMethodSignature
  | callSignature
  | constructSignature
  | indexSignature
  | mappedTypeClause
  | interfaceBody
  | classBody
  | classHeritage
  | extendsClause
  | implementsClause
  | extendsTypeClause
  | fieldDefinition
  | staticBlock
  | functionDeclaration
  | generatorDeclaration
  | functionSignature
  | classDeclaration
  | abstractClassDeclaration
  | interfaceDeclaration
  | typeAliasDeclaration
  | enumDeclaration
  | enumBody
  | enumAssignment
  | lexicalDeclaration
  | variableDeclaration
  | variableDeclarator
  | ambientDeclaration
  | namespaceDeclaration
  | moduleDeclaration
  | importAlias
  | importStatement
  | importClause
  | namedImports
  | namespaceImport
  | importSpecifier
  | importRequireClause
  | importAttribute
  | exportStatement
  | exportClause
  | exportSpecifier
  | namespaceExport
  | expressionStatement
  | block
  | emptyStatement
  | ifStatement
  | elseClause
  | forStatement
  | forInStatement
  | whileStatement
  | doStatement
  | switchStatement
  | switchBody
  | switchCase
  | switchDefault
  | tryStatement
  | catchClause
  | finallyClause
  | returnStatement
  | throwStatement
  | breakStatement
  | continueStatement
  | debuggerStatement
  | labeledStatement
  | withStatement
  | element
  | emptyElement
  | elementOpening
  | elementClosing
  | elementAttribute
  | elementExpression
  | elementText
  deriving Repr, DecidableEq, Inhabited

/-- The word for a kind in messages. -/
def Kind.label : Kind → String
  | .token => "token"
  | .comment => "comment"
  | .program => "program"
  | .hashBang => "hash_bang_line"
  | .identifier => "identifier"
  | .propertyIdentifier => "property_identifier"
  | .privatePropertyIdentifier => "private_property_identifier"
  | .typeIdentifier => "type_identifier"
  | .shorthandProperty => "shorthand_property_identifier"
  | .shorthandPattern => "shorthand_property_identifier_pattern"
  | .labelName => "statement_identifier"
  | .number => "number"
  | .stringLiteral => "string"
  | .templateString => "template_string"
  | .templateSubstitution => "template_substitution"
  | .regex => "regex"
  | .trueLiteral => "true"
  | .falseLiteral => "false"
  | .nullLiteral => "null"
  | .undefinedLiteral => "undefined"
  | .thisValue => "this"
  | .superValue => "super"
  | .importCall => "import"
  | .parenthesized => "parenthesized_expression"
  | .sequence => "sequence_expression"
  | .assignment => "assignment_expression"
  | .augmentedAssignment => "augmented_assignment_expression"
  | .ternary => "ternary_expression"
  | .binary => "binary_expression"
  | .unary => "unary_expression"
  | .update => "update_expression"
  | .awaited => "await_expression"
  | .yielded => "yield_expression"
  | .asExpression => "as_expression"
  | .satisfiesExpression => "satisfies_expression"
  | .nonNull => "non_null_expression"
  | .typeAssertion => "type_assertion"
  | .instantiation => "instantiation_expression"
  | .call => "call_expression"
  | .newExpression => "new_expression"
  | .memberAccess => "member_expression"
  | .subscript => "subscript_expression"
  | .optionalChain => "optional_chain"
  | .metaProperty => "meta_property"
  | .arguments => "arguments"
  | .spread => "spread_element"
  | .array => "array"
  | .object => "object"
  | .pair => "pair"
  | .computedName => "computed_property_name"
  | .arrowFunction => "arrow_function"
  | .functionExpression => "function_expression"
  | .generatorFunction => "generator_function"
  | .classExpression => "class"
  | .methodDefinition => "method_definition"
  | .objectPattern => "object_pattern"
  | .arrayPattern => "array_pattern"
  | .restPattern => "rest_pattern"
  | .assignmentPattern => "assignment_pattern"
  | .objectAssignmentPattern => "object_assignment_pattern"
  | .pairPattern => "pair_pattern"
  | .formalParameters => "formal_parameters"
  | .requiredParameter => "required_parameter"
  | .optionalParameter => "optional_parameter"
  | .accessibilityModifier => "accessibility_modifier"
  | .overrideModifier => "override_modifier"
  | .decorator => "decorator"
  | .typeAscription => "type_annotation"
  | .assertsAscription => "asserts_annotation"
  | .typePredicateAscription => "type_predicate_annotation"
  | .omittingTypeAscription => "omitting_type_annotation"
  | .addingTypeAscription => "adding_type_annotation"
  | .optingTypeAscription => "opting_type_annotation"
  | .assertsClause => "asserts"
  | .typePredicate => "type_predicate"
  | .typeParameters => "type_parameters"
  | .typeParameter => "type_parameter"
  | .constraint => "constraint"
  | .defaultType => "default_type"
  | .typeArguments => "type_arguments"
  | .predefinedType => "predefined_type"
  | .literalType => "literal_type"
  | .thisType => "this_type"
  | .genericType => "generic_type"
  | .nestedTypeIdentifier => "nested_type_identifier"
  | .nestedIdentifier => "nested_identifier"
  | .objectType => "object_type"
  | .arrayType => "array_type"
  | .tupleType => "tuple_type"
  | .optionalType => "optional_type"
  | .restType => "rest_type"
  | .unionType => "union_type"
  | .intersectionType => "intersection_type"
  | .conditionalType => "conditional_type"
  | .inferType => "infer_type"
  | .functionType => "function_type"
  | .constructorType => "constructor_type"
  | .parenthesizedType => "parenthesized_type"
  | .readonlyType => "readonly_type"
  | .typeQuery => "type_query"
  | .indexTypeQuery => "index_type_query"
  | .lookupType => "lookup_type"
  | .templateLiteralType => "template_literal_type"
  | .existentialType => "existential_type"
  | .propertySignature => "property_signature"
  | .methodSignature => "method_signature"
  | .abstractMethodSignature => "abstract_method_signature"
  | .callSignature => "call_signature"
  | .constructSignature => "construct_signature"
  | .indexSignature => "index_signature"
  | .mappedTypeClause => "mapped_type_clause"
  | .interfaceBody => "interface_body"
  | .classBody => "class_body"
  | .classHeritage => "class_heritage"
  | .extendsClause => "extends_clause"
  | .implementsClause => "implements_clause"
  | .extendsTypeClause => "extends_type_clause"
  | .fieldDefinition => "public_field_definition"
  | .staticBlock => "class_static_block"
  | .functionDeclaration => "function_declaration"
  | .generatorDeclaration => "generator_function_declaration"
  | .functionSignature => "function_signature"
  | .classDeclaration => "class_declaration"
  | .abstractClassDeclaration => "abstract_class_declaration"
  | .interfaceDeclaration => "interface_declaration"
  | .typeAliasDeclaration => "type_alias_declaration"
  | .enumDeclaration => "enum_declaration"
  | .enumBody => "enum_body"
  | .enumAssignment => "enum_assignment"
  | .lexicalDeclaration => "lexical_declaration"
  | .variableDeclaration => "variable_declaration"
  | .variableDeclarator => "variable_declarator"
  | .ambientDeclaration => "ambient_declaration"
  | .namespaceDeclaration => "internal_module"
  | .moduleDeclaration => "module"
  | .importAlias => "import_alias"
  | .importStatement => "import_statement"
  | .importClause => "import_clause"
  | .namedImports => "named_imports"
  | .namespaceImport => "namespace_import"
  | .importSpecifier => "import_specifier"
  | .importRequireClause => "import_require_clause"
  | .importAttribute => "import_attribute"
  | .exportStatement => "export_statement"
  | .exportClause => "export_clause"
  | .exportSpecifier => "export_specifier"
  | .namespaceExport => "namespace_export"
  | .expressionStatement => "expression_statement"
  | .block => "statement_block"
  | .emptyStatement => "empty_statement"
  | .ifStatement => "if_statement"
  | .elseClause => "else_clause"
  | .forStatement => "for_statement"
  | .forInStatement => "for_in_statement"
  | .whileStatement => "while_statement"
  | .doStatement => "do_statement"
  | .switchStatement => "switch_statement"
  | .switchBody => "switch_body"
  | .switchCase => "switch_case"
  | .switchDefault => "switch_default"
  | .tryStatement => "try_statement"
  | .catchClause => "catch_clause"
  | .finallyClause => "finally_clause"
  | .returnStatement => "return_statement"
  | .throwStatement => "throw_statement"
  | .breakStatement => "break_statement"
  | .continueStatement => "continue_statement"
  | .debuggerStatement => "debugger_statement"
  | .labeledStatement => "labeled_statement"
  | .withStatement => "with_statement"
  | .element => "jsx_element"
  | .emptyElement => "jsx_self_closing_element"
  | .elementOpening => "jsx_opening_element"
  | .elementClosing => "jsx_closing_element"
  | .elementAttribute => "jsx_attribute"
  | .elementExpression => "jsx_expression"
  | .elementText => "jsx_text"

/-- The role of a node in its parent. -/
inductive Field where
  | name
  | newName
  | source
  | declaration
  | value
  | key
  | object
  | property
  | index
  | operator
  | argument
  | left
  | right
  | consequence
  | alternative
  | constructor
  | typeArguments
  | typeParameters
  | parameters
  | parameter
  | returnType
  | type
  | body
  | pattern
  | constraint
  | kind
  deriving Repr, DecidableEq, Inhabited

end ApiSections.Syntax
