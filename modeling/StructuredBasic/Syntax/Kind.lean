import StructuredBasic.Named

/-!
# Node kinds and their families

Every node carries one kind. Kinds fall into families, one for each payload type, and each child
position of a payload expects a family or a single kind.
-/

set_option autoImplicit false

namespace StructuredBasic.Syntax

/-! ## Kinds and families -/

/-- Groups of node kinds that share a payload type. -/
inductive Family where
  | syntaxError | collection | comment | name | type | initializer | argument | expression
  | statement | modifier | declarator | caseClause | attributeUse | declaration | parameter
  | importClause | typeParameter | file
deriving DecidableEq

instance : Named Family where
  all := [.syntaxError, .collection, .comment, .name, .type, .initializer, .argument,
    .expression, .statement, .modifier, .declarator, .caseClause, .attributeUse, .declaration,
    .parameter, .importClause, .typeParameter, .file]
  name
    | .syntaxError => "SyntaxError"
    | .collection => "Collection"
    | .comment => "Comment"
    | .name => "Name"
    | .type => "Type"
    | .initializer => "Initializer"
    | .argument => "Argument"
    | .expression => "Expression"
    | .statement => "Statement"
    | .modifier => "Modifier"
    | .declarator => "Declarator"
    | .caseClause => "CaseClause"
    | .attributeUse => "Attribute"
    | .declaration => "Declaration"
    | .parameter => "Parameter"
    | .importClause => "Import"
    | .typeParameter => "TypeParameter"
    | .file => "File"

/-- Tags of syntax nodes, declared family by family. -/
inductive Kind where
  | syntaxError | argumentCollection | attributeBlockCollection | attributeCollection
  | caseClauseCollection | declarationCollection | expressionCollection | importCollection
  | initializerCollection | modifierCollection | nameCollection | parameterCollection
  | statementCollection | typeConstraintCollection | typeNameCollection | typeParameterCollection
  | variableDeclaratorCollection | variableNameCollection | comment | simpleName | specialName
  | qualifiedName | variableName | intrinsicType | namedType | arrayType | constructedType
  | expressionInitializer | aggregateInitializer | argument | simpleNameExpression
  | typeReferenceExpression | qualifiedExpression | dictionaryLookupExpression
  | genericQualifiedExpression | callOrIndexExpression | newExpression | newAggregateExpression
  | cTypeExpression | directCastExpression | tryCastExpression | intrinsicCastExpression
  | typeOfExpression | getTypeExpression | addressOfExpression | stringLiteralExpression
  | characterLiteralExpression | dateLiteralExpression | integerLiteralExpression
  | floatingPointLiteralExpression | decimalLiteralExpression | booleanLiteralExpression
  | nothingExpression | meExpression | myBaseExpression | myClassExpression
  | parentheticalExpression | unaryOperatorExpression | binaryOperatorExpression | emptyStatement
  | endStatement | stopStatement | gotoStatement | goSubStatement | labelStatement
  | resumeStatement | exitStatement | continueStatement | returnStatement | errorStatement
  | onErrorStatement | raiseEventStatement | addHandlerStatement | removeHandlerStatement
  | reDimStatement | eraseStatement | callStatement | assignmentStatement
  | compoundAssignmentStatement | midAssignmentStatement | localDeclarationStatement
  | endBlockStatement | loopStatement | nextStatement | doBlockStatement | whileBlockStatement
  | forBlockStatement | forEachBlockStatement | withBlockStatement | syncLockBlockStatement
  | usingBlockStatement | tryBlockStatement | catchBlockStatement | finallyBlockStatement
  | ifBlockStatement | elseIfBlockStatement | elseBlockStatement | lineIfStatement
  | selectBlockStatement | caseBlockStatement | caseElseBlockStatement | modifier
  | variableDeclarator | comparisonCaseClause | rangeCaseClause | attributeUse | emptyDeclaration
  | endBlockDeclaration | optionDeclaration | importsDeclaration | attributeDeclaration
  | namespaceDeclaration | classDeclaration | moduleDeclaration | structureDeclaration
  | interfaceDeclaration | enumDeclaration | enumValueDeclaration | delegateSubDeclaration
  | delegateFunctionDeclaration | eventDeclaration | subDeclaration | functionDeclaration
  | constructorDeclaration | operatorDeclaration | externalSubDeclaration
  | externalFunctionDeclaration | propertyDeclaration | getAccessorDeclaration
  | setAccessorDeclaration | variableListDeclaration | inheritsDeclaration
  | implementsDeclaration | parameter | nameImport | aliasImport | typeParameter | file
deriving DecidableEq

instance : Named Kind where
  all := [.syntaxError, .argumentCollection, .attributeBlockCollection, .attributeCollection,
    .caseClauseCollection, .declarationCollection, .expressionCollection, .importCollection,
    .initializerCollection, .modifierCollection, .nameCollection, .parameterCollection,
    .statementCollection, .typeConstraintCollection, .typeNameCollection,
    .typeParameterCollection, .variableDeclaratorCollection, .variableNameCollection, .comment,
    .simpleName, .specialName, .qualifiedName, .variableName, .intrinsicType, .namedType,
    .arrayType, .constructedType, .expressionInitializer, .aggregateInitializer, .argument,
    .simpleNameExpression, .typeReferenceExpression, .qualifiedExpression,
    .dictionaryLookupExpression, .genericQualifiedExpression, .callOrIndexExpression,
    .newExpression, .newAggregateExpression, .cTypeExpression, .directCastExpression,
    .tryCastExpression, .intrinsicCastExpression, .typeOfExpression, .getTypeExpression,
    .addressOfExpression, .stringLiteralExpression, .characterLiteralExpression,
    .dateLiteralExpression, .integerLiteralExpression, .floatingPointLiteralExpression,
    .decimalLiteralExpression, .booleanLiteralExpression, .nothingExpression, .meExpression,
    .myBaseExpression, .myClassExpression, .parentheticalExpression, .unaryOperatorExpression,
    .binaryOperatorExpression, .emptyStatement, .endStatement, .stopStatement, .gotoStatement,
    .goSubStatement, .labelStatement, .resumeStatement, .exitStatement, .continueStatement,
    .returnStatement, .errorStatement, .onErrorStatement, .raiseEventStatement,
    .addHandlerStatement, .removeHandlerStatement, .reDimStatement, .eraseStatement,
    .callStatement, .assignmentStatement, .compoundAssignmentStatement, .midAssignmentStatement,
    .localDeclarationStatement, .endBlockStatement, .loopStatement, .nextStatement,
    .doBlockStatement, .whileBlockStatement, .forBlockStatement, .forEachBlockStatement,
    .withBlockStatement, .syncLockBlockStatement, .usingBlockStatement, .tryBlockStatement,
    .catchBlockStatement, .finallyBlockStatement, .ifBlockStatement, .elseIfBlockStatement,
    .elseBlockStatement, .lineIfStatement, .selectBlockStatement, .caseBlockStatement,
    .caseElseBlockStatement, .modifier, .variableDeclarator, .comparisonCaseClause,
    .rangeCaseClause, .attributeUse, .emptyDeclaration, .endBlockDeclaration, .optionDeclaration,
    .importsDeclaration, .attributeDeclaration, .namespaceDeclaration, .classDeclaration,
    .moduleDeclaration, .structureDeclaration, .interfaceDeclaration, .enumDeclaration,
    .enumValueDeclaration, .delegateSubDeclaration, .delegateFunctionDeclaration,
    .eventDeclaration, .subDeclaration, .functionDeclaration, .constructorDeclaration,
    .operatorDeclaration, .externalSubDeclaration, .externalFunctionDeclaration,
    .propertyDeclaration, .getAccessorDeclaration, .setAccessorDeclaration,
    .variableListDeclaration, .inheritsDeclaration, .implementsDeclaration, .parameter,
    .nameImport, .aliasImport, .typeParameter, .file]
  name
    | .syntaxError => "SyntaxError"
    | .argumentCollection => "ArgumentCollection"
    | .attributeBlockCollection => "AttributeBlockCollection"
    | .attributeCollection => "AttributeCollection"
    | .caseClauseCollection => "CaseClauseCollection"
    | .declarationCollection => "DeclarationCollection"
    | .expressionCollection => "ExpressionCollection"
    | .importCollection => "ImportCollection"
    | .initializerCollection => "InitializerCollection"
    | .modifierCollection => "ModifierCollection"
    | .nameCollection => "NameCollection"
    | .parameterCollection => "ParameterCollection"
    | .statementCollection => "StatementCollection"
    | .typeConstraintCollection => "TypeConstraintCollection"
    | .typeNameCollection => "TypeNameCollection"
    | .typeParameterCollection => "TypeParameterCollection"
    | .variableDeclaratorCollection => "VariableDeclaratorCollection"
    | .variableNameCollection => "VariableNameCollection"
    | .comment => "Comment"
    | .simpleName => "SimpleName"
    | .specialName => "SpecialName"
    | .qualifiedName => "QualifiedName"
    | .variableName => "VariableName"
    | .intrinsicType => "IntrinsicType"
    | .namedType => "NamedType"
    | .arrayType => "ArrayType"
    | .constructedType => "ConstructedType"
    | .expressionInitializer => "ExpressionInitializer"
    | .aggregateInitializer => "AggregateInitializer"
    | .argument => "Argument"
    | .simpleNameExpression => "SimpleNameExpression"
    | .typeReferenceExpression => "TypeReferenceExpression"
    | .qualifiedExpression => "QualifiedExpression"
    | .dictionaryLookupExpression => "DictionaryLookupExpression"
    | .genericQualifiedExpression => "GenericQualifiedExpression"
    | .callOrIndexExpression => "CallOrIndexExpression"
    | .newExpression => "NewExpression"
    | .newAggregateExpression => "NewAggregateExpression"
    | .cTypeExpression => "CTypeExpression"
    | .directCastExpression => "DirectCastExpression"
    | .tryCastExpression => "TryCastExpression"
    | .intrinsicCastExpression => "IntrinsicCastExpression"
    | .typeOfExpression => "TypeOfExpression"
    | .getTypeExpression => "GetTypeExpression"
    | .addressOfExpression => "AddressOfExpression"
    | .stringLiteralExpression => "StringLiteralExpression"
    | .characterLiteralExpression => "CharacterLiteralExpression"
    | .dateLiteralExpression => "DateLiteralExpression"
    | .integerLiteralExpression => "IntegerLiteralExpression"
    | .floatingPointLiteralExpression => "FloatingPointLiteralExpression"
    | .decimalLiteralExpression => "DecimalLiteralExpression"
    | .booleanLiteralExpression => "BooleanLiteralExpression"
    | .nothingExpression => "NothingExpression"
    | .meExpression => "MeExpression"
    | .myBaseExpression => "MyBaseExpression"
    | .myClassExpression => "MyClassExpression"
    | .parentheticalExpression => "ParentheticalExpression"
    | .unaryOperatorExpression => "UnaryOperatorExpression"
    | .binaryOperatorExpression => "BinaryOperatorExpression"
    | .emptyStatement => "EmptyStatement"
    | .endStatement => "EndStatement"
    | .stopStatement => "StopStatement"
    | .gotoStatement => "GotoStatement"
    | .goSubStatement => "GoSubStatement"
    | .labelStatement => "LabelStatement"
    | .resumeStatement => "ResumeStatement"
    | .exitStatement => "ExitStatement"
    | .continueStatement => "ContinueStatement"
    | .returnStatement => "ReturnStatement"
    | .errorStatement => "ErrorStatement"
    | .onErrorStatement => "OnErrorStatement"
    | .raiseEventStatement => "RaiseEventStatement"
    | .addHandlerStatement => "AddHandlerStatement"
    | .removeHandlerStatement => "RemoveHandlerStatement"
    | .reDimStatement => "ReDimStatement"
    | .eraseStatement => "EraseStatement"
    | .callStatement => "CallStatement"
    | .assignmentStatement => "AssignmentStatement"
    | .compoundAssignmentStatement => "CompoundAssignmentStatement"
    | .midAssignmentStatement => "MidAssignmentStatement"
    | .localDeclarationStatement => "LocalDeclarationStatement"
    | .endBlockStatement => "EndBlockStatement"
    | .loopStatement => "LoopStatement"
    | .nextStatement => "NextStatement"
    | .doBlockStatement => "DoBlockStatement"
    | .whileBlockStatement => "WhileBlockStatement"
    | .forBlockStatement => "ForBlockStatement"
    | .forEachBlockStatement => "ForEachBlockStatement"
    | .withBlockStatement => "WithBlockStatement"
    | .syncLockBlockStatement => "SyncLockBlockStatement"
    | .usingBlockStatement => "UsingBlockStatement"
    | .tryBlockStatement => "TryBlockStatement"
    | .catchBlockStatement => "CatchBlockStatement"
    | .finallyBlockStatement => "FinallyBlockStatement"
    | .ifBlockStatement => "IfBlockStatement"
    | .elseIfBlockStatement => "ElseIfBlockStatement"
    | .elseBlockStatement => "ElseBlockStatement"
    | .lineIfStatement => "LineIfStatement"
    | .selectBlockStatement => "SelectBlockStatement"
    | .caseBlockStatement => "CaseBlockStatement"
    | .caseElseBlockStatement => "CaseElseBlockStatement"
    | .modifier => "Modifier"
    | .variableDeclarator => "VariableDeclarator"
    | .comparisonCaseClause => "ComparisonCaseClause"
    | .rangeCaseClause => "RangeCaseClause"
    | .attributeUse => "Attribute"
    | .emptyDeclaration => "EmptyDeclaration"
    | .endBlockDeclaration => "EndBlockDeclaration"
    | .optionDeclaration => "OptionDeclaration"
    | .importsDeclaration => "ImportsDeclaration"
    | .attributeDeclaration => "AttributeDeclaration"
    | .namespaceDeclaration => "NamespaceDeclaration"
    | .classDeclaration => "ClassDeclaration"
    | .moduleDeclaration => "ModuleDeclaration"
    | .structureDeclaration => "StructureDeclaration"
    | .interfaceDeclaration => "InterfaceDeclaration"
    | .enumDeclaration => "EnumDeclaration"
    | .enumValueDeclaration => "EnumValueDeclaration"
    | .delegateSubDeclaration => "DelegateSubDeclaration"
    | .delegateFunctionDeclaration => "DelegateFunctionDeclaration"
    | .eventDeclaration => "EventDeclaration"
    | .subDeclaration => "SubDeclaration"
    | .functionDeclaration => "FunctionDeclaration"
    | .constructorDeclaration => "ConstructorDeclaration"
    | .operatorDeclaration => "OperatorDeclaration"
    | .externalSubDeclaration => "ExternalSubDeclaration"
    | .externalFunctionDeclaration => "ExternalFunctionDeclaration"
    | .propertyDeclaration => "PropertyDeclaration"
    | .getAccessorDeclaration => "GetAccessorDeclaration"
    | .setAccessorDeclaration => "SetAccessorDeclaration"
    | .variableListDeclaration => "VariableListDeclaration"
    | .inheritsDeclaration => "InheritsDeclaration"
    | .implementsDeclaration => "ImplementsDeclaration"
    | .parameter => "Parameter"
    | .nameImport => "NameImport"
    | .aliasImport => "AliasImport"
    | .typeParameter => "TypeParameter"
    | .file => "File"

/-- The family of a kind. -/
def Kind.family : Kind → Family
  | .syntaxError => .syntaxError
  | .argumentCollection | .attributeBlockCollection | .attributeCollection |
    .caseClauseCollection | .declarationCollection | .expressionCollection | .importCollection |
    .initializerCollection | .modifierCollection | .nameCollection | .parameterCollection |
    .statementCollection | .typeConstraintCollection | .typeNameCollection |
    .typeParameterCollection | .variableDeclaratorCollection | .variableNameCollection
    => .collection
  | .comment => .comment
  | .simpleName | .specialName | .qualifiedName | .variableName => .name
  | .intrinsicType | .namedType | .arrayType | .constructedType => .type
  | .expressionInitializer | .aggregateInitializer => .initializer
  | .argument => .argument
  | .simpleNameExpression | .typeReferenceExpression | .qualifiedExpression |
    .dictionaryLookupExpression | .genericQualifiedExpression | .callOrIndexExpression |
    .newExpression | .newAggregateExpression | .cTypeExpression | .directCastExpression |
    .tryCastExpression | .intrinsicCastExpression | .typeOfExpression | .getTypeExpression |
    .addressOfExpression | .stringLiteralExpression | .characterLiteralExpression |
    .dateLiteralExpression | .integerLiteralExpression | .floatingPointLiteralExpression |
    .decimalLiteralExpression | .booleanLiteralExpression | .nothingExpression | .meExpression |
    .myBaseExpression | .myClassExpression | .parentheticalExpression |
    .unaryOperatorExpression | .binaryOperatorExpression => .expression
  | .emptyStatement | .endStatement | .stopStatement | .gotoStatement | .goSubStatement |
    .labelStatement | .resumeStatement | .exitStatement | .continueStatement |
    .returnStatement | .errorStatement | .onErrorStatement | .raiseEventStatement |
    .addHandlerStatement | .removeHandlerStatement | .reDimStatement | .eraseStatement |
    .callStatement | .assignmentStatement | .compoundAssignmentStatement |
    .midAssignmentStatement | .localDeclarationStatement | .endBlockStatement | .loopStatement |
    .nextStatement | .doBlockStatement | .whileBlockStatement | .forBlockStatement |
    .forEachBlockStatement | .withBlockStatement | .syncLockBlockStatement |
    .usingBlockStatement | .tryBlockStatement | .catchBlockStatement | .finallyBlockStatement |
    .ifBlockStatement | .elseIfBlockStatement | .elseBlockStatement | .lineIfStatement |
    .selectBlockStatement | .caseBlockStatement | .caseElseBlockStatement => .statement
  | .modifier => .modifier
  | .variableDeclarator => .declarator
  | .comparisonCaseClause | .rangeCaseClause => .caseClause
  | .attributeUse => .attributeUse
  | .emptyDeclaration | .endBlockDeclaration | .optionDeclaration | .importsDeclaration |
    .attributeDeclaration | .namespaceDeclaration | .classDeclaration | .moduleDeclaration |
    .structureDeclaration | .interfaceDeclaration | .enumDeclaration | .enumValueDeclaration |
    .delegateSubDeclaration | .delegateFunctionDeclaration | .eventDeclaration |
    .subDeclaration | .functionDeclaration | .constructorDeclaration | .operatorDeclaration |
    .externalSubDeclaration | .externalFunctionDeclaration | .propertyDeclaration |
    .getAccessorDeclaration | .setAccessorDeclaration | .variableListDeclaration |
    .inheritsDeclaration | .implementsDeclaration => .declaration
  | .parameter => .parameter
  | .nameImport | .aliasImport => .importClause
  | .typeParameter => .typeParameter
  | .file => .file

/-- Whether a kind belongs to a family. -/
def Family.contains (family : Family) (kind : Kind) : Bool := kind.family == family

/-- The first kind of a family in declaration order. -/
def Family.first : Family → Kind
  | .syntaxError => .syntaxError
  | .collection => .argumentCollection
  | .comment => .comment
  | .name => .simpleName
  | .type => .intrinsicType
  | .initializer => .expressionInitializer
  | .argument => .argument
  | .expression => .simpleNameExpression
  | .statement => .emptyStatement
  | .modifier => .modifier
  | .declarator => .variableDeclarator
  | .caseClause => .comparisonCaseClause
  | .attributeUse => .attributeUse
  | .declaration => .emptyDeclaration
  | .parameter => .parameter
  | .importClause => .nameImport
  | .typeParameter => .typeParameter
  | .file => .file

/-- The last kind of a family in declaration order. -/
def Family.last : Family → Kind
  | .syntaxError => .syntaxError
  | .collection => .variableNameCollection
  | .comment => .comment
  | .name => .variableName
  | .type => .constructedType
  | .initializer => .aggregateInitializer
  | .argument => .argument
  | .expression => .binaryOperatorExpression
  | .statement => .caseElseBlockStatement
  | .modifier => .modifier
  | .declarator => .variableDeclarator
  | .caseClause => .rangeCaseClause
  | .attributeUse => .attributeUse
  | .declaration => .implementsDeclaration
  | .parameter => .parameter
  | .importClause => .aliasImport
  | .typeParameter => .typeParameter
  | .file => .file

namespace Kind

def text (kind : Kind) : String := Named.name kind

/-- Marks text that could not be parsed. -/
def isBad (kind : Kind) : Bool := kind == .syntaxError

/-- Only statements and declarations carry comments. -/
def isCommentable (kind : Kind) : Bool :=
  match kind.family with
  | .statement | .declaration => true
  | _ => false

end Kind

/-! ## Expectations -/

/-- What a child position accepts: any kind of a family, or one kind. -/
inductive Expect where
  | family (family : Family)
  | kind (kind : Kind)
deriving DecidableEq

namespace Expect

/-- Unparsed text stands in for any child. -/
def admits (expect : Expect) (k : Kind) : Bool :=
  k.isBad || match expect with
    | .family f => f.contains k
    | .kind expected => expected == k

def text : Expect → String
  | .family f => "a " ++ Named.name f
  | .kind k => k.text

end Expect

/-- What the elements of a collection have to be. Kinds that are no collections have no element
rule of their own and accept unparsed text only. -/
def Kind.element : Kind → Expect
  | .argumentCollection => .family .argument
  | .attributeBlockCollection => .kind .attributeCollection
  | .attributeCollection => .family .attributeUse
  | .caseClauseCollection => .family .caseClause
  | .declarationCollection => .family .declaration
  | .expressionCollection => .family .expression
  | .importCollection => .family .importClause
  | .initializerCollection => .family .initializer
  | .modifierCollection => .family .modifier
  | .nameCollection => .family .name
  | .parameterCollection => .family .parameter
  | .statementCollection => .family .statement
  | .typeConstraintCollection | .typeNameCollection => .family .type
  | .typeParameterCollection => .family .typeParameter
  | .variableDeclaratorCollection => .family .declarator
  | .variableNameCollection => .kind .variableName
  | _ => .family .syntaxError

end StructuredBasic.Syntax
