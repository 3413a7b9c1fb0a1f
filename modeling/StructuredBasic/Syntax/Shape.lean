import StructuredBasic.Syntax.Payload

/-!
# The shape of a payload

Three readings of a payload drive the construction of nodes: the kinds it describes, the children
it holds in order, and the enumerated values it must not hold. The second one also gives the
children of a finished node.
-/

set_option autoImplicit false

namespace StructuredBasic.Syntax

/-! ## Which kinds a payload describes -/

def Name.describes : Name → Kind → Bool
  | .simple .., .simpleName => true
  | .special _, .specialName => true
  | .qualified .., .qualifiedName => true
  | .declared .., .variableName => true
  | _, _ => false

def TypeName.describes : TypeName → Kind → Bool
  | .intrinsic _, .intrinsicType => true
  | .named _, .namedType => true
  | .array .., .arrayType => true
  | .constructed .., .constructedType => true
  | _, _ => false

def Initializer.describes : Initializer → Kind → Bool
  | .expression _, .expressionInitializer => true
  | .aggregate _, .aggregateInitializer => true
  | _, _ => false

def CaseClause.describes : CaseClause → Kind → Bool
  | .comparison .., .comparisonCaseClause => true
  | .range .., .rangeCaseClause => true
  | _, _ => false

def ImportClause.describes : ImportClause → Kind → Bool
  | .name _, .nameImport => true
  | .renamed .., .aliasImport => true
  | _, _ => false

def Expr.describes : Expr → Kind → Bool
  | .simpleName _, .simpleNameExpression => true
  | .typeReference _, .typeReferenceExpression => true
  | .qualified .., .qualifiedExpression => true
  | .dictionaryLookup .., .dictionaryLookupExpression => true
  | .genericQualified .., .genericQualifiedExpression => true
  | .callOrIndex .., .callOrIndexExpression => true
  | .construct .., .newExpression => true
  | .constructArray .., .newAggregateExpression => true
  | .cast .., .cTypeExpression => true
  | .cast .., .directCastExpression => true
  | .cast .., .tryCastExpression => true
  | .intrinsicCast .., .intrinsicCastExpression => true
  | .typeTest .., .typeOfExpression => true
  | .getType _, .getTypeExpression => true
  | .addressOf _, .addressOfExpression => true
  | .literal value, kind => kind == value.kind
  | .self, .meExpression => true
  | .self, .myBaseExpression => true
  | .self, .myClassExpression => true
  | .nothing, .nothingExpression => true
  | .parenthetical _, .parentheticalExpression => true
  | .unary .., .unaryOperatorExpression => true
  | .binary .., .binaryOperatorExpression => true
  | _, _ => false

def Stmt.describes : Stmt → Kind → Bool
  | .empty, .emptyStatement => true
  | .empty, .endStatement => true
  | .empty, .stopStatement => true
  | .labelReference .., .gotoStatement => true
  | .labelReference .., .goSubStatement => true
  | .labelReference .., .labelStatement => true
  | .resume .., .resumeStatement => true
  | .exit _, .exitStatement => true
  | .next _, .continueStatement => true
  | .returnValue _, .returnStatement => true
  | .raise _, .errorStatement => true
  | .onError .., .onErrorStatement => true
  | .raiseEvent .., .raiseEventStatement => true
  | .handler .., .addHandlerStatement => true
  | .handler .., .removeHandlerStatement => true
  | .reDim .., .reDimStatement => true
  | .erase _, .eraseStatement => true
  | .call .., .callStatement => true
  | .assignment .., .assignmentStatement => true
  | .compoundAssignment .., .compoundAssignmentStatement => true
  | .midAssignment .., .midAssignmentStatement => true
  | .localDeclaration .., .localDeclarationStatement => true
  | .endBlock _, .endBlockStatement => true
  | .loopEnd _, .loopStatement => true
  | .nextEnd _, .nextStatement => true
  | .doBlock .., .doBlockStatement => true
  | .whileBlock .., .whileBlockStatement => true
  | .forBlock .., .forBlockStatement => true
  | .forEachBlock .., .forEachBlockStatement => true
  | .guarded .., .withBlockStatement => true
  | .guarded .., .syncLockBlockStatement => true
  | .usingBlock .., .usingBlockStatement => true
  | .tryBlock .., .tryBlockStatement => true
  | .catchBlock .., .catchBlockStatement => true
  | .body _, .finallyBlockStatement => true
  | .body _, .elseBlockStatement => true
  | .body _, .caseElseBlockStatement => true
  | .ifBlock .., .ifBlockStatement => true
  | .elseIfBlock .., .elseIfBlockStatement => true
  | .lineIf .., .lineIfStatement => true
  | .selectBlock .., .selectBlockStatement => true
  | .caseBlock .., .caseBlockStatement => true
  | _, _ => false

def Decl.describes : Decl → Kind → Bool
  | .empty, .emptyDeclaration => true
  | .endBlock _, .endBlockDeclaration => true
  | .directive _, .optionDeclaration => true
  | .imports _, .importsDeclaration => true
  | .attributes _, .attributeDeclaration => true
  | .namespaceBlock .., .namespaceDeclaration => true
  | .typeBlock .., .classDeclaration => true
  | .typeBlock .., .moduleDeclaration => true
  | .typeBlock .., .structureDeclaration => true
  | .typeBlock .., .interfaceDeclaration => true
  | .enumBlock .., .enumDeclaration => true
  | .enumValue .., .enumValueDeclaration => true
  | .delegate .., .delegateSubDeclaration => true
  | .delegate .., .delegateFunctionDeclaration => true
  | .event .., .eventDeclaration => true
  | .method .., .subDeclaration => true
  | .method .., .functionDeclaration => true
  | .method .., .constructorDeclaration => true
  | .method .., .operatorDeclaration => true
  | .external .., .externalSubDeclaration => true
  | .external .., .externalFunctionDeclaration => true
  | .property .., .propertyDeclaration => true
  | .accessor .., .getAccessorDeclaration => true
  | .accessor .., .setAccessorDeclaration => true
  | .variableList .., .variableListDeclaration => true
  | .typeList _, .inheritsDeclaration => true
  | .typeList _, .implementsDeclaration => true
  | _, _ => false

/-- Families with a single payload shape accept each of their kinds. -/
def Payload.describes (payload : Payload) (kind : Kind) : Bool :=
  match payload with
  | .name value => value.describes kind
  | .type value => value.describes kind
  | .initializer value => value.describes kind
  | .expr value => value.describes kind
  | .stmt value => value.describes kind
  | .caseClause value => value.describes kind
  | .decl value => value.describes kind
  | .importClause value => value.describes kind
  | other => other.family.contains kind

/-! ## Children -/

/-- One child position: the field it belongs to, the node there, and what the field expects. -/
structure Slot where
  field : String
  id : Nat
  expect : Expect

namespace Slot

/-- A child that is always there. -/
def one (field : String) (id : Nat) (expect : Expect) : List Slot := [⟨field, id, expect⟩]

/-- A child that may be left out. -/
def opt (field : String) (id : Option Nat) (expect : Expect) : List Slot :=
  match id with
  | some child => [⟨field, child, expect⟩]
  | none => []

/-- An expression, the most common child. -/
def expr (id : Nat) (field : String) : List Slot := one field id (.family .expression)

/-- The statements of a block. -/
def statements (id : Option Nat) (field : String) : List Slot :=
  opt field id (.kind .statementCollection)

def arguments (id : Option Nat) : List Slot :=
  opt "arguments" id (.kind .argumentCollection)

end Slot

def Name.slots : Name → List Slot
  | .simple .. => []
  | .special _ => []
  | .qualified qualifier _ name =>
    Slot.one "qualifier" qualifier (.family .name) ++ Slot.one "name" name (.kind .simpleName)
  | .declared name arrayType =>
    Slot.one "name" name (.kind .simpleName) ++ Slot.opt "array_type" arrayType (.kind .arrayType)

def TypeName.slots : TypeName → List Slot
  | .intrinsic _ => []
  | .named name => Slot.one "name" name (.family .name)
  | .array element _ bounds =>
    Slot.opt "element" element (.family .type) ++
    Slot.opt "bounds" bounds (.kind .argumentCollection)
  | .constructed name arguments =>
    Slot.one "name" name (.family .name) ++
    Slot.one "type_arguments" arguments (.kind .typeNameCollection)

def Initializer.slots : Initializer → List Slot
  | .expression value => Slot.expr value "expression"
  | .aggregate elements => Slot.opt "elements" elements (.kind .initializerCollection)

def Argument.slots (a : Argument) : List Slot :=
  Slot.opt "name" a.name (.kind .simpleName) ++ Slot.expr a.expression "expression"

def Declarator.slots (d : Declarator) : List Slot :=
  Slot.one "names" d.names (.kind .variableNameCollection) ++
  Slot.opt "ty" d.type (.family .type) ++
  Slot.arguments d.arguments ++
  Slot.opt "initializer" d.initializer (.family .initializer)

def CaseClause.slots : CaseClause → List Slot
  | .comparison _ operand => Slot.expr operand "operand"
  | .range lower upper => Slot.expr lower "lower" ++ Slot.expr upper "upper"

def AttributeUse.slots (a : AttributeUse) : List Slot :=
  Slot.one "name" a.name (.family .name) ++ Slot.arguments a.arguments

def Header.slots (h : Header) : List Slot :=
  Slot.opt "attributes" h.attributes (.kind .attributeBlockCollection) ++
  Slot.opt "modifiers" h.modifiers (.kind .modifierCollection)

def Parameter.slots (p : Parameter) : List Slot :=
  Header.slots ⟨p.attributes, p.modifiers⟩ ++
  Slot.one "name" p.name (.kind .variableName) ++
  Slot.opt "ty" p.type (.family .type) ++
  Slot.opt "initializer" p.initializer (.family .initializer)

def ImportClause.slots : ImportClause → List Slot
  | .name target => Slot.one "target" target (.family .name)
  | .renamed short target =>
    Slot.one "alias" short (.kind .simpleName) ++ Slot.one "target" target (.family .name)

def TypeParameter.slots (p : TypeParameter) : List Slot :=
  Slot.one "name" p.name (.kind .simpleName) ++
  Slot.opt "constraints" p.constraints (.kind .typeConstraintCollection)

def File.slots (f : File) : List Slot :=
  Slot.opt "declarations" f.declarations (.kind .declarationCollection)

def Expr.slots : Expr → List Slot
  | .simpleName name => Slot.one "name" name (.kind .simpleName)
  | .typeReference type => Slot.one "ty" type (.family .type)
  | .getType type => Slot.one "ty" type (.family .type)
  | .qualified qualifier _ name =>
    Slot.opt "qualifier" qualifier (.family .expression) ++
    Slot.one "name" name (.kind .simpleName)
  | .dictionaryLookup qualifier _ name =>
    Slot.opt "qualifier" qualifier (.family .expression) ++
    Slot.one "name" name (.kind .simpleName)
  | .genericQualified base arguments =>
    Slot.expr base "base" ++ Slot.one "type_arguments" arguments (.kind .typeNameCollection)
  | .callOrIndex target arguments _ => Slot.expr target "target" ++ Slot.arguments arguments
  | .construct type arguments =>
    Slot.one "ty" type (.family .type) ++ Slot.arguments arguments
  | .constructArray type initializer =>
    Slot.one "ty" type (.kind .arrayType) ++
    Slot.one "initializer" initializer (.kind .aggregateInitializer)
  | .cast operand type => Slot.expr operand "operand" ++ Slot.one "ty" type (.family .type)
  | .typeTest operand type => Slot.expr operand "operand" ++ Slot.one "ty" type (.family .type)
  | .intrinsicCast _ operand => Slot.expr operand "operand"
  | .addressOf operand => Slot.expr operand "operand"
  | .parenthetical operand => Slot.expr operand "operand"
  | .unary _ operand => Slot.expr operand "operand"
  | .literal _ => []
  | .self => []
  | .nothing => []
  | .binary _ _ left right => Slot.expr left "left" ++ Slot.expr right "right"

def LoopCondition.slots : Option LoopCondition → List Slot
  | some condition => Slot.expr condition.expression "condition"
  | none => []

def Stmt.slots : Stmt → List Slot
  | .empty => []
  | .labelReference .. => []
  | .resume .. => []
  | .exit _ => []
  | .next _ => []
  | .onError .. => []
  | .endBlock _ => []
  | .returnValue expression => Slot.opt "expression" expression (.family .expression)
  | .raise expression => Slot.expr expression "expression"
  | .raiseEvent name arguments =>
    Slot.one "name" name (.kind .simpleName) ++ Slot.arguments arguments
  | .handler source action => Slot.expr source "event" ++ Slot.expr action "handler"
  | .reDim _ arrays => Slot.one "variables" arrays (.kind .expressionCollection)
  | .erase arrays => Slot.one "variables" arrays (.kind .expressionCollection)
  | .call target arguments => Slot.expr target "target" ++ Slot.arguments arguments
  | .assignment target source => Slot.expr target "target" ++ Slot.expr source "source"
  | .compoundAssignment _ target source => Slot.expr target "target" ++ Slot.expr source "source"
  | .midAssignment target start length source =>
    Slot.expr target "target" ++ Slot.expr start "start" ++
    Slot.opt "length" length (.family .expression) ++ Slot.expr source "source"
  | .localDeclaration modifiers declarators =>
    Slot.one "modifiers" modifiers (.kind .modifierCollection) ++
    Slot.one "declarators" declarators (.kind .variableDeclaratorCollection)
  | .loopEnd condition => LoopCondition.slots condition
  | .nextEnd controls => Slot.opt "variables" controls (.kind .expressionCollection)
  | .doBlock condition statements tail =>
    LoopCondition.slots condition ++ Slot.statements statements "statements" ++
    Slot.opt "end" tail (.kind .loopStatement)
  | .whileBlock condition statements tail =>
    Slot.expr condition "condition" ++ Slot.statements statements "statements" ++
    Slot.opt "end" tail (.kind .endBlockStatement)
  | .forBlock control declarator lower upper step statements tail =>
    Slot.expr control "control" ++
    Slot.opt "declarator" declarator (.kind .variableDeclarator) ++
    Slot.expr lower "lower" ++ Slot.expr upper "upper" ++
    Slot.opt "step" step (.family .expression) ++ Slot.statements statements "statements" ++
    Slot.opt "next" tail (.kind .nextStatement)
  | .forEachBlock control declarator collection statements tail =>
    Slot.expr control "control" ++
    Slot.opt "declarator" declarator (.kind .variableDeclarator) ++
    Slot.expr collection "collection" ++ Slot.statements statements "statements" ++
    Slot.opt "next" tail (.kind .nextStatement)
  | .guarded expression statements tail =>
    Slot.expr expression "expression" ++ Slot.statements statements "statements" ++
    Slot.opt "end" tail (.kind .endBlockStatement)
  | .usingBlock expression declarators statements tail =>
    Slot.opt "expression" expression (.family .expression) ++
    Slot.opt "declarators" declarators (.kind .variableDeclaratorCollection) ++
    Slot.statements statements "statements" ++ Slot.opt "end" tail (.kind .endBlockStatement)
  | .tryBlock statements catches finallyBlock tail =>
    Slot.statements statements "statements" ++ Slot.statements catches "catches" ++
    Slot.opt "finally" finallyBlock (.kind .finallyBlockStatement) ++
    Slot.opt "end" tail (.kind .endBlockStatement)
  | .catchBlock name type filter statements =>
    Slot.opt "name" name (.kind .simpleName) ++ Slot.opt "ty" type (.family .type) ++
    Slot.opt "filter" filter (.family .expression) ++ Slot.statements statements "statements"
  | .body statements => Slot.statements statements "statements"
  | .ifBlock condition statements elseIfs elseBlock tail =>
    Slot.expr condition "condition" ++ Slot.statements statements "statements" ++
    Slot.statements elseIfs "else_ifs" ++
    Slot.opt "else_block" elseBlock (.kind .elseBlockStatement) ++
    Slot.opt "end" tail (.kind .endBlockStatement)
  | .elseIfBlock condition statements =>
    Slot.expr condition "condition" ++ Slot.statements statements "statements"
  | .lineIf condition statements elseStatements =>
    Slot.expr condition "condition" ++ Slot.statements statements "statements" ++
    Slot.statements elseStatements "else_statements"
  | .selectBlock expression cases caseElse tail =>
    Slot.expr expression "expression" ++ Slot.statements cases "cases" ++
    Slot.opt "case_else" caseElse (.kind .caseElseBlockStatement) ++
    Slot.opt "end" tail (.kind .endBlockStatement)
  | .caseBlock clauses statements =>
    Slot.one "clauses" clauses (.kind .caseClauseCollection) ++
    Slot.statements statements "statements"

def Signature.slots (s : Signature) : List Slot :=
  Slot.one "name" s.name (.kind .simpleName) ++
  Slot.opt "type_parameters" s.typeParameters (.kind .typeParameterCollection) ++
  Slot.opt "parameters" s.parameters (.kind .parameterCollection) ++
  Slot.opt "result_type" s.resultType (.family .type)

/-- The members of a block of declarations. -/
def Slot.members (id : Option Nat) (field : String) : List Slot :=
  opt field id (.kind .declarationCollection)

/-- The line that closes a declaration. -/
def Slot.closing (id : Option Nat) : List Slot := opt "end" id (.kind .endBlockDeclaration)

def Slot.implemented (id : Option Nat) : List Slot :=
  opt "implements" id (.kind .nameCollection)

def Decl.slots : Decl → List Slot
  | .empty => []
  | .endBlock _ => []
  | .directive _ => []
  | .imports clauses => Slot.one "imports" clauses (.kind .importCollection)
  | .attributes blocks =>
    Slot.one "attributes" blocks (.kind .attributeBlockCollection)
  | .namespaceBlock name declarations tail =>
    Slot.one "name" name (.family .name) ++ Slot.members declarations "declarations" ++
    Slot.closing tail
  | .typeBlock header name typeParameters declarations tail =>
    header.slots ++ Slot.one "name" name (.kind .simpleName) ++
    Slot.opt "type_parameters" typeParameters (.kind .typeParameterCollection) ++
    Slot.members declarations "declarations" ++ Slot.closing tail
  | .enumBlock header name underlying members tail =>
    header.slots ++ Slot.one "name" name (.kind .simpleName) ++
    Slot.opt "underlying" underlying (.family .type) ++ Slot.members members "members" ++
    Slot.closing tail
  | .enumValue header name value =>
    header.slots ++ Slot.one "name" name (.kind .simpleName) ++
    Slot.opt "value" value (.family .expression)
  | .delegate header signature => header.slots ++ signature.slots
  | .external header signature _ _ _ => header.slots ++ signature.slots
  | .event header signature implements =>
    header.slots ++ signature.slots ++ Slot.implemented implements
  | .method header signature _ implements statements tail =>
    header.slots ++ signature.slots ++ Slot.implemented implements ++
    Slot.statements statements "statements" ++ Slot.closing tail
  | .property header signature implements accessors tail =>
    header.slots ++ signature.slots ++ Slot.implemented implements ++
    Slot.members accessors "accessors" ++ Slot.closing tail
  | .accessor header parameters statements tail =>
    header.slots ++ Slot.opt "parameters" parameters (.kind .parameterCollection) ++
    Slot.statements statements "statements" ++ Slot.closing tail
  | .variableList header declarators =>
    header.slots ++ Slot.one "declarators" declarators (.kind .variableDeclaratorCollection)
  | .typeList types => Slot.one "types" types (.kind .typeNameCollection)

/-- The child positions of a payload in order. Only the expectation on the elements of a
collection depends on the kind. -/
def Payload.slots (payload : Payload) (kind : Kind) : List Slot :=
  match payload with
  | .syntaxError => []
  | .collection value => value.present.map fun id => ⟨"element", id, kind.element⟩
  | .comment _ => []
  | .name value => value.slots
  | .type value => value.slots
  | .initializer value => value.slots
  | .argument value => value.slots
  | .expr value => value.slots
  | .stmt value => value.slots
  | .modifier _ => []
  | .declarator value => value.slots
  | .caseClause value => value.slots
  | .attributeUse value => value.slots
  | .decl value => value.slots
  | .parameter value => value.slots
  | .importClause value => value.slots
  | .typeParameter value => value.slots
  | .file value => value.slots

/-- Nodes that a payload mentions without adopting them. -/
def Payload.references : Payload → List Slot
  | .expr (.callOrIndex _ _ (some known)) =>
    Slot.one "declarator" known (.kind .variableDeclarator)
  | _ => []

/-! ## Enumerated values -/

/-- A field whose value lies outside what its node may hold. -/
structure Misfit where
  field : String
  value : String

def TypeName.misfit? : TypeName → Option Misfit
  | .array _ rank _ => if rank = 0 then some ⟨"rank", "0"⟩ else none
  | _ => none

def CaseClause.misfit? : CaseClause → Option Misfit
  | .comparison (some op) _ => if op.isRelational then none else some ⟨"op", Named.name op⟩
  | _ => none

def Literal.misfit? : Literal → Option Misfit
  | .integer _ _ (some .string) => some ⟨"type_character", TypeSuffix.string.text⟩
  | .float _ (some suffix) =>
    match suffix with
    | .single | .double => none
    | other => some ⟨"type_character", other.text⟩
  | _ => none

def Expr.misfit? : Expr → Option Misfit
  | .unary op _ => if op.isUnary then none else some ⟨"op", Named.name op⟩
  | .binary op _ _ _ => if op.isBinary then none else some ⟨"op", Named.name op⟩
  | .literal value => value.misfit?
  | _ => none

/-- `Resume` and `On Error` name a label exactly in their label form. -/
def Stmt.misfit? : Stmt → Option Misfit
  | .exit block => if block.isExitable then none else some ⟨"block", Named.name block⟩
  | .next block => if block.isLoop then none else some ⟨"block", Named.name block⟩
  | .endBlock block => if block.closesStatement then none else some ⟨"block", Named.name block⟩
  | .compoundAssignment op _ _ => if op.isCompound then none else some ⟨"op", Named.name op⟩
  | .resume form label =>
    if (form == .label) = label.isSome then none else some ⟨"kind", Named.name form⟩
  | .onError form label =>
    if (form == .label) = label.isSome then none else some ⟨"kind", Named.name form⟩
  | _ => none

/-- An operator declaration names its operator, and no other routine does. -/
def Decl.misfit? (decl : Decl) (kind : Kind) : Option Misfit :=
  match decl with
  | .endBlock block => if block.closesDeclaration then none else some ⟨"block", Named.name block⟩
  | .directive (.base lower) => if lower ≤ 1 then none else some ⟨"base", toString lower⟩
  | .method _ _ operator _ _ _ =>
    match kind == .operatorDeclaration, operator with
    | true, none => some ⟨"operator", "none"⟩
    | false, some op => some ⟨"operator", Named.name op⟩
    | _, _ => none
  | _ => none

def Payload.misfit? (payload : Payload) (kind : Kind) : Option Misfit :=
  match payload with
  | .type value => value.misfit?
  | .expr value => value.misfit?
  | .stmt value => value.misfit?
  | .caseClause value => value.misfit?
  | .decl value => value.misfit? kind
  | _ => none

/-- A collection without an element position and without a separator. -/
def Payload.isVoid : Payload → Bool
  | .collection value => value.elements.isEmpty && value.separators.isEmpty
  | _ => false

end StructuredBasic.Syntax
