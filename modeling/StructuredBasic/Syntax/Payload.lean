import StructuredBasic.Position
import StructuredBasic.Syntax.Kind
import StructuredBasic.Syntax.Vocabulary

/-!
# Node payloads

What a node holds besides its kind and its place, one type for each family. Nodes are numbered in
order of construction, and a payload names its children by number; a child of type `Option Nat` may
be left out.
-/

set_option autoImplicit false

namespace StructuredBasic.Syntax

/-! ## Lists, comments, names and types -/

/-- Elements in source order with the places of their separators. A missing element is a hole,
such as an omitted argument. -/
structure Collection where
  elements : List (Option Nat)
  separators : List Location
  closing : Option Location

/-- The elements that are there, holes skipped. -/
def Collection.present (c : Collection) : List Nat := c.elements.filterMap id

structure Comment where
  text : String
  isRem : Bool

inductive Name where
  | simple (text : String) (suffix : Option TypeSuffix) (escaped : Bool)
  | special (which : SpecialName)
  | qualified (qualifier : Nat) (dot : Location) (name : Nat)
  /-- A declared variable name, with its array bounds as in `a(10)`. -/
  | declared (name : Nat) (arrayType : Option Nat)

inductive TypeName where
  | intrinsic (type : Intrinsic)
  | named (name : Nat)
  /-- The element type is missing where the bounds stand on a variable name. -/
  | array (element : Option Nat) (rank : Nat) (bounds : Option Nat)
  | constructed (name : Nat) (arguments : Nat)

/-! ## Smaller parts -/

inductive Initializer where
  | expression (expression : Nat)
  | aggregate (elements : Option Nat)

structure Argument where
  name : Option Nat
  expression : Nat

/-- `names As [New] type(arguments) = initializer`. -/
structure Declarator where
  names : Nat
  type : Option Nat
  isNew : Bool
  arguments : Option Nat
  initializer : Option Nat

inductive CaseClause where
  /-- No operator means equality. -/
  | comparison (op : Option Operator) (operand : Nat)
  | range (lower upper : Nat)

structure AttributeUse where
  target : Option AttributeTarget
  name : Nat
  arguments : Option Nat

structure Parameter where
  attributes : Option Nat
  modifiers : Option Nat
  name : Nat
  type : Option Nat
  initializer : Option Nat

inductive ImportClause where
  | name (target : Nat)
  | renamed (short target : Nat)

structure TypeParameter where
  name : Nat
  constraints : Option Nat

structure File where
  declarations : Option Nat

/-! ## Expressions -/

inductive Literal where
  | string (text : String)
  | character (value : Char)
  | date (text : String)
  | integer (value : Int64) (radix : Radix) (suffix : Option TypeSuffix)
  | float (value : Float) (suffix : Option TypeSuffix)
  | decimal (text : String)
  | boolean (value : Bool)

/-- The kind of the node that holds a literal. -/
def Literal.kind : Literal → Kind
  | .string _ => .stringLiteralExpression
  | .character _ => .characterLiteralExpression
  | .date _ => .dateLiteralExpression
  | .integer .. => .integerLiteralExpression
  | .float .. => .floatingPointLiteralExpression
  | .decimal _ => .decimalLiteralExpression
  | .boolean _ => .booleanLiteralExpression

inductive Expr where
  | simpleName (name : Nat)
  | typeReference (type : Nat)
  /-- `a.b`, or `.b` under a `With`. -/
  | qualified (qualifier : Option Nat) (dot : Location) (name : Nat)
  /-- `a!b`, or `!b` under a `With`. -/
  | dictionaryLookup (qualifier : Option Nat) (bang : Location) (name : Nat)
  | genericQualified (base arguments : Nat)
  /-- A call or an array element. The declarator is a reference, not a child. -/
  | callOrIndex (target : Nat) (arguments declarator : Option Nat)
  | construct (type : Nat) (arguments : Option Nat)
  | constructArray (type initializer : Nat)
  | cast (operand type : Nat)
  | intrinsicCast (target : Intrinsic) (operand : Nat)
  | typeTest (operand type : Nat)
  | getType (type : Nat)
  | addressOf (operand : Nat)
  | literal (value : Literal)
  /-- `Me`, `MyBase` and `MyClass`. -/
  | self
  | nothing
  | parenthetical (operand : Nat)
  | unary (op : Operator) (operand : Nat)
  | binary (op : Operator) (place : Location) (left right : Nat)

/-! ## Statements -/

/-- `While e` when `isWhile`, `Until e` otherwise. -/
structure LoopCondition where
  isWhile : Bool
  expression : Nat

inductive Stmt where
  /-- A blank line, `End` and `Stop`. -/
  | empty
  /-- `GoTo`, `GoSub` and the definition of a label. -/
  | labelReference (name : String) (isLineNumber : Bool)
  | resume (form : ResumeForm) (label : Option String)
  | exit (block : Block)
  | next (block : Block)
  | returnValue (expression : Option Nat)
  | raise (expression : Nat)
  | onError (form : OnErrorForm) (label : Option String)
  | raiseEvent (name : Nat) (arguments : Option Nat)
  | handler (event handler : Nat)
  | reDim (preserve : Bool) (arrays : Nat)
  | erase (arrays : Nat)
  | call (target : Nat) (arguments : Option Nat)
  | assignment (target source : Nat)
  | compoundAssignment (op : Operator) (target source : Nat)
  | midAssignment (target start : Nat) (length : Option Nat) (source : Nat)
  | localDeclaration (modifiers declarators : Nat)
  | endBlock (block : Block)
  | loopEnd (condition : Option LoopCondition)
  | nextEnd (controls : Option Nat)
  | doBlock (condition : Option LoopCondition) (statements tail : Option Nat)
  | whileBlock (condition : Nat) (statements tail : Option Nat)
  | forBlock (control : Nat) (declarator : Option Nat) (lower upper : Nat)
      (step statements tail : Option Nat)
  | forEachBlock (control : Nat) (declarator : Option Nat) (collection : Nat)
      (statements tail : Option Nat)
  /-- `With` and `SyncLock`. -/
  | guarded (expression : Nat) (statements tail : Option Nat)
  | usingBlock (expression declarators statements tail : Option Nat)
  | tryBlock (statements catches finallyBlock tail : Option Nat)
  | catchBlock (name type filter statements : Option Nat)
  /-- `Finally`, `Else` and `Case Else`. -/
  | body (statements : Option Nat)
  | ifBlock (condition : Nat) (statements elseIfs elseBlock tail : Option Nat)
  | elseIfBlock (condition : Nat) (statements : Option Nat)
  | lineIf (condition : Nat) (statements elseStatements : Option Nat)
  | selectBlock (expression : Nat) (cases caseElse tail : Option Nat)
  | caseBlock (clauses : Nat) (statements : Option Nat)

/-! ## Declarations -/

/-- Attributes and modifiers in front of a declaration. -/
structure Header where
  attributes : Option Nat
  modifiers : Option Nat

structure Signature where
  name : Nat
  typeParameters : Option Nat
  parameters : Option Nat
  resultType : Option Nat

/-- The signature of a routine that has only a name. -/
def Signature.ofName (name : Nat) : Signature := ⟨name, none, none, none⟩

inductive Decl where
  | empty
  | endBlock (block : Block)
  | directive (directive : Directive)
  | imports (imports : Nat)
  | attributes (attributes : Nat)
  | namespaceBlock (name : Nat) (declarations tail : Option Nat)
  | typeBlock (header : Header) (name : Nat) (typeParameters declarations tail : Option Nat)
  | enumBlock (header : Header) (name : Nat) (underlying members tail : Option Nat)
  | enumValue (header : Header) (name : Nat) (value : Option Nat)
  | delegate (header : Header) (signature : Signature)
  | event (header : Header) (signature : Signature) (implements : Option Nat)
  | method (header : Header) (signature : Signature) (operator : Option Operator)
      (implements statements tail : Option Nat)
  | external (header : Header) (signature : Signature) (charset : Charset) (library : String)
      (entryName : Option String)
  | property (header : Header) (signature : Signature) (implements accessors tail : Option Nat)
  | accessor (header : Header) (parameters statements tail : Option Nat)
  | variableList (header : Header) (declarators : Nat)
  | typeList (types : Nat)

/-! ## The payload of a node -/

inductive Payload where
  | syntaxError
  | collection (value : Collection)
  | comment (value : Comment)
  | name (value : Name)
  | type (value : TypeName)
  | initializer (value : Initializer)
  | argument (value : Argument)
  | expr (value : Expr)
  | stmt (value : Stmt)
  | modifier (value : Modifier)
  | declarator (value : Declarator)
  | caseClause (value : CaseClause)
  | attributeUse (value : AttributeUse)
  | decl (value : Decl)
  | parameter (value : Parameter)
  | importClause (value : ImportClause)
  | typeParameter (value : TypeParameter)
  | file (value : File)

def Payload.family : Payload → Family
  | .syntaxError => .syntaxError
  | .collection _ => .collection
  | .comment _ => .comment
  | .name _ => .name
  | .type _ => .type
  | .initializer _ => .initializer
  | .argument _ => .argument
  | .expr _ => .expression
  | .stmt _ => .statement
  | .modifier _ => .modifier
  | .declarator _ => .declarator
  | .caseClause _ => .caseClause
  | .attributeUse _ => .attributeUse
  | .decl _ => .declaration
  | .parameter _ => .parameter
  | .importClause _ => .importClause
  | .typeParameter _ => .typeParameter
  | .file _ => .file

end StructuredBasic.Syntax
