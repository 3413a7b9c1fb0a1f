import StructuredBasic.Sketch.Basic

/-!
# Sketches of statements
-/

set_option autoImplicit false

namespace StructuredBasic.Sketch

open Syntax

/-! ## Variables -/

/-- `names As type = value`. -/
def declarator (names : List Nat) (type value : Option Nat) : Sketch Nat := do
  let names ← list .variableNameCollection names
  let initializer ← value.mapM fun expression =>
    node .expressionInitializer (.initializer (.expression expression))
  node .variableDeclarator (.declarator ⟨names, type, false, none, initializer⟩)

def modifiers (values : List Modifier) : Sketch Nat := do
  list .modifierCollection (← values.mapM fun value => node .modifier (.modifier value))

/-- A local declaration. -/
def locals (modifier : Modifier) (declarators : List Nat) : Sketch Nat := do
  let modifiers ← modifiers [modifier]
  let declarators ← list .variableDeclaratorCollection declarators
  node .localDeclarationStatement (.stmt (.localDeclaration modifiers declarators))

/-- `Dim` of one variable name. -/
def dimOf (declared : Nat) (type : Intrinsic) : Sketch Nat := do
  let type ← intrinsic type
  let declarator ← declarator [declared] (some type) none
  locals .dim [declarator]

/-- `Dim text As type`. -/
def dim (text : String) (type : Intrinsic) : Sketch Nat := do
  dimOf (← variableName text) type

/-- `Dim text(bounds) As type`. -/
def dimArray (text : String) (bounds : List Nat) (type : Intrinsic) : Sketch Nat := do
  dimOf (← arrayName text bounds) type

/-! ## Plain statements -/

/-- A list of statements, or nothing for none. -/
def body (statements : List Nat) : Sketch (Option Nat) :=
  optionalList .statementCollection statements

def assign (target source : Nat) : Sketch Nat :=
  node .assignmentStatement (.stmt (.assignment target source))

/-- `text = source`. -/
def assignName (text : String) (source : Nat) : Sketch Nat := do
  assign (← name text) source

def compound (op : Operator) (target source : Nat) : Sketch Nat :=
  node .compoundAssignmentStatement (.stmt (.compoundAssignment op target source))

def callStatement (target : Nat) (args : List Nat) : Sketch Nat := do
  let args ← arguments args
  node .callStatement (.stmt (.call target args))

/-- A statement that names a label; a name of digits only is a line number. -/
def labelReference (kind : Kind) (text : String) : Sketch Nat :=
  node kind (.stmt (.labelReference text (text.toList.all Char.isDigit)))

def label (text : String) : Sketch Nat := labelReference .labelStatement text

def goto (text : String) : Sketch Nat := labelReference .gotoStatement text

def goSub (text : String) : Sketch Nat := labelReference .goSubStatement text

def returnStatement (expression : Option Nat) : Sketch Nat :=
  node .returnStatement (.stmt (.returnValue expression))

def exit (block : Block) : Sketch Nat :=
  node .exitStatement (.stmt (.exit block))

def endBlock (block : Block) : Sketch Nat :=
  node .endBlockStatement (.stmt (.endBlock block))

/-- `ReDim [Preserve]` of calls that name arrays and bounds. -/
def reDim (preserve : Bool) (operands : List Nat) : Sketch Nat := do
  let arrays ← list .expressionCollection operands
  node .reDimStatement (.stmt (.reDim preserve arrays))

/-! ## Blocks -/

def forBlock (control : String) (lower upper : Nat) (step : Option Nat) (statements : List Nat) :
    Sketch Nat := do
  let control ← name control
  let statements ← body statements
  let next ← node .nextStatement (.stmt (.nextEnd none))
  node .forBlockStatement (.stmt (.forBlock control none lower upper step statements (some next)))

/-- `Do` with a condition at the top, at the bottom, at both or at neither. -/
def doLoop (top bottom : Option LoopCondition) (statements : List Nat) : Sketch Nat := do
  let statements ← body statements
  let tail ← node .loopStatement (.stmt (.loopEnd bottom))
  node .doBlockStatement (.stmt (.doBlock top statements (some tail)))

/-- A block of statements behind an `Else`. -/
def elseBlock (kind : Kind) (statements : List Nat) : Sketch Nat := do
  let statements ← body statements
  node kind (.stmt (.body statements))

def ifBlock (condition : Nat) (statements : List Nat) (elseStatements : Option (List Nat)) :
    Sketch Nat := do
  let statements ← body statements
  let elseBlock ← elseStatements.mapM (elseBlock .elseBlockStatement)
  let tail ← endBlock .ifThen
  node .ifBlockStatement (.stmt (.ifBlock condition statements none elseBlock (some tail)))

/-- `Case [Is] op operand`. -/
def caseIs (op : Option Operator) (operand : Nat) : Sketch Nat :=
  node .comparisonCaseClause (.caseClause (.comparison op operand))

/-- `Case lower To upper`. -/
def caseRange (lower upper : Nat) : Sketch Nat :=
  node .rangeCaseClause (.caseClause (.range lower upper))

/-- One `Case` with its clauses and its statements. -/
def caseBlock (clauses statements : List Nat) : Sketch Nat := do
  let clauses ← list .caseClauseCollection clauses
  let statements ← body statements
  node .caseBlockStatement (.stmt (.caseBlock clauses statements))

def select (expression : Nat) (cases : List (List Nat × List Nat)) (caseElse : Option (List Nat)) :
    Sketch Nat := do
  let cases ← cases.mapM fun (clauses, statements) => caseBlock clauses statements
  let cases ← body cases
  let caseElse ← caseElse.mapM (elseBlock .caseElseBlockStatement)
  let tail ← endBlock .selectCase
  node .selectBlockStatement (.stmt (.selectBlock expression cases caseElse (some tail)))

def withBlock (subject : Nat) (statements : List Nat) : Sketch Nat := do
  let statements ← body statements
  let tail ← endBlock .withTarget
  node .withBlockStatement (.stmt (.guarded subject statements (some tail)))

end StructuredBasic.Sketch
