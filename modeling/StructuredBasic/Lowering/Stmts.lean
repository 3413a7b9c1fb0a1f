import StructuredBasic.Lowering.Branches
import StructuredBasic.Lowering.Fresh
import StructuredBasic.Lowering.Loops
import StructuredBasic.Lowering.Routine
import StructuredBasic.Lowering.Variables

/-!
# Lowering statements

A statement becomes a list of statements, behind the comments attached to it. While a body is
lowered two things are remembered: the names in use, and the labels that a `GoSub` has gone to.
-/

set_option autoImplicit false

namespace StructuredBasic.Lowering

open Syntax

/-- What is remembered while a body is lowered. -/
structure BodyState where
  /-- The names in use, in lower case. -/
  taken : List String
  /-- The labels whose return point is placed. -/
  visited : List String

/-- Lowering that may make up names and place return points. -/
abbrev Lower := StateT BodyState Result

/-- A local name that is not in use. -/
def freshName (base : String) : Lower String := do
  let state ← get
  let (name, taken) := fresh state.taken base
  set { state with taken := taken }
  return name

namespace Env

variable (env : Env)

/-! ## Statements without a body -/

/-- `GoSub` jumps, and the point to return to follows it. A label has one return point, so a
second `GoSub` to it has no lowering. -/
def lowerGoSub (id : Nat) (label : String) : Lower (List Target.Stmt) := do
  let state ← get
  if state.visited.contains label then
    env.unsupported id
  else
    set { state with visited := label :: state.visited }
    return [.goto label, .label (returnPoint label)]

/-- `Mid` on the left writes the spliced text back to its target. -/
def lowerMid (routine : Routine) (target start : Nat) (length : Option Nat) (source : Nat) :
    Result (List Target.Stmt) := do
  let target ← env.assignmentTarget routine target
  let start ← env.lowerExpr start
  let length ← match length with
    | some id => env.lowerExpr id
    | none => pure (Target.Expr.field (.typeRef (.primitive .int)) "MaxValue")
  let source ← env.lowerExpr source
  return [.assign target (.staticCall "StringType" "MidStmtStr" [target, start, length, source])]

def lowerCompound (routine : Routine) (id : Nat) (op : Operator) (target source : Nat) :
    Result (List Target.Stmt) := do
  let target ← env.assignmentTarget routine target
  let source ← env.lowerExpr source
  match binaryOperation? env.compare op target source with
  | some value => return [.assign target value]
  | none => env.unsupported id

/-- A local starts with its initial value, else with the zero of its type; a constant needs one
of its own. -/
def declareLocal (isConst : Bool) (declarator : Nat) (v : DeclaredVariable) :
    Result Target.Stmt :=
  match v.init with
  | some init => .ok (.declare v.name v.type (some init))
  | none =>
    if isConst then env.unsupported declarator
    else .ok (.declare v.name v.type (some (zeroValue v.type)))

def lowerLocals (modifiers declarators : Nat) : Result (List Target.Stmt) := do
  let isConst := (env.modifiers (some modifiers)).contains .constant
  let lists ← (env.forest.elements (some declarators)).mapM fun declarator => do
    let declared ← env.declaredVariables declarator
    declared.mapM (env.declareLocal isConst declarator)
  return lists.flatten

/-- The control variable of a loop that declares it. -/
def declareControl : Option Nat → Result (List Target.Stmt)
  | some declarator => do
    let declared ← env.declaredVariables declarator
    return declared.map fun v => .declare v.name v.type none
  | none => .ok []

/-- The type of the control variable of a `For Each` block. -/
def controlType (id control : Nat) : Result Target.Ty :=
  match env.forest.controlDeclarator? id, env.referenceText? control with
  | some declarator, some name => env.declaratorType declarator name
  | _, _ => .ok .object

/-- The condition on the `Loop` line of a `Do` block. -/
def trailingCondition? (tail : Option Nat) : Option LoopCondition :=
  match tail.bind env.forest.stmt? with
  | some (.loopEnd condition) => condition
  | _ => none

def lowerCondition (condition : LoopCondition) : Result Target.Expr :=
  return loopTest condition.isWhile (← env.lowerExpr condition.expression)

/-! ## Arrays -/

/-- The element type of a `ReDim` operand. -/
def reDimElement (declarator : Option Nat) (name : Option String) : Result Target.Ty :=
  match declarator, name with
  | some declarator, some name =>
    return (← env.declaratorType declarator name).element?.getD .object
  | _, _ => .ok .object

/-- An array of the new size takes over the common part of the old one. -/
def preserved (temp : String) (array allocation : Target.Expr) (type : Target.Ty) :
    List Target.Stmt :=
  let copied := Target.Expr.staticCall "Math" "Min"
    [.field array "Length", .field (.ident temp) "Length"]
  [.declare temp type (some allocation),
    .expression (.staticCall "Array" "Copy" [array, .ident temp, copied]),
    .assign array (.ident temp)]

/-- The greatest number of dimensions that a type can state. -/
def maxRank : Nat := 4294967295

/-- One operand of a `ReDim`. -/
def lowerReDimOperand (id : Nat) (preserve : Bool) (operand : Nat) (declarator : Option Nat) :
    Lower (List Target.Stmt) :=
  match env.forest.expr? operand with
  | some (.callOrIndex target arguments _) => do
    let name := env.referenceText? target
    let element ← env.reDimElement declarator name
    let array ← env.lowerExpr target
    let lengths ← env.boundLengths arguments
    if maxRank < lengths.length then
      throw (.malformed (.tooManyBounds (env.forest.span id)))
    let allocation := Target.Expr.arrayCreate element lengths none
    if preserve then
      let temp ← freshName (name.getD "array" ++ "Preserved")
      return preserved temp array allocation (.array element lengths.length)
    else
      return [.assign array allocation]
  | _ => env.unsupported operand

def lowerReDim (id : Nat) (preserve : Bool) (arrays : Nat) : Lower (List Target.Stmt) := do
  let operands := (env.forest.elements (some arrays)).zip (env.forest.reDimDeclarators id)
  let lists ← operands.mapM fun (operand, declarator) =>
    env.lowerReDimOperand id preserve operand declarator
  return lists.flatten

/-! ## Branches -/

/-- The test of one clause of a `Case`. -/
def lowerClause (value : Target.Expr) (clause : Nat) : Result Target.Expr :=
  match env.forest.payload? clause with
  | some (.caseClause (.comparison op operand)) =>
    return .binary ((op.map relationalOp).getD .equal) value (← env.lowerExpr operand)
  | some (.caseClause (.range lower upper)) =>
    return rangeTest value (← env.lowerExpr lower) (← env.lowerExpr upper)
  | _ => env.unsupported clause

/-- The test of a `Case` block. -/
def lowerCaseTest (value : Target.Expr) (case clauses : Nat) : Result Target.Expr := do
  let tests ← (env.forest.elements (some clauses)).mapM (env.lowerClause value)
  match conjunction? tests with
  | some test => return test
  | none => env.unsupported case

/-- A selector other than a name or a literal is computed once, into a local. -/
def lowerSelector (expression : Nat) : Lower (List Target.Stmt × Target.Expr) := do
  let value ← env.lowerExpr expression
  match env.forest.expr? expression with
  | some (.simpleName _) => return ([], value)
  | some (.literal _) => return ([], value)
  | _ =>
    let selected ← freshName "selected"
    return ([.declare selected .object (some value)], .ident selected)

end Env

end StructuredBasic.Lowering
