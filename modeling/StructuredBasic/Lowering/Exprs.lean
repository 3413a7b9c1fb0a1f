import StructuredBasic.Lowering.Operators
import StructuredBasic.Lowering.Types
import StructuredBasic.Syntax.Lookup

/-!
# Lowering expressions

Expressions are lowered without making up names, so they leave no trace behind. Array bounds are
turned into lengths: literal ones here and now, others by an addition at run time.
-/

set_option autoImplicit false

namespace StructuredBasic.Lowering

open Syntax

def lowerLiteral : Literal → Target.Literal
  | .string text => .string text
  | .character value => .char value
  | .date text => .date text
  | .integer value _ _ => .int value
  | .float value _ => .float value
  | .decimal text => .decimal text
  | .boolean value => .bool value

def castKind : Kind → Target.CastKind
  | .directCastExpression => .direct
  | .tryCastExpression => .attempt
  | _ => .convert

namespace Env

variable (env : Env)

set_option linter.unusedVariables false in
/-- The value of a literal bound, under parentheses and negations. A negation that does not fit
in 64 bits is no literal bound. -/
def literalInt? (id : Nat) : Option Int64 :=
  match h : env.forest.expr? id with
  | some (.literal (.integer value _ _)) => some value
  | some (.parenthetical operand) => literalInt? operand
  | some (.unary .negate operand) => (literalInt? operand).bind negInt?
  | _ => none
termination_by id
decreasing_by
  all_goals exact Forest.lt_of_expr h (by simp [Expr.slots, Slot.expr, Slot.one])

/-- Whether a range stands as the bound of an array type. -/
def isArrayBound (id : Nat) : Bool :=
  match (env.forest.ancestors id).map env.forest.kind with
  | .argument :: .argumentCollection :: .arrayType :: _ => true
  | _ => false

set_option linter.unusedVariables false in
/-- The name that the type of an expression is looked up by, under any number of parentheses and
calls. -/
def referenceText? (id : Nat) : Option String :=
  match h : env.forest.expr? id with
  | some (.simpleName name) => env.forest.nameText? name
  | some (.parenthetical operand) => referenceText? operand
  | some (.callOrIndex target _ _) => referenceText? target
  | _ => none
termination_by id
decreasing_by
  all_goals exact Forest.lt_of_expr h (by simp [Expr.slots, Slot.expr, Slot.one])

/-- The type of an expression is looked up by the name that its declarator is found by. -/
theorem referenceText?_eq (id : Nat) : env.referenceText? id = env.forest.referenceText? id := by
  fun_induction referenceText? env id with
  | case1 id name h => grind [Forest.referenceText?]
  | case2 id operand h ih => grind [Forest.referenceText?]
  | case3 id target _ _ h ih => grind [Forest.referenceText?]
  | case4 id h1 h2 h3 => grind [Forest.referenceText?]

/-- Whether what is called or indexed is declared as an array. -/
def targetsArray (id target : Nat) : Result Bool :=
  match env.forest.targetDeclarator? id, env.referenceText? target with
  | some declarator, some name => return (← env.declaratorType declarator name).isArray
  | _, _ => .ok false

/-- A bound whose ends are literals, as a literal length. -/
def literalLength (bound : Nat) (length : Option Int64) : Result Target.Expr :=
  match length with
  | some value => .ok (.int value)
  | none => .error (.malformed (.boundOverflow (env.forest.span bound)))

/-- The element type that an array type states. -/
def elementType : Option Nat → Result Target.Ty
  | some element => env.lowerType element
  | none => .ok .object

/-- An upper bound turned into a length at run time. -/
def shiftedLength (upper : Target.Expr) : Target.Expr :=
  if env.base = 1 then upper else .binary .add upper (.int (Int64.ofInt (1 - (env.base : Int))))

/-- The subject of the innermost `With` around a member access without a qualifier. -/
def subject (id : Nat) : Result Target.Expr :=
  match env.subjects with
  | innermost :: _ => .ok innermost
  | [] => .error (.malformed (.memberOutsideWith (env.forest.span id)))

/-- A reference to a method. -/
def methodReference (id : Nat) : Target.Expr → Result Target.Expr
  | .ident method => .ok (.methodRef none method)
  | .field target method => .ok (.methodRef (some target) method)
  | _ => env.unsupported id

end Env

/-! ## The recursion -/

namespace Env

variable (env : Env)

set_option linter.unusedVariables false in
mutual

def lowerExpr (id : Nat) : Result Target.Expr :=
  match h : env.forest.expr? id with
  | some (.literal value) => .ok (.literal (lowerLiteral value))
  | some .nothing => .ok .null
  | some .self =>
    match env.forest.kind id with
    | .myBaseExpression => .ok .base
    | _ => .ok .self
  | some (.simpleName name) => return .ident (← env.nameText name)
  | some (.typeReference type) => return .typeRef (← env.lowerType type)
  | some (.qualified (some qualifier) _ name) =>
    return .field (← lowerExpr qualifier) (← env.nameText name)
  | some (.qualified none _ name) => return .field (← env.subject id) (← env.nameText name)
  | some (.dictionaryLookup (some qualifier) _ name) =>
    return .index (← lowerExpr qualifier) [.literal (.string (← env.nameText name))]
  | some (.dictionaryLookup none _ name) =>
    return .index (← env.subject id) [.literal (.string (← env.nameText name))]
  | some (.callOrIndex target arguments _) => do
    let isArray ← env.targetsArray id target
    let callee ← lowerExpr target
    let args ← lowerArguments arguments
    return if isArray then .index callee args else invocation callee args
  | some (.construct type arguments) =>
    return .objectCreate (← env.lowerType type) (← lowerArguments arguments)
  | some (.constructArray type initializer) =>
    match ht : env.forest.type? type with
    | some (.array element _ bounds) => do
      let elementType ← env.elementType element
      let lengths ← boundLengths bounds
      let elements ← lowerAggregate initializer
      return .arrayCreate elementType lengths (some elements)
    | _ => env.unsupported type
  | some (.cast operand type) =>
    return .cast (castKind (env.forest.kind id)) (← env.lowerType type) (← lowerExpr operand)
  | some (.intrinsicCast target operand) =>
    return .cast .convert (.primitive (primitive target)) (← lowerExpr operand)
  | some (.typeTest operand type) =>
    return .typeIs (← lowerExpr operand) (← env.lowerType type)
  | some (.getType type) => return .typeOf (← env.lowerType type)
  | some (.addressOf operand) => do
    let method ← lowerExpr operand
    env.methodReference id method
  | some (.parenthetical operand) => lowerExpr operand
  | some (.unary op operand) =>
    match unaryOp? op with
    | some op => return .unary op (← lowerExpr operand)
    | none => env.unsupported id
  | some (.binary op _ left right) =>
    if op = .to then
      if env.isArrayBound id then do
        let lower ← lowerExpr left
        let upper ← lowerExpr right
        return .binary .subtract upper lower
      else env.unsupported id
    else do
      let left ← lowerExpr left
      let right ← lowerExpr right
      match binaryOperation? env.compare op left right with
      | some value => return value
      | none => env.unsupported id
  | some (.genericQualified ..) => env.unsupported id
  | none => env.unsupported id
termination_by 2 * id + 1
decreasing_by
  all_goals first
    | exact Forest.arguments_lt_of_call h
    | exact Forest.arguments_lt_of_construct h
    | (refine Forest.getD_lt fun c hc => Nat.lt_trans (Forest.bounds_lt ht c hc) ?_
       exact Forest.lt_of_expr h (by simp [Expr.slots, Slot.one]))
    | (refine Nat.succ_lt_succ (Nat.mul_lt_mul_of_pos_left ?_ Nat.two_pos)
       exact Forest.lt_of_expr h (by simp [Expr.slots, Slot.expr, Slot.one, Slot.opt]))
    | (refine Nat.lt_succ_of_lt (Nat.mul_lt_mul_of_pos_left ?_ Nat.two_pos)
       exact Forest.lt_of_expr h (by simp [Expr.slots, Slot.one]))

/-- Positional arguments. Named ones have no lowering. -/
def lowerArguments (arguments : Option Nat) : Result (List Target.Expr) :=
  match arguments with
  | none => .ok []
  | some c =>
    match hc : env.forest.collection? c with
    | none => .ok []
    | some value =>
      value.elements.attach.mapM fun element =>
        match element with
        | ⟨none, _⟩ => .ok missingArgument
        | ⟨some a, ha⟩ =>
          match h : env.forest.argument? a with
          | some ⟨none, expression⟩ => lowerExpr expression
          | _ => env.unsupported a
termination_by 2 * arguments.getD 0
decreasing_by
  have hlt : expression + 1 < c := Forest.lt_of_argument_of_mem hc ha h
  simp only [Option.getD_some]
  omega

/-- The number of elements that a bound stands for. -/
def boundLength (bound : Nat) : Result Target.Expr :=
  match env.forest.expr? bound with
  | some (.binary .to _ left right) =>
    match env.literalInt? left, env.literalInt? right with
    | some lower, some upper => env.literalLength bound (rangeLength? lower upper)
    | _, _ => return .binary .add (← lowerExpr bound) (.int 1)
  | _ =>
    match env.literalInt? bound with
    | some upper => env.literalLength bound (plainLength? upper env.base)
    | none => return env.shiftedLength (← lowerExpr bound)
termination_by 2 * bound + 2

/-- The lengths of all bounds that are there. -/
def boundLengths (bounds : Option Nat) : Result (List Target.Expr) :=
  match bounds with
  | none => .ok []
  | some c =>
    (env.forest.elements (some c)).attach.mapM fun ⟨a, ha⟩ =>
      match h : env.forest.argument? a with
      | some argument => boundLength argument.expression
      | none => env.unsupported a
termination_by 2 * bounds.getD 0
decreasing_by
  have := Forest.lt_of_argument_of_mem_elements ha h
  simp only [Option.getD_some]
  omega

/-- The elements of a flat list of initial values. -/
def lowerAggregate (initializer : Nat) : Result (List Target.Expr) :=
  match hi : env.forest.initializer? initializer with
  | some (.aggregate none) => .ok []
  | some (.aggregate (some c)) =>
    (env.forest.elements (some c)).attach.mapM fun ⟨element, he⟩ =>
      match h : env.forest.initializer? element with
      | some (.expression expression) => lowerExpr expression
      | _ => env.unsupported element
  | _ => env.unsupported initializer
termination_by 2 * initializer
decreasing_by
  have h1 := Forest.lt_of_initializer hi (c := c) (by simp [Initializer.slots, Slot.opt])
  have h2 := Forest.lt_of_mem_elements he
  have h3 := Forest.lt_of_initializer h (c := expression) (by simp [Initializer.slots, Slot.expr, Slot.one])
  omega

end

end Env

end StructuredBasic.Lowering
