import StructuredBasic.Machine.Value
import StructuredBasic.Target.Code
import StructuredBasic.Word

/-!
# Operators on values

Integers are exact and stop the run when a result leaves 64 bits. An operation on an integer and a
float is done on floats, and so is every comparison of numbers.
-/

set_option autoImplicit false

namespace StructuredBasic.Machine

open Target (BinaryOp UnaryOp)

/-! ## Integers -/

/-- An integer as a value, if it fits in 64 bits. -/
def fit (n : Int) : Except Fault Value :=
  match word? n with
  | some value => .ok (.int value)
  | none => .error .overflow

/-- The quotient rounds toward zero. -/
def quotient (a b : Int64) : Except Fault Value :=
  if b = 0 then .error .divisionByZero else fit (a.toInt.tdiv b.toInt)

/-- The remainder has the sign of the dividend. It does not exist where the quotient leaves 64
bits. -/
def remainder (a b : Int64) : Except Fault Value := do
  let _ ← quotient a b
  fit (a.toInt.tmod b.toInt)

/-! ## Floats -/

/-- An operation on two numbers as floats. -/
def onFloats (op : Float → Float → Float) (left right : Value) : Except Fault Value := do
  let a ← left.number
  let b ← right.number
  return .float (op a b)

/-- The nearest integer, ties away from zero, kept within 64 bits. -/
def roundToInt (x : Float) : Int64 := x.round.toInt64

/-! ## Comparison -/

/-- The order of two floats, if they have one. -/
def compareFloats? (a b : Float) : Option Ordering :=
  if a < b then some .lt else if b < a then some .gt else if a == b then some .eq else none

/-- The order of two texts by the codes of their characters. -/
def compareTexts (a b : String) : Ordering :=
  if a < b then .lt else if b < a then .gt else .eq

/-- The order of two values: texts by codes, numbers as floats. -/
def compareValues (left right : Value) : Except Fault Ordering :=
  match left, right with
  | .string a, .string b => .ok (compareTexts a b)
  | _, _ => do
    let a ← left.number
    let b ← right.number
    match compareFloats? a b with
    | some ordering => return ordering
    | none => throw (.typeMismatch "ordered number" right)

/-- A comparison that asks the order of its operands. -/
def ordered (holds : Ordering → Bool) (left right : Value) : Except Fault Value := do
  return .bool (holds (← compareValues left right))

/-! ## Operators -/

def binary (op : BinaryOp) (left right : Value) : Except Fault Value :=
  match op, left, right with
  | .add, .int a, .int b => fit (a.toInt + b.toInt)
  | .subtract, .int a, .int b => fit (a.toInt - b.toInt)
  | .multiply, .int a, .int b => fit (a.toInt * b.toInt)
  | .integerDivide, .int a, .int b => quotient a b
  | .modulus, .int a, .int b => remainder a b
  | .add, _, _ => onFloats (· + ·) left right
  | .subtract, _, _ => onFloats (· - ·) left right
  | .multiply, _, _ => onFloats (· * ·) left right
  | .divide, _, _ => onFloats (· / ·) left right
  | .logicalAnd, .bool a, .bool b => .ok (.bool (a && b))
  | .bitAnd, .bool a, .bool b => .ok (.bool (a && b))
  | .logicalOr, .bool a, .bool b => .ok (.bool (a || b))
  | .bitOr, .bool a, .bool b => .ok (.bool (a || b))
  | .bitXor, .bool a, .bool b => .ok (.bool (a != b))
  | .bitAnd, .int a, .int b => .ok (.int (a &&& b))
  | .bitOr, .int a, .int b => .ok (.int (a ||| b))
  | .bitXor, .int a, .int b => .ok (.int (a ^^^ b))
  | .equal, _, _ => .ok (.bool (left.equal right))
  | .identityEqual, _, _ => .ok (.bool (left.equal right))
  | .notEqual, _, _ => .ok (.bool (!left.equal right))
  | .identityNotEqual, _, _ => .ok (.bool (!left.equal right))
  | .less, _, _ => ordered Ordering.isLT left right
  | .lessEqual, _, _ => ordered Ordering.isLE left right
  | .greater, _, _ => ordered Ordering.isGT left right
  | .greaterEqual, _, _ => ordered Ordering.isGE left right
  | _, _, _ => .error .unsupported

def unary (op : UnaryOp) (operand : Value) : Except Fault Value :=
  match op, operand with
  | .plus, .int a => .ok (.int a)
  | .plus, .float a => .ok (.float a)
  | .negate, .int a => fit (-a.toInt)
  | .negate, .float a => .ok (.float (-a))
  | .not, .bool a => .ok (.bool (!a))
  | .not, .int a => .ok (.int (~~~a))
  | _, other => .error (.typeMismatch "operand" other)

/-- The library calls that operators are lowered to. -/
def libraryCall (type method : String) (args : List Value) : Except Fault Value :=
  match type, method, args with
  | "Math", "Pow", [a, b] => onFloats Float.pow a b
  | "Math", "Min", [.int a, .int b] => .ok (.int (if b < a then b else a))
  | "String", "Concat", [a, b] => .ok (.string (a.content ++ b.content))
  | _, _, _ => .error .unsupported

end StructuredBasic.Machine
