import StructuredBasic.Machine.Operate

/-!
# Evaluation

Expressions are evaluated over named locals and change nothing. Both operands of an operator are
evaluated, the left one first.
-/

set_option autoImplicit false

namespace StructuredBasic.Machine

/-- Declared locals, each name once. -/
abbrev Locals := List (String × Value)

namespace Locals

/-- The value of a local. -/
def get? : Locals → String → Option Value
  | [], _ => none
  | (name, value) :: rest, wanted => if name = wanted then some value else get? rest wanted

/-- Gives a local a value, and declares it if it is new. -/
def put : Locals → String → Value → Locals
  | [], wanted, new => [(wanted, new)]
  | (name, value) :: rest, wanted, new =>
    if name = wanted then (name, new) :: rest else (name, value) :: put rest wanted new

end Locals

open Target (Expr)

def literalValue : Target.Literal → Except Fault Value
  | .int value => .ok (.int value)
  | .float value => .ok (.float value)
  | .bool value => .ok (.bool value)
  | .string value => .ok (.string value)
  | .char value => .ok (.string (String.singleton value))
  | .decimal _ => .error .unsupported
  | .date _ => .error .unsupported

/-- A conversion to an integer rounds a float and leaves every other value as it is. -/
def convertToInt : Value → Value
  | .float value => .int (roundToInt value)
  | value => value

mutual

def eval (locals : Locals) : Expr → Except Fault Value
  | .literal value => literalValue value
  | .ident name =>
    match locals.get? name with
    | some value => .ok value
    | none => .error (.undefinedVariable name)
  | .binary op left right => do
    let a ← eval locals left
    let b ← eval locals right
    binary op a b
  | .unary op operand => do
    let a ← eval locals operand
    unary op a
  | .invoke (some (.typeRef (.named type))) method args => do
    let values ← evalAll locals args
    libraryCall type method values
  | .cast .convert (.primitive .int) operand => do
    let a ← eval locals operand
    return convertToInt a
  | .defaultOf _ => .ok .null
  | .null => .ok .null
  | _ => .error .unsupported

/-- Evaluates arguments from left to right. -/
def evalAll (locals : Locals) : List Expr → Except Fault (List Value)
  | [] => .ok []
  | arg :: args => do
    let value ← eval locals arg
    let values ← evalAll locals args
    return value :: values

end

end StructuredBasic.Machine
