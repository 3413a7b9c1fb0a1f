import StructuredBasic.Decimal.Layout

/-!
# Values and faults

What expressions evaluate to, and why a run may stop.
-/

set_option autoImplicit false

namespace StructuredBasic.Machine

inductive Value where
  | null
  | bool (value : Bool)
  | int (value : Int64)
  | float (value : Float)
  | string (value : String)

namespace Value

/-- Values of different kinds are never equal, and a float that is no number differs from
itself. -/
def equal : Value → Value → Bool
  | .null, .null => true
  | .bool a, .bool b => a == b
  | .int a, .int b => a == b
  | .float a, .float b => a == b
  | .string a, .string b => a == b
  | _, _ => false

/-- The text of a value in a message. -/
def text : Value → String
  | .null => "null"
  | .bool value => if value then "true" else "false"
  | .int value => toString value.toInt
  | .float value => Decimal.plain.text value
  | .string value => "\"" ++ value ++ "\""

/-- The text of a value as an operand of a concatenation. -/
def content : Value → String
  | .null => ""
  | .string value => value
  | value => value.text

end Value

/-- Why a run stops before its end. -/
inductive Fault where
  | undefinedVariable (name : String)
  | undefinedLabel (name : String)
  | typeMismatch (expected : String) (got : Value)
  | divisionByZero
  | strayBreak
  | stepLimit
  /-- A construct that the machine does not run. -/
  | unsupported
  /-- A result that does not fit in 64 bits. -/
  | overflow

def Fault.message : Fault → String
  | .undefinedVariable name => "undefined variable: " ++ name
  | .undefinedLabel name => "undefined label: " ++ name
  | .typeMismatch expected got =>
    "type mismatch: expected " ++ expected ++ ", got " ++ got.text
  | .divisionByZero => "division by zero"
  | .strayBreak => "break outside an iteration"
  | .stepLimit => "step limit exceeded"
  | .unsupported => "unsupported"
  | .overflow => "overflow"

/-- The truth of a condition. -/
def Value.truth : Value → Except Fault Bool
  | .bool value => .ok value
  | value => .error (.typeMismatch "bool" value)

/-- The float nearest to an integer, ties to even. -/
def nearestFloat (n : Int64) : Float :=
  let size := n.toInt.natAbs.toUInt64.toFloat
  if n.toInt < 0 then -size else size

/-- A number as a float. -/
def Value.number : Value → Except Fault Float
  | .int value => .ok (nearestFloat value)
  | .float value => .ok value
  | value => .error (.typeMismatch "number" value)

end StructuredBasic.Machine
