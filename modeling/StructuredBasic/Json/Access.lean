import StructuredBasic.Decimal.Read
import StructuredBasic.Json
import StructuredBasic.Named
import StructuredBasic.Word

/-!
# Looking into serialized values

Each accessor gives the content of a value of one shape, and nothing for a value of another shape.
-/

set_option autoImplicit false

namespace StructuredBasic.Json

/-- The field of an object, `null` when it is missing. -/
def field (key : String) : Json → Json
  | .object fields =>
    match fields.find? fun (name, _) => name == key with
    | some (_, value) => value
    | none => .null
  | _ => .null

/-- A record with the given keys: an object, or a list of all their values in order. -/
def record? (keys : List String) : Json → Option Json
  | .object fields => some (.object fields)
  | .array values => if values.length = keys.length then some (.object (keys.zip values)) else none
  | _ => none

/-- A variant that has content, with its name. -/
def variant? : Json → Option (String × Json)
  | .object [(name, content)] => some (name, content)
  | _ => none

/-- The name of a variant without content, on its own or in front of `null`. -/
def bareVariant? : Json → Option String
  | .string name => some name
  | .object [(name, .null)] => some name
  | _ => none

def string? : Json → Option String
  | .string text => some text
  | _ => none

def bool? : Json → Option Bool
  | .bool value => some value
  | _ => none

/-- A text of one character. -/
def char? : Json → Option Char
  | .string text =>
    match text.toList with
    | [c] => some c
    | _ => none
  | _ => none

/-- An integer as written, without fraction and exponent. -/
def int? : Json → Option Int
  | .number text =>
    match text.toList with
    | '-' :: ds => (digits? ds).map fun n => -(n : Int)
    | ds => (digits? ds).map Int.ofNat
  | _ => none
where
  digits? (ds : List Char) : Option Nat :=
    if !ds.isEmpty && ds.all Char.isDigit then some (Decimal.digitsValue ds) else none

/-- A number from 0 up to but not including `bound`. -/
def natBelow? (bound : Nat) (j : Json) : Option Nat := do
  let n ← j.int?
  if 0 ≤ n ∧ n < bound then some n.toNat else none

/-- An integer that fits in 64 bits. -/
def int64? (j : Json) : Option Int64 := j.int?.bind word?

def float? : Json → Option Float
  | .number text => Decimal.read? text
  | _ => none

/-- A member of a vocabulary by its name. -/
def named? (α : Type) [Named α] (j : Json) : Option α := j.bareVariant?.bind (Named.find? α)

/-- The elements of a list; a value of another shape has none. -/
def items : Json → List Json
  | .array elements => elements
  | _ => []

/-- A value that may be `null`. -/
def option? {α : Type} (decode : Json → Option α) : Json → Option (Option α)
  | .null => some none
  | j => (decode j).map some

def list? {α : Type} (decode : Json → Option α) : Json → Option (List α)
  | .array elements => elements.mapM decode
  | _ => none

mutual

/-- How many lists and objects stand in one another. -/
def depth : Json → Nat
  | .array elements => depthOfList elements + 1
  | .object fields => depthOfFields fields + 1
  | _ => 0

def depthOfList : List Json → Nat
  | [] => 0
  | element :: rest => max (depth element) (depthOfList rest)

def depthOfFields : List (String × Json) → Nat
  | [] => 0
  | (_, value) :: rest => max (depth value) (depthOfFields rest)

end

mutual

/-- The numbers in a value as they are written. -/
def numbers : Json → List String
  | .number text => [text]
  | .array elements => numbersOfList elements
  | .object fields => numbersOfFields fields
  | _ => []

def numbersOfList : List Json → List String
  | [] => []
  | element :: rest => numbers element ++ numbersOfList rest

def numbersOfFields : List (String × Json) → List String
  | [] => []
  | (_, value) :: rest => numbers value ++ numbersOfFields rest

end

end StructuredBasic.Json
