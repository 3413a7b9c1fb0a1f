import StructuredBasic.Syntax.Forest

/-!
# Reasons why a file cannot be lowered

The first reason ends the pass; there is no partial result.
-/

set_option autoImplicit false

namespace StructuredBasic.Lowering

open Syntax

/-- Shapes that can be built and have no meaning. -/
inductive Malformed where
  | rootNotFile (kind : Kind)
  | returnOutsideRoutine (span : Span)
  | exitOutsideRoutine (span : Span)
  | getterOutsideProperty
  | memberOutsideWith (span : Span)
  | conditionAtBothEnds (span : Span)
  | boundOverflow (span : Span)
  | tooManyBounds (span : Span)
deriving DecidableEq

def Malformed.text : Malformed → String
  | .rootNotFile kind => "root is " ++ kind.text ++ ", not a file"
  | .returnOutsideRoutine span => "Return at " ++ span.text ++ " is outside any routine"
  | .exitOutsideRoutine span => "Exit at " ++ span.text ++ " is outside any routine"
  | .getterOutsideProperty => "Get accessor outside a property"
  | .memberOutsideWith span =>
    "member access without qualifier outside a With block at " ++ span.text
  | .conditionAtBothEnds span => "Do loop at " ++ span.text ++ " has a condition at both ends"
  | .boundOverflow span =>
    "array bound at " ++ span.text ++ " has a length that does not fit in 64 bits"
  | .tooManyBounds span => "ReDim at " ++ span.text ++ " has too many bounds"

inductive LowerError where
  /-- A construct without a lowering. -/
  | unsupported (kind : Kind) (span : Span)
  /-- Unparsed text is left in the tree. -/
  | badNode (span : Span)
  | malformed (reason : Malformed)
deriving DecidableEq

def LowerError.message : LowerError → String
  | .unsupported kind span => "unsupported construct " ++ kind.text ++ " at " ++ span.text
  | .badNode span => "syntax error node at " ++ span.text
  | .malformed reason => "malformed tree: " ++ reason.text

/-- The error of a node that has no lowering. -/
def unsupported (f : Forest) (id : Nat) : LowerError :=
  if (f.kind id).isBad then .badNode (f.span id) else .unsupported (f.kind id) (f.span id)

/-- The result of lowering a part that leaves no trace in the state of the routine. -/
abbrev Result := Except LowerError

end StructuredBasic.Lowering
