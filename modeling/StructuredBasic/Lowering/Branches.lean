import StructuredBasic.Lowering.Operators

/-!
# Branches

`If` and `Select Case` become one chain of conditionals in source order, each later branch in the
else body of the one before it.
-/

set_option autoImplicit false

namespace StructuredBasic.Lowering

open Target

/-- A test with the statements it guards. -/
abbrev Branch := Expr × List Stmt

/-- Branches nested into one another; the last else body is `tail`. -/
def chain (branches : List Branch) (tail : List Stmt) : List Stmt :=
  branches.foldr (fun branch elseBody => [.conditional branch.1 branch.2 elseBody]) tail

/-- The clauses of one `Case` hold together. There is no test without a clause. -/
def conjunction? : List Expr → Option Expr
  | [] => none
  | first :: rest => some (rest.foldl (fun test clause => .binary .logicalAnd test clause) first)

/-- `lower <= value && value <= upper`. -/
def rangeTest (value lower upper : Expr) : Expr :=
  .binary .logicalAnd (.binary .greaterEqual value lower) (.binary .lessEqual value upper)

end StructuredBasic.Lowering
