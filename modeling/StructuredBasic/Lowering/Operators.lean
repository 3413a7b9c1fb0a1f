import StructuredBasic.Lowering.Env
import StructuredBasic.Word

/-!
# Operators

Each source operator is one operator of the target or one library call. `Like` also passes on how
texts are compared at this point of the file.
-/

set_option autoImplicit false

namespace StructuredBasic.Lowering

open Syntax

/-- What becomes of an operator between two operands. -/
inductive BinaryForm where
  | sign (op : Target.BinaryOp)
  | call (type method : String)
  | like

/-- `To` and the operators with one operand have no form between two operands. -/
def binaryForm? : Operator → Option BinaryForm
  | .plus => some (.sign .add)
  | .minus => some (.sign .subtract)
  | .multiply => some (.sign .multiply)
  | .divide => some (.sign .divide)
  | .integralDivide => some (.sign .integerDivide)
  | .modulus => some (.sign .modulus)
  | .shiftLeft => some (.sign .shiftLeft)
  | .shiftRight => some (.sign .shiftRight)
  | .equals => some (.sign .equal)
  | .notEquals => some (.sign .notEqual)
  | .lessThan => some (.sign .less)
  | .lessThanEquals => some (.sign .lessEqual)
  | .greaterThan => some (.sign .greater)
  | .greaterThanEquals => some (.sign .greaterEqual)
  | .is => some (.sign .identityEqual)
  | .isNot => some (.sign .identityNotEqual)
  | .and => some (.sign .bitAnd)
  | .or => some (.sign .bitOr)
  | .xor => some (.sign .bitXor)
  | .andAlso => some (.sign .logicalAnd)
  | .orElse => some (.sign .logicalOr)
  | .power => some (.call "Math" "Pow")
  | .concatenate => some (.call "String" "Concat")
  | .like => some .like
  | .to | .unaryPlus | .negate | .not => none

def unaryOp? : Operator → Option Target.UnaryOp
  | .unaryPlus => some .plus
  | .negate => some .negate
  | .not => some .not
  | _ => none

/-- The test of a `Case Is` clause. -/
def relationalOp : Operator → Target.BinaryOp
  | .notEquals => .notEqual
  | .lessThan => .less
  | .lessThanEquals => .lessEqual
  | .greaterThan => .greater
  | .greaterThanEquals => .greaterEqual
  | _ => .equal

/-- The argument that tells `Like` how to compare. -/
def compareArgument (mode : Target.CompareMode) : Target.Expr :=
  .field (.typeRef (.named "CompareMethod")) (Named.name mode)

/-- An operator applied to lowered operands. -/
def binaryOperation? (mode : Target.CompareMode) (op : Operator) (left right : Target.Expr) :
    Option Target.Expr :=
  match binaryForm? op with
  | some (.sign op) => some (.binary op left right)
  | some (.call type method) => some (.staticCall type method [left, right])
  | some .like =>
    some (.staticCall "LikeOperator" "LikeString" [left, right, compareArgument mode])
  | none => none

/-- A call of something already lowered. A name is called directly, a member on its object, and a
call without arguments of something that is a call already adds nothing. -/
def invocation (callee : Target.Expr) (args : List Target.Expr) : Target.Expr :=
  match callee with
  | .ident method => .invoke none method args
  | .field target method => .invoke (some target) method args
  | .invoke target method inner =>
    if args.isEmpty then .invoke target method inner
    else .delegateInvoke (.invoke target method inner) args
  | other => .delegateInvoke other args

/-- What is passed for an omitted argument. -/
def missingArgument : Target.Expr := .field (.typeRef (.named "Type")) "Missing"

/-! ## Checked arithmetic -/

def addInt? (a b : Int64) : Option Int64 := word? (a.toInt + b.toInt)

def subInt? (a b : Int64) : Option Int64 := word? (a.toInt - b.toInt)

def negInt? (a : Int64) : Option Int64 := word? (-a.toInt)

/-- The number of elements from `lower` up to `upper`, computed in 64 bits step by step. -/
def rangeLength? (lower upper : Int64) : Option Int64 :=
  (subInt? upper lower).bind fun span => addInt? span 1

/-- The number of elements from the array base up to `upper`, computed in 64 bits step by step. -/
def plainLength? (upper : Int64) (base : Nat) : Option Int64 :=
  (addInt? upper 1).bind fun count => subInt? count (Int64.ofInt base)

end StructuredBasic.Lowering
