import StructuredBasic.Lowering.Exprs

/-!
# Declared variables

A declarator names one or more variables. Each has a type and may have an initial value: the one
written, a new object, or an array of the stated bounds.
-/

set_option autoImplicit false

namespace StructuredBasic.Lowering

open Syntax

structure DeclaredVariable where
  name : String
  type : Target.Ty
  init : Option Target.Expr

namespace Env

variable (env : Env)

/-- An initial value as written. A list of values makes an array of the declared element type. -/
def initialValue (initializer : Nat) (type : Target.Ty) : Result Target.Expr :=
  match env.forest.initializer? initializer with
  | some (.expression expression) => env.lowerExpr expression
  | some (.aggregate _) =>
    return .arrayCreate (type.element?.getD .object) [] (some (← env.lowerAggregate initializer))
  | none => env.unsupported initializer

/-- The array that bounds on a name ask for. -/
def allocation (declared : Nat) (type : Target.Ty) : Result (Option Target.Expr) :=
  match env.forest.name? declared with
  | some (.declared _ (some arrayType)) =>
    match env.forest.type? arrayType with
    | some (.array _ _ (some bounds)) =>
      return some (.arrayCreate (type.element?.getD .object) (← env.boundLengths (some bounds)) none)
    | _ => .ok none
  | _ => .ok none

/-- The variable of one name of a declarator. -/
def declaredVariable (d : Declarator) (declared : Nat) : Result DeclaredVariable := do
  let name ← env.nameText declared
  let type ← env.variableType declared d.type
  let init ← match d.initializer with
    | some initializer => some <$> env.initialValue initializer type
    | none =>
      if d.isNew then do
        let args ← env.lowerArguments d.arguments
        pure (some (Target.Expr.objectCreate type args))
      else env.allocation declared type
  return ⟨name, type, init⟩

/-- The variables of a declarator in the order of their names. -/
def declaredVariables (declarator : Nat) : Result (List DeclaredVariable) :=
  match env.forest.declarator? declarator with
  | some d => (env.forest.elements (some d.names)).mapM (env.declaredVariable d)
  | none => env.unsupported declarator

end Env

end StructuredBasic.Lowering
