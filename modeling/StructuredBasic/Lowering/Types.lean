import StructuredBasic.Lowering.Env

/-!
# Lowering types

Type names become target types. The type of a variable is its `As` clause, else its type suffix,
else `object`; bounds on the name make it an array.
-/

set_option autoImplicit false

namespace StructuredBasic.Lowering

open Syntax

def primitive : Intrinsic → Target.Primitive
  | .boolean => .bool
  | .sbyte => .sbyte
  | .byte => .byte
  | .short => .short
  | .ushort => .ushort
  | .integer => .int
  | .uinteger => .uint
  | .long => .long
  | .ulong => .ulong
  | .decimal => .decimal
  | .single => .float
  | .double => .double
  | .date => .dateTime
  | .char => .char
  | .string => .string
  | .object => .object

/-- The type that a name has by its suffix alone. -/
def suffixType : Option TypeSuffix → Target.Ty
  | some suffix => .primitive (primitive suffix.intrinsic)
  | none => .object

/-- The value that a variable of a type starts with. -/
def zeroValue : Target.Ty → Target.Expr
  | .primitive .bool => .bool false
  | .primitive type => if type.isNumeric then .int 0 else .defaultOf (.primitive type)
  | type => .defaultOf type

namespace Env

variable (env : Env)

set_option linter.unusedVariables false in
/-- The dotted text of a name. The global scope is followed by a double colon. -/
def qualifiedText (id : Nat) : Result String :=
  match h : env.forest.name? id with
  | some (.simple text _ _) => .ok text
  | some (.special _) => .ok "global:"
  | some (.qualified qualifier _ name) => do
    let outer ← qualifiedText qualifier
    let inner ← env.nameText name
    if outer.toList.getLast? = some ':' then return outer ++ ":" ++ inner
    else return outer ++ "." ++ inner
  | some (.declared name _) => env.nameText name
  | none => env.unsupported id
termination_by id
decreasing_by exact Forest.lt_of_name h (by simp [Name.slots, Slot.one])

set_option linter.unusedVariables false in
def lowerType (id : Nat) : Result Target.Ty :=
  match h : env.forest.type? id with
  | some (.intrinsic type) => .ok (.primitive (primitive type))
  | some (.named name) => return .named (← env.qualifiedText name)
  | some (.array (some element) rank _) => return .array (← lowerType element) rank
  | some (.array none rank _) => return .array .object rank
  | some (.constructed name arguments) => do
    let text ← env.qualifiedText name
    let types ← (env.forest.elements (some arguments)).attach.mapM fun ⟨argument, _⟩ =>
      lowerType argument
    return .generic text types
  | none => env.unsupported id
termination_by id
decreasing_by
  · exact Forest.lt_of_type h (by simp [TypeName.slots, Slot.opt])
  · next hm =>
    have hargs := Forest.lt_of_type h (c := arguments) (by simp [TypeName.slots, Slot.one])
    exact Nat.lt_trans (Forest.lt_of_mem_elements hm) hargs

def lowerOptionalType : Option Nat → Result (Option Target.Ty)
  | some id => return some (← env.lowerType id)
  | none => .ok none

/-- The type of a declared name. -/
def variableType (declared : Nat) (asType : Option Nat) : Result Target.Ty := do
  let (name, bounds) := match env.forest.name? declared with
    | some (.declared name arrayType) => (name, arrayType)
    | _ => (declared, none)
  let type ← match asType with
    | some id => env.lowerType id
    | none =>
      match env.forest.name? name with
      | some (.simple _ suffix _) => pure (suffixType suffix)
      | _ => pure Target.Ty.object
  match bounds.bind env.forest.type? with
  | some (.array _ rank _) => return .array type rank
  | _ => return type

/-- The type of `name` in a declarator, `object` if the declarator does not declare it. -/
def declaratorType (declarator : Nat) (name : String) : Result Target.Ty :=
  match env.forest.declarator? declarator with
  | none => .ok .object
  | some d =>
    match (env.forest.elements (some d.names)).find? fun declared =>
        env.forest.nameText? declared == some name with
    | some declared => env.variableType declared d.type
    | none => .ok .object

end Env

end StructuredBasic.Lowering
