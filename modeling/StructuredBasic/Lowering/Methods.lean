import StructuredBasic.Lowering.Bodies

/-!
# Lowering methods and properties

A routine that assigns to its own name declares the local that stands in for the name first and
returns it last.
-/

set_option autoImplicit false

namespace StructuredBasic.Lowering

open Syntax

namespace Env

variable (env : Env)

/-! ## Bodies -/

/-- The result local of a routine: present when the routine has a result and assigns to its own
name. The names of the routine with it are in use from the start. -/
def routineShadow (node : Nat) (name : String) (returnType : Target.Ty) :
    Option String × List String :=
  let names := env.namesUnder node
  if !returnType.isVoid && env.assignsName node name then
    let (shadow, taken) := fresh names (name ++ "Result")
    (some shadow, taken)
  else (none, names)

/-- The statements around a body that keep its result in a local. -/
def withShadow (shadow : Option String) (returnType : Target.Ty) (body : List Target.Stmt) :
    List Target.Stmt :=
  match shadow with
  | some name =>
    .declare name returnType (some (zeroValue returnType)) :: body ++ [.returns (some (.ident name))]
  | none => body

/-- The body of a method or an accessor. -/
def lowerRoutine (node : Nat) (name : String) (returnType : Target.Ty) (statements : Option Nat) :
    Result (List Target.Stmt) := do
  let (shadow, taken) := env.routineShadow node name returnType
  let (body, _) ← (env.lowerBody ⟨name, shadow, returnType⟩ statements).run ⟨taken, []⟩
  return withShadow shadow returnType body

/-! ## Parameters -/

/-- The default value of a parameter. -/
def defaultValue (parameter : Nat) : Option Nat → Result (Option Target.Expr)
  | none => .ok none
  | some initializer =>
    match env.forest.initializer? initializer with
    | some (.expression expression) => return some (← env.lowerExpr expression)
    | _ => env.unsupported parameter

def lowerParameter (id : Nat) : Result Target.Parameter :=
  match env.forest.payload? id with
  | some (.parameter p) => do
    let modifiers := env.modifiers p.modifiers
    let default ← env.defaultValue id p.initializer
    let name ← env.nameText p.name
    let type ← env.variableType p.name p.type
    return {
      name := name
      type := type
      direction := if modifiers.contains .byRef then .byReference else .byValue
      isParams := modifiers.contains .paramArray
      default := default }
  | _ => env.unsupported id

def lowerParameters (parameters : Option Nat) : Result (List Target.Parameter) :=
  (env.forest.elements parameters).mapM env.lowerParameter

def typeParameters (collection : Option Nat) : Result (List String) :=
  (env.forest.elements collection).mapM fun id =>
    match env.forest.payload? id with
    | some (.typeParameter parameter) => env.nameText parameter.name
    | _ => env.unsupported id

/-! ## Methods -/

/-- What a method is, its name in the target and its result. Constructors are named for their
type. -/
def methodForm (id : Nat) (name owner : String) (signature : Signature) :
    Result (Target.MethodKind × String × Target.Ty) :=
  match env.forest.kind id with
  | .subDeclaration => .ok (.normal, name, .void)
  | .functionDeclaration =>
    return (.normal, name, ← env.variableType signature.name signature.resultType)
  | .constructorDeclaration => .ok (.constructor, owner, .void)
  | _ => env.unsupported id

/-- A `Sub`, a `Function` or a `Sub New`. -/
def lowerMethod (id : Nat) (header : Header) (signature : Signature) (statements : Option Nat)
    (owner : String) (inModule : Bool) : Result Target.Method := do
  let modifiers := env.modifiers header.modifiers
  let name ← env.nameText signature.name
  let (kind, methodName, returnType) ← env.methodForm id name owner signature
  let parameters ← env.lowerParameters signature.parameters
  let body ← env.lowerRoutine id name returnType statements
  let typeParameters ← env.typeParameters signature.typeParameters
  return {
    name := methodName
    kind := kind
    visibility := visibility modifiers .publicAccess
    isStatic := inModule || modifiers.contains .shared
    typeParameters := typeParameters
    parameters := parameters
    returnType := returnType
    body := body
    entry := none
    comments := env.comments id }

/-- A `Declare` line names a method of a library. -/
def lowerExternal (id : Nat) (header : Header) (signature : Signature) (entry : Target.Entry) :
    Result Target.Method := do
  let modifiers := env.modifiers header.modifiers
  let returnType ← match env.forest.kind id with
    | .externalFunctionDeclaration => env.variableType signature.name signature.resultType
    | _ => pure .void
  let name ← env.nameText signature.name
  let parameters ← env.lowerParameters signature.parameters
  return {
    name := name
    kind := .normal
    visibility := visibility modifiers .publicAccess
    isStatic := true
    typeParameters := []
    parameters := parameters
    returnType := returnType
    body := []
    entry := some entry
    comments := env.comments id }

/-! ## Properties -/

/-- The name of the first parameter of a setter. -/
def setterParameter? (parameters : Option Nat) : Result (Option String) :=
  match (env.forest.elements parameters).head?.bind env.forest.payload? with
  | some (.parameter p) => return some (← env.nameText p.name)
  | _ => .ok none

/-- A property with one more accessor. Of two accessors of a kind the later one stays. -/
def addAccessor (property : Target.Property) (id : Nat) : Result Target.Property :=
  match env.forest.decl? id with
  | some (.accessor _ parameters statements _) =>
    match env.forest.kind id with
    | .getAccessorDeclaration => do
      let body ← env.lowerRoutine id property.name property.type statements
      return { property with getter := some body }
    | _ => do
      let parameter ← env.setterParameter? parameters
      let body ← env.lowerRoutine id property.name .void statements
      return { property with
        setter := some body
        setterParameter := parameter.getD property.setterParameter }
  | some .empty => .ok property
  | some (.endBlock _) => .ok property
  | _ => env.unsupported id

def lowerProperty (id : Nat) (header : Header) (signature : Signature) (accessors : Option Nat)
    (inModule : Bool) : Result Target.Property := do
  let modifiers := env.modifiers header.modifiers
  let name ← env.nameText signature.name
  let type ← env.variableType signature.name signature.resultType
  let parameters ← env.lowerParameters signature.parameters
  let property : Target.Property := {
    name := name
    type := type
    visibility := visibility modifiers .publicAccess
    isStatic := inModule || modifiers.contains .shared
    parameters := parameters
    getter := none
    setter := none
    setterParameter := "value"
    comments := env.comments id }
  (env.forest.elements accessors).foldlM env.addAccessor property

end Env

end StructuredBasic.Lowering
