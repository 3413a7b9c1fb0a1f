import StructuredBasic.Lowering.Exprs

/-!
# Routines

A routine is a method or an accessor. One that assigns to its own name keeps its result in a local
that stands in for the name. `GoSub` and the bare `Return` that ends its part of the routine meet
at a label made up for the purpose.
-/

set_option autoImplicit false

namespace StructuredBasic.Lowering

open Syntax

/-- The routine whose body is being lowered. -/
structure Routine where
  name : String
  /-- The local that holds the result, if the routine assigns to its own name. -/
  shadow : Option String
  returnType : Target.Ty

/-! ## Labels -/

/-- The label of the target for a label of the source. Line numbers get letters in front. -/
def labelName (name : String) (isLineNumber : Bool) : String :=
  if isLineNumber then "Line" ++ name else name

/-- The label that a part of a routine returns to. -/
def returnPoint (label : String) : String := label ++ "_return"

/-- Names are equal when they differ in case only. -/
def sameName (a b : String) : Bool := a.toLower == b.toLower

namespace Env

variable (env : Env)

/-- The label that a node of the given kind names. -/
def labelOf? (kind : Kind) (id : Nat) : Option String :=
  match env.forest.stmt? id with
  | some (.labelReference name isLineNumber) =>
    if env.forest.kind id = kind then some (labelName name isLineNumber) else none
  | _ => none

/-- The last label defined before `id` in the routine. -/
def precedingLabel? (routine id : Nat) : Option String :=
  (((env.forest.descendants routine).takeWhile fun node => node != id).filterMap
    (env.labelOf? .labelStatement)).getLast?

/-- Whether some `GoSub` of the routine goes to `label`. -/
def isGoSubTarget (routine : Nat) (label : String) : Bool :=
  (env.forest.descendants routine).any fun node =>
    (env.labelOf? .goSubStatement node).any fun target => sameName target label

/-! ## The surrounding routine and loop -/

def isRoutine : Kind → Bool
  | .subDeclaration | .functionDeclaration | .constructorDeclaration | .operatorDeclaration
  | .getAccessorDeclaration | .setAccessorDeclaration => true
  | _ => false

/-- The nearest method or accessor around a node. -/
def enclosingRoutine? (id : Nat) : Option Nat := env.forest.enclosing? id isRoutine

/-- The block keyword of a loop. -/
def loopBlock? : Kind → Option Block
  | .doBlockStatement => some .doLoop
  | .forBlockStatement => some .forLoop
  | .forEachBlockStatement => some .forLoop
  | .whileBlockStatement => some .whileLoop
  | _ => none

/-- The keyword of the nearest loop around a node. -/
def enclosingLoop? (id : Nat) : Option Block :=
  (env.forest.ancestors id).findSome? fun ancestor => loopBlock? (env.forest.kind ancestor)

/-- The result type of the routine around a node, read off the tree. -/
def exitType (id : Nat) : Result Target.Ty :=
  match env.enclosingRoutine? id with
  | none => .error (.malformed (.exitOutsideRoutine (env.forest.span id)))
  | some routine =>
    match env.forest.kind routine, env.forest.decl? routine with
    | .functionDeclaration, some (.method _ signature _ _ _ _) =>
      env.variableType signature.name signature.resultType
    | .operatorDeclaration, some (.method _ signature _ _ _ _) =>
      env.variableType signature.name signature.resultType
    | .getAccessorDeclaration, _ =>
      match (env.forest.enclosing? routine (· == .propertyDeclaration)).bind env.forest.decl? with
      | some (.property _ signature _ _ _) =>
        env.variableType signature.name signature.resultType
      | _ => .error (.malformed .getterOutsideProperty)
    | _, _ => .ok .void

/-! ## Leaving -/

/-- `Exit` leaves the nearest loop, whose keyword it has to name, or the routine. -/
def lowerExit (routine : Routine) (id : Nat) (block : Block) : Result Target.Stmt :=
  match block with
  | .doLoop | .forLoop | .whileLoop =>
    if env.enclosingLoop? id = some block then .ok .breaks else env.unsupported id
  | .subroutine | .function | .property =>
    match routine.shadow with
    | some shadow => .ok (.returns (some (.ident shadow)))
    | none => do
      let type ← env.exitType id
      if type.isVoid then return .returns none else return .returns (some (zeroValue type))
  | _ => env.unsupported id

/-- A bare `Return` goes back to the `GoSub` of the label before it, or leaves the routine. -/
def lowerBareReturn (routine : Routine) (id : Nat) : Result Target.Stmt :=
  match env.enclosingRoutine? id with
  | none => .error (.malformed (.returnOutsideRoutine (env.forest.span id)))
  | some node =>
    match env.precedingLabel? node id with
    | some label =>
      if env.isGoSubTarget node label then .ok (.goto (returnPoint label))
      else .ok (.returns (routine.shadow.map Target.Expr.ident))
    | none => .ok (.returns (routine.shadow.map Target.Expr.ident))

def lowerReturn (routine : Routine) (id : Nat) : Option Nat → Result Target.Stmt
  | some expression => return .returns (some (← env.lowerExpr expression))
  | none => env.lowerBareReturn routine id

/-! ## The result of a routine -/

/-- The target of an assignment, a compound assignment or a `Mid` assignment. -/
def assignedNode? (id : Nat) : Option Nat :=
  match env.forest.stmt? id with
  | some (.assignment target _) => some target
  | some (.compoundAssignment _ target _) => some target
  | some (.midAssignment target _ _ _) => some target
  | _ => none

/-- Whether an expression is the bare name `name`. -/
def isNamed (id : Nat) (name : String) : Bool :=
  match env.forest.expr? id with
  | some (.simpleName simple) =>
    match env.forest.nameText? simple with
    | some text => sameName text name
    | none => false
  | _ => false

/-- Whether something under `routine` assigns to `name`. -/
def assignsName (routine : Nat) (name : String) : Bool :=
  (env.forest.descendants routine).any fun id =>
    (env.assignedNode? id).any fun target => env.isNamed target name

/-- The place that an assignment writes. The name of the routine stands for its result. -/
def assignmentTarget (routine : Routine) (target : Nat) : Result Target.Expr :=
  match routine.shadow with
  | some shadow =>
    if env.isNamed target routine.name then .ok (.ident shadow) else env.lowerExpr target
  | none => env.lowerExpr target

/-- The simple names under a node, in lower case. -/
def namesUnder (id : Nat) : List String :=
  (env.forest.descendants id).filterMap fun node =>
    match env.forest.name? node with
    | some (.simple text _ _) => some text.toLower
    | _ => none

end Env

end StructuredBasic.Lowering
