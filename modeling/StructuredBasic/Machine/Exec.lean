import StructuredBasic.Machine.Eval

/-!
# Running statements

The meaning of a statement is a change of state with a flow: how the statement ended. A jump looks
for its label in the list it stands in, then in the lists around it. Every pass of a loop and every
jump counts one step; a run that counts more steps than the limit stops.

The meanings of loops and of lists of statements are built from the meanings of their parts. The
steps that are left bound the passes and the jumps, so both are found by recursion on a number.
-/

set_option autoImplicit false

namespace StructuredBasic.Machine

open Target (Expr Stmt)

structure State where
  locals : Locals
  steps : Nat

def State.initial : State := ⟨[], 0⟩

/-- A change of state that gives a result or stops with a fault. -/
abbrev Run := ExceptT Fault (StateM State)

/-- How a statement ended. -/
inductive Flow where
  | normal
  | breaks
  | returns (value : Option Value)
  | goto (label : String)

namespace Run

/-- Counts one step. -/
def tick (limit : Nat) : Run Unit := do
  modify fun state => { state with steps := state.steps + 1 }
  if (← get).steps > limit then throw .stepLimit

/-- The value of an expression. -/
def value (e : Expr) : Run Value := do
  let state ← get
  eval state.locals e

/-- The truth of an expression. -/
def test (e : Expr) : Run Bool := do
  let v ← value e
  v.truth

/-- Gives a local a value. -/
def put (name : String) (v : Value) : Run Unit :=
  modify fun state => { state with locals := state.locals.put name v }

/-- Writes to a variable that must be declared. -/
def assign (target source : Expr) : Run Unit :=
  match target with
  | .ident name => do
    let v ← value source
    match (← get).locals.get? name with
    | some _ => put name v
    | none => throw (.undefinedVariable name)
  | _ => throw .unsupported

/-! ## Loops -/

/-- The passes of a loop. -/
def passes (limit : Nat) (test : Run Bool) (body : Run Flow) (next : Run Unit) : Nat → Run Flow
  | 0 => throw .stepLimit
  | fuel + 1 => do
    tick limit
    if ← test then
      match ← body with
      | .normal => do
        next
        passes limit test body next fuel
      | .breaks => return .normal
      | flow => return flow
    else return .normal

/-- The steps that are left, and one more to exceed the limit. -/
def remaining (limit : Nat) : Run Nat := return limit + 1 - (← get).steps

/-- A loop that tests before each pass. -/
def loop (limit : Nat) (init : Run Unit) (test : Run Bool) (next : Run Unit) (body : Run Flow) :
    Run Flow := do
  init
  passes limit test body next (← remaining limit)

/-! ## Lists of statements -/

/-- A statement of a list: the label that it is, and what it does. -/
structure Action where
  label : Option String
  run : Run Flow

/-- Runs actions in order up to the first that does not end normally. -/
def sequence : List Action → Run Flow
  | [] => return .normal
  | action :: rest => do
    match ← action.run with
    | .normal => sequence rest
    | flow => return flow

/-- What follows a label in a list. -/
def afterLabel? (label : String) : List Action → Option (List Action)
  | [] => none
  | action :: rest => if action.label = some label then some rest else afterLabel? label rest

/-- Follows jumps for as long as their labels are in the list. -/
def jumps (limit : Nat) (actions : List Action) (fuel : Nat) (flow : Flow) : Run Flow :=
  match flow with
  | .goto label =>
    match afterLabel? label actions with
    | none => return flow
    | some rest =>
      match fuel with
      | 0 => throw .stepLimit
      | fuel + 1 => do
        tick limit
        let flow ← sequence rest
        jumps limit actions fuel flow
  | flow => return flow

/-- A list of statements. -/
def block (limit : Nat) (actions : List Action) : Run Flow := do
  let flow ← sequence actions
  jumps limit actions (← remaining limit) flow

end Run

/-! ## Statements -/

/-- The label that a statement is. -/
def labelOf? : Stmt → Option String
  | .label name => some name
  | _ => none

mutual

/-- The meaning of a statement. -/
def exec (limit : Nat) : Stmt → Run Flow
  | .declare name _ init => do
    let v ← match init with
      | some e => Run.value e
      | none => pure .null
    Run.put name v
    return .normal
  | .assign target source => do
    Run.assign target source
    return .normal
  | .conditional condition thenBody elseBody => do
    if ← Run.test condition then Run.block limit (actions limit thenBody)
    else Run.block limit (actions limit elseBody)
  | .iteration init test increment body =>
    Run.loop limit (execOptional limit init) (Run.test test) (execOptional limit increment)
      (Run.block limit (actions limit body))
  | .expression e => do
    let _ ← Run.value e
    return .normal
  | .goto label => return .goto label
  | .returns none => return .returns none
  | .returns (some e) => do
    let v ← Run.value e
    return .returns (some v)
  | .breaks => return .breaks
  | .label _ => return .normal
  | .comment _ => return .normal

/-- A statement that may be left out. How it ends does not matter. -/
def execOptional (limit : Nat) : Option Stmt → Run Unit
  | none => return ()
  | some stmt => do
    let _ ← exec limit stmt
    return ()

/-- The actions of a list of statements. -/
def actions (limit : Nat) : List Stmt → List Run.Action
  | [] => []
  | stmt :: rest => ⟨labelOf? stmt, exec limit stmt⟩ :: actions limit rest

end

/-- The result of a body from how it ended. -/
def result : Flow → Except Fault (Option Value)
  | .normal => .ok none
  | .returns value => .ok value
  | .breaks => .error .strayBreak
  | .goto label => .error (.undefinedLabel label)

/-- Runs a body for at most `limit` steps. -/
def runWithin (limit : Nat) (body : List Stmt) : Run (Option Value) := do
  let flow ← Run.block limit (actions limit body)
  result flow

/-- The steps after which a run counts as endless. -/
def stepLimit : Nat := 100000

/-- Runs a body from a state. The state after a fault is the one at the fault. -/
def run (body : List Stmt) (state : State) : Except Fault (Option Value) × State :=
  (runWithin stepLimit body).run state

end StructuredBasic.Machine
