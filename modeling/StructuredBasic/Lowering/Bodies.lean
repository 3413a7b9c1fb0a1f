import StructuredBasic.Lowering.Stmts

/-!
# Lowering bodies

The recursion through blocks: bodies are lists of statements, and block statements hold bodies.
-/

set_option autoImplicit false

namespace StructuredBasic.Syntax.Forest

variable {f : Forest}

theorem block_lt {id : Nat} {slot : Option Nat} (h : ∀ c, slot = some c → c < id) :
    3 * slot.getD 0 + 2 < 3 * id + 3 := by
  cases slot with
  | none => simp only [Option.getD_none]; omega
  | some c =>
    have := h c rfl
    simp only [Option.getD_some]
    omega

theorem body_lt {id : Nat} {slot : Option Nat} (h : ∀ c, slot = some c → c < id) :
    3 * slot.getD 0 + 1 < 3 * id + 3 :=
  Nat.lt_trans (Nat.lt_succ_self _) (block_lt h)

theorem lt_of_stmt_slot {id : Nat} {s : Stmt} {slot : Option Nat} (h : f.stmt? id = some s)
    (hs : ∀ c, slot = some c → c ∈ s.slots.map Slot.id) : ∀ c, slot = some c → c < id :=
  fun c hc => lt_of_stmt h (hs c hc)

end StructuredBasic.Syntax.Forest

namespace StructuredBasic.Lowering.Env

open Syntax

set_option linter.unusedVariables false in
mutual

/-- Lowers a statement, preceded by its comments. -/
def lowerStmt (env : Env) (routine : Routine) (id : Nat) : Lower (List Target.Stmt) := do
  let comments := (env.comments id).map Target.Stmt.comment
  let stmts ← match h : env.forest.stmt? id with
    | some .empty =>
      match env.forest.kind id with
      | .emptyStatement => pure []
      | .stopStatement =>
        pure [.expression (.staticCall "System.Diagnostics.Debugger" "Break" [])]
      | .endStatement => pure [.expression (.staticCall "Environment" "Exit" [.int 0])]
      | _ => env.unsupported id
    | some (.endBlock _) => pure []
    | some (.labelReference name isLineNumber) =>
      let label := labelName name isLineNumber
      match env.forest.kind id with
      | .labelStatement => pure [.label label]
      | .gotoStatement => pure [.goto label]
      | _ => env.lowerGoSub id label
    | some (.exit block) => do
      let stmt ← env.lowerExit routine id block
      pure [stmt]
    | some (.returnValue expression) => do
      let stmt ← env.lowerReturn routine id expression
      pure [stmt]
    | some (.raiseEvent name arguments) => do
      let event ← env.nameText name
      let args ← env.lowerArguments arguments
      pure [.expression (.delegateInvoke (.ident event) args)]
    | some (.reDim preserve arrays) => env.lowerReDim id preserve arrays
    | some (.erase arrays) => do
      let targets ← (env.forest.elements (some arrays)).mapM fun array =>
        (env.lowerExpr array : Lower Target.Expr)
      pure (targets.map fun array => .assign array .null)
    | some (.call target arguments) => do
      let callee ← env.lowerExpr target
      let args ← env.lowerArguments arguments
      pure [.expression (invocation callee args)]
    | some (.assignment target source) => do
      let target ← env.assignmentTarget routine target
      let source ← env.lowerExpr source
      pure [.assign target source]
    | some (.compoundAssignment op target source) => env.lowerCompound routine id op target source
    | some (.midAssignment target start length source) =>
      env.lowerMid routine target start length source
    | some (.localDeclaration modifiers declarators) => env.lowerLocals modifiers declarators
    | some (.doBlock condition statements tail) =>
      match condition, env.trailingCondition? tail with
      | some _, some _ => throw (.malformed (.conditionAtBothEnds (env.forest.span id)))
      | some condition, none => do
        let test ← env.lowerCondition condition
        let body ← lowerBody env routine statements
        pure [preTestLoop test body]
      | none, some condition => do
        let latch ← freshName "latch"
        let body ← lowerBody env routine statements
        let test ← env.lowerCondition condition
        pure [postTestLoop latch test body]
      | none, none => do
        let body ← lowerBody env routine statements
        pure [endlessLoop body]
    | some (.whileBlock condition statements _) => do
      let test ← env.lowerExpr condition
      let body ← lowerBody env routine statements
      pure [preTestLoop test body]
    | some (.forBlock control declarator lower upper step statements _) => do
      let declared ← env.declareControl declarator
      let control ← env.lowerExpr control
      let lower ← env.lowerExpr lower
      let upper ← env.lowerExpr upper
      let step ← match step with
        | some step => (env.lowerExpr step : Lower Target.Expr)
        | none => pure (.int 1)
      let body ← lowerBody env routine statements
      pure (declared ++ [countedLoop control lower upper step body])
    | some (.forEachBlock control declarator collection statements _) => do
      let declared ← env.declareControl declarator
      let type ← env.controlType id control
      let control ← env.lowerExpr control
      let collection ← env.lowerExpr collection
      let enumerator ← freshName "enumerator"
      let body ← lowerBody env routine statements
      pure (declared ++ [elementLoop enumerator control collection type body])
    | some (.guarded expression statements _) =>
      match env.forest.kind id with
      | .withBlockStatement => do
        let subject ← env.lowerExpr expression
        lowerBody (env.within subject) routine statements
      | _ => env.unsupported id
    | some (.ifBlock condition statements elseIfs elseBlock _) => do
      let condition ← env.lowerExpr condition
      let thenBody ← lowerBody env routine statements
      let branches ← lowerElseIfs env routine elseIfs
      let tail ← lowerElse env routine elseBlock
      pure [.conditional condition thenBody (chain branches tail)]
    | some (.lineIf condition statements elseStatements) => do
      let condition ← env.lowerExpr condition
      let thenBody ← lowerBody env routine statements
      let elseBody ← lowerBody env routine elseStatements
      pure [.conditional condition thenBody elseBody]
    | some (.selectBlock expression cases caseElse _) => do
      let (declared, value) ← env.lowerSelector expression
      let branches ← lowerCases env routine value cases
      let tail ← lowerElse env routine caseElse
      pure (declared ++ chain branches tail)
    | _ => env.unsupported id
  return comments ++ stmts
termination_by 3 * id + 3
decreasing_by
  all_goals first
    | refine Forest.body_lt (Forest.lt_of_stmt_slot h fun c hc => ?_)
    | refine Forest.block_lt (Forest.lt_of_stmt_slot h fun c hc => ?_)
  all_goals subst hc; simp [Stmt.slots, Slot.statements, Slot.opt]

/-- Lowers the statements of a list. -/
def lowerBody (env : Env) (routine : Routine) (statements : Option Nat) :
    Lower (List Target.Stmt) :=
  match statements with
  | none => pure []
  | some c => do
    let lists ← (env.forest.elements (some c)).attach.mapM fun ⟨id, _⟩ => lowerStmt env routine id
    return lists.flatten
termination_by 3 * statements.getD 0 + 1
decreasing_by
  have := Forest.lt_of_mem_elements ‹_›
  simp only [Option.getD_some]
  omega

/-- The branches of the `ElseIf` blocks of a list. -/
def lowerElseIfs (env : Env) (routine : Routine) (elseIfs : Option Nat) : Lower (List Branch) :=
  match elseIfs with
  | none => pure []
  | some c =>
    (env.forest.elements (some c)).attach.mapM fun ⟨id, hid⟩ =>
      match h : env.forest.stmt? id with
      | some (.elseIfBlock condition statements) => do
        let test ← env.lowerExpr condition
        let body ← lowerBody env routine statements
        pure (test, body)
      | _ => env.unsupported id
termination_by 3 * elseIfs.getD 0 + 1
decreasing_by
  have := Forest.lt_of_mem_elements hid
  have hs : ∀ c, statements = some c → c < id := Forest.lt_of_stmt_slot h fun c hc => by
    subst hc; simp [Stmt.slots, Slot.statements, Slot.opt]
  have := Forest.body_lt hs
  simp only [Option.getD_some]
  omega

/-- The branches of the `Case` blocks of a list, testing `value`. -/
def lowerCases (env : Env) (routine : Routine) (value : Target.Expr) (cases : Option Nat) :
    Lower (List Branch) :=
  match cases with
  | none => pure []
  | some c =>
    (env.forest.elements (some c)).attach.mapM fun ⟨id, hid⟩ =>
      match h : env.forest.stmt? id with
      | some (.caseBlock clauses statements) => do
        let test ← env.lowerCaseTest value id clauses
        let body ← lowerBody env routine statements
        pure (test, body)
      | _ => env.unsupported id
termination_by 3 * cases.getD 0 + 1
decreasing_by
  have := Forest.lt_of_mem_elements hid
  have hs : ∀ c, statements = some c → c < id := Forest.lt_of_stmt_slot h fun c hc => by
    subst hc; simp [Stmt.slots, Slot.statements, Slot.opt]
  have := Forest.body_lt hs
  simp only [Option.getD_some]
  omega

/-- The statements of an `Else` or `Case Else` block. -/
def lowerElse (env : Env) (routine : Routine) (block : Option Nat) : Lower (List Target.Stmt) :=
  match block with
  | none => pure []
  | some id =>
    match h : env.forest.stmt? id with
    | some (.body statements) => lowerBody env routine statements
    | _ => env.unsupported id
termination_by 3 * block.getD 0 + 2
decreasing_by
  have hs : ∀ c, statements = some c → c < id := Forest.lt_of_stmt_slot h fun c hc => by
    subst hc; simp [Stmt.slots, Slot.statements, Slot.opt]
  have := Forest.body_lt hs
  simp only [Option.getD_some]
  omega

end

end StructuredBasic.Lowering.Env
