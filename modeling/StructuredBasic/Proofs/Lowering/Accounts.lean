import StructuredBasic.Proofs.Lowering.Enclosing
import StructuredBasic.Proofs.Lowering.Independence
import StructuredBasic.Proofs.Lowering.Visits

/-!
# What the lowering of statements and declarations visits

Statements and declarations account for the nodes that they are lowered with, down from the
declarations of a file. The statements of a `With` block are the only ones that are visited in other
surroundings than the block.
-/

set_option autoImplicit false

namespace StructuredBasic.Lowering

open Syntax

/-! ## Statements without a body -/

section Plain

variable {env : Env} {routine : Routine}

open Result

theorem settled_of_isNamed {target : Nat} {name : String} (h : env.isNamed target name = true) :
    Settled env target := by
  unfold Env.isNamed at h
  split at h
  · next hexpr =>
    apply Settled.expr hexpr rfl
    intro c hc
    cases hc
  · cases h

theorem accounts_assignmentTarget (env : Env) (routine : Routine) (target : Nat) :
    (env.assignmentTarget routine target).Accounts env [target] := by
  unfold Env.assignmentTarget
  split
  · split
    · next hnamed =>
      have hsettled := settled_of_isNamed hnamed
      exact accounts_of_settled (List.forall_mem_singleton.2 hsettled)
    · exact accountsFor env target
  · exact accountsFor env target

theorem accounts_lowerMid (env : Env) (routine : Routine) (target start : Nat) (length : Option Nat)
    (source : Nat) : (env.lowerMid routine target start length source).Accounts env
      ([target, start] ++ length.toList ++ [source]) := by
  have htarget := accounts_assignmentTarget env routine target
  have hstart := accountsFor env start
  have hsource := accountsFor env source
  unfold Env.lowerMid
  cases length with
  | none =>
    exact htarget.bind fun _ => hstart.bind fun _ => fails_ok.bind_accounts fun _ =>
      hsource.bind_ok
  | some given =>
    exact htarget.bind fun _ => hstart.bind fun _ => Accounts.bind (accountsFor env given)
      fun _ => hsource.bind_ok

theorem accounts_lowerCompound (env : Env) (routine : Routine) (id : Nat) (op : Operator)
    (target source : Nat) :
    (env.lowerCompound routine id op target source).Accounts env [target, source] := by
  unfold Env.lowerCompound
  refine (accounts_assignmentTarget env routine target).bind fun _ => ?_
  refine Accounts.bind_fails (accountsFor env source) fun _ => ?_
  split
  · exact fails_ok
  · exact elsewhere_unsupported

theorem accounts_lowerLocals (env : Env) (modifiers declarators : Nat) :
    (env.lowerLocals modifiers declarators).Accounts env
      (env.forest.elements (some declarators)) := by
  unfold Env.lowerLocals
  refine (accounts_mapM_self fun declarator _ => ?_).bind_ok
  refine (accounts_declaredVariables declarator).bind_fails fun _ => fails_mapM fun v _ => ?_
  unfold Env.declareLocal
  split
  · exact fails_ok
  · split
    · exact elsewhere_unsupported
    · exact fails_ok

theorem accounts_declareControl (env : Env) (declarator : Option Nat) :
    (env.declareControl declarator).Accounts env declarator.toList := by
  cases declarator with
  | none => exact accounts_ok
  | some declarator => exact (accounts_declaredVariables declarator).bind_ok

theorem accounts_lowerCondition (env : Env) (condition : LoopCondition) :
    (env.lowerCondition condition).Accounts env [condition.expression] :=
  Accounts.bind_ok (accountsFor env condition.expression)

theorem accounts_lowerClause (value : Target.Expr) (clause : Nat) :
    (env.lowerClause value clause).Accounts env [clause] := by
  unfold Env.lowerClause
  split
  · next op operand hp =>
    apply Accounts.node hp rfl
    rw [Forest.parts, hp]
    exact Accounts.bind_ok (accountsFor env operand)
  · next lower upper hp =>
    apply Accounts.node hp rfl
    rw [Forest.parts, hp]
    exact Accounts.bind (accountsFor env lower) fun _ =>
      Accounts.bind_ok (accountsFor env upper)
  · exact accounts_unsupported

theorem accounts_lowerCaseTest (value : Target.Expr) (case clauses : Nat) :
    (env.lowerCaseTest value case clauses).Accounts env
      (env.forest.elements (some clauses)) := by
  unfold Env.lowerCaseTest
  refine (accounts_mapM_self fun clause _ => accounts_lowerClause value clause).bind_fails ?_
  intro tests
  split
  · exact fails_ok
  · exact elsewhere_unsupported

theorem accounts_lowerSelector (expression : Nat) :
    (env.lowerSelector expression).Accounts env [expression] := by
  unfold Env.lowerSelector
  refine (Lower.accounts_lift (accountsFor env expression)).bind_fails fun _ => ?_
  split
  · exact Lower.fails_pure
  · exact Lower.fails_pure
  · exact Lower.fails_freshName.bind fun _ => Lower.fails_pure

theorem accounts_lowerReturn (env : Env) (routine : Routine) (id : Nat) (expression : Option Nat) :
    (env.lowerReturn routine id expression).Accounts env expression.toList := by
  cases expression with
  | some expression => exact Accounts.bind_ok (accountsFor env expression)
  | none =>
    apply accounts_nil
    show (env.lowerBareReturn routine id).Fails IsElsewhere
    unfold Env.lowerBareReturn
    split
    · exact fails_error fun span herror => by cases herror
    · split
      · split <;> exact fails_ok
      · exact fails_ok

theorem elsewhere_exitType (id : Nat) : (env.exitType id).Fails IsElsewhere := by
  unfold Env.exitType
  split
  · exact fails_error fun span herror => by cases herror
  · split
    · exact elsewhere_variableType env _ _
    · exact elsewhere_variableType env _ _
    · split
      · exact elsewhere_variableType env _ _
      · exact fails_error fun span herror => by cases herror
    · exact fails_ok

theorem elsewhere_lowerExit (env : Env) (routine : Routine) (id : Nat) (block : Block) :
    (env.lowerExit routine id block).Fails IsElsewhere := by
  have htype : Result.Fails (α := Target.Stmt) (do
      let type ← env.exitType id
      if type.isVoid then return .returns none else return .returns (some (zeroValue type)))
      IsElsewhere := by
    refine (elsewhere_exitType id).bind fun type => ?_
    split <;> exact fails_ok
  unfold Env.lowerExit
  split <;> first
    | exact elsewhere_unsupported
    | (split
       · exact fails_ok
       · first
         | exact elsewhere_unsupported
         | exact htype)

theorem elsewhere_lowerGoSub (id : Nat) (label : String) :
    (env.lowerGoSub id label).Fails IsElsewhere := by
  unfold Env.lowerGoSub
  refine Lower.fails_get.bind fun state => ?_
  split
  · exact Lower.fails_lift elsewhere_unsupported
  · exact Lower.fails_set.bind fun _ => Lower.fails_pure

theorem accounts_lowerReDimOperand (id : Nat) (preserve : Bool) (operand : Nat)
    (declarator : Option Nat) :
    (env.lowerReDimOperand id preserve operand declarator).Accounts env [operand] := by
  unfold Env.lowerReDimOperand
  split
  · next target arguments _ hexpr =>
    have helement : (env.reDimElement declarator (env.referenceText? target)).Fails IsElsewhere :=
      elsewhere_of_blames (blames_reDimElement declarator (env.referenceText? target))
    apply Lower.Accounts.expr hexpr rfl
    refine (Lower.fails_lift helement).bind_accounts fun element => ?_
    refine (Lower.accounts_lift (accountsFor env target)).bind fun array => ?_
    refine (Lower.accounts_lift (accounts_boundLengths arguments)).bind_fails fun lengths => ?_
    have hrest : Lower.Fails (if preserve then do
          let temp ← freshName ((env.referenceText? target).getD "array" ++ "Preserved")
          return Env.preserved temp array (.arrayCreate element lengths none)
            (.array element lengths.length)
        else return [.assign array (.arrayCreate element lengths none)]) IsElsewhere := by
      split
      · exact Lower.fails_freshName.bind fun _ => Lower.fails_pure
      · exact Lower.fails_pure
    by_cases hmany : Env.maxRank < lengths.length
    · simp only [hmany, if_true]
      exact Lower.fails_throw_bind fun span herror => by cases herror
    · simp only [hmany, if_false]
      exact hrest
  · exact fun s => accounts_unsupported

theorem accounts_lowerReDim {id arrays : Nat} (preserve : Bool)
    (hstmt : env.forest.stmt? id = some (.reDim preserve arrays)) :
    (env.lowerReDim id preserve arrays).Accounts env (env.forest.elements (some arrays)) := by
  have hlength : (env.forest.elements (some arrays)).length ≤
      (env.forest.reDimDeclarators id).length := by
    simp only [Forest.reDimDeclarators, hstmt, List.length_map, Nat.le_refl]
  unfold Env.lowerReDim
  refine ((Lower.accounts_mapM (p := fun pair => [pair.1]) ?_).congr ?_).bind_pure
  · rintro ⟨operand, declarator⟩ _
    exact accounts_lowerReDimOperand id preserve operand declarator
  · intro x
    rw [← List.map_eq_flatMap, List.map_fst_zip hlength]

end Plain

/-! ## Bodies -/

/-- The lowering of the statement accounts for it, whatever surrounds it. -/
def StmtAccounts (routine : Routine) (id : Nat) : Prop :=
  ∀ env : Env, (env.lowerStmt routine id).Accounts env [id]

section Bodies

variable {env : Env} {n : Nat} {routine : Routine}

theorem accounts_lowerBody_of {statements : Option Nat}
    (ih : ∀ c, statements = some c → ∀ x < c, StmtAccounts routine x) :
    (env.lowerBody routine statements).Accounts env (env.forest.elements statements) := by
  cases statements with
  | none =>
    rw [Env.lowerBody]
    exact Lower.accounts_nil Lower.fails_pure
  | some c =>
    rw [Env.lowerBody]
    refine (Lower.accounts_mapM_attach fun x => ?_).bind_pure
    exact ih c rfl x.1 (Forest.lt_of_mem_elements x.2) env

/-- A body below a statement comes before it. -/
theorem accounts_lowerBody_below (ih : ∀ x < n, StmtAccounts routine x) {stmt : Stmt}
    {statements : Option Nat} {id : Nat} (hstmt : env.forest.stmt? id = some stmt) (hid : id ≤ n)
    (hl : statements ∈ stmt.lists) :
    (env.lowerBody routine statements).Accounts env (env.forest.elements statements) := by
  apply accounts_lowerBody_of
  rintro c rfl x hx
  have hlt := Forest.lt_of_mem_children (Forest.mem_children_of_list hstmt hl)
  exact ih x (by omega)

theorem accounts_lowerElseIfs {elseIfs : Option Nat}
    (ih : ∀ c, elseIfs = some c → ∀ x < c, StmtAccounts routine x) :
    (env.lowerElseIfs routine elseIfs).Accounts env (env.forest.elements elseIfs) := by
  cases elseIfs with
  | none =>
    rw [Env.lowerElseIfs]
    exact Lower.accounts_nil Lower.fails_pure
  | some c =>
    rw [Env.lowerElseIfs]
    apply Lower.accounts_mapM_attach
    rintro ⟨x, hx⟩
    have hlt := Forest.lt_of_mem_elements hx
    dsimp only
    split
    · next condition statements hstmt =>
      apply Lower.Accounts.stmt hstmt rfl
      have hbody : (env.lowerBody routine statements).Accounts env
          (env.forest.elements statements) :=
        accounts_lowerBody_below (ih c rfl) hstmt (Nat.le_of_lt hlt) (by simp [Stmt.lists])
      exact (Lower.accounts_lift (accountsFor env condition)).bind fun _ => hbody.bind_pure
    · exact fun s => Result.accounts_unsupported

theorem accounts_lowerCases {cases : Option Nat}
    (ih : ∀ c, cases = some c → ∀ x < c, StmtAccounts routine x) (value : Target.Expr) :
    (env.lowerCases routine value cases).Accounts env (env.forest.elements cases) := by
  cases cases with
  | none =>
    rw [Env.lowerCases]
    exact Lower.accounts_nil Lower.fails_pure
  | some c =>
    rw [Env.lowerCases]
    apply Lower.accounts_mapM_attach
    rintro ⟨x, hx⟩
    have hlt := Forest.lt_of_mem_elements hx
    dsimp only
    split
    · next clauses statements hstmt =>
      apply Lower.Accounts.stmt hstmt rfl
      have hbody : (env.lowerBody routine statements).Accounts env
          (env.forest.elements statements) :=
        accounts_lowerBody_below (ih c rfl) hstmt (Nat.le_of_lt hlt) (by simp [Stmt.lists])
      exact (Lower.accounts_lift (accounts_lowerCaseTest value x clauses)).bind fun _ =>
        hbody.bind_pure
    · exact fun s => Result.accounts_unsupported

theorem accounts_lowerElse {block : Option Nat}
    (ih : ∀ c, block = some c → ∀ x < c, StmtAccounts routine x) :
    (env.lowerElse routine block).Accounts env block.toList := by
  cases block with
  | none =>
    rw [Env.lowerElse]
    exact Lower.accounts_nil Lower.fails_pure
  | some x =>
    rw [Env.lowerElse]
    split
    · next statements hstmt =>
      apply Lower.Accounts.stmt hstmt rfl
      exact accounts_lowerBody_below (ih x rfl) hstmt (Nat.le_refl _) (by simp [Stmt.lists])
    · exact fun s => Result.accounts_unsupported

/-- The statements of a `With` block are visited under its subject. -/
theorem accounts_lowerWith {α : Type} {id expression : Nat} {statements tail : Option Nat}
    {body : Target.Expr → Lower α}
    (hstmt : env.forest.stmt? id = some (.guarded expression statements tail))
    (hk : env.forest.kind id = .withBlockStatement)
    (hbody : ∀ subject,
      (body subject).Accounts (env.within subject) (env.forest.elements statements)) :
    Lower.Accounts (do
      let subject ← (env.lowerExpr expression : Lower Target.Expr)
      body subject) env [id] := by
  have hp := Forest.payload?_of_stmt? hstmt
  have hparts : env.forest.parts id = [expression] := by rw [Forest.parts, hp]; rfl
  have hexpression := accountsFor env expression
  intro s
  cases hsubject : env.lowerExpr expression with
  | error e =>
    rw [AccountsFor, hsubject] at hexpression
    change Result.Accounts (.error e) env [id]
    refine ⟨fun a ha => (by cases ha), fun span he => ?_⟩
    cases he
    obtain ⟨x, hx, inner, y, hvisits, hstranded⟩ := hexpression.stranded span rfl
    exact ⟨id, List.mem_singleton_self id, inner, y, .part (hparts ▸ hx) hvisits, hstranded⟩
  | ok subject =>
    have hinside := hbody subject s
    change Result.Accounts (body subject s) env [id]
    refine ⟨fun a ha => List.forall_mem_singleton.2 fun inner y hvisits hbare => ?_, ?_⟩
    · cases hvisits with
      | here => exact absurd hstmt hbare.ne_stmt
      | part hc hvisits =>
        exact hexpression.settled subject hsubject _ (hparts ▸ hc) inner y hvisits hbare
      | within hother _ hs hc hvisits =>
        cases hstmt.symm.trans hother
        cases hsubject.symm.trans hs
        exact hinside.settled a ha _ hc inner y hvisits hbare
    · intro span he
      obtain ⟨c, hc, inner, y, hvisits, hstranded⟩ := hinside.stranded span he
      exact ⟨id, List.mem_singleton_self id, inner, y, .within hstmt hk hsubject hc hvisits,
        hstranded⟩

end Bodies

section Statements

variable {env : Env} {id : Nat} {routine : Routine} {statements tail : Option Nat}

theorem accounts_behind {m : Lower (List Target.Stmt)} {ids : List Nat} (hm : m.Accounts env ids)
    (texts : List Target.Stmt) :
    Lower.Accounts (do let out ← m; return texts ++ out) env ids :=
  hm.bind_pure

theorem elsewhere_ending {texts out : List Target.Stmt} :
    Lower.Fails (do
      let out ← (pure out : Lower (List Target.Stmt))
      return texts ++ out) IsElsewhere :=
  Lower.fails_pure.bind fun _ => Lower.fails_pure

theorem accounts_ending {texts out : List Target.Stmt} :
    Lower.Accounts (do
      let out ← (pure out : Lower (List Target.Stmt))
      return texts ++ out) env [] :=
  Lower.accounts_nil elsewhere_ending

theorem accounts_refused (texts : List Target.Stmt) :
    Lower.Accounts (do
      let out ← (env.unsupported id : Lower (List Target.Stmt))
      return texts ++ out) env [id] :=
  fun _ => Result.accounts_unsupported

theorem accounts_operand (env : Env) (x : Nat) :
    Lower.Accounts (liftM (env.lowerExpr x)) env [x] :=
  Lower.accounts_lift (accountsFor env x)

section Blocks

variable (ih : ∀ x < id, StmtAccounts routine x)

include ih

theorem accounts_list {stmt : Stmt} {l : Option Nat} (hstmt : env.forest.stmt? id = some stmt)
    (hl : l ∈ stmt.lists) : (env.lowerBody routine l).Accounts env (env.forest.elements l) :=
  accounts_lowerBody_below ih hstmt (Nat.le_refl _) hl

theorem stmtAccounts_below {c : Nat} (hc : c < id) : ∀ x < c, StmtAccounts routine x :=
  fun x hx => ih x (Nat.lt_trans hx hc)

theorem accounts_do {condition : Option LoopCondition}
    (hstmt : env.forest.stmt? id = some (.doBlock condition statements tail)) :
    (env.lowerStmt routine id).Accounts env [id] := by
  have hbody := accounts_list (l := statements) ih hstmt (by simp [Stmt.lists])
  have htrailing : env.trailingCondition? tail = env.forest.trailing tail := rfl
  rw [Env.lowerStmt, hstmt]
  apply Lower.Accounts.stmt hstmt rfl
  dsimp only
  rw [Forest.stmtParts, ← htrailing]
  split
  · exact fun s => Result.accounts_error fun span herror => by cases herror
  · next condition hnone =>
    have htest := Lower.accounts_lift (accounts_lowerCondition env condition)
    rw [hnone, Option.toList_none, List.map_nil, List.append_nil]
    exact htest.bind fun _ => hbody.bind_fails fun _ => elsewhere_ending
  · next condition hsome =>
    have htest := Lower.accounts_lift (accounts_lowerCondition env condition)
    rw [hsome]
    exact (Lower.fails_freshName.bind_accounts fun _ =>
      hbody.bind fun _ => htest.bind_fails fun _ => elsewhere_ending)
  · next hnone =>
    rw [hnone, Option.toList_none, List.map_nil, List.append_nil]
    exact hbody.bind_fails fun _ => elsewhere_ending

theorem accounts_for {control lower upper : Nat} {declarator step : Option Nat}
    (hstmt : env.forest.stmt? id =
      some (.forBlock control declarator lower upper step statements tail)) :
    (env.lowerStmt routine id).Accounts env [id] := by
  have hdeclared := Lower.accounts_lift (accounts_declareControl env declarator)
  have hbody := accounts_list (l := statements) ih hstmt (by simp [Stmt.lists])
  rw [Env.lowerStmt, hstmt]
  apply Lower.Accounts.stmt hstmt rfl
  rw [Forest.stmtParts, List.append_assoc, List.append_assoc]
  refine hdeclared.bind fun _ => (accounts_operand env control).bind fun _ =>
    (accounts_operand env lower).bind fun _ => (accounts_operand env upper).bind fun _ => ?_
  cases step with
  | some step =>
    exact (accounts_operand env step).bind fun _ => hbody.bind_fails fun _ => elsewhere_ending
  | none =>
    exact Lower.Fails.bind_accounts Lower.fails_pure fun _ =>
      hbody.bind_fails fun _ => elsewhere_ending

theorem accounts_forEach {control collection : Nat} {declarator : Option Nat}
    (hstmt : env.forest.stmt? id =
      some (.forEachBlock control declarator collection statements tail)) :
    (env.lowerStmt routine id).Accounts env [id] := by
  have hdeclared := Lower.accounts_lift (accounts_declareControl env declarator)
  have htype : (env.controlType id control).Fails IsElsewhere :=
    Result.elsewhere_of_blames (blames_controlType id control)
  have hbody := accounts_list (l := statements) ih hstmt (by simp [Stmt.lists])
  rw [Env.lowerStmt, hstmt]
  apply Lower.Accounts.stmt hstmt rfl
  rw [Forest.stmtParts, List.append_assoc]
  refine hdeclared.bind fun _ => (Lower.fails_lift htype).bind_accounts fun _ => ?_
  refine (accounts_operand env control).bind fun _ =>
    (accounts_operand env collection).bind fun _ => ?_
  exact Lower.fails_freshName.bind_accounts fun _ => hbody.bind_fails fun _ => elsewhere_ending

theorem accounts_guarded {expression : Nat}
    (hstmt : env.forest.stmt? id = some (.guarded expression statements tail)) :
    (env.lowerStmt routine id).Accounts env [id] := by
  rw [Env.lowerStmt, hstmt]
  dsimp only
  split
  · next hk =>
    refine accounts_lowerWith hstmt hk fun subject => ?_
    have hbody : ((env.within subject).lowerBody routine statements).Accounts
        (env.within subject) (env.forest.elements statements) :=
      accounts_lowerBody_below ih hstmt (Nat.le_refl _) (by simp [Stmt.lists])
    exact hbody.bind_fails fun _ => Lower.fails_pure
  · exact accounts_refused _

theorem accounts_if {condition : Nat} {elseIfs elseBlock : Option Nat}
    (hstmt : env.forest.stmt? id = some (.ifBlock condition statements elseIfs elseBlock tail)) :
    (env.lowerStmt routine id).Accounts env [id] := by
  have hbody := accounts_list (l := statements) ih hstmt (by simp [Stmt.lists])
  have helseIfs : (env.lowerElseIfs routine elseIfs).Accounts env (env.forest.elements elseIfs) :=
    accounts_lowerElseIfs fun c hc => stmtAccounts_below ih
      (Forest.lt_of_list hstmt (by simp [Stmt.lists]) c hc)
  have helse : (env.lowerElse routine elseBlock).Accounts env elseBlock.toList :=
    accounts_lowerElse fun c hc => stmtAccounts_below ih (Forest.lt_of_last hstmt rfl c hc)
  rw [Env.lowerStmt, hstmt]
  apply Lower.Accounts.stmt hstmt rfl
  rw [Forest.stmtParts, List.append_assoc, List.cons_append]
  exact (accounts_operand env condition).bind fun _ => hbody.bind fun _ => helseIfs.bind fun _ =>
    helse.bind_fails fun _ => elsewhere_ending

theorem accounts_select {expression : Nat} {cases caseElse : Option Nat}
    (hstmt : env.forest.stmt? id = some (.selectBlock expression cases caseElse tail)) :
    (env.lowerStmt routine id).Accounts env [id] := by
  have hcases : ∀ value,
      (env.lowerCases routine value cases).Accounts env (env.forest.elements cases) :=
    accounts_lowerCases fun c hc => stmtAccounts_below ih
      (Forest.lt_of_list hstmt (by simp [Stmt.lists]) c hc)
  have helse : (env.lowerElse routine caseElse).Accounts env caseElse.toList :=
    accounts_lowerElse fun c hc => stmtAccounts_below ih (Forest.lt_of_last hstmt rfl c hc)
  rw [Env.lowerStmt, hstmt]
  apply Lower.Accounts.stmt hstmt rfl
  refine (accounts_lowerSelector expression).bind fun selector => ?_
  obtain ⟨declared, value⟩ := selector
  exact (hcases value).bind fun _ => helse.bind_fails fun _ => elsewhere_ending

end Blocks

/-- The `With` block is the only statement with a body that is visited in other surroundings, which
is why these stay general. -/
theorem stmtAccounts (routine : Routine) (id : Nat) : StmtAccounts routine id := by
  induction id using Nat.strongRecOn with
  | ind id ih =>
    intro env
    cases hstmt : env.forest.stmt? id with
    | none =>
      rw [Env.lowerStmt, hstmt]
      exact accounts_refused _
    | some stmt =>
      cases stmt with
      | doBlock => exact accounts_do ih hstmt
      | forBlock => exact accounts_for ih hstmt
      | forEachBlock => exact accounts_forEach ih hstmt
      | guarded => exact accounts_guarded ih hstmt
      | ifBlock => exact accounts_if ih hstmt
      | selectBlock => exact accounts_select ih hstmt
      | whileBlock condition statements tail =>
        have hbody := accounts_list (l := statements) ih hstmt (by simp [Stmt.lists])
        rw [Env.lowerStmt, hstmt]
        exact .stmt hstmt rfl ((accounts_operand env condition).bind fun _ =>
          hbody.bind_fails fun _ => elsewhere_ending)
      | lineIf condition statements elseStatements =>
        have hbody := accounts_list (l := statements) ih hstmt (by simp [Stmt.lists])
        have helse := accounts_list (l := elseStatements) ih hstmt (by simp [Stmt.lists])
        rw [Env.lowerStmt, hstmt]
        exact .stmt hstmt rfl ((accounts_operand env condition).bind fun _ => hbody.bind fun _ =>
          helse.bind_fails fun _ => elsewhere_ending)
      | empty =>
        rw [Env.lowerStmt, hstmt]
        dsimp only
        split
        · exact .stmt hstmt rfl accounts_ending
        · exact .stmt hstmt rfl accounts_ending
        · exact .stmt hstmt rfl accounts_ending
        · exact accounts_refused _
      | endBlock =>
        rw [Env.lowerStmt, hstmt]
        exact .stmt hstmt rfl accounts_ending
      | labelReference =>
        rw [Env.lowerStmt, hstmt]
        apply Lower.Accounts.stmt hstmt rfl
        dsimp only
        split
        · exact accounts_ending
        · exact accounts_ending
        · exact accounts_behind (Lower.accounts_nil (elsewhere_lowerGoSub id _)) _
      | exit block =>
        have hexit := Lower.fails_lift (elsewhere_lowerExit env routine id block)
        rw [Env.lowerStmt, hstmt]
        exact .stmt hstmt rfl (Lower.accounts_nil (hexit.bind fun _ => elsewhere_ending))
      | returnValue expression =>
        have hreturn := Lower.accounts_lift (accounts_lowerReturn env routine id expression)
        rw [Env.lowerStmt, hstmt]
        exact .stmt hstmt rfl (hreturn.bind_fails fun _ => elsewhere_ending)
      | raiseEvent name arguments =>
        have hname := Lower.fails_lift (elsewhere_nameText env name)
        have harguments := Lower.accounts_lift (accounts_lowerArguments env arguments)
        rw [Env.lowerStmt, hstmt]
        exact .stmt hstmt rfl (hname.bind_accounts fun _ =>
          harguments.bind_fails fun _ => elsewhere_ending)
      | reDim preserve arrays =>
        rw [Env.lowerStmt, hstmt]
        exact .stmt hstmt rfl (accounts_behind (accounts_lowerReDim preserve hstmt) _)
      | erase arrays =>
        have harrays := Lower.accounts_mapM (p := fun x => [x])
          (l := env.forest.elements (some arrays)) fun x _ => accounts_operand env x
        rw [Env.lowerStmt, hstmt]
        apply Lower.Accounts.stmt hstmt rfl
        exact (harrays.congr (by simp [Forest.stmtParts])).bind_fails fun _ => elsewhere_ending
      | call target arguments =>
        have harguments := Lower.accounts_lift (accounts_lowerArguments env arguments)
        rw [Env.lowerStmt, hstmt]
        exact .stmt hstmt rfl ((accounts_operand env target).bind fun _ =>
          harguments.bind_fails fun _ => elsewhere_ending)
      | assignment target source =>
        have htarget := Lower.accounts_lift (accounts_assignmentTarget env routine target)
        rw [Env.lowerStmt, hstmt]
        exact .stmt hstmt rfl (htarget.bind fun _ =>
          (accounts_operand env source).bind_fails fun _ => elsewhere_ending)
      | compoundAssignment op target source =>
        have hcompound := accounts_lowerCompound env routine id op target source
        rw [Env.lowerStmt, hstmt]
        exact .stmt hstmt rfl (accounts_behind (Lower.accounts_lift hcompound) _)
      | midAssignment target start length source =>
        have hmid := accounts_lowerMid env routine target start length source
        rw [Env.lowerStmt, hstmt]
        exact .stmt hstmt rfl (accounts_behind (Lower.accounts_lift hmid) _)
      | localDeclaration modifiers declarators =>
        have hlocals := accounts_lowerLocals env modifiers declarators
        rw [Env.lowerStmt, hstmt]
        exact .stmt hstmt rfl (accounts_behind (Lower.accounts_lift hlocals) _)
      | _ =>
        rw [Env.lowerStmt, hstmt]
        exact accounts_refused _

end Statements

/-! ## Methods and properties -/

section Methods

variable {env : Env}

open Result

theorem accounts_lowerBody (routine : Routine) (statements : Option Nat) :
    (env.lowerBody routine statements).Accounts env (env.forest.elements statements) :=
  accounts_lowerBody_of fun _ _ x _ => stmtAccounts routine x

theorem accounts_lowerRoutine (node : Nat) (name : String) (type : Target.Ty)
    (statements : Option Nat) : (env.lowerRoutine node name type statements).Accounts env
      (env.forest.elements statements) := by
  have hbody : ∀ (routine : Routine) (s : BodyState), Result.Accounts
      ((env.lowerBody routine statements).run s) env (env.forest.elements statements) :=
    fun routine s => accounts_lowerBody routine statements s
  unfold Env.lowerRoutine
  exact (hbody _ _).bind_ok

theorem accounts_lowerParameters (env : Env) (parameters : Option Nat) :
    (env.lowerParameters parameters).Accounts env (env.forest.elements parameters) := by
  refine accounts_mapM_self fun parameter _ => ?_
  unfold Env.lowerParameter
  split
  · next p hp =>
    have hrest : ∀ default : Option Target.Expr, Result.Fails (do
        let name ← env.nameText p.name
        let type ← env.variableType p.name p.type
        return ({
          name := name
          type := type
          direction := if (env.modifiers p.modifiers).contains .byRef then .byReference
            else .byValue
          isParams := (env.modifiers p.modifiers).contains .paramArray
          default := default } : Target.Parameter)) IsElsewhere :=
      fun _ => (elsewhere_nameText env p.name).bind fun _ =>
        (elsewhere_variableType env p.name p.type).bind fun _ => fails_ok
    apply Accounts.node hp rfl
    rw [Forest.parts, hp]
    dsimp only
    refine Accounts.bind_fails ?_ hrest
    cases p.initializer with
    | none => exact accounts_ok
    | some initializer =>
      rw [Env.defaultValue]
      split
      · next hinit => exact .initializer hinit (Accounts.bind_ok (accountsFor env _))
      · exact accounts_unsupported
  · exact accounts_unsupported

theorem elsewhere_typeParameters (collection : Option Nat) :
    (env.typeParameters collection).Fails IsElsewhere := by
  refine fails_mapM fun parameter _ => ?_
  split
  · exact elsewhere_nameText env _
  · exact elsewhere_unsupported

theorem elsewhere_methodForm (id : Nat) (name owner : String) (signature : Signature) :
    (env.methodForm id name owner signature).Fails IsElsewhere := by
  unfold Env.methodForm
  split
  · exact fails_ok
  · exact (elsewhere_variableType env _ _).bind fun _ => fails_ok
  · exact fails_ok
  · exact elsewhere_unsupported

theorem accounts_lowerMethod (id : Nat) (header : Header) (signature : Signature)
    (statements : Option Nat) (owner : String) (inModule : Bool) :
    (env.lowerMethod id header signature statements owner inModule).Accounts env
      (env.forest.elements signature.parameters ++ env.forest.elements statements) := by
  unfold Env.lowerMethod
  refine (elsewhere_nameText env signature.name).bind_accounts fun name => ?_
  refine (elsewhere_methodForm id name owner signature).bind_accounts fun form => ?_
  obtain ⟨kind, methodName, returnType⟩ := form
  refine (accounts_lowerParameters env signature.parameters).bind fun _ => ?_
  refine (accounts_lowerRoutine id name returnType statements).bind_fails fun _ => ?_
  exact (elsewhere_typeParameters signature.typeParameters).bind fun _ => fails_ok

theorem accounts_lowerExternal (id : Nat) (header : Header) (signature : Signature)
    (entry : Target.Entry) : (env.lowerExternal id header signature entry).Accounts env
      (env.forest.elements signature.parameters) := by
  have hparameters := accounts_lowerParameters env signature.parameters
  have htype := elsewhere_variableType env signature.name signature.resultType
  have hname := elsewhere_nameText env signature.name
  unfold Env.lowerExternal
  split
  · exact htype.bind_accounts fun _ => hname.bind_accounts fun _ => hparameters.bind_ok
  · exact Fails.bind_accounts fails_ok fun _ => hname.bind_accounts fun _ => hparameters.bind_ok

theorem elsewhere_setterParameter (parameters : Option Nat) :
    (env.setterParameter? parameters).Fails IsElsewhere := by
  unfold Env.setterParameter?
  split
  · exact (elsewhere_nameText env _).bind fun _ => fails_ok
  · exact fails_ok

theorem accounts_addAccessor (property : Target.Property) (id : Nat) :
    (env.addAccessor property id).Accounts env [id] := by
  unfold Env.addAccessor
  split
  · next parameters statements _ haccessor =>
    apply Accounts.decl haccessor
    split
    · exact (accounts_lowerRoutine id _ _ statements).bind_ok
    · exact (elsewhere_setterParameter parameters).bind_accounts fun _ =>
        (accounts_lowerRoutine id _ _ statements).bind_ok
  · next hempty => exact .decl hempty accounts_ok
  · next hend => exact .decl hend accounts_ok
  · exact accounts_unsupported

theorem accounts_lowerProperty (id : Nat) (header : Header) (signature : Signature)
    (accessors : Option Nat) (inModule : Bool) :
    (env.lowerProperty id header signature accessors inModule).Accounts env
      (env.forest.elements signature.parameters ++ env.forest.elements accessors) := by
  unfold Env.lowerProperty
  refine (elsewhere_nameText env signature.name).bind_accounts fun _ => ?_
  refine (elsewhere_variableType env signature.name signature.resultType).bind_accounts fun _ => ?_
  refine (accounts_lowerParameters env signature.parameters).bind fun _ => ?_
  exact accounts_foldlM fun property accessor _ => accounts_addAccessor property accessor

end Methods

/-! ## Types -/

section Types

variable {env : Env} {id : Nat}

open Result

theorem accounts_lowerFields (id : Nat) (header : Header) (declarators : Nat) (inModule : Bool) :
    (env.lowerFields id header declarators inModule).Accounts env
      (env.forest.elements (some declarators)) := by
  unfold Env.lowerFields
  refine (accounts_mapM_self fun declarator _ => ?_).bind_ok
  refine (accounts_declaredVariables declarator).bind_fails fun _ => fails_mapM fun v _ => ?_
  unfold Env.lowerField
  split
  · exact elsewhere_unsupported
  · exact fails_ok

theorem accounts_lowerEnumMember (id : Nat) : (env.lowerEnumMember id).Accounts env [id] := by
  unfold Env.lowerEnumMember
  split
  · next label value hmember =>
    have hname : ∀ value : Option Target.Expr, Result.Fails (do
        let name ← env.nameText label
        return some (⟨name, value⟩ : Target.EnumMember)) IsElsewhere :=
      fun _ => (elsewhere_nameText env label).bind fun _ => fails_ok
    apply Accounts.decl hmember
    cases value with
    | some value => exact (Accounts.map (accountsFor env value)).bind_fails hname
    | none => exact Accounts.bind_fails accounts_ok hname
  · next hempty => exact .decl hempty accounts_ok
  · next hend => exact .decl hend accounts_ok
  · exact accounts_unsupported

theorem accounts_lowerEnum (header : Header) (name : Nat) (underlying members : Option Nat) :
    (env.lowerEnum header name underlying members).Accounts env
      (env.forest.elements members) := by
  have hunderlying : (env.lowerOptionalType underlying).Fails IsElsewhere := by
    unfold Env.lowerOptionalType
    split
    · exact (elsewhere_lowerType _).bind fun _ => fails_ok
    · exact fails_ok
  unfold Env.lowerEnum
  refine (elsewhere_nameText env name).bind_accounts fun _ => hunderlying.bind_accounts fun _ => ?_
  exact (accounts_mapM_self fun member _ => accounts_lowerEnumMember member).bind_ok

theorem accounts_lowerMembers_of_type (htype : (env.lowerTypeBlock id).Accounts env [id])
    (owner : String) (inModule : Bool) :
    (env.lowerMembers id owner inModule).Accounts env [id] := by
  rw [Env.lowerMembers]
  split
  · next hdecl => exact .decl hdecl accounts_ok
  · next hdecl => exact .decl hdecl accounts_ok
  · next hdecl => exact .decl hdecl (accounts_lowerFields id _ _ inModule).bind_ok
  · next hdecl => exact .decl hdecl (accounts_lowerMethod id _ _ _ owner inModule).bind_ok
  · next hdecl => exact .decl hdecl (accounts_lowerExternal id _ _ _).bind_ok
  · next hdecl => exact .decl hdecl (accounts_lowerProperty id _ _ _ inModule).bind_ok
  · next hdecl => exact .decl hdecl (accounts_lowerEnum _ _ _ _).bind_ok
  · exact htype.bind_ok
  · exact accounts_unsupported

theorem accounts_lowerTypeBlock (env : Env) (id : Nat) :
    (env.lowerTypeBlock id).Accounts env [id] := by
  induction id using Nat.strongRecOn with
  | ind id ih =>
    rw [Env.lowerTypeBlock]
    split
    · next header n parameters declarations tail _ hdecl =>
      apply Accounts.decl hdecl
      refine (elsewhere_nameText env n).bind_accounts fun name => ?_
      refine (elsewhere_typeParameters parameters).bind_accounts fun _ => ?_
      refine (accounts_mapM_attach ?_).bind_ok
      rintro ⟨member, hmem⟩
      dsimp only
      split
      · next types hinherits =>
        refine .decl hinherits (accounts_nil ?_)
        exact (fails_mapM fun type _ => elsewhere_lowerType type).bind fun _ => fails_ok
      · have htype := ih member (lt_of_mem_members hdecl hmem)
        exact (accounts_lowerMembers_of_type htype name _).bind_ok
    · exact accounts_unsupported

theorem accounts_lowerMembers (env : Env) (id : Nat) (owner : String) (inModule : Bool) :
    (env.lowerMembers id owner inModule).Accounts env [id] :=
  accounts_lowerMembers_of_type (accounts_lowerTypeBlock env id) owner inModule

end Types

/-! ## Files -/

section Files

variable {forest : Forest} {settings : Settings} {sole : Option Nat}

open Result

theorem elsewhere_lowerImport {env : Env} (clause : Nat) :
    (env.lowerImport clause).Fails IsElsewhere := by
  unfold Env.lowerImport
  split
  · exact (elsewhere_qualifiedText _).bind fun _ => fails_ok
  · refine (elsewhere_nameText env _).bind fun _ => ?_
    exact (elsewhere_qualifiedText _).bind fun _ => fails_ok
  · exact elsewhere_unsupported

theorem accounts_lowerDeclaration (state : FileState) (id : Nat) :
    (lowerDeclaration forest settings sole state id).Accounts
      (Env.atTop forest settings state.options) [id] := by
  unfold lowerDeclaration
  dsimp only
  split
  · next hdecl => exact .decl hdecl accounts_ok
  · next hdecl =>
    refine .decl hdecl (accounts_nil ?_)
    exact (fails_mapM fun clause _ => elsewhere_lowerImport clause).bind fun _ => fails_ok
  · next hdecl => exact .decl hdecl accounts_ok
  · next hdecl => exact .decl hdecl accounts_ok
  · split
    · exact (accounts_lowerTypeBlock _ id).bind_ok
    · exact (accounts_lowerMembers _ id _ true).bind_ok

/-- Behind the declarations that are done, a pass that ends well has settled each of the others
under the options in front of it, and a pass that fails for an access outside of `With` blocks has
found one of them stranded. -/
theorem accounts_of_foldlM (forest : Forest) (settings : Settings) (sole : Option Nat)
    (done ids : List Nat) (state : FileState)
    (hoptions : state.options = optionsAfter forest settings done) :
    (∀ last, ids.foldlM (lowerDeclaration forest settings sole) state = .ok last →
      ∀ place top, ids[place]? = some top →
        Settled (envAt forest settings (done ++ ids) (done.length + place)) top) ∧
    ∀ span, ids.foldlM (lowerDeclaration forest settings sole) state =
        .error (.malformed (.memberOutsideWith span)) →
      ∃ place top, ids[place]? = some top ∧
        Stranded (envAt forest settings (done ++ ids) (done.length + place)) top span := by
  -- the declarations in `done` have been passed: they fix the options and the places of the rest
  induction ids generalizing done state with
  | nil => exact ⟨fun _ _ _ _ h => (by cases h), fun _ h => (by cases h)⟩
  | cons id ids ih =>
    have hid : (lowerDeclaration forest settings sole state id).Accounts
        (Env.atTop forest settings state.options) [id] := accounts_lowerDeclaration state id
    have henv : envAt forest settings (done ++ id :: ids) (done.length + 0) =
        Env.atTop forest settings state.options := by
      rw [Nat.add_zero, envAt_length, hoptions]
    rw [List.foldlM_cons]
    cases hnext : lowerDeclaration forest settings sole state id with
    | error e =>
      refine ⟨fun last h => (by cases h), fun span h => ?_⟩
      cases h
      obtain ⟨x, hx, hstranded⟩ := hid.stranded span hnext
      obtain rfl := List.mem_singleton.1 hx
      exact ⟨0, x, rfl, henv ▸ hstranded⟩
    | ok next =>
      have hnextOptions : next.options = optionsAfter forest settings (done ++ [id]) := by
        rw [optionsAfter_concat, ← hoptions]
        exact (lowerDeclaration_ok hnext).1
      have hrest := ih (done ++ [id]) next hnextOptions
      rw [List.append_assoc, List.singleton_append, List.length_append, List.length_singleton]
        at hrest
      have hshift : ∀ place, done.length + 1 + place = done.length + (place + 1) := by omega
      simp only [hshift] at hrest
      refine ⟨fun last h place top htop => ?_, fun span h => ?_⟩
      · cases place with
        | zero =>
          cases htop
          rw [henv]
          exact hid.settled next hnext _ (List.mem_singleton_self _)
        | succ place => exact hrest.1 last h place top htop
      · obtain ⟨place, top, htop, hstranded⟩ := hrest.2 span h
        exact ⟨place + 1, top, htop, hstranded⟩

/-- A file that lowers has settled each of its declarations under the options in front of it. A file
that is refused for an access outside of `With` blocks has one that is stranded. -/
theorem accounts_of_lowerFile {tree : Tree} {file : File}
    (hfile : tree.payload? tree.root = some (.file file)) :
    (∀ program, lowerFile tree settings = .ok program →
      ∀ place top, (tree.elements file.declarations)[place]? = some top →
        Settled (envAt tree.toForest settings (tree.elements file.declarations) place) top) ∧
    ∀ span, lowerFile tree settings = .error (.malformed (.memberOutsideWith span)) →
      ∃ place top, (tree.elements file.declarations)[place]? = some top ∧
        Stranded (envAt tree.toForest settings (tree.elements file.declarations) place) top
          span := by
  have hpass := fun sole => accounts_of_foldlM tree.toForest settings sole []
    (tree.elements file.declarations) ⟨settings.options, [], none, []⟩ rfl
  simp only [List.nil_append, List.length_nil, Nat.zero_add] at hpass
  unfold lowerFile
  split
  · exact ⟨fun program h => (by cases h), fun span h => (by cases h)⟩
  · rw [hfile]
    dsimp only
    unfold lowerDeclarations
    refine ⟨fun program h => ?_, fun span h => ?_⟩
    · obtain ⟨last, hlast, -⟩ := Result.bind_ok.1 h
      exact (hpass _).1 last hlast
    · have hfails : ∀ sole, Result.Fails ((tree.elements file.declarations).foldlM
          (lowerDeclaration tree.toForest settings sole) ⟨settings.options, [], none, []⟩)
          (fun e => e = .malformed (.memberOutsideWith span) → ∃ place top,
            (tree.elements file.declarations)[place]? = some top ∧ Stranded
              (envAt tree.toForest settings (tree.elements file.declarations) place) top span) := by
        rintro sole e he rfl
        exact (hpass sole).2 span he
      exact ((hfails _).bind fun _ => fails_ok) _ h rfl

end Files

end StructuredBasic.Lowering
