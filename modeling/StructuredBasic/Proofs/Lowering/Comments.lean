import StructuredBasic.Proofs.Forest.Gather
import StructuredBasic.Proofs.Lowering.Plain
import StructuredBasic.Proofs.Target.Comments

/-!
# Lowering with and without comments

A lowering that keeps no comments gives the error of the lowering that keeps them, or its program
without comments (`lowerFile_uncommented`). The two runs are compared step by step: an action of
the first is `f <$> y` for the action `y` of the second, where `f` takes out comments.
-/

set_option autoImplicit false

namespace StructuredBasic.Lowering

open Syntax
open Target.Stmt (uncommentedAll uncommentedAll_append uncommentedAll_flatten isSimple
  uncommentedAll_of_isSimple uncommentedAll_comments)

/-! ## Steps of two runs -/

section Steps

variable {m : Type → Type} [Monad m] [LawfulMonad m] {α β γ δ : Type}

/-- Two lists of steps, each equal up to `f`. -/
theorem mapM_eq_map {f : β → γ} {h : α → m γ} {g : α → m β} {l : List α}
    (hstep : ∀ x ∈ l, h x = f <$> g x) : l.mapM h = List.map f <$> l.mapM g := by
  induction l with
  | nil => simp
  | cons x l ih =>
    obtain ⟨hx, hl⟩ := List.forall_mem_cons.1 hstep
    simp only [List.mapM_cons, hx, ih hl, bind_map_left, map_bind, map_pure, List.map_cons]

theorem foldlM_eq_map {f : β → γ} {h : γ → α → m γ} {g : β → α → m β}
    (hstep : ∀ b x, h (f b) x = f <$> g b x) (l : List α) (b : β) :
    l.foldlM h (f b) = f <$> l.foldlM g b := by
  induction l generalizing b with
  | nil => simp
  | cons x l ih => simp only [List.foldlM_cons, hstep, ih, bind_map_left, map_bind]

theorem bind_eq_map {x : m β} {y : m α} {f : α → β} {k : β → m δ} {k' : α → m γ} {g : γ → δ}
    (hx : x = f <$> y) (hk : ∀ a, k (f a) = g <$> k' a) : (x >>= k) = g <$> (y >>= k') := by
  rw [hx, bind_map_left, map_bind]
  exact bind_congr hk

theorem bind_same {x : m α} {k : α → m δ} {k' : α → m γ} {g : γ → δ}
    (hk : ∀ a, k a = g <$> k' a) : (x >>= k) = g <$> (x >>= k') := by
  rw [map_bind]
  exact bind_congr hk

end Steps

/-- An action with the same first step in both runs; what follows may use what the step gave. -/
theorem Lower.bind_run {α γ δ : Type} {x : Lower α} {k : α → Lower δ} {k' : α → Lower γ} {g : γ → δ}
    (hk : ∀ s a t, x s = .ok (a, t) → k a = g <$> k' a) : (x >>= k) = g <$> (x >>= k') := by
  rw [map_bind]
  funext s
  simp only [bind, StateT.bind]
  cases hx : x s with
  | error e => rfl
  | ok p => exact congrFun (hk s p.1 p.2 hx) p.2

/-! ## What does not read the comments -/

/-- The surroundings with comments left out. -/
def Env.silent (env : Env) : Env := { env with emitComments := false }

section Silent

variable (env : Env)

@[simp] theorem silent_forest : env.silent.forest = env.forest := rfl

-- None of these reads `emitComments`, so both sides unfold to one term. The recursive ones unfold
-- only when every definition is transparent.
@[simp] theorem silent_lowerExpr : env.silent.lowerExpr = env.lowerExpr := by
  with_unfolding_all rfl

@[simp] theorem silent_lowerArguments : env.silent.lowerArguments = env.lowerArguments := by
  with_unfolding_all rfl

@[simp] theorem silent_lowerCondition : env.silent.lowerCondition = env.lowerCondition := by
  with_unfolding_all rfl

@[simp] theorem silent_lowerExit : env.silent.lowerExit = env.lowerExit := by
  with_unfolding_all rfl

@[simp] theorem silent_lowerReturn : env.silent.lowerReturn = env.lowerReturn := by
  with_unfolding_all rfl

@[simp] theorem silent_assignmentTarget : env.silent.assignmentTarget = env.assignmentTarget := by
  with_unfolding_all rfl

@[simp] theorem silent_lowerCompound : env.silent.lowerCompound = env.lowerCompound := by
  with_unfolding_all rfl

@[simp] theorem silent_lowerMid : env.silent.lowerMid = env.lowerMid := by
  with_unfolding_all rfl

@[simp] theorem silent_lowerLocals : env.silent.lowerLocals = env.lowerLocals := by
  with_unfolding_all rfl

@[simp] theorem silent_declareControl : env.silent.declareControl = env.declareControl := by
  with_unfolding_all rfl

@[simp] theorem silent_controlType : env.silent.controlType = env.controlType := by
  with_unfolding_all rfl

@[simp] theorem silent_lowerReDim : env.silent.lowerReDim = env.lowerReDim := by
  with_unfolding_all rfl

@[simp] theorem silent_lowerCaseTest : env.silent.lowerCaseTest = env.lowerCaseTest := by
  with_unfolding_all rfl

@[simp] theorem silent_lowerSelector : env.silent.lowerSelector = env.lowerSelector := by
  with_unfolding_all rfl

@[simp] theorem silent_routineShadow : env.silent.routineShadow = env.routineShadow := by
  with_unfolding_all rfl

@[simp] theorem silent_methodForm : env.silent.methodForm = env.methodForm := by
  with_unfolding_all rfl

@[simp] theorem silent_variableType : env.silent.variableType = env.variableType := by
  with_unfolding_all rfl

@[simp] theorem silent_lowerParameters : env.silent.lowerParameters = env.lowerParameters := by
  with_unfolding_all rfl

@[simp] theorem silent_declaredVariables :
    env.silent.declaredVariables = env.declaredVariables := by
  with_unfolding_all rfl

@[simp] theorem silent_lowerEnum : env.silent.lowerEnum = env.lowerEnum := by
  with_unfolding_all rfl

@[simp] theorem silent_lowerType : env.silent.lowerType = env.lowerType := by
  with_unfolding_all rfl

@[simp] theorem silent_lowerImport : env.silent.lowerImport = env.lowerImport := by
  with_unfolding_all rfl

end Silent

/-! ## Statements without a body -/

section Plain

variable {routine : Routine} {env : Env} {id : Nat}

theorem isSimple_of_isPlain {out : List Target.Stmt} (h : ∀ stmt ∈ out, stmt.isPlain = true) :
    ∀ stmt ∈ out, isSimple stmt = true := by
  intro stmt hs
  have hplain := h stmt hs
  cases stmt <;> first
    | rfl
    | cases hplain

theorem isSimple_lowerExit {block : Block} {stmt : Target.Stmt}
    (h : env.lowerExit routine id block = .ok stmt) : isSimple stmt = true := by
  rcases lowerExit_ok h with rfl | rfl | ⟨type, rfl⟩ <;> rfl

theorem isSimple_lowerReturn {expression : Option Nat} {stmt : Target.Stmt}
    (h : env.lowerReturn routine id expression = .ok stmt) : isSimple stmt = true := by
  rcases lowerReturn_ok h with ⟨label, rfl⟩ | ⟨value, rfl⟩ <;> rfl

end Plain

/-! ## Bodies -/

/-- A branch without the comments of its body. -/
def Branch.uncommented (branch : Branch) : Branch := (branch.1, uncommentedAll branch.2)

theorem uncommentedAll_chain (branches : List Branch) (tail : List Target.Stmt) :
    uncommentedAll (chain branches tail) =
      chain (branches.map Branch.uncommented) (uncommentedAll tail) := by
  induction branches with
  | nil => rfl
  | cons branch branches ih =>
    have hleft : chain (branch :: branches) tail =
      [.conditional branch.1 branch.2 (chain branches tail)] := rfl
    rw [hleft, uncommentedAll, Target.Stmt.uncommented, ih]
    rfl

theorem uncommentedAll_postTestLoop (latch : String) (test : Target.Expr)
    (body : List Target.Stmt) :
    uncommentedAll [postTestLoop latch test body] =
      [postTestLoop latch test (uncommentedAll body)] := by
  have hbody := uncommentedAll_append body [.assign (.ident latch) test]
  simp only [postTestLoop, uncommentedAll, Target.Stmt.uncommented, hbody]
  rfl

/-- Lowering the statement without comments gives what lowering it with comments gives, less the
comments. -/
def Silenced (routine : Routine) (id : Nat) : Prop :=
  ∀ env : Env, env.silent.lowerStmt routine id = uncommentedAll <$> env.lowerStmt routine id

section Lists

variable {routine : Routine} {n : Nat}

theorem silent_lowerBody (env : Env) (ih : ∀ x < n, Silenced routine x) (statements : Option Nat)
    (hs : ∀ c, statements = some c → c < n) :
    env.silent.lowerBody routine statements =
      uncommentedAll <$> env.lowerBody routine statements := by
  cases statements with
  | none => rw [Env.lowerBody, Env.lowerBody, map_pure]; rfl
  | some c =>
    rw [Env.lowerBody, Env.lowerBody]
    refine bind_eq_map (f := List.map uncommentedAll) (mapM_eq_map fun x _ => ?_) fun lists => ?_
    · exact ih x.1 (Nat.lt_trans (Forest.lt_of_mem_elements x.2) (hs c rfl)) env
    · rw [map_pure, uncommentedAll_flatten]

theorem silent_lowerElseIfs (env : Env) (ih : ∀ x < n, Silenced routine x) (elseIfs : Option Nat)
    (hs : ∀ c, elseIfs = some c → c < n) :
    env.silent.lowerElseIfs routine elseIfs =
      List.map Branch.uncommented <$> env.lowerElseIfs routine elseIfs := by
  cases elseIfs with
  | none => rw [Env.lowerElseIfs, Env.lowerElseIfs, map_pure]; rfl
  | some c =>
    rw [Env.lowerElseIfs, Env.lowerElseIfs]
    refine mapM_eq_map fun x _ => ?_
    obtain ⟨id, hmem⟩ := x
    have hid : id < n := Nat.lt_trans (Forest.lt_of_mem_elements hmem) (hs c rfl)
    dsimp only
    generalize hstmt : env.forest.stmt? id = stmt
    generalize hsilent : env.silent.forest.stmt? id = stmt'
    obtain rfl : stmt' = stmt := hsilent.symm.trans hstmt
    split
    · next condition statements =>
      have hslot := Forest.lt_of_list (l := statements) hstmt (by simp [Stmt.lists])
      have hbody := silent_lowerBody env ih statements fun c hc => Nat.lt_trans (hslot c hc) hid
      simp only [silent_lowerExpr]
      exact bind_same fun test => bind_eq_map hbody fun body => (map_pure _ _).symm
    · rfl

theorem silent_lowerCases (env : Env) (ih : ∀ x < n, Silenced routine x) (cases : Option Nat)
    (hs : ∀ c, cases = some c → c < n) (value : Target.Expr) :
    env.silent.lowerCases routine value cases =
      List.map Branch.uncommented <$> env.lowerCases routine value cases := by
  cases cases with
  | none => rw [Env.lowerCases, Env.lowerCases, map_pure]; rfl
  | some c =>
    rw [Env.lowerCases, Env.lowerCases]
    refine mapM_eq_map fun x _ => ?_
    obtain ⟨id, hmem⟩ := x
    have hid : id < n := Nat.lt_trans (Forest.lt_of_mem_elements hmem) (hs c rfl)
    dsimp only
    generalize hstmt : env.forest.stmt? id = stmt
    generalize hsilent : env.silent.forest.stmt? id = stmt'
    obtain rfl : stmt' = stmt := hsilent.symm.trans hstmt
    split
    · next clauses statements =>
      have hslot := Forest.lt_of_list (l := statements) hstmt (by simp [Stmt.lists])
      have hbody := silent_lowerBody env ih statements fun c hc => Nat.lt_trans (hslot c hc) hid
      simp only [silent_lowerCaseTest]
      exact bind_same fun test => bind_eq_map hbody fun body => (map_pure _ _).symm
    · rfl

theorem silent_lowerElse (env : Env) (ih : ∀ x < n, Silenced routine x) (block : Option Nat)
    (hs : ∀ c, block = some c → c < n) :
    env.silent.lowerElse routine block = uncommentedAll <$> env.lowerElse routine block := by
  cases block with
  | none => rw [Env.lowerElse, Env.lowerElse, map_pure]; rfl
  | some id =>
    rw [Env.lowerElse, Env.lowerElse]
    generalize hstmt : env.forest.stmt? id = stmt
    generalize hsilent : env.silent.forest.stmt? id = stmt'
    obtain rfl : stmt' = stmt := hsilent.symm.trans hstmt
    split
    · next statements =>
      have hslot := Forest.lt_of_list (l := statements) hstmt (by simp [Stmt.lists])
      exact silent_lowerBody env ih statements fun c hc => Nat.lt_trans (hslot c hc) (hs id rfl)
    · rfl

end Lists

/-! ## Statements -/

section Statements

variable {env : Env} {id : Nat}

/-- The end of lowering a statement: its comments go in front of what it became. -/
theorem silent_behind_comments {x y : Lower (List Target.Stmt)} (h : x = uncommentedAll <$> y) :
    (do let out ← x; return (env.silent.comments id).map Target.Stmt.comment ++ out) =
      uncommentedAll <$> (do
        let out ← y
        return (env.comments id).map Target.Stmt.comment ++ out : Lower (List Target.Stmt)) := by
  refine bind_eq_map h fun out => ?_
  rw [map_pure, uncommentedAll_append, uncommentedAll_comments]
  rfl

theorem silent_pure {out out' : List Target.Stmt} (h : out = uncommentedAll out') :
    (do
      let stmts ← pure out
      return (env.silent.comments id).map Target.Stmt.comment ++ stmts) =
      uncommentedAll <$> (do
        let stmts ← pure out'
        return (env.comments id).map Target.Stmt.comment ++ stmts : Lower (List Target.Stmt)) :=
  silent_behind_comments (by rw [map_pure, h])

theorem silent_simple {x : Lower (List Target.Stmt)}
    (h : ∀ s out t, x s = .ok (out, t) → ∀ stmt ∈ out, isSimple stmt = true) :
    (do let stmts ← x; return (env.silent.comments id).map Target.Stmt.comment ++ stmts) =
      uncommentedAll <$> (do
        let stmts ← x
        return (env.comments id).map Target.Stmt.comment ++ stmts : Lower (List Target.Stmt)) := by
  refine Lower.bind_run fun s out t hx => ?_
  rw [map_pure, uncommentedAll_append, uncommentedAll_comments,
    uncommentedAll_of_isSimple (h s out t hx)]
  rfl

/-! What becomes of each form with a body. -/

section Blocks

variable {routine : Routine} {statements tail : Option Nat}
  (ih : ∀ x < id, Silenced routine x)

include ih

theorem silent_list {stmt : Stmt} {l : Option Nat} (hstmt : env.forest.stmt? id = some stmt)
    (hl : l ∈ stmt.lists) :
    env.silent.lowerBody routine l = uncommentedAll <$> env.lowerBody routine l :=
  silent_lowerBody env ih l (Forest.lt_of_list hstmt hl)

theorem silent_do {condition : Option LoopCondition}
    (hstmt : env.forest.stmt? id = some (.doBlock condition statements tail)) :
    env.silent.lowerStmt routine id = uncommentedAll <$> env.lowerStmt routine id := by
  have hsilent : env.silent.forest.stmt? id = _ := hstmt
  have hbody := silent_list (l := statements) ih hstmt (by simp [Stmt.lists])
  have htail : env.silent.trailingCondition? tail = env.trailingCondition? tail := rfl
  rw [Env.lowerStmt, Env.lowerStmt, hstmt, hsilent]
  simp only [silent_lowerCondition, htail]
  split
  · rfl
  · exact bind_same fun test => bind_eq_map hbody fun body => silent_pure rfl
  · refine bind_same fun latch => bind_eq_map hbody fun body => bind_same fun test => ?_
    exact silent_pure (uncommentedAll_postTestLoop latch test body).symm
  · exact bind_eq_map hbody fun body => silent_pure rfl

theorem silent_while {condition : Nat}
    (hstmt : env.forest.stmt? id = some (.whileBlock condition statements tail)) :
    env.silent.lowerStmt routine id = uncommentedAll <$> env.lowerStmt routine id := by
  have hsilent : env.silent.forest.stmt? id = _ := hstmt
  have hbody := silent_list (l := statements) ih hstmt (by simp [Stmt.lists])
  rw [Env.lowerStmt, Env.lowerStmt, hstmt, hsilent]
  simp only [silent_lowerExpr]
  exact bind_same fun test => bind_eq_map hbody fun body => silent_pure rfl

/-- The declaration in front of the loop holds no comment, which its own run tells. -/
theorem silent_for {control lower upper : Nat} {declarator step : Option Nat}
    (hstmt : env.forest.stmt? id =
      some (.forBlock control declarator lower upper step statements tail)) :
    env.silent.lowerStmt routine id = uncommentedAll <$> env.lowerStmt routine id := by
  have hsilent : env.silent.forest.stmt? id = _ := hstmt
  have hbody := silent_list (l := statements) ih hstmt (by simp [Stmt.lists])
  rw [Env.lowerStmt, Env.lowerStmt, hstmt, hsilent]
  simp only [silent_lowerExpr, silent_declareControl]
  refine Lower.bind_run fun _ declared _ hd => bind_same fun control => bind_same fun lower =>
    bind_same fun upper => ?_
  have hlast : ∀ step body,
      declared ++ [countedLoop control lower upper step (uncommentedAll body)] =
        uncommentedAll (declared ++ [countedLoop control lower upper step body]) := by
    intro step body
    rw [uncommentedAll_append, uncommentedAll_of_isSimple
      (isSimple_of_isPlain (isPlain_declareControl (Lower.lift_ok.1 hd).1))]
    rfl
  split
  · exact bind_same fun step => bind_eq_map hbody fun body => silent_pure (hlast step body)
  · exact bind_same fun step => bind_eq_map hbody fun body => silent_pure (hlast step body)

theorem silent_forEach {control collection : Nat} {declarator : Option Nat}
    (hstmt : env.forest.stmt? id =
      some (.forEachBlock control declarator collection statements tail)) :
    env.silent.lowerStmt routine id = uncommentedAll <$> env.lowerStmt routine id := by
  have hsilent : env.silent.forest.stmt? id = _ := hstmt
  have hbody := silent_list (l := statements) ih hstmt (by simp [Stmt.lists])
  rw [Env.lowerStmt, Env.lowerStmt, hstmt, hsilent]
  simp only [silent_lowerExpr, silent_declareControl, silent_controlType]
  refine Lower.bind_run fun _ declared _ hd => bind_same fun type => bind_same fun control =>
    bind_same fun collection => bind_same fun enumerator => bind_eq_map hbody fun body =>
    silent_pure ?_
  rw [uncommentedAll_append, uncommentedAll_of_isSimple
    (isSimple_of_isPlain (isPlain_declareControl (Lower.lift_ok.1 hd).1))]
  rfl

theorem silent_guarded {expression : Nat}
    (hstmt : env.forest.stmt? id = some (.guarded expression statements tail)) :
    env.silent.lowerStmt routine id = uncommentedAll <$> env.lowerStmt routine id := by
  have hsilent : env.silent.forest.stmt? id = _ := hstmt
  have hslot : ∀ c, statements = some c → c < id :=
    Forest.lt_of_list hstmt (by simp [Stmt.lists])
  rw [Env.lowerStmt, Env.lowerStmt, hstmt, hsilent]
  simp only [silent_forest, silent_lowerExpr]
  split
  · refine bind_same fun subject => silent_behind_comments ?_
    exact silent_lowerBody (env.within subject) ih _ hslot
  · rfl

theorem silent_if {condition : Nat} {elseIfs elseBlock : Option Nat}
    (hstmt : env.forest.stmt? id = some (.ifBlock condition statements elseIfs elseBlock tail)) :
    env.silent.lowerStmt routine id = uncommentedAll <$> env.lowerStmt routine id := by
  have hsilent : env.silent.forest.stmt? id = _ := hstmt
  have hbody := silent_list (l := statements) ih hstmt (by simp [Stmt.lists])
  have helseIfs := silent_lowerElseIfs env ih elseIfs
    (Forest.lt_of_list hstmt (by simp [Stmt.lists]))
  have helse := silent_lowerElse env ih elseBlock (Forest.lt_of_last hstmt rfl)
  rw [Env.lowerStmt, Env.lowerStmt, hstmt, hsilent]
  simp only [silent_lowerExpr]
  refine bind_same fun test => bind_eq_map hbody fun thenBody => bind_eq_map helseIfs
    fun branches => bind_eq_map helse fun last => silent_pure ?_
  rw [← uncommentedAll_chain]
  rfl

theorem silent_lineIf {condition : Nat} {elseStatements : Option Nat}
    (hstmt : env.forest.stmt? id = some (.lineIf condition statements elseStatements)) :
    env.silent.lowerStmt routine id = uncommentedAll <$> env.lowerStmt routine id := by
  have hsilent : env.silent.forest.stmt? id = _ := hstmt
  have hthen := silent_list (l := statements) ih hstmt (by simp [Stmt.lists])
  have helse := silent_list (l := elseStatements) ih hstmt (by simp [Stmt.lists])
  rw [Env.lowerStmt, Env.lowerStmt, hstmt, hsilent]
  simp only [silent_lowerExpr]
  exact bind_same fun test => bind_eq_map hthen fun thenBody => bind_eq_map helse
    fun elseBody => silent_pure rfl

theorem silent_select {expression : Nat} {cases caseElse : Option Nat}
    (hstmt : env.forest.stmt? id = some (.selectBlock expression cases caseElse tail)) :
    env.silent.lowerStmt routine id = uncommentedAll <$> env.lowerStmt routine id := by
  have hsilent : env.silent.forest.stmt? id = _ := hstmt
  have hcases := silent_lowerCases env ih cases (Forest.lt_of_list hstmt (by simp [Stmt.lists]))
  have helse := silent_lowerElse env ih caseElse (Forest.lt_of_last hstmt rfl)
  rw [Env.lowerStmt, Env.lowerStmt, hstmt, hsilent]
  simp only [silent_lowerSelector]
  refine Lower.bind_run fun _ selector _ hd => ?_
  obtain ⟨declared, value⟩ := selector
  refine bind_eq_map (hcases value) fun branches => bind_eq_map helse fun last =>
    silent_pure ?_
  rw [uncommentedAll_append, uncommentedAll_of_isSimple
    (isSimple_of_isPlain (isPlain_lowerSelector hd)), ← uncommentedAll_chain]

end Blocks

end Statements

/-- The surroundings stay general: the statements of a `With` block see others than the block. -/
theorem silenced (routine : Routine) (id : Nat) : Silenced routine id := by
  induction id using Nat.strongRecOn with
  | ind id ih =>
    intro env
    cases hstmt : env.forest.stmt? id with
    | none =>
      have hsilent : env.silent.forest.stmt? id = none := hstmt
      rw [Env.lowerStmt, Env.lowerStmt, hstmt, hsilent]
      rfl
    | some stmt =>
      have hsilent : env.silent.forest.stmt? id = some stmt := hstmt
      cases stmt with
      | doBlock => exact silent_do ih hstmt
      | whileBlock => exact silent_while ih hstmt
      | forBlock => exact silent_for ih hstmt
      | forEachBlock => exact silent_forEach ih hstmt
      | guarded => exact silent_guarded ih hstmt
      | ifBlock => exact silent_if ih hstmt
      | lineIf => exact silent_lineIf ih hstmt
      | selectBlock => exact silent_select ih hstmt
      | empty =>
        rw [Env.lowerStmt, Env.lowerStmt, hstmt, hsilent]
        simp only [silent_forest]
        split
        · exact silent_pure rfl
        · exact silent_pure rfl
        · exact silent_pure rfl
        · rfl
      | endBlock =>
        rw [Env.lowerStmt, Env.lowerStmt, hstmt, hsilent]
        exact silent_pure rfl
      | labelReference name isLine =>
        rw [Env.lowerStmt, Env.lowerStmt, hstmt, hsilent]
        simp only [silent_forest]
        split
        · exact silent_pure rfl
        · exact silent_pure rfl
        · refine silent_simple fun s out t h => ?_
          obtain ⟨_, rfl, _⟩ := lowerGoSub_ok.1 h
          simp [isSimple]
      | exit block =>
        rw [Env.lowerStmt, Env.lowerStmt, hstmt, hsilent]
        simp only [silent_lowerExit]
        refine Lower.bind_run fun s stmt t h => silent_pure ?_
        have hsimple := isSimple_lowerExit (Lower.lift_ok.1 h).1
        rw [uncommentedAll_of_isSimple (List.forall_mem_singleton.2 hsimple)]
      | returnValue expression =>
        rw [Env.lowerStmt, Env.lowerStmt, hstmt, hsilent]
        simp only [silent_lowerReturn]
        refine Lower.bind_run fun s stmt t h => silent_pure ?_
        have hsimple := isSimple_lowerReturn (Lower.lift_ok.1 h).1
        rw [uncommentedAll_of_isSimple (List.forall_mem_singleton.2 hsimple)]
      | raiseEvent name arguments =>
        rw [Env.lowerStmt, Env.lowerStmt, hstmt, hsilent]
        simp only [silent_lowerArguments]
        exact bind_same fun event => bind_same fun args => silent_pure rfl
      | reDim preserve arrays =>
        rw [Env.lowerStmt, Env.lowerStmt, hstmt, hsilent]
        simp only [silent_lowerReDim]
        exact silent_simple fun s out t h => isSimple_of_isPlain (isPlain_lowerReDim h)
      | erase arrays =>
        rw [Env.lowerStmt, Env.lowerStmt, hstmt, hsilent]
        simp only [silent_forest, silent_lowerExpr]
        refine bind_same fun targets => silent_pure ?_
        rw [uncommentedAll_of_isSimple]
        exact List.forall_mem_map.2 fun _ _ => rfl
      | call target arguments =>
        rw [Env.lowerStmt, Env.lowerStmt, hstmt, hsilent]
        simp only [silent_lowerExpr, silent_lowerArguments]
        exact bind_same fun callee => bind_same fun args => silent_pure rfl
      | assignment target source =>
        rw [Env.lowerStmt, Env.lowerStmt, hstmt, hsilent]
        simp only [silent_lowerExpr, silent_assignmentTarget]
        exact bind_same fun place => bind_same fun value => silent_pure rfl
      | compoundAssignment op target source =>
        rw [Env.lowerStmt, Env.lowerStmt, hstmt, hsilent]
        simp only [silent_lowerCompound]
        refine silent_simple fun s out t h => ?_
        obtain ⟨place, _, value, _, _, _, rfl⟩ := lowerCompound_ok (Lower.lift_ok.1 h).1
        exact List.forall_mem_singleton.2 rfl
      | midAssignment target start length source =>
        rw [Env.lowerStmt, Env.lowerStmt, hstmt, hsilent]
        simp only [silent_lowerMid]
        refine silent_simple fun s out t h => ?_
        obtain ⟨_, _, _, _, _, _, _, _, rfl⟩ := lowerMid_ok (Lower.lift_ok.1 h).1
        exact List.forall_mem_singleton.2 rfl
      | localDeclaration modifiers declarators =>
        rw [Env.lowerStmt, Env.lowerStmt, hstmt, hsilent]
        simp only [silent_lowerLocals]
        refine silent_simple fun s out t h => isSimple_of_isPlain ?_
        exact isPlain_lowerLocals (Lower.lift_ok.1 h).1
      | _ =>
        rw [Env.lowerStmt, Env.lowerStmt, hstmt, hsilent]
        rfl

/-! ## Methods and properties -/

section Members

variable (env : Env)

theorem silent_lowerRoutine (node : Nat) (name : String) (type : Target.Ty)
    (statements : Option Nat) : env.silent.lowerRoutine node name type statements =
      uncommentedAll <$> env.lowerRoutine node name type statements := by
  have hbody (routine : Routine) (s : BodyState) :
      (env.silent.lowerBody routine statements).run s =
        Prod.map uncommentedAll id <$> (env.lowerBody routine statements).run s := by
    rw [silent_lowerBody env (n := statements.getD 0 + 1) fun x _ => silenced routine x,
      StateT.run_map]
    · rfl
    · rintro c rfl
      exact Nat.lt_succ_self c
  unfold Env.lowerRoutine
  simp only [silent_routineShadow]
  refine bind_eq_map (hbody _ _) fun ⟨body, _⟩ => ?_
  rw [map_pure]
  congr 1
  cases (env.routineShadow node name type).1 with
  | none => rfl
  | some shadow =>
    simp only [Env.withShadow, List.cons_append, uncommentedAll, Target.Stmt.uncommented,
      uncommentedAll_append]
    rfl

theorem silent_lowerMethod (id : Nat) (header : Header) (signature : Signature)
    (statements : Option Nat) (owner : String) (inModule : Bool) :
    env.silent.lowerMethod id header signature statements owner inModule =
      Target.Method.uncommented <$>
        env.lowerMethod id header signature statements owner inModule := by
  unfold Env.lowerMethod
  simp only [silent_methodForm, silent_lowerParameters]
  refine bind_same fun name => bind_same fun ⟨kind, methodName, returnType⟩ =>
    bind_same fun parameters => bind_eq_map (silent_lowerRoutine env ..) fun body =>
    bind_same fun typeParameters => ?_
  rw [map_pure]
  rfl

theorem silent_lowerExternal (id : Nat) (header : Header) (signature : Signature)
    (entry : Target.Entry) : env.silent.lowerExternal id header signature entry =
      Target.Method.uncommented <$> env.lowerExternal id header signature entry := by
  unfold Env.lowerExternal
  simp only [silent_forest, silent_variableType, silent_lowerParameters]
  split <;> exact bind_same fun _ => bind_same fun _ => bind_same fun _ => (map_pure _ _).symm

theorem silent_addAccessor (property : Target.Property) (id : Nat) :
    env.silent.addAccessor property.uncommented id =
      Target.Property.uncommented <$> env.addAccessor property id := by
  unfold Env.addAccessor
  simp only [silent_forest]
  split
  · split
    · exact bind_eq_map (silent_lowerRoutine env ..) fun body => (map_pure _ _).symm
    · exact bind_same fun parameter => bind_eq_map (silent_lowerRoutine env ..) fun body =>
        (map_pure _ _).symm
  · rfl
  · rfl
  · rfl

theorem silent_lowerProperty (id : Nat) (header : Header) (signature : Signature)
    (accessors : Option Nat) (inModule : Bool) :
    env.silent.lowerProperty id header signature accessors inModule =
      Target.Property.uncommented <$>
        env.lowerProperty id header signature accessors inModule := by
  unfold Env.lowerProperty
  simp only [silent_variableType, silent_lowerParameters]
  refine bind_same fun name => bind_same fun type => bind_same fun parameters => ?_
  rw [← foldlM_eq_map (silent_addAccessor env)]
  rfl

/-! ## Types -/

theorem map_uncommented_commentFirst (comments : List String) (fields : List Target.Field) :
    (Env.commentFirst comments fields).map Target.Field.uncommented =
      Env.commentFirst [] (fields.map Target.Field.uncommented) := by
  cases fields <;> rfl

theorem silent_lowerFields (id : Nat) (header : Header) (declarators : Nat) (inModule : Bool) :
    env.silent.lowerFields id header declarators inModule =
      List.map Target.Field.uncommented <$> env.lowerFields id header declarators inModule := by
  have hfield (modifiers : List Modifier) (declarator : Nat) (v : DeclaredVariable) :
      env.silent.lowerField modifiers inModule declarator v =
        Target.Field.uncommented <$> env.lowerField modifiers inModule declarator v := by
    unfold Env.lowerField
    split <;> rfl
  unfold Env.lowerFields
  simp only [silent_declaredVariables]
  refine bind_eq_map (f := List.map (List.map Target.Field.uncommented))
    (mapM_eq_map fun declarator _ => ?_) fun lists => ?_
  · exact bind_same fun declared => mapM_eq_map fun v _ => hfield _ declarator v
  · rw [map_pure, map_uncommented_commentFirst, List.map_flatten]
    rfl

end Members

/-- What a declaration adds to a type, without its comments. -/
def Env.Addition.uncommented : Env.Addition → Env.Addition
  | .bases types => .bases types
  | .members added => .members (added.map Target.Member.uncommented)

theorem baseTypes_uncommented (additions : List Env.Addition) :
    Env.baseTypes (additions.map Env.Addition.uncommented) = Env.baseTypes additions := by
  induction additions with
  | nil => rfl
  | cons addition additions ih =>
    cases addition with
    | bases types => exact congrArg (types ++ ·) ih
    | members members => exact ih

theorem memberList_uncommented (additions : List Env.Addition) :
    Env.memberList (additions.map Env.Addition.uncommented) =
      (Env.memberList additions).map Target.Member.uncommented := by
  induction additions with
  | nil => rfl
  | cons addition additions ih =>
    cases addition with
    | bases types => exact ih
    | members members =>
      rw [Env.memberList, List.map_append, ← ih]
      rfl

section Types

variable {env : Env}

theorem silent_members_of_type {id : Nat}
    (ht : env.silent.lowerTypeBlock id = Target.TypeDecl.uncommented <$> env.lowerTypeBlock id)
    (owner : String) (inModule : Bool) : env.silent.lowerMembers id owner inModule =
      List.map Target.Member.uncommented <$> env.lowerMembers id owner inModule := by
  rw [Env.lowerMembers, Env.lowerMembers]
  simp only [silent_forest, silent_lowerEnum]
  split
  · rfl
  · rfl
  · refine bind_eq_map (silent_lowerFields env ..) fun fields => ?_
    rw [map_pure, List.map_map, List.map_map]
    rfl
  · exact bind_eq_map (silent_lowerMethod env ..) fun method => (map_pure _ _).symm
  · exact bind_eq_map (silent_lowerExternal env ..) fun method => (map_pure _ _).symm
  · exact bind_eq_map (silent_lowerProperty env ..) fun property => (map_pure _ _).symm
  · exact bind_same fun enumeration => (map_pure _ _).symm
  · refine bind_eq_map ht fun type => ?_
    rw [map_pure, List.map_singleton, Target.Member.uncommented_type]
  · rfl

theorem silent_lowerTypeBlock (id : Nat) :
    env.silent.lowerTypeBlock id = Target.TypeDecl.uncommented <$> env.lowerTypeBlock id := by
  induction id using Nat.strongRecOn with
  | ind id ih =>
    rw [Env.lowerTypeBlock, Env.lowerTypeBlock]
    generalize hdecl : env.forest.decl? id = decl
    generalize hsilent : env.silent.forest.decl? id = decl'
    obtain rfl : decl' = decl := hsilent.symm.trans hdecl
    simp only [silent_forest]
    split
    · next kind header n parameters declarations tail hkind =>
      refine bind_same fun name => bind_same fun typeParameters => ?_
      refine bind_eq_map (f := List.map Env.Addition.uncommented) (mapM_eq_map fun x _ => ?_)
        fun additions => ?_
      · simp only [silent_lowerType]
        split
        · exact bind_same fun types => (map_pure _ _).symm
        · have hlt : x.1 < id := lt_of_mem_members hdecl x.2
          exact bind_eq_map (silent_members_of_type (ih x.1 hlt) _ _) fun _ => (map_pure _ _).symm
      · rw [map_pure, baseTypes_uncommented, memberList_uncommented]
        rfl
    · rfl

theorem silent_lowerMembers (id : Nat) (owner : String) (inModule : Bool) :
    env.silent.lowerMembers id owner inModule =
      List.map Target.Member.uncommented <$> env.lowerMembers id owner inModule :=
  silent_members_of_type (silent_lowerTypeBlock id) owner inModule

end Types

/-! ## Files -/

def FileState.uncommented (state : FileState) : FileState :=
  { state with
    type := state.type.map Target.TypeDecl.uncommented
    members := state.members.map Target.Member.uncommented }

theorem atTop_silent (forest : Forest) (settings : Settings) (options : Target.SourceOptions) :
    Env.atTop forest { settings with emitComments := false } options =
      (Env.atTop forest { settings with emitComments := true } options).silent := rfl

theorem lowerDeclaration_uncommented (forest : Forest) (settings : Settings) (sole : Option Nat)
    (state : FileState) (id : Nat) :
    lowerDeclaration forest { settings with emitComments := false } sole state.uncommented id =
      FileState.uncommented <$>
        lowerDeclaration forest { settings with emitComments := true } sole state id := by
  unfold lowerDeclaration
  simp only [atTop_silent, silent_lowerImport]
  split
  · rfl
  · exact bind_same fun imports => (map_pure _ _).symm
  · rfl
  · rfl
  · split
    · exact bind_eq_map (silent_lowerTypeBlock id) fun type => (map_pure _ _).symm
    · refine bind_eq_map (silent_lowerMembers id _ true) fun members => ?_
      rw [map_pure, FileState.uncommented, FileState.uncommented, List.map_append]

/-- Whether comments are kept decides nothing but the comments: without them lowering gives the same
error, or the same program less its comments. -/
theorem lowerFile_uncommented (tree : Tree) (settings : Settings) :
    lowerFile tree { settings with emitComments := false } =
      Target.Program.uncommented <$> lowerFile tree { settings with emitComments := true } := by
  unfold lowerFile
  split
  · rfl
  · split
    · next file _ =>
      unfold lowerDeclarations
      refine bind_eq_map (f := FileState.uncommented) ?_ fun state => ?_
      · rw [← foldlM_eq_map (lowerDeclaration_uncommented tree.toForest settings _)]
        rfl
      · rw [map_pure]
        cases state with
        | mk options imports type members => cases type <;> rfl
    · rfl

end StructuredBasic.Lowering
