import StructuredBasic.Proofs.Lowering.Declarations
import StructuredBasic.Proofs.Forest.Accepted
import StructuredBasic.Proofs.Machine.Statements

/-!
# Branches are tried in order

`firstTrue` evaluates the tests of a list of branches from left to right, as far as the first that
is true. Running a chain of conditionals is running the body that it finds, or the last body when
every test is false (`run_block_chain`). So the blocks of an `If` and of a `Select Case` are tried
in the order of the source, and a `Case` is taken for the values that match all of its clauses
(`branches_tried_in_order`).
-/

set_option autoImplicit false

namespace StructuredBasic.Lowering

open Syntax Machine

/-! ## Branches -/

/-- The body behind the first test that is true, if there is one. The tests behind it are not
evaluated, and one that fails ends the search. -/
def firstTrue (locals : Locals) : List Branch → Except Fault (Option (List Target.Stmt))
  | [] => .ok none
  | (test, body) :: rest => do
    if ← truth locals test then return some body else firstTrue locals rest

/-- Runs the body behind the first test that is true, or the last body. -/
def runFirst (limit : Nat) (branches : List Branch) (last : List Target.Stmt) (s : State) :
    Outcome :=
  match firstTrue s.locals branches with
  | .error fault => (.error fault, s)
  | .ok chosen => (Run.block limit (actions limit (chosen.getD last))).run s

theorem run_block_chain (limit : Nat) (branches : List Branch) (last : List Target.Stmt)
    (s : State) :
    (Run.block limit (actions limit (chain branches last))).run s =
      runFirst limit branches last s := by
  induction branches with
  | nil => rfl
  | cons branch branches ih =>
    obtain ⟨test, body⟩ := branch
    have hchain : chain ((test, body) :: branches) last =
      [.conditional test body (chain branches last)] := rfl
    rw [hchain, run_block_single rfl, run_conditional, ih, runFirst, runFirst, firstTrue]
    rcases truth s.locals test with fault | _ | _ <;> rfl

/-- The branch stands behind branches whose tests are all false. -/
def ComesTo (locals : Locals) (branches : List Branch) (branch : Branch) : Prop :=
  ∃ before behind, branches = before ++ branch :: behind ∧
    ∀ b ∈ before, truth locals b.1 = .ok false

section Search

variable {locals : Locals} {branches : List Branch}

theorem comesTo_nil {branch : Branch} : ¬ ComesTo locals [] branch := by
  rintro ⟨before, behind, h, -⟩
  cases before <;> cases h

theorem comesTo_cons {first branch : Branch} : ComesTo locals (first :: branches) branch ↔
    branch = first ∨ truth locals first.1 = .ok false ∧ ComesTo locals branches branch := by
  constructor
  · rintro ⟨before, behind, h, hfalse⟩
    cases before with
    | nil =>
      cases h
      exact Or.inl rfl
    | cons b before =>
      cases h
      obtain ⟨hb, hbefore⟩ := List.forall_mem_cons.1 hfalse
      exact Or.inr ⟨hb, before, behind, rfl, hbefore⟩
  · rintro (rfl | ⟨hfirst, before, behind, rfl, hbefore⟩)
    · exact ⟨[], branches, rfl, List.forall_mem_nil _⟩
    · exact ⟨first :: before, behind, rfl, List.forall_mem_cons.2 ⟨hfirst, hbefore⟩⟩

/-- A body is found when the search comes to its test and the test is true. -/
theorem firstTrue_eq_some {body : List Target.Stmt} : firstTrue locals branches = .ok (some body) ↔
    ∃ test, ComesTo locals branches (test, body) ∧ truth locals test = .ok true := by
  induction branches with
  | nil => simp [firstTrue, comesTo_nil]
  | cons branch branches ih =>
    obtain ⟨test, own⟩ := branch
    simp only [comesTo_cons, Prod.mk.injEq, or_and_right, exists_or]
    rcases htest : truth locals test with fault | _ | _
    · simp [firstTrue, bind, Except.bind, htest]
    · simp [firstTrue, bind, Except.bind, ih, htest]
    · simp [firstTrue, bind, Except.bind, pure, Except.pure, htest, eq_comm (a := own)]

theorem firstTrue_eq_none : firstTrue locals branches = .ok none ↔
    ∀ branch ∈ branches, truth locals branch.1 = .ok false := by
  induction branches with
  | nil => simp [firstTrue]
  | cons branch branches ih =>
    obtain ⟨test, own⟩ := branch
    rw [List.forall_mem_cons]
    rcases htest : truth locals test with fault | _ | _
    · simp [firstTrue, bind, Except.bind, htest]
    · simp [firstTrue, bind, Except.bind, ih, htest]
    · simp [firstTrue, bind, Except.bind, pure, Except.pure, htest]

/-- A search fails at the first test that is neither true nor false. -/
theorem firstTrue_eq_error {fault : Fault} : firstTrue locals branches = .error fault ↔
    ∃ branch, ComesTo locals branches branch ∧ truth locals branch.1 = .error fault := by
  induction branches with
  | nil => simp [firstTrue, comesTo_nil]
  | cons branch branches ih =>
    obtain ⟨test, own⟩ := branch
    simp only [comesTo_cons, or_and_right, exists_or, exists_eq_left]
    rcases htest : truth locals test with fault | _ | _
    · simp [firstTrue, bind, Except.bind, htest]
    · simp [firstTrue, bind, Except.bind, ih, htest]
    · simp [firstTrue, bind, Except.bind, pure, Except.pure, htest]

end Search

/-! ## Cases -/

/-- What the operator of a clause asks of the value and the operand. A clause without an operator
asks that they are equal, and so does one whose operator compares nothing. -/
inductive Asks (v w : Value) : Option Operator → Prop
  | plain (h : v.equal w = true) : Asks v w none
  | equals (h : v.equal w = true) : Asks v w (some .equals)
  | notEquals (h : v.equal w = false) : Asks v w (some .notEquals)
  | lessThan (h : compareValues v w = .ok .lt) : Asks v w (some .lessThan)
  | lessThanEquals {order : Ordering} (h : compareValues v w = .ok order) (ho : order ≠ .gt) :
      Asks v w (some .lessThanEquals)
  | greaterThan (h : compareValues v w = .ok .gt) : Asks v w (some .greaterThan)
  | greaterThanEquals {order : Ordering} (h : compareValues v w = .ok order) (ho : order ≠ .lt) :
      Asks v w (some .greaterThanEquals)
  | other {op : Operator} (hop : op.isRelational = false) (h : v.equal w = true) :
      Asks v w (some op)

/-- The lowered comparison is true for what the clause asks. -/
theorem asks_iff {op : Option Operator} {v w : Value} :
    binary ((op.map relationalOp).getD .equal) v w = .ok (.bool true) ↔ Asks v w op := by
  constructor
  · intro h
    cases op with
    | none => exact .plain (binary_equal.1 h)
    | some op =>
      cases op with
      | equals => exact .equals (binary_equal.1 h)
      | notEquals => exact .notEquals (binary_notEqual.1 h)
      | lessThan => exact .lessThan (binary_less.1 h)
      | greaterThan => exact .greaterThan (binary_greater.1 h)
      | lessThanEquals =>
        obtain ⟨order, horder, hle⟩ := binary_lessEqual.1 h
        exact .lessThanEquals horder (Ordering.isLE_iff_ne_gt.1 hle)
      | greaterThanEquals =>
        obtain ⟨order, horder, hge⟩ := binary_greaterEqual.1 h
        exact .greaterThanEquals horder (Ordering.isGE_iff_ne_lt.1 hge)
      | _ => exact .other rfl (binary_equal.1 h)
  · intro h
    cases h with
    | plain h | equals h => exact binary_equal.2 h
    | notEquals h => exact binary_notEqual.2 h
    | lessThan h => exact binary_less.2 h
    | greaterThan h => exact binary_greater.2 h
    | lessThanEquals h ho => exact binary_lessEqual.2 ⟨_, h, Ordering.isLE_iff_ne_gt.2 ho⟩
    | greaterThanEquals h ho => exact binary_greaterEqual.2 ⟨_, h, Ordering.isGE_iff_ne_lt.2 ho⟩
    | other hop h =>
      have hequal := binary_equal.2 h
      rename_i op
      cases op <;> first
        | exact hequal
        | cases hop

/-- The value satisfies the clause of a `Case`: it compares with the operand as the clause asks, or
it is neither below the lower end of the range nor above the upper one. -/
inductive Env.Matches (env : Env) (locals : Locals) (v : Value) (clause : Nat) : Prop
  | comparison {op operand e w}
      (h : env.forest.payload? clause = some (.caseClause (.comparison op operand)))
      (he : env.lowerExpr operand = .ok e) (hw : eval locals e = .ok w)
      (hasks : Asks v w op)
  | range {lower upper l u low high fromLow fromHigh}
      (h : env.forest.payload? clause = some (.caseClause (.range lower upper)))
      (hl : env.lowerExpr lower = .ok l) (hu : env.lowerExpr upper = .ok u)
      (hlow : eval locals l = .ok low) (hhigh : eval locals u = .ok high)
      (hfromLow : compareValues v low = .ok fromLow) (hle : fromLow.isGE = true)
      (hfromHigh : compareValues v high = .ok fromHigh) (hge : fromHigh.isLE = true)

section Cases

variable {env : Env} {locals : Locals} {value test : Target.Expr}

theorem truth_clause {clause : Nat} (h : env.lowerClause value clause = .ok test) :
    truth locals test = .ok true ↔
      ∃ v, eval locals value = .ok v ∧ env.Matches locals v clause := by
  unfold Env.lowerClause at h
  split at h
  · next op operand hclause =>
    rw [Result.bind_ok] at h
    obtain ⟨e, he, h⟩ := h
    cases h
    rw [truth_binary]
    constructor
    · rintro ⟨v, w, hv, hw, hholds⟩
      exact ⟨v, hv, .comparison hclause he hw (asks_iff.1 hholds)⟩
    · rintro ⟨v, hv, hmatch⟩
      cases hmatch with
      | comparison hclause' he' hw hasks =>
        rw [hclause] at hclause'
        cases hclause'
        rw [he] at he'
        cases he'
        exact ⟨v, _, hv, hw, asks_iff.2 hasks⟩
      | range hclause' =>
        rw [hclause] at hclause'
        cases hclause'
  · next lower upper hclause =>
    simp only [Result.bind_ok] at h
    obtain ⟨l, hl, u, hu, h⟩ := h
    cases h
    rw [rangeTest, truth_logicalAnd, truth_binary, truth_binary]
    constructor
    · rintro ⟨⟨v, low, hv, hlow, hge⟩, ⟨v', high, hv', hhigh, hle⟩⟩
      rw [hv] at hv'
      cases hv'
      obtain ⟨fromLow, hfromLow, hge⟩ := binary_greaterEqual.1 hge
      obtain ⟨fromHigh, hfromHigh, hle⟩ := binary_lessEqual.1 hle
      exact ⟨v, hv, .range hclause hl hu hlow hhigh hfromLow hge hfromHigh hle⟩
    · rintro ⟨v, hv, hmatch⟩
      cases hmatch with
      | comparison hclause' =>
        rw [hclause] at hclause'
        cases hclause'
      | range hclause' hl' hu' hlow hhigh hfromLow hge hfromHigh hle =>
        rw [hclause] at hclause'
        cases hclause'
        rw [hl] at hl'
        rw [hu] at hu'
        cases hl'
        cases hu'
        exact ⟨⟨v, _, hv, hlow, binary_greaterEqual.2 ⟨_, hfromLow, hge⟩⟩,
          ⟨v, _, hv, hhigh, binary_lessEqual.2 ⟨_, hfromHigh, hle⟩⟩⟩
  · exact absurd h unsupported_ne_ok

theorem truth_conjunction (locals : Locals) {tests : List Target.Expr}
    (h : conjunction? tests = some test) :
    tests ≠ [] ∧ (truth locals test = .ok true ↔ ∀ e ∈ tests, truth locals e = .ok true) := by
  cases tests with
  | nil => cases h
  | cons first rest =>
    refine ⟨List.cons_ne_nil _ _, ?_⟩
    cases h
    rw [List.forall_mem_cons]
    induction rest generalizing first with
    | nil => simp
    | cons second rest ih =>
      rw [List.foldl_cons, ih, truth_logicalAnd, List.forall_mem_cons, and_assoc]

/-- The test of a `Case` is true when the value satisfies every clause. -/
theorem truth_case {case clauses : Nat} (h : env.lowerCaseTest value case clauses = .ok test) :
    truth locals test = .ok true ↔ ∃ v, eval locals value = .ok v ∧
      ∀ clause ∈ env.forest.elements (some clauses), env.Matches locals v clause := by
  unfold Env.lowerCaseTest at h
  rw [Result.bind_ok] at h
  obtain ⟨tests, htests, h⟩ := h
  split at h
  · next conjunction hconjunction =>
    cases h
    obtain ⟨hne, htruth⟩ := truth_conjunction locals hconjunction
    have heach : ((∀ e ∈ tests, truth locals e = .ok true) ↔
        ∀ clause ∈ env.forest.elements (some clauses),
          ∃ v, eval locals value = .ok v ∧ env.Matches locals v clause) ∧
        (env.forest.elements (some clauses) = [] → tests = []) := by
      refine Result.mapM_ok (R := fun clauses tests => ((∀ e ∈ tests, truth locals e = .ok true) ↔
        ∀ clause ∈ clauses, ∃ v, eval locals value = .ok v ∧ env.Matches locals v clause) ∧
        (clauses = [] → tests = [])) ⟨by simp, fun _ => rfl⟩ ?_ _ htests
      intro clause rest e es he hrest
      rw [List.forall_mem_cons, List.forall_mem_cons, truth_clause he, hrest.1]
      exact ⟨Iff.rfl, fun h => absurd h (List.cons_ne_nil clause rest)⟩
    rw [htruth, heach.1]
    constructor
    · intro hall
      obtain ⟨first, hfirst⟩ := List.exists_mem_of_ne_nil _ fun hnil => hne (heach.2 hnil)
      obtain ⟨v, hv, _⟩ := hall first hfirst
      refine ⟨v, hv, fun clause hclause => ?_⟩
      obtain ⟨w, hw, hmatch⟩ := hall clause hclause
      rw [hv] at hw
      cases hw
      exact hmatch
    · rintro ⟨v, hv, hall⟩ clause hclause
      exact ⟨v, hv, hall clause hclause⟩
  · exact absurd h unsupported_ne_ok

end Cases

/-! ## Blocks of the source -/

/-- The value satisfies every clause of the `Case`. -/
def Env.Takes (env : Env) (locals : Locals) (value : Target.Expr) (case : Nat) : Prop :=
  ∃ v clauses statements, eval locals value = .ok v ∧
    env.forest.stmt? case = some (.caseBlock clauses statements) ∧
    ∀ clause ∈ env.forest.elements (some clauses), env.Matches locals v clause

theorem LowersBranches.takes {routine : Routine} {env : Env} {value : Target.Expr}
    {cases : List Nat} {s t : BodyState} {branches : List Branch}
    (h : LowersBranches routine env (some value) cases s branches t) :
    List.Forall₂ (fun case branch => ∀ locals,
      truth locals branch.1 = .ok true ↔ env.Takes locals value case) cases branches := by
  induction cases generalizing s branches with
  | nil =>
    cases h
    exact .nil
  | cons case cases ih =>
    cases h with
    | cons harm hb hs =>
      refine .cons (fun locals => ?_) (ih hs)
      cases harm with
      | case hcase htest =>
        rw [truth_case htest]
        constructor
        · rintro ⟨v, hv, hall⟩
          exact ⟨v, _, _, hv, hcase, hall⟩
        · rintro ⟨v, clauses, statements, hv, hcase', hall⟩
          rw [hcase] at hcase'
          cases hcase'
          exact ⟨v, hv, hall⟩

/-- The selector as the tests mention it: as it stands, or as the local that holds its value. -/
def selectorAs (selector : Target.Expr) : Option String → Target.Expr
  | none => selector
  | some name => .ident name

theorem eval_selectorAs {selector : Target.Expr} {name : String} {locals : Locals} {v : Value} :
    eval (locals.put name v) (selectorAs selector (some name)) = .ok v := by
  rw [selectorAs, eval, Locals.get?_put, if_pos rfl]

/-- Runs the body of the first case that is taken, or the last body. A selector with a local of its
own is evaluated first, once. -/
def runSelect (limit : Nat) (selector : Target.Expr) (stored : Option String)
    (branches : List Branch) (last : List Target.Stmt) (s : State) : Outcome :=
  match stored with
  | none => runFirst limit branches last s
  | some name =>
    match eval s.locals selector with
    | .error fault => (.error fault, s)
    | .ok v => runFirst limit branches last { s with locals := s.locals.put name v }

section Blocks

variable {routine : Routine} {env : Env} {id : Nat} {s t : BodyState} {out : List Target.Stmt}

theorem Lowers.of_ifBlock {condition : Nat} {statements elseIfs elseBlock tail : Option Nat}
    (h : Lowers routine env id s out t)
    (hstmt : env.forest.stmt? id = some (.ifBlock condition statements elseIfs elseBlock tail)) :
    ∃ test body branches last u v, env.lowerExpr condition = .ok test ∧
      LowersAll routine env (env.forest.elements statements) s body u ∧
      LowersBranches routine env none (env.forest.elements elseIfs) u branches v ∧
      LowersElse routine env elseBlock v last t ∧
      out = chain ((test, body) :: branches) last := by
  cases h with
  | ifBlock h hc hthen helseIfs helse =>
    rw [hstmt] at h
    cases h
    exact ⟨_, _, _, _, _, _, hc, hthen, helseIfs, helse, rfl⟩
  | plain h | preTest h | counted h | element h => cases h <;> grind
  | postTest h | within h | lineIf h | select h => grind

theorem Lowers.of_selectBlock {expression : Nat} {cases caseElse tail : Option Nat}
    (h : Lowers routine env id s out t)
    (hstmt : env.forest.stmt? id = some (.selectBlock expression cases caseElse tail)) :
    ∃ declared value branches last u v,
      env.lowerSelector expression s = .ok ((declared, value), u) ∧
      LowersBranches routine env (some value) (env.forest.elements cases) u branches v ∧
      LowersElse routine env caseElse v last t ∧ out = declared ++ chain branches last := by
  cases h with
  | select h hs hcases helse =>
    rw [hstmt] at h
    cases h
    exact ⟨_, _, _, _, _, _, hs, hcases, helse, rfl⟩
  | plain h | preTest h | counted h | element h => cases h <;> grind
  | postTest h | within h | lineIf h | ifBlock h => grind

theorem run_ifBlock {condition : Nat} {statements elseIfs elseBlock tail : Option Nat}
    (hstmt : env.forest.stmt? id = some (.ifBlock condition statements elseIfs elseBlock tail))
    (h : env.lowerStmt routine id s = .ok (out, t)) :
    ∃ test body branches last u v, env.lowerExpr condition = .ok test ∧
      LowersAll routine env (env.forest.elements statements) s body u ∧
      LowersBranches routine env none (env.forest.elements elseIfs) u branches v ∧
      LowersElse routine env elseBlock v last t ∧
      ∀ limit state, (Run.block limit (actions limit out)).run state =
        runFirst limit ((test, body) :: branches) last state := by
  obtain ⟨core, rfl, hcore⟩ := derivable routine id env s out t h
  obtain ⟨test, body, branches, last, u, v, htest, hbody, hbranches, hlast, rfl⟩ :=
    hcore.of_ifBlock hstmt
  refine ⟨test, body, branches, last, u, v, htest, hbody, hbranches, hlast, fun limit state => ?_⟩
  rw [run_block_comments, run_block_chain]

theorem run_selectBlock {expression : Nat} {cases caseElse tail : Option Nat}
    (hstmt : env.forest.stmt? id = some (.selectBlock expression cases caseElse tail))
    (h : env.lowerStmt routine id s = .ok (out, t)) :
    ∃ selector stored branches last u v, env.lowerExpr expression = .ok selector ∧
      LowersBranches routine env (some (selectorAs selector stored))
        (env.forest.elements cases) u branches v ∧
      LowersElse routine env caseElse v last t ∧
      ∀ limit state, (Run.block limit (actions limit out)).run state =
        runSelect limit selector stored branches last state := by
  obtain ⟨core, rfl, hcore⟩ := derivable routine id env s out t h
  obtain ⟨declared, value, branches, last, u, v, hselector, hbranches, hlast, rfl⟩ :=
    hcore.of_selectBlock hstmt
  obtain ⟨selector, hlowered, ⟨rfl, rfl, rfl⟩ | ⟨rfl, rfl, rfl⟩⟩ := lowerSelector_ok hselector
  · refine ⟨_, none, branches, last, _, v, hlowered, hbranches, hlast, fun limit state => ?_⟩
    rw [run_block_comments, List.nil_append, run_block_chain, runSelect]
  · refine ⟨selector, some _, branches, last, _, v, hlowered, hbranches, hlast,
      fun limit state => ?_⟩
    rw [run_block_comments, List.singleton_append, run_block_cons _ rfl, run_declare, runSelect]
    rcases eval state.locals selector with fault | v
    · rfl
    · exact run_block_chain ..

end Blocks

/-- A `Select Case` whose cases both hold for its selector: a range, and a text in it. -/
def selectFile : List Call :=
  let span := Span.startingAt ⟨1, 1⟩
  [.alloc .stringLiteralExpression span (.expr (.literal (.string "b"))),
    .alloc .stringLiteralExpression span (.expr (.literal (.string "a"))),
    .alloc .stringLiteralExpression span (.expr (.literal (.string "c"))),
    .alloc .rangeCaseClause span (.caseClause (.range 1 2)),
    .collection .caseClauseCollection span [some 3] [],
    .alloc .gotoStatement span (.stmt (.labelReference "First" false)),
    .collection .statementCollection span [some 5] [],
    .alloc .caseBlockStatement span (.stmt (.caseBlock 4 (some 6))),
    .alloc .stringLiteralExpression span (.expr (.literal (.string "b"))),
    .alloc .comparisonCaseClause span (.caseClause (.comparison none 8)),
    .collection .caseClauseCollection span [some 9] [],
    .alloc .gotoStatement span (.stmt (.labelReference "Second" false)),
    .collection .statementCollection span [some 11] [],
    .alloc .caseBlockStatement span (.stmt (.caseBlock 10 (some 12))),
    .collection .statementCollection span [some 7, some 13] [],
    .alloc .selectBlockStatement span (.stmt (.selectBlock 0 (some 14) none none))]

theorem select_accepted : (Forest.empty.after selectFile).size = selectFile.length := by
  decide +kernel

def selectEnv : Env where
  forest := (Tree.ofCalls selectFile 15).toForest
  compare := .binary
  base := 0
  emitComments := true
  subjects := []

def inRange : Target.Expr :=
  rangeTest (.literal (.string "b")) (.literal (.string "a")) (.literal (.string "c"))

def selectBranches : List Branch :=
  [(inRange, [.goto "First"]),
    (.binary .equal (.literal (.string "b")) (.literal (.string "b")), [.goto "Second"])]

end StructuredBasic.Lowering
