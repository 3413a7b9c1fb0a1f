import StructuredBasic.Proofs.Forest.Accepted
import StructuredBasic.Proofs.Lowering.Bounds
import StructuredBasic.Proofs.Lowering.Reach
import StructuredBasic.Proofs.Machine.Counted

/-!
# `For` blocks

A `For` block becomes one counted loop, and bounds and a step that are literals have their values
in every state. So a loop whose body leaves the control variable alone counts it from the lower
bound in steps, and makes as many passes as the bounds and the step tell (`for_counts`).
-/

set_option autoImplicit false

namespace StructuredBasic.Lowering

open Syntax Machine
open Target.Stmt (atomsAll)

section Head

variable {routine : Routine} {env base : Env} {id c : Nat} {i : String} {s t : BodyState}
  {out : List Target.Stmt} {declarator step statements tail : Option Nat} {lower upper : Nat}

/-- A literal has one value all over a file. -/
theorem literalInt?_congr (h : env.forest = base.forest) (id : Nat) :
    env.literalInt? id = base.literalInt? id := by
  induction id using Env.literalInt?.induct env with
  | case1 id value b suffix hexpr =>
    rw [Env.literalInt?, Env.literalInt?, hexpr, ← h, hexpr]
  | case2 id operand hexpr ih =>
    rw [Env.literalInt?, Env.literalInt?, hexpr, ← h, hexpr]
    exact ih
  | case3 id operand hexpr ih =>
    rw [Env.literalInt?, Env.literalInt?, hexpr, ← h, hexpr]
    dsimp only
    rw [ih]
  | case4 id h1 h2 h3 =>
    rw [Env.literalInt?, Env.literalInt?]
    split <;> simp_all

theorem lowerExpr_simpleName {x name : Nat} (h : env.forest.expr? x = some (.simpleName name))
    (hname : env.forest.nameText? name = some i) : env.lowerExpr x = .ok (.ident i) := by
  rw [Env.lowerExpr, h]
  dsimp only
  rw [Env.nameText, hname]
  rfl

/-- The step of a loop that states none is one. -/
theorem eval_step {d : Int64} (h : step.elim (some 1) env.literalInt? = some d) :
    ∃ e, step.elim (.ok (.int 1)) env.lowerExpr = .ok e ∧
      ∀ locals, eval locals e = .ok (.int d) := by
  cases step with
  | none =>
    cases h
    exact ⟨.int 1, rfl, fun locals => rfl⟩
  | some step => exact eval_literal h

theorem Lowers.of_forBlock (h : Lowers routine env id s out t)
    (hstmt : env.forest.stmt? id =
      some (.forBlock c declarator lower upper step statements tail)) :
    ∃ declared control first last next inner, env.declareControl declarator = .ok declared ∧
      env.lowerExpr c = .ok control ∧ env.lowerExpr lower = .ok first ∧
      env.lowerExpr upper = .ok last ∧
      step.elim (.ok (.int 1)) env.lowerExpr = .ok next ∧
      LowersAll routine env (env.forest.elements statements) s inner t ∧
      out = declared ++ [countedLoop control first last next inner] := by
  cases h with
  | counted h hb =>
    obtain ⟨h, hdeclared, hcontrol, hfirst, hlast, hnext⟩ := h
    rw [hstmt] at h
    cases h
    exact ⟨_, _, _, _, _, _, hdeclared, hcontrol, hfirst, hlast, hnext, hb, rfl⟩
  | plain h | preTest h | element h => cases h <;> grind
  | postTest h | select h | within h | lineIf h | ifBlock h => grind

end Head

/-- Every `For` block of a routine over a variable and literals becomes a loop that counts. From any
state that holds the variable, and as long as no pass returns, jumps out or fails, pass `k` starts
with the variable `k` steps above the lower bound. The loop ends by a break, or normally behind as
many passes as there are steps from bound to bound. -/
theorem for_counts {tree : Tree} {settings : Settings} {body : List Target.Stmt}
    (hfinished : tree.Finished) (r : RoutineBody tree.toForest settings body) {id : Nat}
    (hid : id ∈ tree.descendants r.node) {control name lower upper : Nat}
    {declarator step statements tail : Option Nat} {i : String} {l u d : Int64}
    (hstmt : tree.stmt? id =
      some (.forBlock control declarator lower upper step statements tail))
    (hcontrol : tree.expr? control = some (.simpleName name)) (hname : tree.nameText? name = some i)
    (hlower : r.env.literalInt? lower = some l) (hupper : r.env.literalInt? upper = some u)
    (hstep : step.elim (some 1) r.env.literalInt? = some d) (hd : 1 ≤ d.toInt)
    (hl : l.toInt.natAbs ≤ 2 ^ 53) (hu : u.toInt.natAbs ≤ 2 ^ 53) :
    ∃ env s t first last next inner, env.forest = tree.toForest ∧
      LowersAll r.routine env (tree.elements statements) s inner t ∧
      Inside (countedLoop (.ident i) first last next inner) body ∧
      ((∀ stmt ∈ atomsAll inner, stmt.written? ≠ some i) → ∀ limit state (o : Outcome),
        (state.locals.get? i).isSome = true →
        (exec limit (countedLoop (.ident i) first last next inner)).run state = o →
        o.1 ≠ .error .stepLimit →
        Orderly limit (counting i last next inner) i d.toInt
          { state with locals := state.locals.put i (.int l) } →
        Counts limit (counting i last next inner) i l.toInt u.toInt d.toInt
          { state with locals := state.locals.put i (.int l) } o) := by
  have hf := hfinished.built.shaped
  obtain ⟨env, s, core, t, hforest, _, hlowers, hinside⟩ := r.reaches hf hid hstmt rfl
  have hliteral : ∀ id, env.literalInt? id = r.env.literalInt? id := literalInt?_congr hforest
  rw [← hliteral] at hlower hupper
  rw [← funext hliteral] at hstep
  rw [← hforest] at hstmt hcontrol hname
  obtain ⟨declared, e, first, last, next, inner, _, he, hfirst, hlast, hnext, hinner, rfl⟩ :=
    hlowers.of_forBlock hstmt
  rw [lowerExpr_simpleName hcontrol hname] at he
  cases he
  have hloop := hinside _ (List.mem_append_right _ (List.mem_singleton_self _))
  rw [hforest] at hinner
  refine ⟨env, s, t, first, last, next, inner, hforest, hinner, hloop, ?_⟩
  intro hspared limit state o hdeclared hrun ho horderly
  -- the parts of the head have their values in every state
  obtain ⟨_, hfirst', hevalFirst⟩ := eval_literal hlower
  obtain ⟨_, hlast', hevalLast⟩ := eval_literal hupper
  obtain ⟨_, hnext', hevalNext⟩ := eval_step hstep
  cases hfirst.symm.trans hfirst'
  cases hlast.symm.trans hlast'
  cases hnext.symm.trans hnext'
  exact exec_countedLoop hevalFirst hevalLast hevalNext hd hspared hl hu hdeclared hrun ho horderly

theorem countedLoop_inj {a b l m u v s t : Target.Expr} {xs ys : List Target.Stmt}
    (h : countedLoop a l u s xs = countedLoop b m v t ys) :
    a = b ∧ l = m ∧ u = v ∧ s = t ∧ xs = ys := by
  cases h
  exact ⟨rfl, rfl, rfl, rfl, rfl⟩

theorem not_inside_nil {stmt : Target.Stmt} : ¬ Inside stmt [] := by
  rintro (h | ⟨h, -⟩ | ⟨h, -⟩ | ⟨h, -⟩) <;> cases h

theorem Inside.eq_of_plain {stmt plain : Target.Stmt} (h : Inside stmt [plain])
    (hplain : isBlock plain = false) : stmt = plain := by
  cases h with
  | here h => exact List.mem_singleton.1 h
  | thenBody hm | elseBody hm | loop hm =>
    cases List.mem_singleton.1 hm
    cases hplain

/-- A `Sub` with a `For i = 1 To 8 Step 3` that is left from 5 on. -/
def countFile : List Call :=
  let span := Span.startingAt ⟨1, 1⟩
  [.alloc .simpleName span (.name (.simple "Main" none false)),
    .alloc .simpleName span (.name (.simple "i" none false)),
    .alloc .variableName span (.name (.declared 1 none)),
    .collection .variableNameCollection span [some 2] [],
    .alloc .variableDeclarator span (.declarator ⟨3, none, false, none, none⟩),
    .collection .variableDeclaratorCollection span [some 4] [],
    .alloc .modifier span (.modifier .dim),
    .collection .modifierCollection span [some 6] [],
    .alloc .localDeclarationStatement span (.stmt (.localDeclaration 7 5)),
    .alloc .simpleName span (.name (.simple "i" none false)),
    .alloc .simpleNameExpression span (.expr (.simpleName 9)),
    .alloc .integerLiteralExpression span (.expr (.literal (.integer 1 .decimal none))),
    .alloc .integerLiteralExpression span (.expr (.literal (.integer 8 .decimal none))),
    .alloc .integerLiteralExpression span (.expr (.literal (.integer 3 .decimal none))),
    .alloc .integerLiteralExpression span (.expr (.literal (.integer 5 .decimal none))),
    .alloc .simpleName span (.name (.simple "i" none false)),
    .alloc .simpleNameExpression span (.expr (.simpleName 15)),
    .alloc .binaryOperatorExpression span (.expr (.binary .lessThanEquals ⟨1, 1⟩ 14 16)),
    .alloc .exitStatement span (.stmt (.exit .forLoop)),
    .collection .statementCollection span [some 18] [],
    .alloc .lineIfStatement span (.stmt (.lineIf 17 (some 19) none)),
    .collection .statementCollection span [some 20] [],
    .alloc .nextStatement span (.stmt (.nextEnd none)),
    .alloc .forBlockStatement span
      (.stmt (.forBlock 10 none 11 12 (some 13) (some 21) (some 22))),
    .collection .statementCollection span [some 8, some 23] [],
    .alloc .subDeclaration span
      (.decl (.method ⟨none, none⟩ (.ofName 0) none none (some 24) none)),
    .collection .declarationCollection span [some 25] [],
    .alloc .file span (.file ⟨some 26⟩)]

def countTree : Tree := .ofCalls countFile 27

theorem count_accepted : (Forest.empty.after countFile).size = countFile.length := by
  decide +kernel

theorem countTree_settled :
    countTree = { Forest.settled countFile count_accepted with root := 27 } :=
  Tree.ofCalls_eq_settled 27 count_accepted

/-- What the body of the loop becomes. -/
def countInner : List Target.Stmt :=
  [.conditional (.binary .lessEqual (.int 5) (.ident "i")) [.breaks] []]

def countLoop : Target.Stmt := countedLoop (.ident "i") (.int 1) (.int 8) (.int 3) countInner

def countBody : List Target.Stmt := [.declare "i" .object (some (.defaultOf .object)), countLoop]

/-- What surrounds the routine. -/
def countEnv : Env := .atTop countTree.toForest .standard Settings.standard.options

def countRoutine : RoutineBody countTree.toForest .standard countBody where
  options := Settings.standard.options
  node := 25
  name := "Main"
  returnType := .void
  statements := some 24
  holds := .method (by rw [countTree_settled]; rfl)
  lowered := by rw [countTree_settled]; with_unfolding_all rfl

/-- The body holds one loop, and no loop stands in the body of that one. -/
theorem count_inside {first last next : Target.Expr} {inner : List Target.Stmt}
    (h : Inside (countedLoop (.ident "i") first last next inner) countBody) :
    countedLoop (.ident "i") first last next inner = countLoop := by
  cases h with
  | here h =>
    rcases List.mem_cons.1 h with h | h
    · cases h
    · exact List.mem_singleton.1 h
  | thenBody hm | elseBody hm => simp [countBody, countLoop, countedLoop] at hm
  | loop hm h =>
    rcases List.mem_cons.1 hm with hm | hm
    · cases hm
    · cases List.mem_singleton.1 hm
      cases h with
      | here h => simp [countInner, countedLoop] at h
      | thenBody hm h =>
        cases List.mem_singleton.1 hm
        cases h.eq_of_plain rfl
      | elseBody hm h =>
        cases List.mem_singleton.1 hm
        exact absurd h not_inside_nil
      | loop hm => simp [countInner] at hm

theorem count_pass {limit : Nat} {r : State} {o : Outcome} {n : Int} (hn : Holds "i" n r)
    (hsmall : n.natAbs ≤ 2 ^ 53)
    (hpass : Pass limit (counting "i" (.int 8) (.int 3) countInner) r o) :
    o.1 = .ok .normal ∨ o.1 = .ok .breaks := by
  obtain ⟨v, hv, rfl⟩ := hn.eval_ident
  have htruth : truth r.ticked.locals (.binary .lessEqual (.int 5) (.ident "i")) =
      .ok (decide (5 ≤ v.toInt)) := truth_lessEqual (a := 5) rfl hv (by decide) hsmall
  have hrun := hpass.run
  rw [counting, countInner, run_block_single rfl, run_conditional, htruth] at hrun
  cases hle : decide (5 ≤ v.toInt) with
  | true =>
    rw [hle] at hrun
    right
    rw [← hrun, run_block_single rfl]
    rfl
  | false =>
    rw [hle] at hrun
    left
    rw [← hrun, run_block_nil]

theorem count_counts : countTree.Finished ∧ 23 ∈ countTree.descendants countRoutine.node ∧
    countTree.stmt? 23 = some (.forBlock 10 none 11 12 (some 13) (some 21) (some 22)) ∧
    ∀ limit state (o : Outcome), (state.locals.get? "i").isSome = true →
      (exec limit countLoop).run state = o → o.1 ≠ .error .stepLimit →
      Counts limit (counting "i" (.int 8) (.int 3) countInner) "i" 1 8 3
        { state with locals := state.locals.put "i" (.int 1) } o := by
  have hfinished : countTree.Finished := Tree.finished_of_last count_accepted rfl
  have hid : 23 ∈ countTree.descendants 25 := by
    rw [countTree_settled]
    decide +kernel
  have hstmt : countTree.stmt? 23 =
      some (.forBlock 10 none 11 12 (some 13) (some 21) (some 22)) := by
    rw [countTree_settled]
    rfl
  have hcontrol : countTree.expr? 10 = some (.simpleName 9) := by
    rw [countTree_settled]
    rfl
  have hname : countTree.nameText? 9 = some "i" := by
    rw [countTree_settled]
    decide +kernel
  have hbounds : countEnv.literalInt? 11 = some 1 ∧ countEnv.literalInt? 12 = some 8 ∧
      countEnv.literalInt? 13 = some 3 := by
    rw [countEnv, countTree_settled]
    decide +kernel
  obtain ⟨hlower, hupper, hstep⟩ := hbounds
  refine ⟨hfinished, hid, hstmt, fun limit state o hdeclared hrun ho => ?_⟩
  obtain ⟨_, _, _, first, last, next, inner, _, _, hinside, hcounts⟩ :=
    for_counts hfinished countRoutine hid hstmt hcontrol hname hlower hupper hstep (by decide)
      (by decide) (by decide)
  obtain ⟨-, rfl, rfl, rfl, rfl⟩ := countedLoop_inj (count_inside hinside)
  have hspared : ∀ stmt ∈ atomsAll countInner, stmt.written? ≠ some "i" := by
    simp [countInner, atomsAll, Target.Stmt.atoms, Target.Stmt.written?]
  refine hcounts hspared limit state o hdeclared hrun ho ?_
  refine Orderly.of_bounds (fun _ => rfl) (fun _ => rfl) (by decide) hspared
    (.put (v := 1) _ rfl) (by decide) (by decide) (by decide) fun n r o hleast hmost hn hpass => ?_
  have hone : (1 : Int64).toInt = 1 := rfl
  have height : (8 : Int64).toInt = 8 := rfl
  rcases count_pass hn (by omega) hpass with hnormal | hbreaks
  · exact .inl hnormal
  · exact .inr (.inl hbreaks)

end StructuredBasic.Lowering
