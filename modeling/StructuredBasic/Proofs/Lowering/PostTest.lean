import StructuredBasic.Proofs.Forest.Accepted
import StructuredBasic.Proofs.Lowering.Reach
import StructuredBasic.Proofs.Machine.PostTest

/-!
# Conditions behind the body of a loop

A `Do` block with its condition on the `Loop` line becomes a loop with a latch. The latch is
mentioned neither in the body nor in the test, so the loop ends as one that runs its body first and
tests after each pass (`do_tests_after_body`).
-/

set_option autoImplicit false

namespace StructuredBasic.Lowering

open Syntax Machine
open Target.Stmt (mentionedAll)

theorem Lowers.of_postTest {routine : Routine} {env : Env} {id : Nat} {s t : BodyState}
    {out : List Target.Stmt} {statements tail : Option Nat} {condition : LoopCondition}
    (h : Lowers routine env id s out t)
    (hstmt : env.forest.stmt? id = some (.doBlock none statements tail))
    (htail : env.trailingCondition? tail = some condition) :
    ∃ test body, LowersAll routine env (env.forest.elements statements)
        { s with taken := (fresh s.taken "latch").2 } body t ∧
      env.lowerCondition condition = .ok test ∧
      out = [postTestLoop (fresh s.taken "latch").1 test body] := by
  cases h with
  | postTest h ht hb hc =>
    rw [hstmt] at h
    cases h
    rw [htail] at ht
    cases ht
    exact ⟨_, _, hb, hc, rfl⟩
  | plain h | preTest h | counted h | element h => cases h <;> grind
  | select h | within h | lineIf h | ifBlock h => grind

theorem idents_loopTest (isWhile : Bool) (operand : Target.Expr) :
    (loopTest isWhile operand).idents = operand.idents := by
  cases isWhile <;> rfl

/-- The latch of a lowered loop is mentioned neither in its body nor in its test. -/
theorem Lowers.latch_omitted {routine : Routine} {env : Env} {node id : Nat} {s t : BodyState}
    {out : List Target.Stmt} {statements : Option Nat} {tail : Nat} {condition : LoopCondition}
    (h : Lowers routine env id s out t) (hf : env.forest.Shaped) (hs : InUse routine env node s)
    (hid : id ∈ env.forest.descendants node)
    (hstmt : env.forest.stmt? id = some (.doBlock none statements (some tail)))
    (htail : env.forest.stmt? tail = some (.loopEnd (some condition))) :
    ∃ latch operand body u, LowersAll routine env (env.forest.elements statements) u body t ∧
      env.lowerExpr condition.expression = .ok operand ∧
      out = [postTestLoop latch (loopTest condition.isWhile operand) body] ∧
      latch ∉ mentionedAll body ∧ latch ∉ operand.idents := by
  have htrailing : env.trailingCondition? (some tail) = some condition := by
    simp only [Env.trailingCondition?, Option.bind_some, htail]
  obtain ⟨test, body, hbody, htest, rfl⟩ := h.of_postTest hstmt htrailing
  have hfresh := fresh_not_taken s.taken "latch"
  have hnamed := (hs.foreign hfresh).trailing hid hstmt htrailing htest
  simp only [Env.lowerCondition, Result.bind_ok, Result.pure_ok] at htest
  obtain ⟨operand, hoperand, rfl⟩ := htest
  refine ⟨_, operand, body, _, hbody, hoperand, rfl, ?_, fun hmem => ?_⟩
  · exact hbody.omits hf hs hfresh List.mem_cons_self
      (Forest.elements_below hid hstmt (by simp [Stmt.lists]))
  · rw [← idents_loopTest condition.isWhile] at hmem
    exact hnamed _ hmem rfl

/-- Every `Do` block of a routine whose condition stands behind its body runs the body first. After
each pass that ends normally the condition is tested, and the loop goes on while a `While` is true
or an `Until` is false. -/
theorem do_tests_after_body {tree : Tree} {settings : Settings} {body : List Target.Stmt}
    (hfinished : tree.Finished) (r : RoutineBody tree.toForest settings body) {id : Nat}
    (hid : id ∈ tree.descendants r.node) {statements : Option Nat} {tail : Nat}
    {condition : LoopCondition}
    (hstmt : tree.stmt? id = some (.doBlock none statements (some tail)))
    (htail : tree.stmt? tail = some (.loopEnd (some condition))) :
    ∃ env s t latch operand inner test, env.forest = tree.toForest ∧
      LowersAll r.routine env (tree.elements statements) s inner t ∧
      env.lowerExpr condition.expression = .ok operand ∧
      test = loopTest condition.isWhile operand ∧ Inside (postTestLoop latch test inner) body ∧
      latch ∉ mentionedAll inner ∧ latch ∉ test.idents ∧
      ∀ limit state (o : Outcome), (exec limit (postTestLoop latch test inner)).run state = o →
        o.1 ≠ .error .stepLimit →
        ∃ o', PostTest limit test inner state o' ∧
          (∀ o'', PostTest limit test inner state o'' → o'' = o') ∧
          o'.1 = o.1 ∧ ∀ x, x ≠ latch → o'.2.locals.get? x = o.2.locals.get? x := by
  have hf := hfinished.built.shaped
  obtain ⟨env, s, core, t, hforest, hs, hlowers, hinside⟩ := r.reaches hf hid hstmt rfl
  rw [← hforest] at hf hstmt htail
  have hid' : id ∈ env.forest.descendants r.node := by rw [hforest]; exact hid
  obtain ⟨latch, operand, inner, u, hinner, hoperand, rfl, hbody, htest⟩ :=
    hlowers.latch_omitted hf hs hid' hstmt htail
  rw [← idents_loopTest condition.isWhile] at htest
  rw [hforest] at hinner
  refine ⟨env, u, t, latch, operand, inner, _, hforest, hinner, hoperand, rfl,
    hinside _ (List.mem_singleton_self _), hbody, htest, fun limit state o hrun ho => ?_⟩
  obtain ⟨o', hloop, hsame, hlocals⟩ := exec_postTestLoop hbody htest hrun ho
  exact ⟨o', hloop, fun o'' h => hloop.unique h, hsame, hlocals⟩

theorem postTestLoop_inj {a b : String} {s t : Target.Expr} {xs ys : List Target.Stmt}
    (h : postTestLoop a s xs = postTestLoop b t ys) : a = b ∧ s = t ∧ xs = ys := by
  rw [postTestLoop, postTestLoop, Target.Stmt.iteration.injEq] at h
  obtain ⟨hinit, -, -, hbody⟩ := h
  obtain ⟨hfront, hlast⟩ := List.append_inj' hbody rfl
  cases hinit
  cases hlast
  exact ⟨rfl, rfl, hfront⟩

/-- A loop that stops as soon as a variable `Latch` is true. -/
def untilFile : List Call :=
  let span := Span.startingAt ⟨1, 1⟩
  [.alloc .simpleName span (.name (.simple "Main" none false)),
    .alloc .simpleName span (.name (.simple "Latch" none false)),
    .alloc .simpleNameExpression span (.expr (.simpleName 1)),
    .alloc .simpleName span (.name (.simple "Latch" none false)),
    .alloc .simpleNameExpression span (.expr (.simpleName 3)),
    .alloc .booleanLiteralExpression span (.expr (.literal (.boolean true))),
    .alloc .assignmentStatement span (.stmt (.assignment 4 5)),
    .collection .statementCollection span [some 6] [],
    .alloc .loopStatement span (.stmt (.loopEnd (some ⟨false, 2⟩))),
    .alloc .doBlockStatement span (.stmt (.doBlock none (some 7) (some 8))),
    .collection .statementCollection span [some 9] [],
    .alloc .subDeclaration span
      (.decl (.method ⟨none, none⟩ (.ofName 0) none none (some 10) none)),
    .collection .declarationCollection span [some 11] [],
    .alloc .file span (.file ⟨some 12⟩)]

theorem until_accepted : (Forest.empty.after untilFile).size = untilFile.length := by
  decide +kernel

def untilBody : List Target.Stmt :=
  [postTestLoop "latch1" (.unary .not (.ident "Latch")) [.assign (.ident "Latch") (.bool true)]]

def untilRoutine : RoutineBody (Tree.ofCalls untilFile 13).toForest .standard untilBody where
  options := Settings.standard.options
  node := 11
  name := "Main"
  returnType := .void
  statements := some 10
  holds := .method (by rw [Tree.ofCalls_eq_settled 13 until_accepted]; rfl)
  lowered := by
    have hnames : Env.routineShadow (.atTop (Tree.ofCalls untilFile 13).toForest .standard
        Settings.standard.options) 11 "Main" .void = (none, ["main", "latch", "latch"]) := by
      decide +kernel
    rw [lowerRoutine_of_shadow hnames, Tree.ofCalls_eq_settled 13 until_accepted]
    with_unfolding_all rfl

theorem until_tests_after_body : (Tree.ofCalls untilFile 13).Finished ∧
    9 ∈ (Tree.ofCalls untilFile 13).descendants untilRoutine.node ∧
    (Tree.ofCalls untilFile 13).stmt? 9 = some (.doBlock none (some 7) (some 8)) ∧
    (Tree.ofCalls untilFile 13).stmt? 8 = some (.loopEnd (some ⟨false, 2⟩)) ∧
    ∀ limit state (o : Outcome), (exec limit (postTestLoop "latch1" (.unary .not (.ident "Latch"))
        [.assign (.ident "Latch") (.bool true)])).run state = o → o.1 ≠ .error .stepLimit →
      ∃ o', PostTest limit (.unary .not (.ident "Latch")) [.assign (.ident "Latch") (.bool true)]
        state o' ∧ o'.1 = o.1 ∧ ∀ x, x ≠ "latch1" → o'.2.locals.get? x = o.2.locals.get? x := by
  have hfinished : (Tree.ofCalls untilFile 13).Finished := Tree.finished_of_last until_accepted rfl
  have hid : 9 ∈ (Tree.ofCalls untilFile 13).descendants 11 := by
    rw [Tree.ofCalls_eq_settled 13 until_accepted]
    decide +kernel
  have hstmt : (Tree.ofCalls untilFile 13).stmt? 9 = some (.doBlock none (some 7) (some 8)) := by
    rw [Tree.ofCalls_eq_settled 13 until_accepted]
    rfl
  have htail : (Tree.ofCalls untilFile 13).stmt? 8 = some (.loopEnd (some ⟨false, 2⟩)) := by
    rw [Tree.ofCalls_eq_settled 13 until_accepted]
    rfl
  refine ⟨hfinished, hid, hstmt, htail, fun limit state o hrun ho => ?_⟩
  obtain ⟨_, _, _, latch, _, inner, test, _, _, _, _, hinside, _, _, hloop⟩ :=
    do_tests_after_body hfinished untilRoutine hid hstmt htail
  -- the body holds one loop, and no loop stands in the body of that one
  have hsame : postTestLoop latch test inner = postTestLoop "latch1" (.unary .not (.ident "Latch"))
      [.assign (.ident "Latch") (.bool true)] := by
    cases hinside with
    | here h => exact List.mem_singleton.1 h
    | thenBody hm => cases List.mem_singleton.1 hm
    | elseBody hm => cases List.mem_singleton.1 hm
    | loop hm h =>
      cases List.mem_singleton.1 hm
      cases h with
      | here h => simp [postTestLoop] at h
      | thenBody hm => simp at hm
      | elseBody hm => simp at hm
      | loop hm => simp at hm
  obtain ⟨rfl, rfl, rfl⟩ := postTestLoop_inj hsame
  obtain ⟨o', hpostTest, _, hresult⟩ := hloop limit state o hrun ho
  exact ⟨o', hpostTest, hresult⟩

end StructuredBasic.Lowering
