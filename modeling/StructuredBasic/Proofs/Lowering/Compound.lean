import StructuredBasic.Proofs.Forest.Accepted
import StructuredBasic.Proofs.Lowering.Branches
import StructuredBasic.Proofs.Lowering.ResultWrites

/-!
# Compound assignments

A compound assignment stands for an assignment of `target op source` to `target`
(`Env.expansion`). It becomes this assignment exactly if its target is not the name of a routine
that keeps its result in a local: there the local is read as well as written, where the assignment
that is written out reads the name (`compound_expands_iff`).
-/

set_option autoImplicit false

namespace StructuredBasic.Lowering

open Syntax

/-! ## Specification -/

/-- What the assignment of `target op source` to `target` becomes. -/
def Env.expansion (env : Env) (routine : Routine) (id : Nat) (op : Operator)
    (target source : Nat) : Result (List Target.Stmt) := do
  let place ← env.assignmentTarget routine target
  let left ← env.lowerExpr target
  let right ← env.lowerExpr source
  match binaryOperation? env.compare op left right with
  | some value => return [.assign place value]
  | none => env.unsupported id

/-- The statement is an assignment of `left op right` whose parts lower as the target and the source
of a compound assignment do. -/
def WritesOut (env : Env) (routine : Routine) (op : Operator) (target source y : Nat) : Prop :=
  ∃ written value place left right, env.forest.stmt? y = some (.assignment written value) ∧
    env.forest.expr? value = some (.binary op place left right) ∧ op ≠ .to ∧
    env.assignmentTarget routine written = env.assignmentTarget routine target ∧
    env.lowerExpr left = env.lowerExpr target ∧ env.lowerExpr right = env.lowerExpr source

/-- The target is the name of the routine, and a local of another name holds the result. -/
def MeansResult (env : Env) (routine : Routine) (target : Nat) : Prop :=
  ∃ shadow text, routine.shadow = some shadow ∧ SpelledAs env.forest routine.name target ∧
    env.lowerExpr target = .ok (.ident text) ∧ text ≠ shadow

/-! ## Operators -/

/-- The left operand can be read off an operation. -/
theorem binaryOperation_left_injective {mode : Target.CompareMode} {op : Operator}
    {left other right value : Target.Expr} (h : binaryOperation? mode op left right = some value)
    (ho : binaryOperation? mode op other right = some value) : left = other := by
  unfold binaryOperation? at h ho
  split at h <;> cases h <;> simp_all [Target.Expr.staticCall]

/-! ## Statements -/

section Statements

variable {env : Env} {routine : Routine} {id target source : Nat} {op : Operator}
  {s t : BodyState} {out : List Target.Stmt}

theorem expansion_eq {place left right : Target.Expr}
    (hplace : env.assignmentTarget routine target = .ok place)
    (hleft : env.lowerExpr target = .ok left) (hright : env.lowerExpr source = .ok right) :
    env.expansion routine id op target source =
      match binaryOperation? env.compare op left right with
      | some value => .ok [.assign place value]
      | none => env.unsupported id := by
  rw [Env.expansion, hplace, hleft, hright]
  rfl

theorem Lowers.of_compound (h : Lowers routine env id s out t)
    (hstmt : env.forest.stmt? id = some (.compoundAssignment op target source)) :
    t = s ∧ env.lowerCompound routine id op target source = .ok out := by
  cases h with
  | plain h | preTest h | counted h | element h => cases h <;> grind
  | postTest h | within h | lineIf h | ifBlock h | select h => grind

theorem lowerExpr_binary {x left right : Nat} {place : Location}
    (h : env.forest.expr? x = some (.binary op place left right)) (hto : op ≠ .to) :
    env.lowerExpr x = (do
      let l ← env.lowerExpr left
      let r ← env.lowerExpr right
      match binaryOperation? env.compare op l r with
      | some value => return value
      | none => env.unsupported x) := by
  rw [Env.lowerExpr, h]
  dsimp only
  exact if_neg hto

/-- An assignment that writes the compound assignment out becomes the expansion. -/
theorem WritesOut.lowerStmt_iff {y : Nat} (hy : WritesOut env routine op target source y)
    (u : BodyState) (out : List Target.Stmt) :
    env.lowerStmt routine y u = .ok ((env.comments y).map Target.Stmt.comment ++ out, u) ↔
      env.expansion routine id op target source = .ok out := by
  obtain ⟨written, value, place, left, right, hstmt, hexpr, hto, hplace, hleft, hright⟩ := hy
  rw [lowerStmt_assignment hstmt, lowerExpr_binary hexpr hto, hplace, hleft, hright, Env.expansion]
  simp only [Result.bind_ok]
  refine exists_congr fun p => and_congr_right fun _ => ?_
  constructor
  · rintro ⟨e, ⟨l, hl, r, hr, he⟩, hout⟩
    refine ⟨l, hl, r, hr, ?_⟩
    rw [Result.pure_ok, Prod.mk.injEq, List.append_cancel_left_eq] at hout
    rw [hout.1]
    split at he
    · next value hvalue =>
      cases he
      rfl
    · exact absurd he unsupported_ne_ok
  · rintro ⟨l, hl, r, hr, hout⟩
    split at hout
    · next value hvalue =>
      cases hout
      exact ⟨value, ⟨l, hl, r, hr, by rw [hvalue]; rfl⟩, rfl⟩
    · exact absurd hout unsupported_ne_ok

/-- Elsewhere the place that is written is read as well. -/
theorem lowerExpr_of_not_meansResult {place : Target.Expr}
    (hplace : env.assignmentTarget routine target = .ok place)
    (h : ¬ MeansResult env routine target) : env.lowerExpr target = .ok place := by
  by_cases hname : SpelledAs env.forest routine.name target
  · cases hshadow : routine.shadow with
    | none => rwa [Env.assignmentTarget, hshadow] at hplace
    | some shadow =>
      obtain ⟨simple, text, hexpr, htext, -⟩ := id hname
      have hread := (Names.simple hexpr htext).lowerExpr
      have hsame : text = shadow := by
        by_contra hne
        exact h ⟨shadow, text, hshadow, hname, hread, hne⟩
      cases (assignmentTarget_eq hshadow hname).symm.trans hplace
      rw [hread, hsame]
  · rwa [assignmentTarget_other hname] at hplace

/-- The local for the result of a routine has another name, so there it is the spelling of the
target that decides. -/
theorem RoutineBody.meansResult_iff {settings : Settings} {body : List Target.Stmt}
    (r : RoutineBody env.forest settings body) : MeansResult env r.routine target ↔
      (∃ shadow, r.routine.shadow = some shadow) ∧ SpelledAs env.forest r.name target := by
  constructor
  · rintro ⟨shadow, _, hshadow, hname, -⟩
    exact ⟨⟨shadow, hshadow⟩, hname⟩
  · rintro ⟨⟨shadow, hshadow⟩, hname⟩
    obtain ⟨simple, text, hexpr, htext, hsame⟩ := id hname
    refine ⟨shadow, text, hshadow, hname, (Names.simple hexpr htext).lowerExpr, ?_⟩
    rintro rfl
    exact (r.spelled_of_shadow hshadow).1 hsame

/-- A compound assignment becomes one assignment. This is what the assignment that is written out
becomes, unless the target means the result of the routine: then the local that holds the result is
read where the assignment that is written out reads the name. -/
theorem compound_expands_iff
    (hstmt : env.forest.stmt? id = some (.compoundAssignment op target source))
    (h : env.lowerStmt routine id s = .ok (out, t)) : ∃ place right value, t = s ∧
      out = (env.comments id).map Target.Stmt.comment ++ [.assign place value] ∧
      env.assignmentTarget routine target = .ok place ∧ env.lowerExpr source = .ok right ∧
      (env.expansion routine id op target source = .ok [.assign place value] ↔
        ¬ MeansResult env routine target) ∧
      (∀ y, WritesOut env routine op target source y → (env.lowerStmt routine y s =
          .ok ((env.comments y).map Target.Stmt.comment ++ [.assign place value], s) ↔
        ¬ MeansResult env routine target)) ∧
      (MeansResult env routine target → ∃ shadow, routine.shadow = some shadow ∧
        place = .ident shadow ∧
        binaryOperation? env.compare op (.ident shadow) right = some value) ∧
      ∀ settings body (r : RoutineBody env.forest settings body), r.routine = routine →
        (MeansResult env routine target ↔
          (∃ shadow, routine.shadow = some shadow) ∧ SpelledAs env.forest r.name target) := by
  obtain ⟨core, rfl, hcore⟩ := derivable routine id env s out t h
  obtain ⟨rfl, hcompound⟩ := hcore.of_compound hstmt
  obtain ⟨place, right, value, hplace, hright, hvalue, rfl⟩ := lowerCompound_ok hcompound
  have hexpands : env.expansion routine id op target source = .ok [.assign place value] ↔
      ¬ MeansResult env routine target := by
    constructor
    · rintro hexpands ⟨shadow, text, hshadow, hname, hread, hne⟩
      cases (assignmentTarget_eq hshadow hname).symm.trans hplace
      rw [expansion_eq hplace hread hright] at hexpands
      split at hexpands
      · next other hother =>
        cases hexpands
        cases binaryOperation_left_injective hother hvalue
        exact hne rfl
      · exact absurd hexpands unsupported_ne_ok
    · intro hother
      rw [expansion_eq hplace (lowerExpr_of_not_meansResult hplace hother) hright, hvalue]
  refine ⟨place, right, value, rfl, rfl, hplace, hright, hexpands,
    fun y hy => (hy.lowerStmt_iff _ _).trans hexpands, ?_, ?_⟩
  · rintro ⟨shadow, _, hshadow, hname, -⟩
    cases (assignmentTarget_eq hshadow hname).symm.trans hplace
    exact ⟨shadow, hshadow, rfl, hvalue⟩
  · rintro settings body r rfl
    exact r.meansResult_iff

end Statements

/-- A `Function F%` that adds 1 to `F` and then raises `x` to the power of 2. -/
def compoundFile : List Call :=
  let span := Span.startingAt ⟨1, 1⟩
  [.alloc .simpleName span (.name (.simple "F" (some .integer) false)),
    .alloc .simpleName span (.name (.simple "F" none false)),
    .alloc .simpleNameExpression span (.expr (.simpleName 1)),
    .alloc .integerLiteralExpression span (.expr (.literal (.integer 1 .decimal none))),
    .alloc .compoundAssignmentStatement span (.stmt (.compoundAssignment .plus 2 3)),
    .alloc .simpleName span (.name (.simple "x" none false)),
    .alloc .simpleNameExpression span (.expr (.simpleName 5)),
    .alloc .integerLiteralExpression span (.expr (.literal (.integer 2 .decimal none))),
    .alloc .compoundAssignmentStatement span (.stmt (.compoundAssignment .power 6 7)),
    .collection .statementCollection span [some 4, some 8] [],
    .alloc .functionDeclaration span
      (.decl (.method ⟨none, none⟩ (.ofName 0) none none (some 9) none)),
    .collection .declarationCollection span [some 10] [],
    .alloc .file span (.file ⟨some 11⟩)]

def compoundTree : Tree := .ofCalls compoundFile 12

theorem compound_accepted : (Forest.empty.after compoundFile).size = compoundFile.length := by
  decide +kernel

theorem compoundTree_settled :
    compoundTree = { Forest.settled compoundFile compound_accepted with root := 12 } :=
  Tree.ofCalls_eq_settled 12 compound_accepted

def compoundEnv : Env := Env.atTop compoundTree.toForest .standard Settings.standard.options

def compoundState : BodyState := ⟨["fresult", "x", "f"], []⟩

def squareOf (x : Target.Expr) : Target.Expr := .staticCall "Math" "Pow" [x, .int 2]

theorem square_expands : compoundTree.Finished ∧
    compoundEnv.forest.stmt? 8 = some (.compoundAssignment .power 6 7) ∧
    compoundEnv.lowerStmt ⟨"F", some "FResult", .primitive .int⟩ 8 compoundState =
      .ok ([.assign (.ident "x") (squareOf (.ident "x"))], compoundState) ∧
    compoundEnv.expansion ⟨"F", some "FResult", .primitive .int⟩ 8 .power 6 7 =
      .ok [.assign (.ident "x") (squareOf (.ident "x"))] := by
  have hstmt : compoundEnv.forest.stmt? 8 = some (.compoundAssignment .power 6 7) := by
    rw [compoundEnv, compoundTree_settled]
    rfl
  have hlowers : compoundEnv.lowerStmt ⟨"F", some "FResult", .primitive .int⟩ 8 compoundState =
      .ok ([.assign (.ident "x") (squareOf (.ident "x"))], compoundState) := by
    rw [compoundEnv, compoundTree_settled]
    with_unfolding_all rfl
  obtain ⟨place, _, value, _, hout, _, _, hexpands, _⟩ := compound_expands_iff hstmt hlowers
  have hother : ¬ MeansResult compoundEnv ⟨"F", some "FResult", .primitive .int⟩ 6 := by
    rintro ⟨_, _, -, hname, -⟩
    have hnamed : compoundEnv.isNamed 6 "F" = true := isNamed_iff.2 hname
    revert hnamed
    rw [compoundEnv, compoundTree_settled]
    decide +kernel
  have hcomments : compoundEnv.comments 8 = [] := by
    rw [compoundEnv, compoundTree_settled]
    rfl
  rw [hcomments] at hout
  cases hout
  exact ⟨Tree.finished_of_last compound_accepted rfl, hstmt, hlowers, hexpands.2 hother⟩

/-- Adding to the name of the routine reads the local for the result, where the assignment that is
written out reads the name. -/
theorem own_name_not_expanded : compoundTree.Finished ∧
    compoundEnv.forest.stmt? 4 = some (.compoundAssignment .plus 2 3) ∧
    (compoundEnv.routineShadow 10 "F" (.primitive .int)).1 = some "FResult" ∧
    compoundEnv.lowerStmt ⟨"F", some "FResult", .primitive .int⟩ 4 compoundState =
      .ok ([.assign (.ident "FResult") (.binary .add (.ident "FResult") (.int 1))],
        compoundState) ∧
    compoundEnv.expansion ⟨"F", some "FResult", .primitive .int⟩ 4 .plus 2 3 =
      .ok [.assign (.ident "FResult") (.binary .add (.ident "F") (.int 1))] ∧
    compoundEnv.expansion ⟨"F", some "FResult", .primitive .int⟩ 4 .plus 2 3 ≠
      .ok [.assign (.ident "FResult") (.binary .add (.ident "FResult") (.int 1))] := by
  have hexpansion : compoundEnv.expansion ⟨"F", some "FResult", .primitive .int⟩ 4 .plus 2 3 =
      .ok [.assign (.ident "FResult") (.binary .add (.ident "F") (.int 1))] := by
    rw [compoundEnv, compoundTree_settled]
    with_unfolding_all rfl
  refine ⟨Tree.finished_of_last compound_accepted rfl, ?_, ?_, ?_, hexpansion, ?_⟩
  · rw [compoundEnv, compoundTree_settled]
    rfl
  · rw [compoundEnv, compoundTree_settled]
    decide +kernel
  · rw [compoundEnv, compoundTree_settled]
    with_unfolding_all rfl
  · rw [hexpansion]
    simp

end StructuredBasic.Lowering
