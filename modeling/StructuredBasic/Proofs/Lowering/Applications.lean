import StructuredBasic.Proofs.Forest.Accepted
import StructuredBasic.Proofs.Lowering.Malformed

/-!
# Calls in expressions

A call or an index of the source becomes one application of the lowered code, which
`Expr.applications` counts from an expression down its callees and qualifiers. There is one
exception: a call without arguments is left out if its callee has already become a call of a name
or of a member (`Env.leavesOut`). What a callee becomes is read off the source
(`Env.calleeForm`). Of a chain of calls over a name, all are kept exactly if the second one has
arguments, or if one of the first two indexes an array (`calls_kept_iff`).
-/

set_option autoImplicit false

namespace StructuredBasic.Target

/-! ## Applications -/

mutual

/-- The number of calls and indices from an expression down its callees and qualifiers. -/
def Expr.applications : Expr → Nat
  | .invoke target _ _ => applicationsOptional target + 1
  | .delegateInvoke target _ => target.applications + 1
  | .index target _ => target.applications + 1
  | .field target _ => target.applications
  | .methodRef target _ => applicationsOptional target
  | _ => 0

def Expr.applicationsOptional : Option Expr → Nat
  | none => 0
  | some value => value.applications

end

end StructuredBasic.Target

namespace StructuredBasic.Lowering

open Syntax

/-! ## Specification -/

/-- What a callee looks like to a call of it: a name or a member, a call of one, or neither. -/
inductive CalleeForm where
  | place | call | other
deriving DecidableEq

/-- The form of a call of something of this form. -/
def CalleeForm.called (bare : Bool) : CalleeForm → CalleeForm
  | .place => .call
  | .call => if bare then .call else .other
  | .other => .other

def calleeForm : Target.Expr → CalleeForm
  | .ident _ | .field .. => .place
  | .invoke .. => .call
  | _ => .other

/-- The positions of a list of arguments, the empty ones among them. -/
def positions (f : Forest) (arguments : Option Nat) : List (Option Nat) :=
  match arguments.bind f.collection? with
  | some value => value.elements
  | none => []

/-- A call or an index with no argument, not even an empty one. -/
def isEmptyCall (f : Forest) (x : Nat) : Bool :=
  match f.expr? x with
  | some (.callOrIndex _ arguments _) => (positions f arguments).isEmpty
  | _ => false

namespace Env

variable (env : Env)

/-- A call or an index of what is declared as an array. -/
def indexesArray (x : Nat) : Bool :=
  match env.forest.expr? x with
  | some (.callOrIndex target _ _) => (env.targetsArray x target).toOption.getD false
  | _ => false

set_option linter.unusedVariables false in
/-- The form of what an expression is lowered to. -/
def calleeForm (id : Nat) : CalleeForm :=
  match h : env.forest.expr? id with
  | some (.simpleName _) => .place
  | some (.qualified ..) => .place
  | some (.parenthetical operand) => calleeForm operand
  | some (.callOrIndex target _ _) =>
    if env.indexesArray id then .other else (calleeForm target).called (isEmptyCall env.forest id)
  | some (.binary op _ _ _) =>
    match binaryForm? op with
    | some (.call ..) => .call
    | some .like => .call
    | _ => .other
  | _ => .other
termination_by id
decreasing_by
  all_goals exact Forest.lt_of_expr h (by simp [Expr.slots, Slot.expr, Slot.one])

/-- A call without arguments, of something that is a call of a name or of a member already. -/
def leavesOut (x : Nat) : Bool :=
  match env.forest.expr? x with
  | some (.callOrIndex target _ _) =>
    !env.indexesArray x && isEmptyCall env.forest x && env.calleeForm target == .call
  | _ => false

end Env

/-- Calls and indices of each other over a name, the innermost one first. Parentheses may stand
around any of them. -/
inductive Chain (f : Forest) : Nat → List Nat → Prop
  | name {id name : Nat} (h : f.expr? id = some (.simpleName name)) : Chain f id []
  | parenthetical {id operand : Nat} {steps : List Nat}
      (h : f.expr? id = some (.parenthetical operand)) (hoperand : Chain f operand steps) :
      Chain f id steps
  | call {id target : Nat} {arguments known : Option Nat} {steps : List Nat}
      (h : f.expr? id = some (.callOrIndex target arguments known))
      (htarget : Chain f target steps) : Chain f id (steps ++ [id])

/-! ## Callees -/

section Callees

variable {env : Env} {id target : Nat} {arguments known : Option Nat} {e : Target.Expr}

theorem length_lowerArguments {args : List Target.Expr}
    (h : env.lowerArguments arguments = .ok args) :
    args.length = (positions env.forest arguments).length := by
  cases arguments with
  | none =>
    rw [Env.lowerArguments] at h
    cases h
    rfl
  | some c =>
    rw [Env.lowerArguments] at h
    split at h
    · next hc =>
      cases h
      simp [positions, hc]
    · next value hc =>
      rw [Result.length_of_mapM_ok h, List.length_attach]
      simp [positions, hc]

theorem indexesArray_eq (h : env.forest.expr? id = some (.callOrIndex target arguments known))
    {isArray : Bool} (harray : env.targetsArray id target = .ok isArray) :
    env.indexesArray id = isArray := by
  simp only [Env.indexesArray, h, harray]
  rfl

theorem isEmpty_lowerArguments
    (h : env.forest.expr? id = some (.callOrIndex target arguments known))
    {args : List Target.Expr} (hargs : env.lowerArguments arguments = .ok args) :
    args.isEmpty = isEmptyCall env.forest id := by
  rw [Bool.eq_iff_iff, List.isEmpty_iff_length_eq_zero, length_lowerArguments hargs,
    ← List.isEmpty_iff_length_eq_zero, isEmptyCall, h]

theorem calleeForm_invocation {callee : Target.Expr} {args : List Target.Expr} :
    calleeForm (invocation callee args) = (calleeForm callee).called args.isEmpty := by
  cases callee with
  | invoke inner method given =>
    rw [invocation]
    split <;> simp_all [calleeForm, CalleeForm.called]
  | _ => rfl

/-- What becomes of a call or an index. -/
theorem lowerExpr_call (h : env.forest.expr? id = some (.callOrIndex target arguments known))
    (he : env.lowerExpr id = .ok e) : ∃ callee args, env.lowerExpr target = .ok callee ∧
      args.isEmpty = isEmptyCall env.forest id ∧
      e = if env.indexesArray id then .index callee args else invocation callee args := by
  rw [Env.lowerExpr, h] at he
  simp only [Result.bind_ok, Result.pure_ok] at he
  obtain ⟨isArray, harray, callee, hcallee, args, hargs, rfl⟩ := he
  refine ⟨callee, args, hcallee, isEmpty_lowerArguments h hargs, ?_⟩
  rw [indexesArray_eq h harray]

theorem calleeForm_binaryOperation {mode : Target.CompareMode} {op : Operator}
    {left right value : Target.Expr} (h : binaryOperation? mode op left right = some value) :
    calleeForm value = match binaryForm? op with
      | some (.call ..) => .call
      | some .like => .call
      | _ => .other := by
  unfold binaryOperation? at h
  split at h <;> cases h <;> simp_all [calleeForm, Target.Expr.staticCall]

theorem calleeForm_methodReference {callee : Target.Expr}
    (h : env.methodReference id callee = .ok e) : calleeForm e = .other := by
  unfold Env.methodReference at h
  split at h
  · cases h
    rfl
  · cases h
    rfl
  · exact absurd h unsupported_ne_ok

/-- The form of lowered code is known from the source. -/
theorem calleeForm_of_lowerExpr (he : env.lowerExpr id = .ok e) :
    calleeForm e = env.calleeForm id := by
  induction id using Nat.strongRecOn generalizing e with
  | ind id ih =>
    rw [Env.calleeForm]
    cases lowersExpr_of_ok he with
    | index h harray =>
      rw [indexesArray_eq h harray, h]
      rfl
    | call h harray hc ha =>
      rw [calleeForm_invocation, ih _ hc.lt hc.lowered, isEmpty_lowerArguments h ha.lowered,
        indexesArray_eq h harray, h]
      rfl
    | addressOf h _ hm =>
      rw [h]
      exact calleeForm_methodReference hm
    | parenthetical h ho =>
      rw [h]
      exact ih _ ho.lt ho.lowered
    | range h =>
      -- a range is a difference, and `To` has no other form
      rw [h]
      rfl
    | binary h _ _ _ hvalue =>
      rw [h]
      exact calleeForm_binaryOperation hvalue
    | literal h | nothing h | self h | base h | simpleName h | typeReference h | qualified h
    | member h | lookup h | memberLookup h | construct h | constructArray h | cast h
    | intrinsicCast h | typeTest h | getType h | unary h =>
      rw [h]
      rfl

end Callees

/-! ## One call -/

section Calls

variable {env : Env} {id target x : Nat} {arguments known : Option Nat} {e : Target.Expr}

theorem leavesOut_iff (h : env.forest.expr? x = some (.callOrIndex target arguments known)) :
    env.leavesOut x = true ↔ env.indexesArray x = false ∧ isEmptyCall env.forest x = true ∧
      env.calleeForm target = .call := by
  simp only [Env.leavesOut, h, Bool.and_eq_true, Bool.not_eq_true', beq_iff_eq, and_assoc]

theorem applications_invocation {callee : Target.Expr} {args : List Target.Expr}
    (h : ¬ (args.isEmpty = true ∧ calleeForm callee = .call)) :
    (invocation callee args).applications = callee.applications + 1 := by
  cases callee with
  | invoke inner method given =>
    rw [invocation, if_neg fun hargs => h ⟨hargs, rfl⟩]
    rfl
  | _ => rfl

theorem invocation_of_call {callee : Target.Expr} {args : List Target.Expr}
    (hargs : args.isEmpty = true) (h : calleeForm callee = .call) :
    invocation callee args = callee := by
  cases callee with
  | invoke inner method given => rw [invocation, if_pos hargs]
  | _ => cases h

/-- A call that is left out becomes what its callee becomes, any other is one application of it. -/
theorem applications_call (hexpr : env.forest.expr? id = some (.callOrIndex target arguments known))
    (h : env.lowerExpr id = .ok e) : ∃ callee, env.lowerExpr target = .ok callee ∧
      (env.leavesOut id = true → e = callee) ∧
      (env.leavesOut id = false → e.applications = callee.applications + 1) := by
  obtain ⟨callee, args, hcallee, hbare, rfl⟩ := lowerExpr_call hexpr h
  have hform := calleeForm_of_lowerExpr hcallee
  refine ⟨callee, hcallee, fun hleft => ?_, fun hkept => ?_⟩
  · obtain ⟨harray, hempty, hcall⟩ := (leavesOut_iff hexpr).1 hleft
    rw [harray, if_neg Bool.false_ne_true]
    exact invocation_of_call (hbare.trans hempty) (hform.trans hcall)
  · cases harray : env.indexesArray id with
    | true => rfl
    | false =>
      rw [if_neg Bool.false_ne_true]
      refine applications_invocation fun ⟨hempty, hcall⟩ => ?_
      have hleft :=
        (leavesOut_iff hexpr).2 ⟨harray, hbare.symm.trans hempty, hform.symm.trans hcall⟩
      rw [hkept] at hleft
      cases hleft

end Calls

/-! ## Chains -/

section Chains

variable {env : Env} {f : Forest} {id x : Nat} {steps before after : List Nat} {e : Target.Expr}

/-- Every step of a chain is a call of the chain before it. -/
theorem Chain.at_step (h : Chain f id (before ++ x :: after)) :
    ∃ target arguments known, f.expr? x = some (.callOrIndex target arguments known) ∧
      Chain f target before := by
  generalize hsteps : before ++ x :: after = steps at h
  induction h generalizing after with
  | name => simp at hsteps
  | parenthetical _ _ ih => exact ih hsteps
  | @call id target arguments known steps hexpr htarget ih =>
    rcases List.eq_nil_or_concat after with rfl | ⟨rest, last, rfl⟩
    · obtain ⟨rfl, hlast⟩ := List.append_inj' hsteps rfl
      cases hlast
      exact ⟨target, arguments, known, hexpr, htarget⟩
    · rw [List.concat_eq_append, ← List.cons_append, ← List.append_assoc] at hsteps
      exact ih (List.append_inj' hsteps rfl).1

/-- A chain has become a call if its first step is a call and all others are calls without
arguments. -/
def Env.chainForm (env : Env) : List Nat → CalleeForm
  | [] => .place
  | first :: rest =>
    if !env.indexesArray first && rest.all fun y => !env.indexesArray y && isEmptyCall env.forest y
    then .call else .other

theorem chainForm_concat : env.chainForm (steps ++ [x]) =
    if env.indexesArray x then .other
    else (env.chainForm steps).called (isEmptyCall env.forest x) := by
  cases steps with
  | nil => cases harray : env.indexesArray x <;> simp [Env.chainForm, CalleeForm.called, harray]
  | cons first rest =>
    rw [List.cons_append]
    simp only [Env.chainForm, List.all_append, List.all_cons, List.all_nil, Bool.and_true,
      ← Bool.and_assoc]
    generalize (!env.indexesArray first && rest.all fun y =>
      !env.indexesArray y && isEmptyCall env.forest y) = called
    cases called <;> cases env.indexesArray x <;> cases isEmptyCall env.forest x <;> rfl

theorem Chain.calleeForm (h : Chain env.forest id steps) :
    env.calleeForm id = env.chainForm steps := by
  generalize hf : env.forest = f at h
  induction h with
  | name hexpr =>
    subst hf
    rw [Env.calleeForm, hexpr]
    rfl
  | parenthetical hexpr _ ih =>
    subst hf
    rw [Env.calleeForm, hexpr]
    exact ih
  | call hexpr _ ih =>
    subst hf
    rw [Env.calleeForm, hexpr, chainForm_concat]
    dsimp only
    rw [ih]

/-- Every call of a chain that is not left out is one application. -/
theorem Chain.applications (h : Chain env.forest id steps) (he : env.lowerExpr id = .ok e) :
    e.applications + steps.countP env.leavesOut = steps.length := by
  generalize hf : env.forest = f at h
  induction h generalizing e with
  | name hexpr =>
    subst hf
    rw [Env.lowerExpr, hexpr] at he
    obtain ⟨_, _, he⟩ := Result.bind_ok.1 he
    cases he
    rfl
  | parenthetical hexpr _ ih =>
    subst hf
    rw [Env.lowerExpr, hexpr] at he
    exact ih he
  | @call id target arguments known steps hexpr _ ih =>
    subst hf
    obtain ⟨callee, hcallee, hleft, hkept⟩ := applications_call hexpr he
    have hbefore := ih hcallee
    rw [List.countP_append, List.countP_singleton, List.length_append, List.length_singleton]
    cases hout : env.leavesOut id with
    | true =>
      rw [hleft hout, if_pos rfl]
      omega
    | false =>
      rw [hkept hout, if_neg Bool.false_ne_true]
      omega

theorem Chain.leavesOut_iff (h : Chain env.forest id (before ++ x :: after)) :
    env.leavesOut x = true ↔ env.indexesArray x = false ∧ isEmptyCall env.forest x = true ∧
      env.chainForm before = .call := by
  obtain ⟨target, arguments, known, hexpr, htarget⟩ := h.at_step
  rw [Lowering.leavesOut_iff hexpr, htarget.calleeForm]

theorem chainForm_eq_call_iff : env.chainForm steps = .call ↔
    ∃ first rest, steps = first :: rest ∧ env.indexesArray first = false ∧
      ∀ y ∈ rest, env.indexesArray y = false ∧ isEmptyCall env.forest y = true := by
  cases steps with
  | nil => simp [Env.chainForm]
  | cons first rest =>
    have hform : env.chainForm (first :: rest) = .call ↔ env.indexesArray first = false ∧
        ∀ y ∈ rest, env.indexesArray y = false ∧ isEmptyCall env.forest y = true := by
      simp [Env.chainForm]
    rw [hform]
    constructor
    · intro h
      exact ⟨first, rest, rfl, h⟩
    · rintro ⟨_, _, hsteps, h⟩
      cases hsteps
      exact h

/-- The first call of a chain that can be left out is the second one, and no other is left out
if that one is kept. -/
theorem Chain.none_left_out_iff (h : Chain env.forest id steps) :
    (∀ x ∈ steps, env.leavesOut x = false) ↔ ∀ first second rest, steps = first :: second :: rest →
      env.indexesArray first = true ∨ env.indexesArray second = true ∨
        isEmptyCall env.forest second = false := by
  constructor
  · rintro hkept first second rest rfl
    have hleft : env.leavesOut second = true ↔ env.indexesArray second = false ∧
        isEmptyCall env.forest second = true ∧ env.chainForm [first] = .call :=
      Chain.leavesOut_iff h
    rw [hkept second (by simp), chainForm_eq_call_iff] at hleft
    cases hfirst : env.indexesArray first with
    | true => exact Or.inl rfl
    | false =>
      cases hsecond : env.indexesArray second with
      | true => exact Or.inr (Or.inl rfl)
      | false =>
        refine Or.inr (Or.inr (Bool.eq_false_iff.2 fun hbare => ?_))
        exact Bool.false_ne_true (hleft.2 ⟨hsecond, hbare, first, [], rfl, hfirst, nofun⟩)
  · intro hsecond x hx
    obtain ⟨before, after, rfl⟩ := List.append_of_mem hx
    refine Bool.eq_false_iff.2 fun hleft => ?_
    obtain ⟨harray, hbare, hcall⟩ := h.leavesOut_iff.1 hleft
    obtain ⟨first, rest, rfl, hfirst, hrest⟩ := chainForm_eq_call_iff.1 hcall
    -- the second step is the next one of `rest`, or else the one that is left out
    cases rest with
    | nil =>
      have hkept := hsecond first x after rfl
      simp [hfirst, harray, hbare] at hkept
    | cons second rest =>
      have hkept := hsecond first second (rest ++ x :: after) rfl
      simp [hfirst, hrest second List.mem_cons_self] at hkept

end Chains

/-- A call or an index in an expression adds one application to what its callee becomes, unless it
is a call without arguments of what has become a call already. A chain of calls over a name has one
application for each call that is kept. -/
theorem calls_kept_iff (env : Env) :
    (∀ id target arguments known e,
      env.forest.expr? id = some (.callOrIndex target arguments known) →
      env.lowerExpr id = .ok e → ∃ callee, env.lowerExpr target = .ok callee ∧
        (e.applications = callee.applications + 1 ↔ env.leavesOut id = false) ∧
        (env.leavesOut id = true → e = callee)) ∧
    ∀ id steps e, Chain env.forest id steps → env.lowerExpr id = .ok e →
      e.applications + steps.countP env.leavesOut = steps.length ∧
      (∀ before x after, steps = before ++ x :: after → (env.leavesOut x = true ↔
        env.indexesArray x = false ∧ isEmptyCall env.forest x = true ∧
          env.chainForm before = .call)) ∧
      (e.applications = steps.length ↔ ∀ first second rest, steps = first :: second :: rest →
        env.indexesArray first = true ∨ env.indexesArray second = true ∨
          isEmptyCall env.forest second = false) := by
  refine ⟨fun id target arguments known e hexpr he => ?_, fun id steps e hchain he => ?_⟩
  · obtain ⟨callee, hcallee, hleft, hkept⟩ := applications_call hexpr he
    refine ⟨callee, hcallee, ⟨fun hadds => ?_, hkept⟩, hleft⟩
    refine Bool.eq_false_iff.2 fun hout => ?_
    rw [hleft hout] at hadds
    omega
  · have hcount := hchain.applications he
    refine ⟨hcount, ?_, ?_⟩
    · rintro before x after rfl
      exact hchain.leavesOut_iff
    · rw [← hchain.none_left_out_iff]
      have hzero : steps.countP env.leavesOut = 0 ↔ ∀ x ∈ steps, env.leavesOut x = false := by
        simp only [List.countP_eq_zero, Bool.not_eq_true]
      rw [← hzero]
      omega

/-- A `Sub Main` with `x = f(1)(2)()` and `x = f(1)()`. -/
def chainFile : List Call :=
  let span := Span.startingAt ⟨1, 1⟩
  [.alloc .simpleName span (.name (.simple "x" none false)),
    .alloc .simpleNameExpression span (.expr (.simpleName 0)),
    .alloc .simpleName span (.name (.simple "f" none false)),
    .alloc .simpleNameExpression span (.expr (.simpleName 2)),
    .alloc .integerLiteralExpression span (.expr (.literal (.integer 1 .decimal none))),
    .alloc .argument span (.argument ⟨none, 4⟩),
    .collection .argumentCollection span [some 5] [],
    .alloc .callOrIndexExpression span (.expr (.callOrIndex 3 (some 6) none)),
    .alloc .integerLiteralExpression span (.expr (.literal (.integer 2 .decimal none))),
    .alloc .argument span (.argument ⟨none, 8⟩),
    .collection .argumentCollection span [some 9] [],
    .alloc .callOrIndexExpression span (.expr (.callOrIndex 7 (some 10) none)),
    .alloc .callOrIndexExpression span (.expr (.callOrIndex 11 none none)),
    .alloc .assignmentStatement span (.stmt (.assignment 1 12)),
    .alloc .simpleName span (.name (.simple "x" none false)),
    .alloc .simpleNameExpression span (.expr (.simpleName 14)),
    .alloc .simpleName span (.name (.simple "f" none false)),
    .alloc .simpleNameExpression span (.expr (.simpleName 16)),
    .alloc .integerLiteralExpression span (.expr (.literal (.integer 1 .decimal none))),
    .alloc .argument span (.argument ⟨none, 18⟩),
    .collection .argumentCollection span [some 19] [],
    .alloc .callOrIndexExpression span (.expr (.callOrIndex 17 (some 20) none)),
    .alloc .callOrIndexExpression span (.expr (.callOrIndex 21 none none)),
    .alloc .assignmentStatement span (.stmt (.assignment 15 22)),
    .collection .statementCollection span [some 13, some 23] [],
    .alloc .simpleName span (.name (.simple "Main" none false)),
    .alloc .subDeclaration span
      (.decl (.method ⟨none, none⟩ (.ofName 25) none none (some 24) none)),
    .collection .declarationCollection span [some 26] [],
    .alloc .file span (.file ⟨some 27⟩)]

def chainTree : Tree := .ofCalls chainFile 28

theorem chain_accepted : (Forest.empty.after chainFile).size = chainFile.length := by
  decide +kernel

theorem chainTree_settled :
    chainTree = { Forest.settled chainFile chain_accepted with root := 28 } :=
  Tree.ofCalls_eq_settled 28 chain_accepted

def chainEnv : Env := Env.atTop chainTree.toForest .standard Settings.standard.options

theorem three_calls_kept : chainTree.Finished ∧ Chain chainEnv.forest 12 [7, 11, 12] ∧
    ∃ e, chainEnv.lowerExpr 12 = .ok e ∧ e.applications = 3 := by
  have hlowered : chainEnv.lowerExpr 12 = .ok (.delegateInvoke (.delegateInvoke
      (.invoke none "f" [.int 1]) [.int 2]) []) := by
    rw [chainEnv, chainTree_settled]
    with_unfolding_all rfl
  have hchain : Chain chainEnv.forest 12 [7, 11, 12] := by
    rw [chainEnv, chainTree_settled]
    exact .call rfl (.call rfl (.call rfl (.name rfl)))
  have harguments : isEmptyCall chainEnv.forest 11 = false := by
    rw [chainEnv, chainTree_settled]
    decide +kernel
  obtain ⟨-, -, hall⟩ := (calls_kept_iff chainEnv).2 _ _ _ hchain hlowered
  refine ⟨Tree.finished_of_last chain_accepted rfl, hchain, _, hlowered, hall.2 ?_⟩
  intro first second rest hsteps
  cases hsteps
  exact Or.inr (Or.inr harguments)

/-- The second call of `f(1)()` is lost. -/
theorem second_call_lost : chainTree.Finished ∧ Chain chainEnv.forest 22 [21, 22] ∧
    chainEnv.forest.expr? 22 = some (.callOrIndex 21 none none) ∧
    chainEnv.lowerExpr 21 = .ok (.invoke none "f" [.int 1]) ∧
    chainEnv.lowerExpr 22 = .ok (.invoke none "f" [.int 1]) ∧
    (Target.Expr.invoke none "f" [.int 1]).applications = 1 := by
  refine ⟨Tree.finished_of_last chain_accepted rfl, ?_⟩
  rw [chainEnv, chainTree_settled]
  refine ⟨.call rfl (.call rfl (.name rfl)), rfl, ?_, ?_, rfl⟩
  · with_unfolding_all rfl
  · with_unfolding_all rfl

end StructuredBasic.Lowering
