import StructuredBasic.Proofs.Machine.Coverage
import StructuredBasic.Proofs.Machine.Termination

/-!
# What statements do

One equation for each form of statement says what it makes of a state. A list that begins with no
label runs its first statement and then the rest, since no jump lands in front of it
(`run_block_cons`). A test is true when its operands compare as its operator asks.
-/

set_option autoImplicit false

namespace StructuredBasic.Machine

open Target (Expr Stmt)

/-! ## Lists that begin with a statement that is no label -/

section Lists

variable {limit : Nat} {s : State}

/-- A jump never lands at an action without a label. -/
theorem jumps_cons (action : Run.Action) (acts : List Run.Action) (h : action.label = none)
    (fuel : Nat) (flow : Flow) :
    Run.jumps limit (action :: acts) fuel flow = Run.jumps limit acts fuel flow := by
  have hafter : ∀ label, Run.afterLabel? label (action :: acts) = Run.afterLabel? label acts := by
    intro label
    rw [Run.afterLabel?, if_neg (by rw [h]; exact (Option.some_ne_none label).symm)]
  induction fuel generalizing flow with
  | zero =>
    unfold Run.jumps
    simp only [hafter]
  | succ fuel ih =>
    unfold Run.jumps
    simp only [hafter, ih]

theorem run_block_cons {stmt : Stmt} (rest : List Stmt) (h : labelOf? stmt = none) :
    (Run.block limit (actions limit (stmt :: rest))).run s = match (exec limit stmt).run s with
      | (.ok .normal, t) => (Run.block limit (actions limit rest)).run t
      | (.ok flow, t) =>
        (Run.jumps limit (actions limit rest) (limit + 1 - t.steps) flow).run t
      | (.error fault, t) => (.error fault, t) := by
  have hjumps : ∀ fuel flow,
      Run.jumps limit (⟨labelOf? stmt, exec limit stmt⟩ :: actions limit rest) fuel flow =
        Run.jumps limit (actions limit rest) fuel flow := jumps_cons _ _ h
  have hfollow : Run.follow limit (⟨labelOf? stmt, exec limit stmt⟩ :: actions limit rest)
      (actions limit rest) (fun t => limit + 1 - t.steps) =
        Run.block limit (actions limit rest) := by
    rw [block_eq_follow, Run.follow, Run.follow]
    simp only [hjumps]
  rw [block_eq_follow, actions, run_follow_cons, hfollow]
  rcases (exec limit stmt).run s with ⟨fault | flow, t⟩
  · rfl
  · have hleave := congrArg (fun m : Run Flow => m.run t) (hjumps (limit + 1 - t.steps) flow)
    cases flow with
    | normal => rfl
    | breaks => exact hleave
    | returns => exact hleave
    | goto => exact hleave

theorem run_block_nil : (Run.block limit (actions limit [])).run s = (.ok .normal, s) :=
  run_jumps_leaving (fun _ _ => rfl) _

theorem run_block_single {stmt : Stmt} (h : labelOf? stmt = none) :
    (Run.block limit (actions limit [stmt])).run s = (exec limit stmt).run s := by
  have hleave : ∀ flow fuel t,
      (Run.jumps limit (actions limit []) fuel flow).run t = (.ok flow, t) :=
    fun flow fuel t => run_jumps_leaving (fun _ _ => rfl) fuel
  rw [run_block_cons [] h]
  rcases (exec limit stmt).run s with ⟨fault | flow, t⟩
  · rfl
  · cases flow with
    | normal => exact run_block_nil
    | breaks => exact hleave _ _ t
    | returns => exact hleave _ _ t
    | goto => exact hleave _ _ t

theorem run_block_comments (texts : List String) (rest : List Stmt) :
    (Run.block limit (actions limit (texts.map Stmt.comment ++ rest))).run s =
      (Run.block limit (actions limit rest)).run s := by
  induction texts with
  | nil => rfl
  | cons text texts ih =>
    rw [List.map_cons, List.cons_append, run_block_cons _ rfl]
    exact ih

theorem run_conditional (condition : Expr) (thenBody elseBody : List Stmt) :
    (exec limit (.conditional condition thenBody elseBody)).run s =
      match truth s.locals condition with
      | .error fault => (.error fault, s)
      | .ok true => (Run.block limit (actions limit thenBody)).run s
      | .ok false => (Run.block limit (actions limit elseBody)).run s := by
  rw [exec, Run.run_bind, run_test]
  rcases truth s.locals condition with fault | _ | _ <;> rfl

theorem run_declare (name : String) (type : Target.Ty) (init : Expr) :
    (exec limit (.declare name type (some init))).run s = match eval s.locals init with
      | .error fault => (.error fault, s)
      | .ok v => (.ok .normal, { s with locals := s.locals.put name v }) := by
  rw [exec, Run.run_bind, run_value]
  rcases eval s.locals init with fault | v <;> rfl

theorem run_declare_bare (name : String) (type : Target.Ty) :
    (exec limit (.declare name type none)).run s =
      (.ok .normal, { s with locals := s.locals.put name .null }) := by
  rw [exec]
  rfl

/-- Only a declared local is assigned to. -/
theorem run_assign (name : String) (source : Expr) :
    (exec limit (.assign (.ident name) source)).run s = match eval s.locals source with
      | .error fault => (.error fault, s)
      | .ok v => match s.locals.get? name with
        | some _ => (.ok .normal, { s with locals := s.locals.put name v })
        | none => (.error (.undefinedVariable name), s) := by
  rw [exec, Run.run_bind, Run.assign, Run.run_bind, run_value]
  rcases eval s.locals source with fault | v
  · rfl
  · have hget : (get : Run State).run s = (.ok s, s) := rfl
    dsimp only
    rw [Run.run_bind, hget]
    dsimp only
    cases s.locals.get? name <;> rfl

theorem run_expression (e : Expr) : (exec limit (.expression e)).run s =
    ((eval s.locals e).map fun _ => .normal, s) := by
  rw [exec, Run.run_bind, run_value]
  cases eval s.locals e <;> rfl

theorem run_returns (e : Expr) : (exec limit (.returns (some e))).run s =
    ((eval s.locals e).map fun v => .returns (some v), s) := by
  rw [exec, Run.run_bind, run_value]
  cases eval s.locals e <;> rfl

/-- A loop that comes to its first test beyond the limit is stopped there. -/
theorem exec_iteration_spent {init increment : Option Stmt} {test : Expr} {body : List Stmt}
    {t : State} (hinit : (execOptional limit init).run s = (.ok (), t)) (ht : limit < t.steps) :
    ((exec limit (.iteration init test increment body)).run s).1 = .error .stepLimit := by
  have hfuel : limit + 1 - t.steps = 0 := by omega
  rw [exec, Run.loop, Run.run_bind, hinit]
  show ((Run.passes limit _ _ _ (limit + 1 - t.steps)).run t).1 = _
  rw [hfuel]
  rfl

end Lists

/-! ## When a test is true -/

section Tests

variable {locals : Locals} {left right : Expr} {op : Target.BinaryOp}

theorem truth_eq_true {e : Expr} :
    truth locals e = .ok true ↔ eval locals e = .ok (.bool true) := by
  unfold truth
  cases eval locals e with
  | error fault => simp [bind, Except.bind]
  | ok v => cases v <;> simp [bind, Except.bind, Value.truth]

theorem truth_binary : truth locals (.binary op left right) = .ok true ↔
    ∃ a b, eval locals left = .ok a ∧ eval locals right = .ok b ∧
      binary op a b = .ok (.bool true) := by
  rw [truth_eq_true, eval]
  cases eval locals left with
  | error fault => simp [bind, Except.bind]
  | ok a =>
    cases eval locals right with
    | error fault => simp [bind, Except.bind]
    | ok b => simp [bind, Except.bind]

/-- Both operands of the logical operator are evaluated, and both have to be true. -/
theorem truth_logicalAnd : truth locals (.binary .logicalAnd left right) = .ok true ↔
    truth locals left = .ok true ∧ truth locals right = .ok true := by
  rw [truth_binary, truth_eq_true, truth_eq_true]
  constructor
  · rintro ⟨a, b, ha, hb, h⟩
    cases a <;> cases b <;> simp only [binary, reduceCtorEq, Except.ok.injEq, Value.bool.injEq,
      Bool.and_eq_true] at h
    obtain ⟨rfl, rfl⟩ := h
    exact ⟨ha, hb⟩
  · rintro ⟨ha, hb⟩
    exact ⟨_, _, ha, hb, rfl⟩

theorem binary_equal {a b : Value} : binary .equal a b = .ok (.bool true) ↔ a.equal b = true := by
  show Except.ok (Value.bool (a.equal b)) = _ ↔ _
  simp

theorem binary_notEqual {a b : Value} :
    binary .notEqual a b = .ok (.bool true) ↔ a.equal b = false := by
  show Except.ok (Value.bool (!a.equal b)) = _ ↔ _
  simp

theorem ordered_eq_true {holds : Ordering → Bool} {a b : Value} :
    ordered holds a b = .ok (.bool true) ↔
      ∃ order, compareValues a b = .ok order ∧ holds order = true := by
  unfold ordered
  cases compareValues a b <;> simp [bind, Except.bind, pure, Except.pure]

theorem binary_less {a b : Value} :
    binary .less a b = .ok (.bool true) ↔ compareValues a b = .ok .lt := by
  refine ordered_eq_true.trans ⟨?_, fun h => ⟨_, h, rfl⟩⟩
  rintro ⟨order, h, hlt⟩
  rwa [Ordering.isLT_iff_eq_lt.1 hlt] at h

theorem binary_greater {a b : Value} :
    binary .greater a b = .ok (.bool true) ↔ compareValues a b = .ok .gt := by
  refine ordered_eq_true.trans ⟨?_, fun h => ⟨_, h, rfl⟩⟩
  rintro ⟨order, h, hgt⟩
  rwa [Ordering.isGT_iff_eq_gt.1 hgt] at h

theorem binary_greaterEqual {a b : Value} : binary .greaterEqual a b = .ok (.bool true) ↔
    ∃ order, compareValues a b = .ok order ∧ order.isGE = true :=
  ordered_eq_true

theorem binary_lessEqual {a b : Value} : binary .lessEqual a b = .ok (.bool true) ↔
    ∃ order, compareValues a b = .ok order ∧ order.isLE = true :=
  ordered_eq_true

end Tests

end StructuredBasic.Machine
