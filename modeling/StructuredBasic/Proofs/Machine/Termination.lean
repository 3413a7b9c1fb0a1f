import StructuredBasic.Proofs.Machine.Jumps

/-!
# Runs end, and the limit only cuts them off

`Ends limit task s o` derives how a task ends without any fuel: a pass or a jump may be followed by
another one for as long as steps are left. Every task has a derivation (`exists_ends`): each rule
uses up a step or goes to a smaller part. A derivation decides what the machine does
(`Ends.agrees`), bounds the steps that it counts (`Ends.within`), and stays one under a larger limit
unless it runs out of steps (`Ends.raise`).
-/

set_option autoImplicit false

namespace StructuredBasic.Machine

open Target (Expr Stmt)

/-! ## Derivations -/

abbrev Outcome := Except Fault Flow × State

def State.ticked (s : State) : State := { s with steps := s.steps + 1 }

/-- The truth of an expression under the values of the locals. -/
def truth (locals : Locals) (e : Expr) : Except Fault Bool := do
  let v ← eval locals e
  v.truth

/-- The statements behind a label of a list. -/
def after? (label : String) : List Stmt → Option (List Stmt)
  | [] => none
  | stmt :: rest => if labelOf? stmt = some label then some rest else after? label rest

/-- How a loop ends when its body leaves it. -/
def Flow.outOfLoop : Flow → Flow
  | .breaks => .normal
  | flow => flow

/-- What the machine may have to do next. -/
inductive Task where
  | stmt (stmt : Stmt)
  | optional (stmt : Option Stmt)
  /-- The passes of a loop that are still to come. -/
  | passes (test : Expr) (increment : Option Stmt) (body : List Stmt)
  /-- The list `body` from its part `rest` on. -/
  | list (body rest : List Stmt)

/-- The task from the state comes to the outcome. -/
inductive Ends (limit : Nat) : Task → State → Outcome → Prop
  | plain {stmt : Stmt} {s : State} (h : isBlock stmt = false) :
      Ends limit (.stmt stmt) s ((exec limit stmt).run s)
  | conditionFault {condition : Expr} {thenBody elseBody : List Stmt} {s : State} {fault : Fault}
      (h : truth s.locals condition = .error fault) :
      Ends limit (.stmt (.conditional condition thenBody elseBody)) s (.error fault, s)
  | thenBranch {condition : Expr} {thenBody elseBody : List Stmt} {s : State} {o : Outcome}
      (h : truth s.locals condition = .ok true) (hbody : Ends limit (.list thenBody thenBody) s o) :
      Ends limit (.stmt (.conditional condition thenBody elseBody)) s o
  | elseBranch {condition : Expr} {thenBody elseBody : List Stmt} {s : State} {o : Outcome}
      (h : truth s.locals condition = .ok false)
      (hbody : Ends limit (.list elseBody elseBody) s o) :
      Ends limit (.stmt (.conditional condition thenBody elseBody)) s o
  | initFault {init increment : Option Stmt} {test : Expr} {body : List Stmt} {s t : State}
      {fault : Fault} (hinit : Ends limit (.optional init) s (.error fault, t)) :
      Ends limit (.stmt (.iteration init test increment body)) s (.error fault, t)
  | iteration {init increment : Option Stmt} {test : Expr} {body : List Stmt} {s t : State}
      {flow : Flow} {o : Outcome} (hinit : Ends limit (.optional init) s (.ok flow, t))
      (hpasses : Ends limit (.passes test increment body) t o) :
      Ends limit (.stmt (.iteration init test increment body)) s o
  | absent {s : State} : Ends limit (.optional none) s (.ok .normal, s)
  | present {stmt : Stmt} {s : State} {o : Outcome} (h : Ends limit (.stmt stmt) s o) :
      Ends limit (.optional (some stmt)) s o
  -- the passes of a loop
  | spent {test : Expr} {increment : Option Stmt} {body : List Stmt} {s : State}
      (h : limit ≤ s.steps) :
      Ends limit (.passes test increment body) s (.error .stepLimit, s.ticked)
  | testFault {test : Expr} {increment : Option Stmt} {body : List Stmt} {s : State}
      {fault : Fault} (h : s.steps < limit) (htest : truth s.locals test = .error fault) :
      Ends limit (.passes test increment body) s (.error fault, s.ticked)
  | stop {test : Expr} {increment : Option Stmt} {body : List Stmt} {s : State}
      (h : s.steps < limit) (htest : truth s.locals test = .ok false) :
      Ends limit (.passes test increment body) s (.ok .normal, s.ticked)
  | bodyFault {test : Expr} {increment : Option Stmt} {body : List Stmt} {s t : State}
      {fault : Fault} (h : s.steps < limit) (htest : truth s.locals test = .ok true)
      (hbody : Ends limit (.list body body) s.ticked (.error fault, t)) :
      Ends limit (.passes test increment body) s (.error fault, t)
  | leave {test : Expr} {increment : Option Stmt} {body : List Stmt} {s t : State} {flow : Flow}
      (h : s.steps < limit) (htest : truth s.locals test = .ok true)
      (hbody : Ends limit (.list body body) s.ticked (.ok flow, t)) (hflow : flow ≠ .normal) :
      Ends limit (.passes test increment body) s (.ok flow.outOfLoop, t)
  | nextFault {test : Expr} {increment : Option Stmt} {body : List Stmt} {s t u : State}
      {fault : Fault} (h : s.steps < limit) (htest : truth s.locals test = .ok true)
      (hbody : Ends limit (.list body body) s.ticked (.ok .normal, t))
      (hnext : Ends limit (.optional increment) t (.error fault, u)) :
      Ends limit (.passes test increment body) s (.error fault, u)
  | again {test : Expr} {increment : Option Stmt} {body : List Stmt} {s t u : State} {flow : Flow}
      {o : Outcome} (h : s.steps < limit) (htest : truth s.locals test = .ok true)
      (hbody : Ends limit (.list body body) s.ticked (.ok .normal, t))
      (hnext : Ends limit (.optional increment) t (.ok flow, u))
      (hagain : Ends limit (.passes test increment body) u o) :
      Ends limit (.passes test increment body) s o
  -- a list of statements
  | done {body : List Stmt} {s : State} : Ends limit (.list body []) s (.ok .normal, s)
  | fault {body rest : List Stmt} {stmt : Stmt} {s t : State} {fault : Fault}
      (hstmt : Ends limit (.stmt stmt) s (.error fault, t)) :
      Ends limit (.list body (stmt :: rest)) s (.error fault, t)
  | next {body rest : List Stmt} {stmt : Stmt} {s t : State} {o : Outcome}
      (hstmt : Ends limit (.stmt stmt) s (.ok .normal, t))
      (hrest : Ends limit (.list body rest) t o) :
      Ends limit (.list body (stmt :: rest)) s o
  | out {body rest : List Stmt} {stmt : Stmt} {s t : State} {flow : Flow}
      (hstmt : Ends limit (.stmt stmt) s (.ok flow, t)) (hflow : flow ≠ .normal)
      (hgoto : ∀ label, flow = .goto label → after? label body = none) :
      Ends limit (.list body (stmt :: rest)) s (.ok flow, t)
  | stranded {body rest found : List Stmt} {stmt : Stmt} {s t : State} {label : String}
      (hstmt : Ends limit (.stmt stmt) s (.ok (.goto label), t))
      (hfound : after? label body = some found) (h : limit ≤ t.steps) :
      Ends limit (.list body (stmt :: rest)) s (.error .stepLimit, t.ticked)
  | jump {body rest found : List Stmt} {stmt : Stmt} {s t : State} {label : String} {o : Outcome}
      (hstmt : Ends limit (.stmt stmt) s (.ok (.goto label), t))
      (hfound : after? label body = some found) (h : t.steps < limit)
      (hjump : Ends limit (.list body found) t.ticked o) :
      Ends limit (.list body (stmt :: rest)) s o

/-! ## What one operation does to the state -/

section Operations

variable (limit : Nat) (s : State)

theorem run_tick : (Run.tick limit).run s =
    if s.steps < limit then (.ok (), s.ticked) else (.error .stepLimit, s.ticked) := by
  show (if s.ticked.steps > limit then throw .stepLimit else pure () : Run Unit).run s.ticked = _
  by_cases hlt : s.steps < limit
  · rw [if_pos hlt, if_neg (by simp only [State.ticked]; omega)]
    rfl
  · rw [if_neg hlt, if_pos (by simp only [State.ticked]; omega)]
    rfl

theorem run_lift {α : Type} (r : Except Fault α) : (liftM r : Run α).run s = (r, s) := by
  cases r <;> rfl

theorem run_value (e : Expr) : (Run.value e).run s = (eval s.locals e, s) :=
  run_lift s (eval s.locals e)

theorem run_test (e : Expr) : (Run.test e).run s = (truth s.locals e, s) := by
  rw [Run.test, Run.run_bind, run_value, truth]
  cases eval s.locals e with
  | error fault => rfl
  | ok v => exact run_lift s v.truth

theorem run_assign_steps (target source : Expr) :
    ((Run.assign target source).run s).2.steps = s.steps := by
  unfold Run.assign
  split
  · next name =>
    rw [Run.run_bind, run_value]
    cases eval s.locals source with
    | error fault => rfl
    | ok v =>
      have hget : (get : Run State).run s = (.ok s, s) := rfl
      dsimp only
      rw [Run.run_bind, hget]
      dsimp only
      cases s.locals.get? name <;> rfl
  · rfl

/-- Statements without lists of statements count no step. -/
theorem run_plain_steps {stmt : Stmt} (h : isBlock stmt = false) :
    ((exec limit stmt).run s).2.steps = s.steps := by
  cases stmt with
  | declare name type init =>
    cases init with
    | none => rw [exec]; rfl
    | some e =>
      rw [exec, Run.run_bind, run_value]
      cases eval s.locals e <;> rfl
  | assign target source =>
    have hassign := run_assign_steps s target source
    rw [exec, Run.run_bind]
    revert hassign
    cases (Run.assign target source).run s with
    | mk r t => cases r <;> exact id
  | conditional => cases h
  | iteration => cases h
  | expression e =>
    rw [exec, Run.run_bind, run_value]
    cases eval s.locals e <;> rfl
  | returns value =>
    cases value with
    | none => rw [exec]; rfl
    | some e =>
      rw [exec, Run.run_bind, run_value]
      cases eval s.locals e <;> rfl
  | goto => rw [exec]; rfl
  | label => rw [exec]; rfl
  | breaks => rw [exec]; rfl
  | comment => rw [exec]; rfl

/-- The limit does not matter to statements without lists of statements. -/
theorem exec_plain {stmt : Stmt} (h : isBlock stmt = false) (limit' : Nat) :
    exec limit stmt = exec limit' stmt := by
  cases stmt with
  | conditional => cases h
  | iteration => cases h
  | returns value => cases value <;> rfl
  | _ => rfl

end Operations

/-! ## The steps that a task counts -/

/-- Steps only grow, and at most one is counted beyond the limit, by a task that stops there. -/
def Within (limit : Nat) (s : State) (o : Outcome) : Prop :=
  s.steps ≤ o.2.steps ∧ match o.1 with
    | .ok _ => o.2.steps ≤ limit
    | .error _ => o.2.steps ≤ limit + 1

section Steps

variable {limit : Nat} {s t : State} {o : Outcome}

theorem Within.le (h : Within limit s o) : o.2.steps ≤ limit + 1 := by
  obtain ⟨-, h⟩ := h
  revert h
  cases o.1 with
  | ok flow => exact Nat.le_succ_of_le
  | error fault => exact id

theorem Within.of_le (hle : s.steps ≤ t.steps) (h : Within limit t o) : Within limit s o :=
  ⟨Nat.le_trans hle h.1, h.2⟩

theorem within_of_steps_eq (hs : s.steps ≤ limit) (h : o.2.steps = s.steps) : Within limit s o := by
  refine ⟨by omega, ?_⟩
  cases o.1 with
  | ok flow => show o.2.steps ≤ limit; omega
  | error fault => show o.2.steps ≤ limit + 1; omega

theorem within_exceeding {fault : Fault} (hs : s.steps ≤ limit) :
    Within limit s (.error fault, s.ticked) :=
  ⟨Nat.le_succ _, Nat.succ_le_succ hs⟩

theorem Ends.within {task : Task} (h : Ends limit task s o) (hs : s.steps ≤ limit) :
    Within limit s o := by
  induction h with
  | plain h => exact within_of_steps_eq hs (run_plain_steps limit _ h)
  | conditionFault h => exact within_of_steps_eq hs rfl
  | thenBranch _ _ ih => exact ih hs
  | elseBranch _ _ ih => exact ih hs
  | initFault _ ih => exact ih hs
  | iteration _ _ ihinit ihpasses =>
    have hinit := ihinit hs
    exact (ihpasses hinit.2).of_le hinit.1
  | absent => exact within_of_steps_eq hs rfl
  | present _ ih => exact ih hs
  | spent h => exact within_exceeding hs
  | testFault h _ => exact within_exceeding hs
  | stop h _ => exact ⟨Nat.le_succ _, h⟩
  | bodyFault h _ _ ih => exact (ih h).of_le (Nat.le_succ _)
  | leave h _ _ _ ih => exact Within.of_le (Nat.le_succ _) ⟨(ih h).1, (ih h).2⟩
  | nextFault h _ _ _ ihbody ihnext =>
    have hbody := ihbody h
    exact ((ihnext hbody.2).of_le hbody.1).of_le (Nat.le_succ _)
  | again h _ _ _ _ ihbody ihnext ihagain =>
    have hbody := ihbody h
    have hnext := ihnext hbody.2
    exact (((ihagain hnext.2).of_le hnext.1).of_le hbody.1).of_le (Nat.le_succ _)
  | done => exact within_of_steps_eq hs rfl
  | fault _ ih => exact ih hs
  | next _ _ ihstmt ihrest =>
    have hstmt := ihstmt hs
    exact (ihrest hstmt.2).of_le hstmt.1
  | out _ _ _ ih => exact ih hs
  | stranded _ _ h ih =>
    have hstmt := ih hs
    exact (within_exceeding hstmt.2).of_le hstmt.1
  | jump _ _ h _ ihstmt ihjump =>
    have hstmt := ihstmt hs
    exact ((ihjump h).of_le (Nat.le_succ _)).of_le hstmt.1

end Steps

/-! ## Every task ends -/

mutual

/-- The size of a statement's text. -/
def weight : Stmt → Nat
  | .conditional _ thenBody elseBody => weightAll thenBody + weightAll elseBody + 1
  | .iteration init _ increment body =>
    weightOptional init + weightOptional increment + weightAll body + 1
  | _ => 1

def weightOptional : Option Stmt → Nat
  | none => 0
  | some stmt => weight stmt + 1

def weightAll : List Stmt → Nat
  | [] => 0
  | stmt :: rest => weight stmt + weightAll rest + 1

end

/-- The size of the text that a task still has ahead before it needs another step. -/
def Task.weight : Task → Nat
  | .stmt part => Machine.weight part
  | .optional part => weightOptional part
  | .passes _ increment body => weightOptional increment + weightAll body
  | .list _ rest => weightAll rest

/-- The steps that are left and then the text ahead bound what a task may still do: a pass and a
jump are paid for with a step, everything else goes to a smaller part. -/
theorem exists_ends (limit : Nat) (task : Task) (s : State) (hs : s.steps ≤ limit) :
    ∃ o, Ends limit task s o := by
  match task with
  | .stmt stmt =>
    by_cases hplain : isBlock stmt = false
    · exact ⟨_, .plain hplain⟩
    match stmt with
    | .conditional condition thenBody elseBody =>
      match hc : truth s.locals condition with
      | .error fault => exact ⟨_, .conditionFault hc⟩
      | .ok true =>
        obtain ⟨o, ho⟩ := exists_ends limit (.list thenBody thenBody) s hs
        exact ⟨o, .thenBranch hc ho⟩
      | .ok false =>
        obtain ⟨o, ho⟩ := exists_ends limit (.list elseBody elseBody) s hs
        exact ⟨o, .elseBranch hc ho⟩
    | .iteration init test increment body =>
      match exists_ends limit (.optional init) s hs with
      | ⟨(.error fault, t), hinit⟩ => exact ⟨_, .initFault hinit⟩
      | ⟨(.ok flow, t), hinit⟩ =>
        have ht : s.steps ≤ t.steps ∧ t.steps ≤ limit := hinit.within hs
        obtain ⟨o, ho⟩ := exists_ends limit (.passes test increment body) t ht.2
        exact ⟨o, .iteration hinit ho⟩
  | .optional none => exact ⟨_, .absent⟩
  | .optional (some stmt) =>
    obtain ⟨o, ho⟩ := exists_ends limit (.stmt stmt) s hs
    exact ⟨o, .present ho⟩
  | .passes test increment body =>
    by_cases hlt : s.steps < limit
    · match htest : truth s.locals test with
      | .error fault => exact ⟨_, .testFault hlt htest⟩
      | .ok false => exact ⟨_, .stop hlt htest⟩
      | .ok true =>
        match exists_ends limit (.list body body) s.ticked hlt with
        | ⟨(.error fault, t), hbody⟩ => exact ⟨_, .bodyFault hlt htest hbody⟩
        | ⟨(.ok flow, t), hbody⟩ =>
          have ht : s.steps + 1 ≤ t.steps ∧ t.steps ≤ limit := hbody.within hlt
          by_cases hflow : flow = .normal
          · subst hflow
            match exists_ends limit (.optional increment) t ht.2 with
            | ⟨(.error fault, u), hnext⟩ => exact ⟨_, .nextFault hlt htest hbody hnext⟩
            | ⟨(.ok flow, u), hnext⟩ =>
              have hu : t.steps ≤ u.steps ∧ u.steps ≤ limit := hnext.within ht.2
              obtain ⟨o, ho⟩ := exists_ends limit (.passes test increment body) u hu.2
              exact ⟨o, .again hlt htest hbody hnext ho⟩
          · exact ⟨_, .leave hlt htest hbody hflow⟩
    · exact ⟨_, .spent (Nat.le_of_not_lt hlt)⟩
  | .list body [] => exact ⟨_, .done⟩
  | .list body (stmt :: rest) =>
    match exists_ends limit (.stmt stmt) s hs with
    | ⟨(.error fault, t), hstmt⟩ => exact ⟨_, .fault hstmt⟩
    | ⟨(.ok .normal, t), hstmt⟩ =>
      have ht : s.steps ≤ t.steps ∧ t.steps ≤ limit := hstmt.within hs
      obtain ⟨o, ho⟩ := exists_ends limit (.list body rest) t ht.2
      exact ⟨o, .next hstmt ho⟩
    | ⟨(.ok (.goto label), t), hstmt⟩ =>
      match hfound : after? label body with
      | none =>
        refine ⟨_, .out hstmt (by rintro ⟨⟩) ?_⟩
        rintro _ ⟨⟩
        exact hfound
      | some found =>
        by_cases hlt : t.steps < limit
        · have ht : s.steps ≤ t.steps ∧ t.steps ≤ limit := hstmt.within hs
          obtain ⟨o, ho⟩ := exists_ends limit (.list body found) t.ticked hlt
          exact ⟨o, .jump hstmt hfound hlt ho⟩
        · exact ⟨_, .stranded hstmt hfound (Nat.le_of_not_lt hlt)⟩
    | ⟨(.ok .breaks, t), hstmt⟩ =>
      exact ⟨_, .out hstmt (by rintro ⟨⟩) (by rintro _ ⟨⟩)⟩
    | ⟨(.ok (.returns value), t), hstmt⟩ =>
      exact ⟨_, .out hstmt (by rintro ⟨⟩) (by rintro _ ⟨⟩)⟩
termination_by (limit - s.steps, task.weight)
decreasing_by
  all_goals simp only [Prod.lex_def, Task.weight, weight, weightOptional, weightAll, State.ticked,
    true_and]
  all_goals omega

/-! ## What the machine does -/

section Agreement

variable {limit : Nat} {s t : State}

theorem afterLabel_actions (limit : Nat) (label : String) (stmts : List Stmt) :
    Run.afterLabel? label (actions limit stmts) = (after? label stmts).map (actions limit) := by
  induction stmts with
  | nil => rfl
  | cons stmt stmts ih =>
    rw [actions, Run.afterLabel?, after?]
    by_cases h : labelOf? stmt = some label
    · rw [if_pos h, if_pos h]
      rfl
    · rw [if_neg h, if_neg h]
      exact ih

/-- A part of a list with the jumps that come after it, where the state at the first jump gives the
fuel. -/
def Run.follow (limit : Nat) (actions rest : List Run.Action) (fuel : State → Nat) : Run Flow := do
  let flow ← Run.sequence rest
  let t ← get
  Run.jumps limit actions (fuel t) flow

theorem block_eq_follow (limit : Nat) (actions : List Run.Action) :
    Run.block limit actions = Run.follow limit actions actions fun t => limit + 1 - t.steps := rfl

/-- A flow other than a jump to a label of the list is handed on. -/
theorem run_jumps_leaving {body : List Stmt} {flow : Flow}
    (h : ∀ label, flow = .goto label → after? label body = none) (fuel : Nat) :
    (Run.jumps limit (actions limit body) fuel flow).run s = (.ok flow, s) := by
  unfold Run.jumps
  split
  · next label =>
    rw [afterLabel_actions, h label rfl]
    rfl
  · rfl

theorem run_jumps_goto {body found : List Stmt} {label : String}
    (h : after? label body = some found) (fuel : Nat) :
    (Run.jumps limit (actions limit body) (fuel + 1) (.goto label)).run s =
      if s.steps < limit then
        (Run.follow limit (actions limit body) (actions limit found) fun _ => fuel).run s.ticked
      else (.error .stepLimit, s.ticked) := by
  rw [Run.jumps, afterLabel_actions, h]
  show (Run.tick limit >>= fun _ => Run.follow limit (actions limit body) (actions limit found)
    fun _ => fuel).run s = _
  rw [Run.run_bind, run_tick]
  by_cases hlt : s.steps < limit
  · rw [if_pos hlt, if_pos hlt]
  · rw [if_neg hlt, if_neg hlt]

theorem run_follow_cons {acts rest : List Run.Action} {action : Run.Action} {fuel : State → Nat} :
    (Run.follow limit acts (action :: rest) fuel).run s = match action.run.run s with
      | (.ok .normal, t) => (Run.follow limit acts rest fuel).run t
      | (.ok flow, t) => (Run.jumps limit acts (fuel t) flow).run t
      | (.error fault, t) => (.error fault, t) := by
  have hsequence : (Run.sequence (action :: rest)).run s = match action.run.run s with
      | (.ok .normal, t) => (Run.sequence rest).run t
      | (.ok flow, t) => (.ok flow, t)
      | (.error fault, t) => (.error fault, t) := by
    rw [Run.sequence, Run.run_bind]
    rcases action.run.run s with ⟨_ | _ | _, t⟩ <;> rfl
  rw [Run.follow, Run.run_bind, hsequence]
  rcases action.run.run s with ⟨fault | flow, t⟩
  · rfl
  · cases flow with
    | normal => exact (Run.run_bind _ _ t).symm
    | breaks => rfl
    | returns => rfl
    | goto => rfl

theorem run_passes_succ {test : Expr} {body : Run Flow} {next : Run Unit} {fuel : Nat}
    (h : s.steps < limit) :
    (Run.passes limit (Run.test test) body next (fuel + 1)).run s =
      match truth s.locals test with
      | .error fault => (.error fault, s.ticked)
      | .ok false => (.ok .normal, s.ticked)
      | .ok true => match body.run s.ticked with
        | (.error fault, t) => (.error fault, t)
        | (.ok .normal, t) => match next.run t with
          | (.error fault, u) => (.error fault, u)
          | (.ok (), u) => (Run.passes limit (Run.test test) body next fuel).run u
        | (.ok flow, t) => (.ok flow.outOfLoop, t) := by
  rw [Run.passes, Run.run_bind, run_tick, if_pos h]
  show (Run.test test >>= _).run s.ticked = _
  rw [Run.run_bind, run_test]
  have hlocals : s.ticked.locals = s.locals := rfl
  rw [hlocals]
  rcases truth s.locals test with fault | _ | _
  · rfl
  · rfl
  · show (body >>= _).run s.ticked = _
    rw [Run.run_bind]
    rcases body.run s.ticked with ⟨fault | flow, t⟩
    · rfl
    · cases flow with
      | normal =>
        show (next >>= _).run t = _
        rw [Run.run_bind]
        dsimp only
        rcases next.run t with ⟨fault | ⟨⟩, u⟩ <;> rfl
      | breaks => rfl
      | returns => rfl
      | goto => rfl

/-- The machine gives the outcome `o` for a task from `s`. Any fuel that outlasts the limit will
do. -/
def Task.Gives (limit : Nat) (s : State) (o : Outcome) : Task → Prop
  | .stmt part => (exec limit part).run s = o
  | .optional part => (execOptional limit part).run s = (o.1.map fun _ => (), o.2)
  | .passes test increment body => ∀ fuel, limit + 1 ≤ s.steps + fuel →
      (Run.passes limit (Run.test test) (Run.block limit (actions limit body))
        (execOptional limit increment) fuel).run s = o
  | .list body rest => ∀ fuel : State → Nat,
      (∀ t, s.steps ≤ t.steps → limit + 1 ≤ t.steps + fuel t) →
        (Run.follow limit (actions limit body) (actions limit rest) fuel).run s = o

theorem run_block_of_gives {body : List Stmt} {o : Outcome}
    (h : (Task.list body body).Gives limit s o) :
    (Run.block limit (actions limit body)).run s = o := by
  rw [block_eq_follow]
  exact h _ fun t _ => by omega

section Blocks

variable {o : Outcome} {t u : State} {fault : Fault} {flow : Flow} {test : Expr}
  {init increment : Option Stmt} {body : List Stmt}

theorem gives_conditional {condition : Expr} {thenBody elseBody : List Stmt} {holds : Bool}
    (h : truth s.locals condition = .ok holds)
    (hbody : (Task.list (if holds then thenBody else elseBody)
      (if holds then thenBody else elseBody)).Gives limit s o) :
    (Task.stmt (.conditional condition thenBody elseBody)).Gives limit s o := by
  rw [Task.Gives, exec, Run.run_bind, run_test, h]
  cases holds with
  | true => exact run_block_of_gives hbody
  | false => exact run_block_of_gives hbody

theorem gives_initFault (hinit : (Task.optional init).Gives limit s (.error fault, t)) :
    (Task.stmt (.iteration init test increment body)).Gives limit s (.error fault, t) := by
  rw [Task.Gives] at hinit
  rw [Task.Gives, exec, Run.loop, Run.run_bind, hinit]
  rfl

/-- A loop has fuel for every pass that the limit leaves it. -/
theorem gives_iteration (hinit : (Task.optional init).Gives limit s (.ok flow, t))
    (ht : t.steps ≤ limit) (hpasses : (Task.passes test increment body).Gives limit t o) :
    (Task.stmt (.iteration init test increment body)).Gives limit s o := by
  rw [Task.Gives] at hinit
  rw [Task.Gives, exec, Run.loop, Run.run_bind, hinit]
  exact hpasses (limit + 1 - t.steps) (by omega)

theorem gives_present {stmt : Stmt} (h : (Task.stmt stmt).Gives limit s o) :
    (Task.optional (some stmt)).Gives limit s o := by
  rw [Task.Gives] at h
  rw [Task.Gives, execOptional, Run.run_bind, h]
  rcases o with ⟨_ | _, t⟩ <;> rfl

end Blocks

section Passes

variable {o : Outcome} {t u : State} {fault : Fault} {flow : Flow} {test : Expr}
  {increment : Option Stmt} {body : List Stmt}

/-- There is fuel for one more pass, even if there is no step left for it. -/
theorem exists_fuel {fuel : Nat} (hs : s.steps ≤ limit) (hfuel : limit + 1 ≤ s.steps + fuel) :
    ∃ n, fuel = n + 1 :=
  ⟨fuel - 1, by omega⟩

theorem gives_spent (hs : s.steps ≤ limit) (h : limit ≤ s.steps) :
    (Task.passes test increment body).Gives limit s (.error .stepLimit, s.ticked) := by
  intro fuel hfuel
  obtain ⟨fuel, rfl⟩ := exists_fuel hs hfuel
  rw [Run.passes, Run.run_bind, run_tick, if_neg (Nat.not_lt.2 h)]

theorem gives_testFault (h : s.steps < limit) (htest : truth s.locals test = .error fault) :
    (Task.passes test increment body).Gives limit s (.error fault, s.ticked) := by
  intro fuel hfuel
  obtain ⟨fuel, rfl⟩ := exists_fuel (Nat.le_of_lt h) hfuel
  rw [run_passes_succ h, htest]

theorem gives_stop (h : s.steps < limit) (htest : truth s.locals test = .ok false) :
    (Task.passes test increment body).Gives limit s (.ok .normal, s.ticked) := by
  intro fuel hfuel
  obtain ⟨fuel, rfl⟩ := exists_fuel (Nat.le_of_lt h) hfuel
  rw [run_passes_succ h, htest]

theorem gives_bodyFault (h : s.steps < limit) (htest : truth s.locals test = .ok true)
    (hbody : (Task.list body body).Gives limit s.ticked (.error fault, t)) :
    (Task.passes test increment body).Gives limit s (.error fault, t) := by
  intro fuel hfuel
  obtain ⟨fuel, rfl⟩ := exists_fuel (Nat.le_of_lt h) hfuel
  rw [run_passes_succ h, htest]
  dsimp only
  rw [run_block_of_gives hbody]

theorem gives_leave (h : s.steps < limit) (htest : truth s.locals test = .ok true)
    (hbody : (Task.list body body).Gives limit s.ticked (.ok flow, t)) (hflow : flow ≠ .normal) :
    (Task.passes test increment body).Gives limit s (.ok flow.outOfLoop, t) := by
  intro fuel hfuel
  obtain ⟨fuel, rfl⟩ := exists_fuel (Nat.le_of_lt h) hfuel
  rw [run_passes_succ h, htest]
  dsimp only
  rw [run_block_of_gives hbody]
  cases flow with
  | normal => exact absurd rfl hflow
  | breaks => rfl
  | returns => rfl
  | goto => rfl

theorem gives_nextFault (h : s.steps < limit) (htest : truth s.locals test = .ok true)
    (hbody : (Task.list body body).Gives limit s.ticked (.ok .normal, t))
    (hnext : (Task.optional increment).Gives limit t (.error fault, u)) :
    (Task.passes test increment body).Gives limit s (.error fault, u) := by
  intro fuel hfuel
  obtain ⟨fuel, rfl⟩ := exists_fuel (Nat.le_of_lt h) hfuel
  rw [Task.Gives] at hnext
  rw [run_passes_succ h, htest]
  dsimp only
  rw [run_block_of_gives hbody]
  dsimp only
  rw [hnext]
  rfl

/-- A whole pass takes a step, so the fuel that is left outlasts the limit. -/
theorem gives_again (h : s.steps < limit) (htest : truth s.locals test = .ok true)
    (hbody : (Task.list body body).Gives limit s.ticked (.ok .normal, t))
    (hnext : (Task.optional increment).Gives limit t (.ok flow, u)) (hu : s.steps + 1 ≤ u.steps)
    (hagain : (Task.passes test increment body).Gives limit u o) :
    (Task.passes test increment body).Gives limit s o := by
  intro fuel hfuel
  obtain ⟨fuel, rfl⟩ := exists_fuel (Nat.le_of_lt h) hfuel
  rw [Task.Gives] at hnext
  rw [run_passes_succ h, htest]
  dsimp only
  rw [run_block_of_gives hbody]
  dsimp only
  rw [hnext]
  exact hagain fuel (by omega)

end Passes

section Lists

variable {o : Outcome} {t : State} {fault : Fault} {flow : Flow} {label : String} {stmt : Stmt}
  {body rest found : List Stmt}

theorem gives_done : (Task.list body []).Gives limit s (.ok .normal, s) := by
  have hnormal : ∀ label, Flow.normal = .goto label → after? label body = none := by
    rintro _ ⟨⟩
  intro fuel _
  exact run_jumps_leaving hnormal (fuel s)

theorem gives_fault (hstmt : (Task.stmt stmt).Gives limit s (.error fault, t)) :
    (Task.list body (stmt :: rest)).Gives limit s (.error fault, t) := by
  rw [Task.Gives] at hstmt
  intro fuel _
  rw [actions, run_follow_cons, hstmt]

theorem gives_next (hstmt : (Task.stmt stmt).Gives limit s (.ok .normal, t))
    (ht : s.steps ≤ t.steps) (hrest : (Task.list body rest).Gives limit t o) :
    (Task.list body (stmt :: rest)).Gives limit s o := by
  rw [Task.Gives] at hstmt
  intro fuel hfuel
  rw [actions, run_follow_cons, hstmt]
  exact hrest fuel fun u hu => hfuel u (Nat.le_trans ht hu)

theorem gives_out (hstmt : (Task.stmt stmt).Gives limit s (.ok flow, t)) (hflow : flow ≠ .normal)
    (hgoto : ∀ label, flow = .goto label → after? label body = none) :
    (Task.list body (stmt :: rest)).Gives limit s (.ok flow, t) := by
  rw [Task.Gives] at hstmt
  intro fuel hfuel
  have hleave : (Run.jumps limit (actions limit body) (fuel t) flow).run t = (.ok flow, t) :=
    run_jumps_leaving hgoto (fuel t)
  rw [actions, run_follow_cons, hstmt]
  cases flow with
  | normal => exact absurd rfl hflow
  | breaks => exact hleave
  | returns => exact hleave
  | goto => exact hleave

/-- A jump to a label of the list takes a step before it goes on behind the label. -/
theorem run_jump (hstmt : (Task.stmt stmt).Gives limit s (.ok (.goto label), t))
    (hfound : after? label body = some found) (ht : s.steps ≤ t.steps ∧ t.steps ≤ limit)
    {fuel : State → Nat} (hfuel : ∀ t, s.steps ≤ t.steps → limit + 1 ≤ t.steps + fuel t) :
    ∃ n, fuel t = n + 1 ∧
      (Run.follow limit (actions limit body) (actions limit (stmt :: rest)) fuel).run s =
        if t.steps < limit then
          (Run.follow limit (actions limit body) (actions limit found) fun _ => n).run t.ticked
        else (.error .stepLimit, t.ticked) := by
  rw [Task.Gives] at hstmt
  obtain ⟨n, hn⟩ := exists_fuel ht.2 (hfuel t ht.1)
  refine ⟨n, hn, ?_⟩
  rw [actions, run_follow_cons, hstmt]
  dsimp only
  rw [hn, run_jumps_goto hfound]

theorem gives_stranded (hstmt : (Task.stmt stmt).Gives limit s (.ok (.goto label), t))
    (hfound : after? label body = some found) (ht : s.steps ≤ t.steps ∧ t.steps ≤ limit)
    (h : limit ≤ t.steps) :
    (Task.list body (stmt :: rest)).Gives limit s (.error .stepLimit, t.ticked) := by
  intro fuel hfuel
  obtain ⟨n, -, hrun⟩ := run_jump hstmt hfound ht hfuel
  rw [hrun, if_neg (Nat.not_lt.2 h)]

theorem gives_jump (hstmt : (Task.stmt stmt).Gives limit s (.ok (.goto label), t))
    (hfound : after? label body = some found) (ht : s.steps ≤ t.steps ∧ t.steps ≤ limit)
    (h : t.steps < limit) (hjump : (Task.list body found).Gives limit t.ticked o) :
    (Task.list body (stmt :: rest)).Gives limit s o := by
  intro fuel hfuel
  have hlast := hfuel t ht.1
  obtain ⟨n, hn, hrun⟩ := run_jump hstmt hfound ht hfuel
  rw [hrun, if_pos h]
  refine hjump _ fun u hu => ?_
  have hpaid : t.steps + 1 ≤ u.steps := hu
  omega

end Lists

/-- What a derivation says is what the machine does. -/
theorem Ends.agrees {task : Task} {o : Outcome} (h : Ends limit task s o) (hs : s.steps ≤ limit) :
    task.Gives limit s o := by
  induction h with
  | plain | absent => rfl
  | conditionFault h => rw [Task.Gives, exec, Run.run_bind, run_test, h]
  | thenBranch h _ ih => exact gives_conditional h (ih hs)
  | elseBranch h _ ih => exact gives_conditional h (ih hs)
  | initFault _ ih => exact gives_initFault (ih hs)
  | iteration dinit _ ihinit ihpasses =>
    have ht := (dinit.within hs).2
    exact gives_iteration (ihinit hs) ht (ihpasses ht)
  | present _ ih => exact gives_present (ih hs)
  | spent h => exact gives_spent hs h
  | testFault h htest => exact gives_testFault h htest
  | stop h htest => exact gives_stop h htest
  | bodyFault h htest _ ih => exact gives_bodyFault h htest (ih h)
  | leave h htest _ hflow ih => exact gives_leave h htest (ih h) hflow
  | nextFault h htest dbody _ ihbody ihnext =>
    exact gives_nextFault h htest (ihbody h) (ihnext (dbody.within h).2)
  | again h htest dbody dnext _ ihbody ihnext ihagain =>
    have ht := dbody.within h
    have hu := dnext.within ht.2
    exact gives_again h htest (ihbody h) (ihnext ht.2) (Nat.le_trans ht.1 hu.1) (ihagain hu.2)
  | done => exact gives_done
  | fault _ ih => exact gives_fault (ih hs)
  | next dstmt _ ihstmt ihrest =>
    have ht := dstmt.within hs
    exact gives_next (ihstmt hs) ht.1 (ihrest ht.2)
  | out _ hflow hgoto ih => exact gives_out (ih hs) hflow hgoto
  | stranded dstmt hfound h ih => exact gives_stranded (ih hs) hfound (dstmt.within hs) h
  | jump dstmt hfound h _ ihstmt ihjump =>
    exact gives_jump (ihstmt hs) hfound (dstmt.within hs) h (ihjump h)

end Agreement

/-! ## A larger limit -/

/-- A derivation that does not run out of steps holds under every larger limit. -/
theorem Ends.raise {limit limit' : Nat} {task : Task} {s : State} {o : Outcome}
    (h : Ends limit task s o) (hle : limit ≤ limit') (ho : o.1 ≠ .error .stepLimit) :
    Ends limit' task s o := by
  have hok : ∀ flow : Flow, (Except.ok flow : Except Fault Flow) ≠ .error .stepLimit :=
    fun _ h => nomatch h
  induction h with
  | plain h =>
    rw [exec_plain limit h limit']
    exact .plain h
  | conditionFault h => exact .conditionFault h
  | thenBranch h _ ih => exact .thenBranch h (ih ho)
  | elseBranch h _ ih => exact .elseBranch h (ih ho)
  | initFault _ ih => exact .initFault (ih ho)
  | iteration _ _ ihinit ihpasses => exact .iteration (ihinit (hok _)) (ihpasses ho)
  | absent => exact .absent
  | present _ ih => exact .present (ih ho)
  | spent h => exact absurd rfl ho
  | testFault h htest => exact .testFault (by omega) htest
  | stop h htest => exact .stop (by omega) htest
  | bodyFault h htest _ ih => exact .bodyFault (by omega) htest (ih ho)
  | leave h htest _ hflow ih => exact .leave (by omega) htest (ih (hok _)) hflow
  | nextFault h htest _ _ ihbody ihnext =>
    exact .nextFault (by omega) htest (ihbody (hok _)) (ihnext ho)
  | again h htest _ _ _ ihbody ihnext ihagain =>
    exact .again (by omega) htest (ihbody (hok _)) (ihnext (hok _)) (ihagain ho)
  | done => exact .done
  | fault _ ih => exact .fault (ih ho)
  | next _ _ ihstmt ihrest => exact .next (ihstmt (hok _)) (ihrest ho)
  | out _ hflow hgoto ih => exact .out (ih (hok _)) hflow hgoto
  | stranded => exact absurd rfl ho
  | jump _ hfound h _ ihstmt ihjump => exact .jump (ihstmt (hok _)) hfound (by omega) (ihjump ho)

/-! ## Runs of a body -/

/-- The result and the state of a body from the outcome of its list. -/
def Outcome.finished (o : Outcome) : Except Fault (Option Value) × State := (o.1.bind result, o.2)

theorem run_runWithin {limit : Nat} {body : List Stmt} {s : State} {o : Outcome}
    (h : Ends limit (.list body body) s o) (hs : s.steps ≤ limit) :
    (runWithin limit body).run s = o.finished := by
  rw [runWithin, Run.run_bind, run_block_of_gives (h.agrees hs)]
  rcases o with ⟨fault | flow, t⟩
  · rfl
  · exact run_lift t (result flow)

theorem finished_eq_stepLimit {o : Outcome} (h : o.1 = .error .stepLimit) :
    o.finished.1 = .error .stepLimit := by
  rw [Outcome.finished, h]
  rfl

/-- Every body comes to an end from a fresh state, after at most one step more than the limit, and
a limit that a run does not reach has no part in how it ends. -/
theorem run_ends_within_limit (body : List Stmt) :
    (∃ o, Ends stepLimit (.list body body) .initial o ∧ run body .initial = o.finished) ∧
    (run body .initial).2.steps ≤ 100001 ∧
    ∀ limit limit', limit ≤ limit' →
      ((runWithin limit body).run .initial).1 ≠ .error .stepLimit →
      (runWithin limit' body).run .initial = (runWithin limit body).run .initial := by
  have hfresh : ∀ limit, State.initial.steps ≤ limit := Nat.zero_le
  obtain ⟨o, ho⟩ := exists_ends stepLimit (.list body body) .initial (hfresh _)
  have hrun : run body .initial = o.finished := run_runWithin ho (hfresh _)
  refine ⟨⟨o, ho, hrun⟩, ?_, ?_⟩
  · rw [hrun]
    exact (ho.within (hfresh _)).le
  · intro limit limit' hle hne
    obtain ⟨o, ho⟩ := exists_ends limit (.list body body) .initial (hfresh _)
    rw [run_runWithin ho (hfresh _)] at hne ⊢
    have hraised := ho.raise hle fun h => hne (finished_eq_stepLimit h)
    exact run_runWithin hraised (hfresh _)

/-- A loop whose first pass jumps back in front of it, so that it is started twice. -/
def restartedLoop : List Stmt :=
  [.declare "again" (.primitive .bool) (some (.literal (.bool true))), .label "Top",
    .iteration none (.ident "again") none
      [.assign (.ident "again") (.literal (.bool false)), .goto "Top"],
    .returns (some (.ident "again"))]

theorem restartedLoop_beyond_limit :
    ((runWithin 2 restartedLoop).run .initial).1 = .error .stepLimit ∧
    ∀ limit, 3 ≤ limit → (runWithin limit restartedLoop).run .initial =
      (.ok (some (.bool false)), ⟨[("again", .bool false)], 3⟩) := by
  have hthree : (runWithin 3 restartedLoop).run .initial =
      (.ok (some (.bool false)), ⟨[("again", .bool false)], 3⟩) := by rfl
  have hne : ((runWithin 3 restartedLoop).run .initial).1 ≠ .error .stepLimit := by
    rw [hthree]
    rintro ⟨⟩
  refine ⟨by rfl, fun limit hle => ?_⟩
  rw [← hthree]
  exact (run_ends_within_limit restartedLoop).2.2 3 limit hle hne

end StructuredBasic.Machine
