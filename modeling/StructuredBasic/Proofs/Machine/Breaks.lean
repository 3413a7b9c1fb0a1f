import StructuredBasic.Proofs.Machine.Triples

/-!
# Breaks inside loops

A break ends the loop around it. `breaksOut` tells whether a statement holds a break that no loop
inside the statement takes; a run of statements that hold none never ends with a stray break
(`not_strayBreak`).
-/

set_option autoImplicit false

namespace StructuredBasic.Machine

open Target (Expr Stmt)

mutual

/-- Whether a break of the statement would end a loop around the statement. -/
def breaksOut : Stmt → Bool
  | .breaks => true
  | .conditional _ thenBody elseBody => breaksOutAll thenBody || breaksOutAll elseBody
  | _ => false

def breaksOutAll : List Stmt → Bool
  | [] => false
  | stmt :: rest => breaksOut stmt || breaksOutAll rest

end

/-- A break comes out of a statement only where the statement holds one. -/
def Breaks (out : Bool) (flow : Flow) : Prop := flow = .breaks → out = true

def NotStray (fault : Fault) : Prop := fault ≠ .strayBreak

section Soundness

variable {out : Bool}

theorem breaks_normal : Breaks out .normal := fun h => nomatch h

theorem Breaks.or_left {other : Bool} {flow : Flow} (h : Breaks out flow) :
    Breaks (out || other) flow := by
  intro hflow
  rw [h hflow, Bool.true_or]

theorem Breaks.or_right {other : Bool} {flow : Flow} (h : Breaks out flow) :
    Breaks (other || out) flow := by
  intro hflow
  rw [h hflow, Bool.or_true]

theorem allowsEval_notStray : AllowsEval NotStray where
  operational := by
    rintro _ h rfl
    cases h
  undefined := fun _ h => nomatch h

theorem SatFrom.breaks {acts : List Run.Action}
    (h : SatFrom (fun _ => True) (fun _ => True) acts (Breaks out) NotStray) (limit : Nat) :
    Sat (fun _ => True) (Run.block limit acts) (fun flow _ => Breaks out flow) NotStray :=
  (h.block limit countFree_true nofun).weaken (fun _ h => h) fun _ _ h => h.1

mutual

theorem sat_exec_breaks (limit : Nat) (stmt : Stmt) :
    Sat (fun _ => True) (exec limit stmt) (fun flow _ => Breaks (breaksOut stmt) flow)
      NotStray := by
  match stmt with
  | .declare name _ none =>
    rw [exec]
    exact sat_put_any.bind fun _ => sat_pure fun _ _ => breaks_normal
  | .declare name _ (some init) =>
    rw [exec]
    exact allowsEval_notStray.sat_value.bind fun v =>
      sat_put_any.bind fun _ => sat_pure fun _ _ => breaks_normal
  | .assign target value =>
    rw [exec]
    exact allowsEval_notStray.sat_assign.bind fun _ => sat_pure fun _ _ => breaks_normal
  | .conditional condition thenBody elseBody =>
    have hthen := (sat_actions_breaks limit thenBody).breaks limit
    have helse := (sat_actions_breaks limit elseBody).breaks limit
    rw [exec, breaksOut]
    refine allowsEval_notStray.sat_test.bind fun holds => ?_
    split
    · exact hthen.weaken (fun _ h => h) fun _ _ h => h.or_left
    · exact helse.weaken (fun _ h => h) fun _ _ h => h.or_right
  | .iteration init test increment body =>
    have hinit := sat_execOptional_notStray limit init
    have hnext := sat_execOptional_notStray limit increment
    have hbody := (sat_actions_breaks limit body).breaks limit
    -- whatever breaks out of the body ends this loop
    have hloop := sat_loop_leaving limit (F := Breaks false) countFree_true
      (fun h => nomatch h) breaks_normal (fun flow _ hne h => absurd h hne) hinit
      (allowsEval_notStray.sat_test (e := test)) hnext
      (hbody.weaken (fun _ h => h) fun _ _ h => ⟨h, trivial⟩)
    rw [exec]
    exact hloop.weaken (fun _ h => h) fun _ _ h => h.1
  | .expression value =>
    rw [exec]
    exact allowsEval_notStray.sat_value.bind fun _ => sat_pure fun _ _ => breaks_normal
  | .returns none =>
    rw [exec]
    exact sat_pure fun _ _ h => nomatch h
  | .returns (some value) =>
    rw [exec]
    exact allowsEval_notStray.sat_value.bind fun _ => sat_pure fun _ _ h => nomatch h
  | .goto label => rw [exec]; exact sat_pure fun _ _ h => nomatch h
  | .label _ => rw [exec]; exact sat_pure fun _ _ => breaks_normal
  | .breaks => rw [exec]; exact sat_pure fun _ _ _ => rfl
  | .comment _ => rw [exec]; exact sat_pure fun _ _ => breaks_normal

theorem sat_execOptional_notStray (limit : Nat) (stmt : Option Stmt) :
    Sat (fun _ => True) (execOptional limit stmt) (fun _ _ => True) NotStray := by
  match stmt with
  | none =>
    rw [execOptional]
    exact sat_pure fun _ _ => trivial
  | some stmt =>
    have hstmt := sat_exec_breaks limit stmt
    rw [execOptional]
    exact (hstmt.weaken (fun _ h => h) fun _ _ _ => trivial).bind fun _ =>
      sat_pure fun _ _ => trivial

theorem sat_actions_breaks (limit : Nat) (stmts : List Stmt) :
    SatFrom (fun _ => True) (fun _ => True) (actions limit stmts)
      (Breaks (breaksOutAll stmts)) NotStray := by
  match stmts with
  | [] =>
    rw [actions]
    exact .nil breaks_normal fun _ h => h
  | stmt :: rest =>
    have hstmt := sat_exec_breaks limit stmt
    have hrest := sat_actions_breaks limit rest
    rw [actions, breaksOutAll]
    exact .cons hstmt (fun _ _ => trivial) (fun _ _ h _ => ⟨h.or_left, trivial⟩)
      (fun _ _ _ h => h) (hrest.mono fun _ h => h.or_right)

end

/-- No run of statements that hold no break outside a loop ends with a stray break. -/
theorem not_strayBreak {body : List Stmt} (h : breaksOutAll body = false) (limit : Nat)
    (state : State) : ((runWithin limit body).run state).1 ≠ .error .strayBreak := by
  have hrun : Sat (fun _ => True) (runWithin limit body) (fun _ _ => True) NotStray := by
    unfold runWithin
    refine ((sat_actions_breaks limit body).breaks limit).bind fun flow =>
      sat_lift (fun _ _ _ _ => trivial) fun fault s hbreaks hresult => ?_
    cases flow with
    | normal => cases hresult
    | returns value => cases hresult
    | breaks => rw [h] at hbreaks; cases hbreaks rfl
    | goto label => cases hresult; exact fun h => nomatch h
  exact hrun.not_error trivial fun h => h rfl

end Soundness

end StructuredBasic.Machine
