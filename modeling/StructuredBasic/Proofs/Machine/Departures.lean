import StructuredBasic.Proofs.Machine.PostTest

/-!
# Runs that leave by a `Return`

`Departs limit value task s t` says that the task from `s` comes to a `Return` of `value`, in state
`t`. There the task ends with the value (`Departs.ends`). A task that ends with a value has come to
a `Return` (`Ends.departs`), and the `Return` stands in its text (`Departs.mem_atoms`). A list with
a `Return` behind it comes to that one where the list alone ends normally (`Ends.falls_off`).
-/

set_option autoImplicit false

namespace StructuredBasic.Target.Stmt

mutual

/-- The statements in a statement that hold no others, comments aside. -/
def atoms : Stmt → List Stmt
  | .declare name type init => [.declare name type init]
  | .assign target value => [.assign target value]
  | .conditional _ thenBody elseBody => atomsAll thenBody ++ atomsAll elseBody
  | .iteration init _ increment body =>
    atomsOptional init ++ atomsOptional increment ++ atomsAll body
  | .expression e => [.expression e]
  | .goto name => [.goto name]
  | .returns value => [.returns value]
  | .breaks => [.breaks]
  | .label name => [.label name]
  | .comment _ => []

def atomsOptional : Option Stmt → List Stmt
  | none => []
  | some stmt => atoms stmt

def atomsAll : List Stmt → List Stmt
  | [] => []
  | stmt :: rest => atoms stmt ++ atomsAll rest

end

theorem atomsAll_append (a b : List Stmt) : atomsAll (a ++ b) = atomsAll a ++ atomsAll b := by
  induction a with
  | nil => rfl
  | cons stmt a ih => rw [List.cons_append, atomsAll, atomsAll, ih, List.append_assoc]

theorem atomsAll_singleton (stmt : Stmt) : atomsAll [stmt] = atoms stmt := List.append_nil _

theorem atomsAll_comments (texts : List String) : atomsAll (texts.map Stmt.comment) = [] := by
  induction texts with
  | nil => rfl
  | cons text texts ih => exact ih

end StructuredBasic.Target.Stmt

namespace StructuredBasic.Machine

open Target (Expr Stmt)
open Target.Stmt (atoms atomsOptional atomsAll)

/-! ## Departures -/

/-- What a `Return` hands over. -/
def returned (locals : Locals) : Option Expr → Except Fault (Option Value)
  | none => .ok none
  | some e => (eval locals e).map some

/-- The task from the first state comes to a `Return` of `value` in the second one. -/
inductive Departs (limit : Nat) (value : Option Expr) : Task → State → State → Prop
  | here {s : State} : Departs limit value (.stmt (.returns value)) s s
  | thenBranch {condition : Expr} {thenBody elseBody : List Stmt} {s t : State}
      (h : truth s.locals condition = .ok true)
      (hbody : Departs limit value (.list thenBody thenBody) s t) :
      Departs limit value (.stmt (.conditional condition thenBody elseBody)) s t
  | elseBranch {condition : Expr} {thenBody elseBody : List Stmt} {s t : State}
      (h : truth s.locals condition = .ok false)
      (hbody : Departs limit value (.list elseBody elseBody) s t) :
      Departs limit value (.stmt (.conditional condition thenBody elseBody)) s t
  | iteration {init increment : Option Stmt} {test : Expr} {body : List Stmt} {s t u : State}
      {flow : Flow} (hinit : Ends limit (.optional init) s (.ok flow, t))
      (hpasses : Departs limit value (.passes test increment body) t u) :
      Departs limit value (.stmt (.iteration init test increment body)) s u
  | present {stmt : Stmt} {s t : State} (h : Departs limit value (.stmt stmt) s t) :
      Departs limit value (.optional (some stmt)) s t
  | pass {test : Expr} {increment : Option Stmt} {body : List Stmt} {s t : State}
      (h : s.steps < limit) (htest : truth s.locals test = .ok true)
      (hbody : Departs limit value (.list body body) s.ticked t) :
      Departs limit value (.passes test increment body) s t
  | again {test : Expr} {increment : Option Stmt} {body : List Stmt} {s t u v : State} {flow : Flow}
      (h : s.steps < limit) (htest : truth s.locals test = .ok true)
      (hbody : Ends limit (.list body body) s.ticked (.ok .normal, t))
      (hnext : Ends limit (.optional increment) t (.ok flow, u))
      (hagain : Departs limit value (.passes test increment body) u v) :
      Departs limit value (.passes test increment body) s v
  | now {body rest : List Stmt} {stmt : Stmt} {s t : State}
      (hstmt : Departs limit value (.stmt stmt) s t) :
      Departs limit value (.list body (stmt :: rest)) s t
  | next {body rest : List Stmt} {stmt : Stmt} {s t u : State}
      (hstmt : Ends limit (.stmt stmt) s (.ok .normal, t))
      (hrest : Departs limit value (.list body rest) t u) :
      Departs limit value (.list body (stmt :: rest)) s u
  | jump {body rest found : List Stmt} {stmt : Stmt} {s t u : State} {label : String}
      (hstmt : Ends limit (.stmt stmt) s (.ok (.goto label), t))
      (hfound : after? label body = some found) (h : t.steps < limit)
      (hjump : Departs limit value (.list body found) t.ticked u) :
      Departs limit value (.list body (stmt :: rest)) s u

section Departures

variable {limit : Nat} {value : Option Expr} {s t : State}

theorem run_return (value : Option Expr) : (exec limit (.returns value)).run s =
    ((returned s.locals value).map Flow.returns, s) := by
  cases value with
  | none => rfl
  | some e =>
    rw [run_returns, returned]
    cases eval s.locals e <;> rfl

/-- A task that comes to a `Return` ends there. -/
theorem Departs.ends {task : Task} (h : Departs limit value task s t) :
    Ends limit task s ((returned t.locals value).map Flow.returns, t) := by
  induction h with
  | here =>
    rw [← run_return value]
    exact .plain rfl
  | thenBranch h _ ih => exact .thenBranch h ih
  | elseBranch h _ ih => exact .elseBranch h ih
  | iteration hinit _ ih => exact .iteration hinit ih
  | present _ ih => exact .present ih
  | @pass test increment body s t h htest _ ih =>
    cases hr : returned t.locals value with
    | error fault =>
      rw [hr] at ih
      exact .bodyFault h htest ih
    | ok v =>
      rw [hr] at ih
      exact .leave h htest ih fun hflow => nomatch hflow
  | again h htest hbody hnext _ ih => exact .again h htest hbody hnext ih
  | @now body rest stmt s t _ ih =>
    cases hr : returned t.locals value with
    | error fault =>
      rw [hr] at ih
      exact .fault ih
    | ok v =>
      rw [hr] at ih
      exact .out ih (fun hflow => nomatch hflow) fun label hflow => nomatch hflow
  | next hstmt _ ih => exact .next hstmt ih
  | jump hstmt hfound h _ ih => exact .jump hstmt hfound h ih

/-- Only a `Return` hands a value over. -/
theorem returns_of_run {stmt : Stmt} {v : Option Value} (hplain : isBlock stmt = false)
    (h : ((exec limit stmt).run s).1 = .ok (.returns v)) :
    ∃ value, stmt = .returns value ∧ ((exec limit stmt).run s).2 = s := by
  cases stmt with
  | returns value =>
    refine ⟨value, rfl, ?_⟩
    rw [run_return]
  | declare name type init =>
    cases init with
    | none =>
      rw [run_declare_bare] at h
      cases h
    | some e =>
      rw [run_declare] at h
      split at h <;> cases h
  | assign target source =>
    rw [exec, Run.run_bind] at h
    generalize (Run.assign target source).run s = r at h
    rcases r with ⟨fault | ⟨⟩, t⟩ <;> cases h
  | conditional => cases hplain
  | iteration => cases hplain
  | expression e =>
    rw [run_expression] at h
    cases he : eval s.locals e <;> (rw [he] at h; cases h)
  | goto => cases h
  | breaks => cases h
  | label => cases h
  | comment => cases h

/-- A task that ends with a value has come to a `Return`. -/
theorem Ends.departs {task : Task} {o : Outcome} {v : Option Value} (h : Ends limit task s o)
    (ho : o.1 = .ok (.returns v)) : ∃ value, Departs limit value task s o.2 := by
  induction h with
  | @plain stmt s hplain =>
    obtain ⟨value, rfl, hstate⟩ := returns_of_run hplain ho
    rw [hstate]
    exact ⟨value, .here⟩
  | conditionFault => cases ho
  | thenBranch hc _ ih =>
    obtain ⟨value, hdeparts⟩ := ih ho
    exact ⟨value, .thenBranch hc hdeparts⟩
  | elseBranch hc _ ih =>
    obtain ⟨value, hdeparts⟩ := ih ho
    exact ⟨value, .elseBranch hc hdeparts⟩
  | initFault => cases ho
  | iteration hinit _ _ ih =>
    obtain ⟨value, hdeparts⟩ := ih ho
    exact ⟨value, .iteration hinit hdeparts⟩
  | absent => cases ho
  | present _ ih =>
    obtain ⟨value, hdeparts⟩ := ih ho
    exact ⟨value, .present hdeparts⟩
  | spent => cases ho
  | testFault => cases ho
  | stop => cases ho
  | bodyFault => cases ho
  | @leave test increment body s t flow hlt htest _ _ ih =>
    -- only a break is changed on the way out of a loop
    have hflow : flow = .returns v := by
      cases flow <;> cases ho
      rfl
    obtain ⟨value, hdeparts⟩ := ih (by rw [hflow])
    exact ⟨value, .pass hlt htest hdeparts⟩
  | nextFault => cases ho
  | again hlt htest hbody hnext _ _ _ ih =>
    obtain ⟨value, hdeparts⟩ := ih ho
    exact ⟨value, .again hlt htest hbody hnext hdeparts⟩
  | done => cases ho
  | fault => cases ho
  | next hstmt _ _ ih =>
    obtain ⟨value, hdeparts⟩ := ih ho
    exact ⟨value, .next hstmt hdeparts⟩
  | out _ _ _ ih =>
    obtain ⟨value, hdeparts⟩ := ih ho
    exact ⟨value, .now hdeparts⟩
  | stranded => cases ho
  | jump hstmt hfound hlt _ _ ih =>
    obtain ⟨value, hdeparts⟩ := ih ho
    exact ⟨value, .jump hstmt hfound hlt hdeparts⟩

/-- The statements in the text of a task that hold no others. -/
def Task.atoms : Task → List Stmt
  | .stmt part => part.atoms
  | .optional part => atomsOptional part
  | .passes _ increment body => atomsOptional increment ++ atomsAll body
  | .list body rest => atomsAll body ++ atomsAll rest

theorem atoms_whole (body : List Stmt) : (Task.list body body).atoms ⊆ atomsAll body :=
  fun _ hmem => (List.mem_append.1 hmem).elim id id

theorem atoms_first (body rest : List Stmt) (stmt : Stmt) :
    (Task.stmt stmt).atoms ⊆ (Task.list body (stmt :: rest)).atoms :=
  fun _ hmem => List.mem_append_right _ (List.mem_append_left _ hmem)

theorem atoms_rest (body rest : List Stmt) (stmt : Stmt) :
    (Task.list body rest).atoms ⊆ (Task.list body (stmt :: rest)).atoms := by
  intro x hmem
  rcases List.mem_append.1 hmem with hbody | hrest
  · exact List.mem_append_left _ hbody
  · exact List.mem_append_right _ (List.mem_append_right _ hrest)

theorem atoms_pass (test : Expr) (increment : Option Stmt) (body : List Stmt) :
    (Task.list body body).atoms ⊆ (Task.passes test increment body).atoms :=
  fun _ hmem => List.mem_append_right _ (atoms_whole body hmem)

theorem atoms_passes (init increment : Option Stmt) (test : Expr) (body : List Stmt) :
    (Task.passes test increment body).atoms ⊆
      (Task.stmt (.iteration init test increment body)).atoms := by
  intro x hmem
  rcases List.mem_append.1 hmem with hincrement | hbody
  · exact List.mem_append_left _ (List.mem_append_right _ hincrement)
  · exact List.mem_append_right _ hbody

theorem atomsAll_after {label : String} {body found : List Stmt}
    (h : after? label body = some found) {stmt : Stmt} (hmem : stmt ∈ atomsAll found) :
    stmt ∈ atomsAll body := by
  induction body with
  | nil => cases h
  | cons first body ih =>
    rw [after?] at h
    split at h
    · cases h
      exact List.mem_append_right _ hmem
    · exact List.mem_append_right _ (ih h)

theorem atoms_found {label : String} {body found : List Stmt} (h : after? label body = some found)
    (rest : List Stmt) (stmt : Stmt) :
    (Task.list body found).atoms ⊆ (Task.list body (stmt :: rest)).atoms := by
  intro x hmem
  rcases List.mem_append.1 hmem with hbody | hfound
  · exact List.mem_append_left _ hbody
  · exact List.mem_append_left _ (atomsAll_after h hfound)

/-- The `Return` that a task comes to stands in its text. -/
theorem Departs.mem_atoms {task : Task} (h : Departs limit value task s t) :
    .returns value ∈ task.atoms := by
  induction h with
  | here => exact List.mem_singleton_self _
  | thenBranch _ _ ih => exact List.mem_append_left _ (atoms_whole _ ih)
  | elseBranch _ _ ih => exact List.mem_append_right _ (atoms_whole _ ih)
  | iteration _ _ ih => exact atoms_passes _ _ _ _ ih
  | present _ ih => exact ih
  | pass _ _ _ ih => exact atoms_pass _ _ _ ih
  | again _ _ _ _ _ ih => exact ih
  | now _ ih => exact atoms_first _ _ _ ih
  | next _ _ ih => exact atoms_rest _ _ _ ih
  | jump _ hfound _ _ ih => exact atoms_found hfound _ _ ih

end Departures

/-! ## Bodies with a `Return` behind them -/

section Bodies

variable {limit : Nat} {value : Option Expr} {s t : State}

/-- A list that ends normally falls off its end onto a `Return` behind it. -/
theorem Ends.falls_off {body rest : List Stmt}
    (h : Ends limit (.list body rest) s (.ok .normal, t)) (value : Option Expr) :
    Departs limit value (.list (body ++ [.returns value]) (rest ++ [.returns value])) s t := by
  generalize htask : Task.list body rest = task at h
  generalize ho : ((.ok .normal, t) : Outcome) = o at h
  induction h generalizing rest with
  | done =>
    cases htask
    cases ho
    exact .now .here
  | next hstmt _ _ ih =>
    cases htask
    exact .next hstmt (ih rfl ho)
  | out _ hflow _ =>
    cases ho
    exact absurd rfl hflow
  | jump hstmt hfound hlt _ _ ih =>
    cases htask
    refine .jump hstmt ?_ hlt (ih rfl ho)
    rw [after_append rfl, hfound]
    rfl
  | fault => cases ho
  | stranded => cases ho
  | _ => cases htask

theorem departs_of_normal {front : List Stmt} (hs : s.steps ≤ limit)
    (h : (Run.block limit (actions limit front)).run s = (.ok .normal, t)) (value : Option Expr) :
    Departs limit value (.list (front ++ [.returns value]) (front ++ [.returns value])) s t := by
  obtain ⟨o, hends⟩ := exists_ends limit (.list front front) s hs
  obtain rfl : o = (.ok .normal, t) := (run_block_of_gives (hends.agrees hs)).symm.trans h
  exact hends.falls_off value

/-- What a body that comes to a `Return` gives. -/
theorem Departs.run {body : List Stmt} (h : Departs limit value (.list body body) s t)
    (hs : s.steps ≤ limit) : (runWithin limit body).run s = (returned t.locals value, t) := by
  rw [run_runWithin h.ends hs, Outcome.finished]
  cases returned t.locals value <;> rfl

/-- A body with a `Return` at its end gives nothing but by a `Return`. -/
theorem departs_of_run {front : List Stmt} {v : Option Value} (hs : s.steps ≤ limit)
    (h : (runWithin limit (front ++ [.returns value])).run s = (.ok v, t)) : ∃ left,
      Departs limit left (.list (front ++ [.returns value]) (front ++ [.returns value])) s t := by
  obtain ⟨⟨result, u⟩, hends⟩ :=
    exists_ends limit (.list (front ++ [.returns value]) (front ++ [.returns value])) s hs
  rw [run_runWithin hends hs, Outcome.finished, Prod.mk.injEq] at h
  obtain ⟨hresult, rfl⟩ := h
  rcases result with fault | flow
  · cases hresult
  cases flow with
  | normal =>
    -- the `Return` at the end does not end normally
    exfalso
    obtain ⟨o, _, ⟨hne, rfl⟩ | ⟨_, hlast⟩⟩ := hends.of_append rfl (by simp)
    · exact hne rfl
    · cases hlast with
      | next hstmt _ =>
        have hrun := hstmt.of_plain rfl
        rw [run_return] at hrun
        cases hr : returned o.2.locals value <;> (rw [hr] at hrun; cases hrun)
      | out _ hflow _ => exact hflow rfl
      | jump hstmt _ _ _ =>
        have hrun := hstmt.of_plain rfl
        rw [run_return] at hrun
        cases hr : returned o.2.locals value <;> (rw [hr] at hrun; cases hrun)
  | breaks => cases hresult
  | goto label => cases hresult
  | returns w =>
    obtain ⟨left, hdeparts⟩ := hends.departs rfl
    exact ⟨left, hdeparts⟩

end Bodies

/-! ## What a task preserves -/

section Preservation

variable {limit : Nat} {P : State → Prop}

/-- Every statement among these that holds no others preserves `P`. -/
def Preserved (limit : Nat) (P : State → Prop) (stmts : List Stmt) : Prop :=
  ∀ stmt ∈ stmts, isBlock stmt = false → ∀ s, P s → P ((exec limit stmt).run s).2

theorem Preserved.of_subset {part whole : List Stmt} (h : Preserved limit P whole)
    (hsub : part ⊆ whole) : Preserved limit P part :=
  fun stmt hmem => h stmt (hsub hmem)

/-- What the text of a task preserves, and the counting of a step, is preserved by the task. -/
theorem Ends.preserves (htick : ∀ s, P s → P s.ticked) {task : Task} {s : State} {o : Outcome}
    (h : Ends limit task s o) (hatoms : Preserved limit P task.atoms) (hs : P s) : P o.2 := by
  induction h with
  | @plain stmt s hplain =>
    cases stmt with
    | comment => exact hs
    | conditional => cases hplain
    | iteration => cases hplain
    | _ => exact hatoms _ (List.mem_singleton_self _) hplain s hs
  | conditionFault => exact hs
  | thenBranch _ _ ih =>
    exact ih (hatoms.of_subset fun _ hmem => List.mem_append_left _ (atoms_whole _ hmem)) hs
  | elseBranch _ _ ih =>
    exact ih (hatoms.of_subset fun _ hmem => List.mem_append_right _ (atoms_whole _ hmem)) hs
  | initFault _ ih =>
    refine ih (hatoms.of_subset fun _ hmem => ?_) hs
    exact List.mem_append_left _ (List.mem_append_left _ hmem)
  | iteration _ _ ihinit ihpasses =>
    refine ihpasses (hatoms.of_subset (atoms_passes _ _ _ _)) ?_
    refine ihinit (hatoms.of_subset fun _ hmem => ?_) hs
    exact List.mem_append_left _ (List.mem_append_left _ hmem)
  | absent => exact hs
  | present _ ih => exact ih hatoms hs
  | spent => exact htick _ hs
  | testFault => exact htick _ hs
  | stop => exact htick _ hs
  | bodyFault _ _ _ ih => exact ih (hatoms.of_subset (atoms_pass _ _ _)) (htick _ hs)
  | leave _ _ _ _ ih => exact ih (hatoms.of_subset (atoms_pass _ _ _)) (htick _ hs)
  | nextFault _ _ _ _ ihbody ihnext =>
    have hbody := ihbody (hatoms.of_subset (atoms_pass _ _ _)) (htick _ hs)
    exact ihnext (hatoms.of_subset (List.subset_append_left _ _)) hbody
  | again _ _ _ _ _ ihbody ihnext ihagain =>
    have hbody := ihbody (hatoms.of_subset (atoms_pass _ _ _)) (htick _ hs)
    exact ihagain hatoms (ihnext (hatoms.of_subset (List.subset_append_left _ _)) hbody)
  | done => exact hs
  | fault _ ih => exact ih (hatoms.of_subset (atoms_first _ _ _)) hs
  | next _ _ ihstmt ihrest =>
    have hstmt := ihstmt (hatoms.of_subset (atoms_first _ _ _)) hs
    exact ihrest (hatoms.of_subset (atoms_rest _ _ _)) hstmt
  | out _ _ _ ih => exact ih (hatoms.of_subset (atoms_first _ _ _)) hs
  | stranded _ _ _ ih => exact htick _ (ih (hatoms.of_subset (atoms_first _ _ _)) hs)
  | jump _ hfound _ _ ihstmt ihjump =>
    have hstmt := ihstmt (hatoms.of_subset (atoms_first _ _ _)) hs
    exact ihjump (hatoms.of_subset (atoms_found hfound _ _)) (htick _ hstmt)

end Preservation

/-! ## Locals stay declared -/

section Locals

variable {limit : Nat} {n : String} {s t : State}

theorem isSome_get?_put {locals : Locals} (name : String) (v : Value)
    (h : (locals.get? n).isSome = true) : ((locals.put name v).get? n).isSome = true := by
  rw [Locals.get?_put]
  split
  · rfl
  · exact h

theorem run_plain_keeps {stmt : Stmt} (h : isBlock stmt = false)
    (hs : (s.locals.get? n).isSome = true) :
    (((exec limit stmt).run s).2.locals.get? n).isSome = true := by
  cases stmt with
  | declare name type init =>
    cases init with
    | none =>
      rw [run_declare_bare]
      exact isSome_get?_put name .null hs
    | some e =>
      rw [run_declare]
      split
      · exact hs
      · exact isSome_get?_put name _ hs
  | assign target source =>
    cases target with
    | ident name =>
      rw [run_assign]
      split
      · exact hs
      · split
        · exact isSome_get?_put name _ hs
        · exact hs
    | _ => exact hs
  | conditional => cases h
  | iteration => cases h
  | expression e =>
    rw [run_expression]
    exact hs
  | returns value =>
    rw [run_return]
    exact hs
  | goto => exact hs
  | breaks => exact hs
  | label => exact hs
  | comment => exact hs

/-- No task takes back a declaration. -/
theorem Ends.keeps {task : Task} {o : Outcome} (h : Ends limit task s o)
    (hs : (s.locals.get? n).isSome = true) : (o.2.locals.get? n).isSome = true := by
  refine h.preserves (P := fun t => (t.locals.get? n).isSome = true) (fun _ ht => ht) ?_ hs
  intro stmt _ hplain t ht
  exact run_plain_keeps hplain ht

/-- A body that declares a local first has it declared wherever it comes to a `Return`. -/
theorem Departs.declared {value : Option Expr} {type : Target.Ty} {init : Option Expr}
    {body rest : List Stmt}
    (h : Departs limit value (.list body (.declare n type init :: rest)) s t) :
    (t.locals.get? n).isSome = true := by
  have hput : ∀ (locals : Locals) (v : Value), ((locals.put n v).get? n).isSome = true := by
    intro locals v
    rw [Locals.get?_put, if_pos rfl]
    rfl
  cases h with
  | now hstmt => cases hstmt
  | next hstmt hrest =>
    refine hrest.ends.keeps ?_
    have hrun := hstmt.of_plain rfl
    cases init with
    | none =>
      rw [run_declare_bare] at hrun
      cases hrun
      exact hput _ _
    | some e =>
      rw [run_declare] at hrun
      split at hrun <;> cases hrun
      exact hput _ _
  | jump hstmt =>
    have hrun := hstmt.of_plain rfl
    cases init with
    | none =>
      rw [run_declare_bare] at hrun
      cases hrun
    | some e =>
      rw [run_declare] at hrun
      split at hrun <;> cases hrun

/-- A body that declares a local first and comes to a `Return` of it gives what it holds. -/
theorem Departs.hands_over {type : Target.Ty} {init : Option Expr} {rest : List Stmt}
    (h : Departs limit (some (.ident n))
      (.list (.declare n type init :: rest) (.declare n type init :: rest)) s t)
    (hs : s.steps ≤ limit) : ∃ v, t.locals.get? n = some v ∧
      (runWithin limit (.declare n type init :: rest)).run s = (.ok (some v), t) := by
  obtain ⟨v, hv⟩ := Option.isSome_iff_exists.1 h.declared
  refine ⟨v, hv, ?_⟩
  rw [h.run hs, returned, eval, hv]
  rfl

end Locals

end StructuredBasic.Machine
