import StructuredBasic.Proofs.Machine.Triples

/-!
# Jumps in scope

A jump finds its label in its own list or in a list around it. `InScope r false body` says that
every jump to `r` in the body does; no run of such a body ends with `r` as an undefined label
(`InScope.sound`).
-/

set_option autoImplicit false

namespace StructuredBasic.Machine

open Target (Expr Stmt)

/-! ## Jumps and labels of a body -/

/-- A jump or a label in lowered code. -/
inductive Mark where
  | jump (label : String)
  | label (name : String)
deriving DecidableEq

mutual

/-- The jumps and labels of a statement in the order of its text. -/
def marks : Stmt → List Mark
  | .goto label => [.jump label]
  | .label name => [.label name]
  | .conditional _ thenBody elseBody => marksAll thenBody ++ marksAll elseBody
  | .iteration init _ increment body =>
    marksOptional init ++ marksOptional increment ++ marksAll body
  | _ => []

def marksOptional : Option Stmt → List Mark
  | none => []
  | some stmt => marks stmt

def marksAll : List Stmt → List Mark
  | [] => []
  | stmt :: rest => marks stmt ++ marksAll rest

end

theorem marksAll_append (a b : List Stmt) : marksAll (a ++ b) = marksAll a ++ marksAll b := by
  induction a with
  | nil => rfl
  | cons stmt a ih => rw [List.cons_append, marksAll, marksAll, ih, List.append_assoc]

theorem marksAll_eq_nil {stmts : List Stmt} (h : ∀ stmt ∈ stmts, marks stmt = []) :
    marksAll stmts = [] := by
  induction stmts with
  | nil => rfl
  | cons stmt stmts ih =>
    rw [marksAll, h stmt List.mem_cons_self, ih fun s hs => h s (List.mem_cons_of_mem _ hs)]
    rfl

/-- Whether a statement holds lists of statements. -/
def isBlock : Stmt → Bool
  | .conditional .. | .iteration .. => true
  | _ => false

/-- Statements that neither jump nor hold other statements, and are no labels. -/
def Quiet (stmts : List Stmt) : Prop := ∀ stmt ∈ stmts, isBlock stmt = false ∧ marks stmt = []

theorem Quiet.marksAll {stmts : List Stmt} (h : Quiet stmts) : marksAll stmts = [] :=
  marksAll_eq_nil fun stmt hs => (h stmt hs).2

/-- Some list of the body holds a jump to `target` with the label `point` right behind it. -/
inductive Follows (target point : String) : List Stmt → Prop
  | here (before after : List Stmt) :
      Follows target point (before ++ .goto target :: .label point :: after)
  | thenBody {stmts thenBody elseBody : List Stmt} {condition : Expr}
      (hm : .conditional condition thenBody elseBody ∈ stmts) (h : Follows target point thenBody) :
      Follows target point stmts
  | elseBody {stmts thenBody elseBody : List Stmt} {condition : Expr}
      (hm : .conditional condition thenBody elseBody ∈ stmts) (h : Follows target point elseBody) :
      Follows target point stmts
  | loop {stmts body : List Stmt} {init increment : Option Stmt} {test : Expr}
      (hm : .iteration init test increment body ∈ stmts) (h : Follows target point body) :
      Follows target point stmts

theorem Follows.append_left {target point : String} {stmts : List Stmt}
    (h : Follows target point stmts) (rest : List Stmt) : Follows target point (stmts ++ rest) := by
  cases h with
  | here before after =>
    rw [List.append_assoc]
    exact .here before (after ++ rest)
  | thenBody hm h => exact .thenBody (List.mem_append_left _ hm) h
  | elseBody hm h => exact .elseBody (List.mem_append_left _ hm) h
  | loop hm h => exact .loop (List.mem_append_left _ hm) h

theorem Follows.append_right {target point : String} {stmts : List Stmt}
    (h : Follows target point stmts) (front : List Stmt) :
    Follows target point (front ++ stmts) := by
  cases h with
  | here before after =>
    rw [← List.append_assoc]
    exact .here (front ++ before) after
  | thenBody hm h => exact .thenBody (List.mem_append_right _ hm) h
  | elseBody hm h => exact .elseBody (List.mem_append_right _ hm) h
  | loop hm h => exact .loop (List.mem_append_right _ hm) h

/-! ## Scope -/

/-- Whether the list itself holds the label; lists inside it do not count. -/
def holdsLabel (r : String) (stmts : List Stmt) : Bool :=
  stmts.any fun stmt => labelOf? stmt == some r

mutual

/-- Every jump to `r` in the statement is in scope, where `here` tells whether the list that the
statement stands in or a list around it holds `r`. -/
def Scoped (r : String) : Bool → Stmt → Prop
  | here, .goto label => label = r → here = true
  | here, .conditional _ thenBody elseBody =>
    ScopedAll r (here || holdsLabel r thenBody) thenBody ∧
      ScopedAll r (here || holdsLabel r elseBody) elseBody
  | here, .iteration _ _ _ body => ScopedAll r (here || holdsLabel r body) body
  | _, _ => True

def ScopedAll (r : String) : Bool → List Stmt → Prop
  | _, [] => True
  | here, stmt :: rest => Scoped r here stmt ∧ ScopedAll r here rest

end

/-- Every jump to `r` in a whole list is in scope, where `outer` tells whether a list around it
holds `r`. -/
def InScope (r : String) (outer : Bool) (stmts : List Stmt) : Prop :=
  ScopedAll r (outer || holdsLabel r stmts) stmts

section Scope

variable {r : String}

theorem holdsLabel_append (a b : List Stmt) :
    holdsLabel r (a ++ b) = (holdsLabel r a || holdsLabel r b) :=
  List.any_append

theorem scopedAll_iff {here : Bool} {stmts : List Stmt} :
    ScopedAll r here stmts ↔ ∀ stmt ∈ stmts, Scoped r here stmt := by
  induction stmts with
  | nil => exact ⟨fun _ _ h => (nomatch h), fun _ => trivial⟩
  | cons stmt stmts ih => rw [ScopedAll, ih, List.forall_mem_cons]

theorem scopedAll_append {here : Bool} {a b : List Stmt} :
    ScopedAll r here (a ++ b) ↔ ScopedAll r here a ∧ ScopedAll r here b := by
  rw [scopedAll_iff, scopedAll_iff, scopedAll_iff, List.forall_mem_append]

theorem holdsLabel_of_isBlock {stmt : Stmt} (h : isBlock stmt = true) :
    holdsLabel r [stmt] = false := by
  cases stmt <;> first
    | rfl
    | cases h

theorem labelOf_iff {stmt : Stmt} (h : isBlock stmt = false) :
    (labelOf? stmt == some r) = true ↔ .label r ∈ marks stmt := by
  cases stmt with
  | label name =>
    simp only [labelOf?, marks, beq_iff_eq, Option.some.injEq, List.mem_singleton,
      Mark.label.injEq]
    exact eq_comm
  | conditional => cases h
  | iteration => cases h
  | _ => simp [labelOf?, marks]

theorem scoped_false_iff {stmt : Stmt} (h : isBlock stmt = false) :
    Scoped r false stmt ↔ .jump r ∉ marks stmt := by
  cases stmt with
  | goto label =>
    simp only [Scoped, marks, List.mem_singleton, Mark.jump.injEq, Bool.false_eq_true, imp_false]
    exact not_congr eq_comm
  | conditional => cases h
  | iteration => cases h
  | _ => simp [Scoped, marks]

theorem holdsLabel_iff {stmts : List Stmt} (h : ∀ stmt ∈ stmts, isBlock stmt = false) :
    holdsLabel r stmts = true ↔ .label r ∈ marksAll stmts := by
  induction stmts with
  | nil => exact ⟨fun h => (nomatch h), fun h => (nomatch h)⟩
  | cons stmt stmts ih =>
    have hrest := ih fun s hs => h s (List.mem_cons_of_mem _ hs)
    have hstmt := h stmt List.mem_cons_self
    rw [holdsLabel, List.any_cons, Bool.or_eq_true, ← holdsLabel, hrest, labelOf_iff hstmt,
      Machine.marksAll, List.mem_append]

theorem scopedAll_false_iff {stmts : List Stmt} (h : ∀ stmt ∈ stmts, isBlock stmt = false) :
    ScopedAll r false stmts ↔ .jump r ∉ marksAll stmts := by
  induction stmts with
  | nil => exact ⟨fun _ h => (nomatch h), fun _ => trivial⟩
  | cons stmt stmts ih =>
    have hrest := ih fun s hs => h s (List.mem_cons_of_mem _ hs)
    have hstmt := h stmt List.mem_cons_self
    rw [ScopedAll, hrest, scoped_false_iff hstmt, Machine.marksAll, List.mem_append, not_or]

theorem Quiet.holdsLabel {stmts : List Stmt} (h : Quiet stmts) : holdsLabel r stmts = false := by
  rw [Bool.eq_false_iff, Ne, holdsLabel_iff fun stmt hs => (h stmt hs).1, h.marksAll]
  exact List.not_mem_nil

end Scope

mutual

/-- Where a list around holds the label, every jump to it is in scope. -/
theorem scoped_true (r : String) (stmt : Stmt) : Scoped r true stmt := by
  match stmt with
  | .goto _ => exact fun _ => rfl
  | .conditional _ thenBody elseBody =>
    exact ⟨scopedAll_true r thenBody, scopedAll_true r elseBody⟩
  | .iteration _ _ _ body => exact scopedAll_true r body
  | .assign .. => exact trivial
  | .declare .. => exact trivial
  | .expression _ => exact trivial
  | .returns _ => exact trivial
  | .label _ => exact trivial
  | .breaks => exact trivial
  | .comment _ => exact trivial

theorem scopedAll_true (r : String) (stmts : List Stmt) : ScopedAll r true stmts := by
  match stmts with
  | [] => exact trivial
  | stmt :: rest => exact ⟨scoped_true r stmt, scopedAll_true r rest⟩

end

theorem Quiet.scopedAll {r : String} {here : Bool} {stmts : List Stmt} (h : Quiet stmts) :
    ScopedAll r here stmts := by
  cases here with
  | true => exact scopedAll_true r stmts
  | false =>
    rw [scopedAll_false_iff fun stmt hs => (h stmt hs).1, h.marksAll]
    exact List.not_mem_nil

theorem inScope_between {r : String} {outer : Bool} {front body back : List Stmt}
    (hf : Quiet front) (hb : Quiet back) :
    InScope r outer (front ++ body ++ back) ↔ InScope r outer body := by
  rw [InScope, holdsLabel_append, holdsLabel_append, hf.holdsLabel, hb.holdsLabel, Bool.false_or,
    Bool.or_false, scopedAll_append, scopedAll_append, InScope]
  exact ⟨fun h => h.1.2, fun h => ⟨⟨hf.scopedAll, h⟩, hb.scopedAll⟩⟩

theorem marksAll_between {front body back : List Stmt} (hf : Quiet front) (hb : Quiet back) :
    marksAll (front ++ body ++ back) = marksAll body := by
  rw [marksAll_append, marksAll_append, hf.marksAll, hb.marksAll, List.nil_append, List.append_nil]

/-! ## Soundness -/

/-- A jump to `r` out of a statement happens only where `r` is in scope. -/
def Lands (r : String) (here : Bool) (flow : Flow) : Prop := flow = .goto r → here = true

/-- Faults other than that `r` is undefined. -/
def NotLabel (r : String) (fault : Fault) : Prop := fault ≠ .undefinedLabel r

section Soundness

variable {r : String}

theorem lands_normal {here : Bool} : Lands r here .normal := fun h => nomatch h

theorem allowsEval_notLabel : AllowsEval (NotLabel r) where
  operational := by
    rintro _ h rfl
    cases h
  undefined := fun _ h => nomatch h

theorem holdsLabel_of_afterLabel {limit : Nat} {stmts : List Stmt}
    (h : Run.afterLabel? r (actions limit stmts) = none) : holdsLabel r stmts = false := by
  induction stmts with
  | nil => rfl
  | cons stmt stmts ih =>
    rw [actions, Run.afterLabel?] at h
    split at h
    · cases h
    · next hne =>
      have hstmt : (labelOf? stmt == some r) = false := beq_eq_false_iff_ne.2 hne
      rw [holdsLabel, List.any_cons, hstmt]
      exact ih h

/-- A list in scope ends with a jump to `r` only where a list around it holds `r`. -/
theorem SatFrom.lands {limit : Nat} {stmts : List Stmt} {outer : Bool}
    (h : SatFrom (fun _ => True) (fun _ => True) (actions limit stmts)
      (Lands r (outer || holdsLabel r stmts)) (NotLabel r)) :
    Sat (fun _ => True) (Run.block limit (actions limit stmts))
      (fun flow _ => Lands r outer flow) (NotLabel r) := by
  refine (h.block limit countFree_true nofun).weaken (fun _ h => h) fun flow _ h hflow => ?_
  have hhere := h.1 hflow
  rw [holdsLabel_of_afterLabel (h.2.2 r hflow), Bool.or_false] at hhere
  exact hhere

mutual

theorem sat_exec_scoped {r : String} (limit : Nat) (stmt : Stmt) {here : Bool}
    (h : Scoped r here stmt) :
    Sat (fun _ => True) (exec limit stmt) (fun flow _ => Lands r here flow) (NotLabel r) := by
  match stmt with
  | .declare name _ none =>
    rw [exec]
    exact sat_put_any.bind fun _ => sat_pure fun _ _ => lands_normal
  | .declare name _ (some init) =>
    rw [exec]
    refine allowsEval_notLabel.sat_value.bind fun v => ?_
    exact sat_put_any.bind fun _ => sat_pure fun _ _ => lands_normal
  | .assign target value =>
    rw [exec]
    exact allowsEval_notLabel.sat_assign.bind fun _ => sat_pure fun _ _ => lands_normal
  | .conditional condition thenBody elseBody =>
    have hthen := (sat_actions_scoped limit thenBody h.1).lands
    have helse := (sat_actions_scoped limit elseBody h.2).lands
    rw [exec]
    refine allowsEval_notLabel.sat_test.bind fun holds => ?_
    split
    · exact hthen
    · exact helse
  | .iteration init test increment body =>
    have hinit := sat_execOptional_notLabel (r := r) limit init
    have hnext := sat_execOptional_notLabel (r := r) limit increment
    have hbody := (sat_actions_scoped limit body h).lands
    rw [exec]
    have hloop := sat_loop limit countFree_true (fun h => nomatch h) lands_normal hinit
      (allowsEval_notLabel.sat_test (e := test)) hnext
      (hbody.weaken (fun _ h => h) fun _ _ h => ⟨h, trivial⟩)
    exact hloop.weaken (fun _ h => h) fun _ _ h => h.1
  | .expression value =>
    rw [exec]
    exact allowsEval_notLabel.sat_value.bind fun _ => sat_pure fun _ _ => lands_normal
  | .returns none =>
    rw [exec]
    exact sat_pure fun _ _ h => nomatch h
  | .returns (some value) =>
    rw [exec]
    exact allowsEval_notLabel.sat_value.bind fun _ => sat_pure fun _ _ h => nomatch h
  | .goto label =>
    rw [exec]
    exact sat_pure fun _ _ hflow => h (Flow.goto.inj hflow)
  | .label _ => rw [exec]; exact sat_pure fun _ _ => lands_normal
  | .breaks => rw [exec]; exact sat_pure fun _ _ h => nomatch h
  | .comment _ => rw [exec]; exact sat_pure fun _ _ => lands_normal

theorem sat_execOptional_notLabel {r : String} (limit : Nat) (stmt : Option Stmt) :
    Sat (fun _ => True) (execOptional limit stmt) (fun _ _ => True) (NotLabel r) := by
  match stmt with
  | none =>
    rw [execOptional]
    exact sat_pure fun _ _ => trivial
  | some stmt =>
    have hstmt := sat_exec_scoped limit stmt (scoped_true r stmt)
    rw [execOptional]
    exact hstmt.bind fun _ => sat_pure fun _ _ => trivial

theorem sat_actions_scoped {r : String} (limit : Nat) (stmts : List Stmt) {here : Bool}
    (h : ScopedAll r here stmts) :
    SatFrom (fun _ => True) (fun _ => True) (actions limit stmts) (Lands r here)
      (NotLabel r) := by
  match stmts with
  | [] =>
    rw [actions]
    exact .nil lands_normal fun _ h => h
  | stmt :: rest =>
    have hstmt := sat_exec_scoped limit stmt h.1
    have hrest := sat_actions_scoped limit rest h.2
    rw [actions]
    exact .cons hstmt (fun _ _ => trivial) (fun _ _ h _ => ⟨h, trivial⟩) (fun _ _ _ h => h) hrest

end

theorem sat_inScope {r : String} (limit : Nat) (stmts : List Stmt) {outer : Bool}
    (h : InScope r outer stmts) :
    Sat (fun _ => True) (Run.block limit (actions limit stmts))
      (fun flow _ => Lands r outer flow) (NotLabel r) :=
  (sat_actions_scoped limit stmts h).lands

/-- No run of a body ends with an undefined label whose jumps are all in scope. -/
theorem InScope.sound {body : List Stmt} (h : InScope r false body) (limit : Nat) (state : State) :
    ((runWithin limit body).run state).1 ≠ .error (.undefinedLabel r) := by
  have hrun : Sat (fun _ => True) (runWithin limit body) (fun _ _ => True) (NotLabel r) := by
    unfold runWithin
    refine (sat_inScope limit body h).bind fun flow =>
      sat_lift (fun _ _ _ _ => trivial) fun fault s hlands hresult => ?_
    cases flow with
    | normal => cases hresult
    | returns value => cases hresult
    | breaks => cases hresult; exact fun h => nomatch h
    | goto label =>
      cases hresult
      rintro ⟨⟩
      cases hlands rfl
  exact hrun.not_error trivial fun h => h rfl

end Soundness

end StructuredBasic.Machine
