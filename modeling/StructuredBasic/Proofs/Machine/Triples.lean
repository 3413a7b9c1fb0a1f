import StructuredBasic.Machine.Exec
import StructuredBasic.Proofs.Machine.Faults

/-!
# Triples

`Sat P m Q E` says that from a state with `P` the change of state `m` gives a result with `Q` or
stops with a fault in `E`. There is one rule for each way to build a run: sequences, jumps, passes
of a loop and lists of statements (`SatFrom.block`). The rules for the last three ask for an
invariant of the state and for a property of the flows that statements may end with. For a list they
are asked of a run from its start and from each of its labels (`SatFrom`), one statement at a time.
-/

set_option autoImplicit false

namespace StructuredBasic.Machine

open Target (Expr Stmt)

/-- From a state with `P` the run gives a result with `Q` or stops with a fault in `E`. -/
def Sat {α : Type} (P : State → Prop) (m : Run α) (Q : α → State → Prop) (E : Fault → Prop) :
    Prop :=
  ∀ s, P s → match m.run s with
    | (.ok a, t) => Q a t
    | (.error fault, _) => E fault

section Rules

variable {α β : Type} {P P' : State → Prop} {Q Q' : α → State → Prop} {R : β → State → Prop}
  {E : Fault → Prop}

theorem Sat.weaken {m : Run α} (h : Sat P' m Q' E) (hP : ∀ s, P s → P' s)
    (hQ : ∀ a s, Q' a s → Q a s) : Sat P m Q E := by
  intro s hs
  have hm := h s (hP s hs)
  revert hm
  cases m.run s with
  | mk result t =>
    cases result with
    | error fault => exact id
    | ok a => exact hQ a t

theorem Sat.not_error {m : Run α} (h : Sat P m Q E) {s : State} (hs : P s) {fault : Fault}
    (hfault : ¬ E fault) : (m.run s).1 ≠ .error fault := by
  have hm := h s hs
  revert hm
  cases m.run s with
  | mk result t =>
    rintro hm rfl
    exact hfault hm

theorem sat_pure {a : α} (h : ∀ s, P s → Q a s) : Sat P (pure a) Q E := fun s hs => h s hs

theorem sat_throw {fault : Fault} (h : E fault) : Sat P (throw fault : Run α) Q E := fun _ _ => h

theorem Run.run_bind (m : Run α) (k : α → Run β) (s : State) :
    (m >>= k).run s = match m.run s with
      | (.ok a, t) => (k a).run t
      | (.error fault, t) => (.error fault, t) := by
  simp only [ExceptT.run, Bind.bind, ExceptT.bind, ExceptT.mk, StateT.bind, ExceptT.bindCont]
  cases m s with
  | mk result t => cases result <;> rfl

theorem Sat.bind {m : Run α} {k : α → Run β} (hm : Sat P m Q E) (hk : ∀ a, Sat (Q a) (k a) R E) :
    Sat P (m >>= k) R E := by
  intro s hs
  have h := hm s hs
  rw [Run.run_bind]
  revert h
  cases m.run s with
  | mk result t =>
    cases result with
    | error fault => exact id
    | ok a => exact hk a t

theorem sat_get : Sat P (get : Run State) (fun a s => a = s ∧ P s) E := fun _ hs => ⟨rfl, hs⟩

theorem sat_modify {g : State → State} (h : ∀ s, P s → P' (g s)) :
    Sat P (modify g : Run PUnit) (fun _ => P') E := fun s hs => h s hs

theorem sat_lift {r : Except Fault α} (hok : ∀ a s, P s → r = .ok a → Q a s)
    (herror : ∀ fault s, P s → r = .error fault → E fault) : Sat P (liftM r : Run α) Q E := by
  intro s hs
  cases r with
  | error fault => exact herror fault s hs rfl
  | ok a => exact hok a s hs rfl

end Rules

/-! ## Steps of the machine -/

section Steps

variable {I : State → Prop} {E : Fault → Prop}

/-- Whether counting a step leaves a property of states alone. -/
def CountFree (I : State → Prop) : Prop := ∀ s steps, I s → I { s with steps := steps }

theorem sat_tick {limit : Nat} (hI : CountFree I) (hE : E .stepLimit) :
    Sat I (Run.tick limit) (fun _ => I) E := by
  unfold Run.tick
  refine (sat_modify fun s hs => hI s _ hs).bind fun _ => ?_
  refine sat_get.bind fun s => ?_
  split
  · exact sat_throw hE
  · exact sat_pure fun _ h => h.2

theorem sat_remaining {limit : Nat} : Sat I (Run.remaining limit) (fun _ => I) E := by
  unfold Run.remaining
  exact sat_get.bind fun s => sat_pure fun _ h => h.2

theorem sat_value {e : Expr}
    (h : ∀ s fault, I s → eval s.locals e = .error fault → E fault) :
    Sat I (Run.value e) (fun _ => I) E := by
  unfold Run.value
  refine sat_get.bind fun state => sat_lift (fun _ _ hs _ => hs.2) ?_
  rintro fault s ⟨rfl, hs⟩ heval
  exact h state fault hs heval

theorem sat_test {e : Expr} (h : ∀ s fault, I s → eval s.locals e = .error fault → E fault)
    (hE : ∀ expected got, E (.typeMismatch expected got)) :
    Sat I (Run.test e) (fun _ => I) E := by
  unfold Run.test
  refine (sat_value h).bind fun v => sat_lift (fun _ _ hs _ => hs) ?_
  intro fault s _ htruth
  cases v <;> cases htruth <;> exact hE _ _

/-- The passes of a loop keep what its parts keep. The loop ends normally or with a flow of the
body other than a break, which only ends the loop. -/
theorem sat_passes {limit : Nat} {test : Run Bool} {body : Run Flow} {next : Run Unit}
    {G F : Flow → Prop} (hI : CountFree I) (hE : E .stepLimit) (hF : F .normal)
    (hG : ∀ flow, G flow → flow ≠ .breaks → F flow)
    (htest : Sat I test (fun _ => I) E) (hbody : Sat I body (fun flow s => G flow ∧ I s) E)
    (hnext : Sat I next (fun _ => I) E) (fuel : Nat) :
    Sat I (Run.passes limit test body next fuel) (fun flow s => F flow ∧ I s) E := by
  induction fuel with
  | zero => exact sat_throw hE
  | succ fuel ih =>
    rw [Run.passes]
    refine (sat_tick hI hE).bind fun _ => htest.bind fun holds => ?_
    split
    · refine hbody.bind fun flow => ?_
      split
      · exact (hnext.bind fun _ => ih).weaken (fun _ h => h.2) fun _ _ h => h
      · exact sat_pure fun s h => ⟨hF, h.2⟩
      · next hne => exact sat_pure fun s h => ⟨hG _ h.1 hne, h.2⟩
    · exact sat_pure fun s h => ⟨hF, h⟩

theorem sat_loop_leaving (limit : Nat) {P : State → Prop} {init : Run Unit} {test : Run Bool}
    {next : Run Unit} {body : Run Flow} {G F : Flow → Prop} (hI : CountFree I)
    (hE : E .stepLimit) (hF : F .normal) (hG : ∀ flow, G flow → flow ≠ .breaks → F flow)
    (hinit : Sat P init (fun _ => I) E) (htest : Sat I test (fun _ => I) E)
    (hnext : Sat I next (fun _ => I) E) (hbody : Sat I body (fun flow s => G flow ∧ I s) E) :
    Sat P (Run.loop limit init test next body) (fun flow s => F flow ∧ I s) E := by
  unfold Run.loop
  refine hinit.bind fun _ => sat_remaining.bind fun fuel => ?_
  exact sat_passes hI hE hF hG htest hbody hnext fuel

theorem sat_loop (limit : Nat) {P : State → Prop} {init : Run Unit} {test : Run Bool}
    {next : Run Unit} {body : Run Flow} {F : Flow → Prop} (hI : CountFree I) (hE : E .stepLimit)
    (hF : F .normal) (hinit : Sat P init (fun _ => I) E) (htest : Sat I test (fun _ => I) E)
    (hnext : Sat I next (fun _ => I) E) (hbody : Sat I body (fun flow s => F flow ∧ I s) E) :
    Sat P (Run.loop limit init test next body) (fun flow s => F flow ∧ I s) E :=
  sat_loop_leaving limit hI hE hF (fun _ h _ => h) hinit htest hnext hbody

/-- A run of the actions from their start with `P`, or from behind one of their labels with `I`,
ends with a flow in `F` and with `I`, or stops with a fault in `E`. -/
structure SatFrom (P I : State → Prop) (actions : List Run.Action) (F : Flow → Prop)
    (E : Fault → Prop) : Prop where
  start : Sat P (Run.sequence actions) (fun flow s => F flow ∧ I s) E
  jump : ∀ label rest, Run.afterLabel? label actions = some rest →
    Sat I (Run.sequence rest) (fun flow s => F flow ∧ I s) E

section Lists

variable {P P' : State → Prop} {F : Flow → Prop} {actions rest : List Run.Action}
  {action : Run.Action}

theorem SatFrom.nil (hF : F .normal) (hP : ∀ s, P s → I s) : SatFrom P I [] F E :=
  ⟨sat_pure fun s hs => ⟨hF, hP s hs⟩, fun _ _ h => nomatch h⟩

/-- The first action runs on into the rest or hands its flow on. Behind its label the rest is
entered with `I` alone. -/
theorem SatFrom.cons {Q : Flow → State → Prop} (hstep : Sat P action.run Q E)
    (hnext : ∀ s, Q .normal s → P' s)
    (hout : ∀ flow s, Q flow s → flow ≠ .normal → F flow ∧ I s)
    (hlabel : ∀ label, action.label = some label → ∀ s, I s → P' s)
    (hrest : SatFrom P' I rest F E) : SatFrom P I (action :: rest) F E := by
  constructor
  · rw [Run.sequence]
    refine hstep.bind fun flow => ?_
    split
    · exact hrest.start.weaken hnext fun _ _ h => h
    · next hne => exact sat_pure fun s h => hout _ s h hne
  · intro label found hfound
    rw [Run.afterLabel?] at hfound
    split at hfound
    · next h =>
      cases hfound
      exact hrest.start.weaken (hlabel label h) fun _ _ h => h
    · exact hrest.jump label found hfound

theorem SatFrom.mono {F' : Flow → Prop} (h : SatFrom P I actions F E)
    (hF : ∀ flow, F flow → F' flow) : SatFrom P I actions F' E where
  start := h.start.weaken (fun _ h => h) fun flow _ h => ⟨hF flow h.1, h.2⟩
  jump label rest hrest := (h.jump label rest hrest).weaken (fun _ h => h)
    fun flow _ h => ⟨hF flow h.1, h.2⟩

/-- Following jumps keeps what every part of the list after a label keeps. The flow at the end is
no jump to a label of the list. -/
theorem SatFrom.jumps {limit : Nat} (h : SatFrom P I actions F E) (hI : CountFree I)
    (hE : E .stepLimit) (fuel : Nat) {flow : Flow} (hflow : F flow) :
    Sat I (Run.jumps limit actions fuel flow) (fun flow s => F flow ∧ I s ∧
      ∀ label, flow = .goto label → Run.afterLabel? label actions = none) E := by
  -- a jump to a label that the list lacks, and every other flow, is handed on as it is
  have hleave : ∀ {label}, Run.afterLabel? label actions = none → ∀ other,
      Flow.goto label = .goto other → Run.afterLabel? other actions = none := by
    intro label hnone other heq
    cases heq
    exact hnone
  induction fuel generalizing flow with
  | zero =>
    unfold Run.jumps
    split
    · split
      · next hnone => exact sat_pure fun s hs => ⟨hflow, hs, hleave hnone⟩
      · exact sat_throw hE
    · next h => exact sat_pure fun s hs => ⟨hflow, hs, fun label heq => absurd heq (h label)⟩
  | succ fuel ih =>
    unfold Run.jumps
    split
    · split
      · next hnone => exact sat_pure fun s hs => ⟨hflow, hs, hleave hnone⟩
      · next label _ rest hrest =>
        refine (sat_tick hI hE).bind fun _ => (h.jump label rest hrest).bind fun flow => ?_
        intro s hs
        exact ih hs.1 s hs.2
    · next h => exact sat_pure fun s hs => ⟨hflow, hs, fun label heq => absurd heq (h label)⟩

/-- A list of statements keeps what its statements keep from its start and from every label. -/
theorem SatFrom.block (h : SatFrom P I actions F E) (limit : Nat) (hI : CountFree I)
    (hE : E .stepLimit) : Sat P (Run.block limit actions) (fun flow s => F flow ∧ I s ∧
      ∀ label, flow = .goto label → Run.afterLabel? label actions = none) E := by
  unfold Run.block
  refine h.start.bind fun flow => sat_remaining.bind fun fuel => ?_
  intro s hs
  exact h.jumps hI hE fuel hs.1 s hs.2

end Lists

end Steps

/-! ## Steps from any state -/

section AnyState

variable {E : Fault → Prop}

theorem countFree_true : CountFree fun _ => True := fun _ _ _ => trivial

/-- Whether the faults include all that evaluating and assigning may stop with. -/
structure AllowsEval (E : Fault → Prop) : Prop where
  operational : ∀ fault, fault.isOperational = true → E fault
  undefined : ∀ name, E (.undefinedVariable name)

theorem AllowsEval.of_eval (hE : AllowsEval E) {locals : Locals} {e : Expr} {fault : Fault}
    (h : eval locals e = .error fault) : E fault := by
  rcases eval_failsOn locals e fault h with h | ⟨name, _, _, rfl⟩
  · exact hE.operational fault h
  · exact hE.undefined name

theorem AllowsEval.sat_value (hE : AllowsEval E) {e : Expr} :
    Sat (fun _ => True) (Run.value e) (fun _ _ => True) E :=
  Machine.sat_value fun _ _ _ h => hE.of_eval h

theorem AllowsEval.sat_test (hE : AllowsEval E) {e : Expr} :
    Sat (fun _ => True) (Run.test e) (fun _ _ => True) E :=
  Machine.sat_test (fun _ _ _ h => hE.of_eval h) fun _ _ => hE.operational _ rfl

theorem sat_put_any {name : String} {v : Value} :
    Sat (fun _ => True) (Run.put name v) (fun _ _ => True) E :=
  sat_modify fun _ _ => trivial

theorem AllowsEval.sat_assign (hE : AllowsEval E) {target value : Expr} :
    Sat (fun _ => True) (Run.assign target value) (fun _ _ => True) E := by
  unfold Run.assign
  split
  · refine hE.sat_value.bind fun v => sat_get.bind fun state => ?_
    split
    · exact sat_modify fun _ _ => trivial
    · exact sat_throw (hE.undefined _)
  · exact sat_throw (hE.operational _ rfl)

end AnyState

end StructuredBasic.Machine
