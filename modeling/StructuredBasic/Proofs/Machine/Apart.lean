import StructuredBasic.Proofs.Machine.Statements

/-!
# Runs that do not mention a local

`Apart n s t` says that two states agree on every local but `n`. A task that does not mention `n`
ends in the same way from both, in states that agree so again (`Ends.apart`).
-/

set_option autoImplicit false

namespace StructuredBasic.Target.Stmt

open StructuredBasic.Target.Expr (identsOptional)

mutual

/-- The names of variables in a statement. -/
def mentioned : Stmt → List String
  | .declare name _ init => name :: identsOptional init
  | .assign target value => target.idents ++ value.idents
  | .conditional condition thenBody elseBody =>
    condition.idents ++ mentionedAll thenBody ++ mentionedAll elseBody
  | .iteration init test increment body =>
    mentionedOptional init ++ test.idents ++ mentionedOptional increment ++ mentionedAll body
  | .expression e => e.idents
  | .returns value => identsOptional value
  | .goto _ => []
  | .breaks => []
  | .label _ => []
  | .comment _ => []

def mentionedOptional : Option Stmt → List String
  | none => []
  | some stmt => mentioned stmt

def mentionedAll : List Stmt → List String
  | [] => []
  | stmt :: rest => mentioned stmt ++ mentionedAll rest

end

end StructuredBasic.Target.Stmt

namespace StructuredBasic.Machine

open Target (Expr Stmt)
open Target.Stmt (mentioned mentionedOptional mentionedAll)

/-! ## Evaluation -/

mutual

theorem eval_congr {a b : Locals} (e : Expr) (h : ∀ n ∈ e.idents, a.get? n = b.get? n) :
    eval a e = eval b e := by
  match e with
  | .ident name => rw [eval, eval, h name (List.mem_singleton_self name)]
  | .binary op left right =>
    have hleft := eval_congr left fun n hn => h n (List.mem_append_left _ hn)
    have hright := eval_congr right fun n hn => h n (List.mem_append_right _ hn)
    rw [eval, eval, hleft, hright]
  | .unary op operand => rw [eval, eval, eval_congr operand h]
  | .invoke target method args =>
    have hargs := evalAll_congr args fun n hn => h n (List.mem_append_right _ hn)
    rcases eval_invoke target method args with h | ⟨type, h⟩
    · rw [h, h]
    · rw [h, h, hargs]
  | .cast kind type operand =>
    have hoperand := eval_congr operand h
    rcases eval_cast kind type operand with h | h
    · rw [h, h]
    · rw [h, h, hoperand]
  | .literal _ => rfl
  | .defaultOf _ => rfl
  | .null => rfl
  | .typeRef _ => rfl
  | .field .. => rfl
  | .delegateInvoke .. => rfl
  | .index .. => rfl
  | .arrayCreate .. => rfl
  | .objectCreate .. => rfl
  | .typeOf _ => rfl
  | .typeIs .. => rfl
  | .self => rfl
  | .base => rfl
  | .methodRef .. => rfl

theorem evalAll_congr {a b : Locals} (es : List Expr)
    (h : ∀ n ∈ Expr.identsAll es, a.get? n = b.get? n) : evalAll a es = evalAll b es := by
  match es with
  | [] => rfl
  | e :: es =>
    have hfirst := eval_congr e fun n hn => h n (List.mem_append_left _ hn)
    have hrest := evalAll_congr es fun n hn => h n (List.mem_append_right _ hn)
    rw [evalAll, evalAll, hfirst, hrest]

end

/-! ## States that differ in one local -/

/-- The states agree on every local but `n`, and the second has counted no more steps. -/
structure Apart (n : String) (s t : State) : Prop where
  locals : ∀ x, x ≠ n → t.locals.get? x = s.locals.get? x
  steps : t.steps ≤ s.steps

namespace Apart

variable {n : String} {s t u : State}

theorem refl (n : String) (s : State) : Apart n s s := ⟨fun _ _ => rfl, Nat.le_refl _⟩

theorem trans (h : Apart n s t) (h' : Apart n t u) : Apart n s u :=
  ⟨fun x hx => (h'.locals x hx).trans (h.locals x hx), Nat.le_trans h'.steps h.steps⟩

theorem ticked (h : Apart n s t) : Apart n s.ticked t.ticked := ⟨h.locals, Nat.succ_le_succ h.steps⟩

theorem put (h : Apart n s t) (name : String) (v : Value) :
    Apart n { s with locals := s.locals.put name v } { t with locals := t.locals.put name v } := by
  refine ⟨fun x hx => ?_, h.steps⟩
  rw [Locals.get?_put, Locals.get?_put, h.locals x hx]

/-- What the first state holds for `n`, and how many steps more it counts, does not matter. -/
theorem of_ticked (n : String) (s : State) : Apart n s.ticked s := ⟨fun _ _ => rfl, Nat.le_succ _⟩

theorem of_put (n : String) (s : State) (v : Value) :
    Apart n { s with locals := s.locals.put n v } s := by
  refine ⟨fun x hx => ?_, Nat.le_refl _⟩
  rw [Locals.get?_put, if_neg (Ne.symm hx)]

theorem eval (h : Apart n s t) {e : Expr} (hn : n ∉ e.idents) :
    eval t.locals e = Machine.eval s.locals e := by
  refine eval_congr e fun x hx => h.locals x ?_
  rintro rfl
  exact hn hx

theorem truth (h : Apart n s t) {e : Expr} (hn : n ∉ e.idents) :
    truth t.locals e = Machine.truth s.locals e := by
  rw [Machine.truth, Machine.truth, h.eval hn]

/-- A statement without lists of statements does the same to both states. -/
theorem run_plain (limit : Nat) (h : Apart n s t) {stmt : Stmt} (hplain : isBlock stmt = false)
    (hn : n ∉ mentioned stmt) :
    ((exec limit stmt).run t).1 = ((exec limit stmt).run s).1 ∧
      Apart n ((exec limit stmt).run s).2 ((exec limit stmt).run t).2 := by
  cases stmt with
  | declare name type init =>
    cases init with
    | none =>
      rw [run_declare_bare, run_declare_bare]
      exact ⟨rfl, h.put name .null⟩
    | some e =>
      rw [run_declare, run_declare, h.eval fun he => hn (List.mem_cons_of_mem _ he)]
      cases Machine.eval s.locals e with
      | error fault => exact ⟨rfl, h⟩
      | ok v => exact ⟨rfl, h.put name v⟩
  | assign target source =>
    cases target with
    | ident name =>
      have hname : name ≠ n := by
        rintro rfl
        exact hn (List.mem_append_left _ (List.mem_singleton_self _))
      rw [run_assign, run_assign, h.eval fun he => hn (List.mem_append_right _ he),
        h.locals name hname]
      cases Machine.eval s.locals source with
      | error fault => exact ⟨rfl, h⟩
      | ok v =>
        cases s.locals.get? name with
        | none => exact ⟨rfl, h⟩
        | some old => exact ⟨rfl, h.put name v⟩
    | _ => exact ⟨rfl, h⟩
  | conditional => cases hplain
  | iteration => cases hplain
  | expression e =>
    rw [run_expression, run_expression, h.eval hn]
    exact ⟨rfl, h⟩
  | returns value =>
    cases value with
    | none => exact ⟨rfl, h⟩
    | some e =>
      rw [run_returns, run_returns, h.eval hn]
      exact ⟨rfl, h⟩
  | goto => exact ⟨rfl, h⟩
  | label => exact ⟨rfl, h⟩
  | breaks => exact ⟨rfl, h⟩
  | comment => exact ⟨rfl, h⟩

end Apart

/-! ## Tasks that do not mention a local -/

/-- The text of the task does not mention `n`. -/
def Task.Omits (n : String) : Task → Prop
  | .stmt part => n ∉ mentioned part
  | .optional part => n ∉ mentionedOptional part
  | .passes test increment body =>
    n ∉ test.idents ∧ n ∉ mentionedOptional increment ∧ n ∉ mentionedAll body
  | .list body rest => n ∉ mentionedAll body ∧ n ∉ mentionedAll rest

section Omission

variable {limit : Nat} {n : String}

theorem not_mem_after {label : String} {body found : List Stmt} (h : after? label body = some found)
    (hn : n ∉ mentionedAll body) : n ∉ mentionedAll found := by
  induction body with
  | nil => cases h
  | cons stmt body ih =>
    have hrest : n ∉ mentionedAll body := fun hm => hn (List.mem_append_right _ hm)
    rw [after?] at h
    split at h
    · cases h
      exact hrest
    · exact ih h hrest

theorem omits_conditional {condition : Expr} {thenBody elseBody : List Stmt} :
    (Task.stmt (.conditional condition thenBody elseBody)).Omits n ↔ n ∉ condition.idents ∧
      (Task.list thenBody thenBody).Omits n ∧ (Task.list elseBody elseBody).Omits n := by
  simp only [Task.Omits, mentioned, List.mem_append, not_or, and_self, and_assoc]

theorem omits_iteration {init increment : Option Stmt} {test : Expr} {body : List Stmt} :
    (Task.stmt (.iteration init test increment body)).Omits n ↔
      (Task.optional init).Omits n ∧ (Task.passes test increment body).Omits n := by
  simp only [Task.Omits, mentioned, List.mem_append, not_or, and_assoc]

theorem omits_cons {body rest : List Stmt} {stmt : Stmt} :
    (Task.list body (stmt :: rest)).Omits n ↔
      (Task.stmt stmt).Omits n ∧ (Task.list body rest).Omits n := by
  simp only [Task.Omits, mentionedAll, List.mem_append, not_or]
  exact and_left_comm

/-- A task that does not mention `n` ends in the same way whatever `n` holds. -/
theorem Ends.apart {task : Task} {s : State} {o : Outcome} (h : Ends limit task s o)
    (ho : o.1 ≠ .error .stepLimit) (hn : task.Omits n) {s' : State} (hs : Apart n s s') :
    ∃ t', Ends limit task s' (o.1, t') ∧ Apart n o.2 t' := by
  have hok : ∀ flow : Flow, (Except.ok flow : Except Fault Flow) ≠ .error .stepLimit :=
    fun _ h => nomatch h
  induction h generalizing s' with
  | @plain stmt s hplain =>
    obtain ⟨hsame, hapart⟩ := hs.run_plain limit hplain hn
    refine ⟨_, ?_, hapart⟩
    rw [← hsame]
    exact .plain hplain
  | conditionFault hc =>
    rw [← hs.truth (omits_conditional.1 hn).1] at hc
    exact ⟨s', .conditionFault hc, hs⟩
  | thenBranch hc _ ih =>
    obtain ⟨hcondition, hthen, _⟩ := omits_conditional.1 hn
    rw [← hs.truth hcondition] at hc
    obtain ⟨t', hends, hapart⟩ := ih ho hthen hs
    exact ⟨t', .thenBranch hc hends, hapart⟩
  | elseBranch hc _ ih =>
    obtain ⟨hcondition, _, helse⟩ := omits_conditional.1 hn
    rw [← hs.truth hcondition] at hc
    obtain ⟨t', hends, hapart⟩ := ih ho helse hs
    exact ⟨t', .elseBranch hc hends, hapart⟩
  | initFault _ ih =>
    obtain ⟨t', hends, hapart⟩ := ih ho (omits_iteration.1 hn).1 hs
    exact ⟨t', .initFault hends, hapart⟩
  | iteration _ _ ihinit ihpasses =>
    obtain ⟨hinit, hpasses⟩ := omits_iteration.1 hn
    obtain ⟨t', hends, hapart⟩ := ihinit (hok _) hinit hs
    obtain ⟨u', hends', hapart'⟩ := ihpasses ho hpasses hapart
    exact ⟨u', .iteration hends hends', hapart'⟩
  | absent => exact ⟨s', .absent, hs⟩
  | present _ ih =>
    obtain ⟨t', hends, hapart⟩ := ih ho hn hs
    exact ⟨t', .present hends, hapart⟩
  | spent => exact absurd rfl ho
  | testFault h htest =>
    rw [← hs.truth hn.1] at htest
    exact ⟨s'.ticked, .testFault (Nat.lt_of_le_of_lt hs.steps h) htest, hs.ticked⟩
  | stop h htest =>
    rw [← hs.truth hn.1] at htest
    exact ⟨s'.ticked, .stop (Nat.lt_of_le_of_lt hs.steps h) htest, hs.ticked⟩
  | bodyFault h htest _ ih =>
    rw [← hs.truth hn.1] at htest
    obtain ⟨t', hends, hapart⟩ := ih ho ⟨hn.2.2, hn.2.2⟩ hs.ticked
    exact ⟨t', .bodyFault (Nat.lt_of_le_of_lt hs.steps h) htest hends, hapart⟩
  | leave h htest _ hflow ih =>
    rw [← hs.truth hn.1] at htest
    obtain ⟨t', hends, hapart⟩ := ih (hok _) ⟨hn.2.2, hn.2.2⟩ hs.ticked
    exact ⟨t', .leave (Nat.lt_of_le_of_lt hs.steps h) htest hends hflow, hapart⟩
  | nextFault h htest _ _ ihbody ihnext =>
    rw [← hs.truth hn.1] at htest
    obtain ⟨t', hends, hapart⟩ := ihbody (hok _) ⟨hn.2.2, hn.2.2⟩ hs.ticked
    obtain ⟨u', hends', hapart'⟩ := ihnext ho hn.2.1 hapart
    exact ⟨u', .nextFault (Nat.lt_of_le_of_lt hs.steps h) htest hends hends', hapart'⟩
  | again h htest _ _ _ ihbody ihnext ihagain =>
    rw [← hs.truth hn.1] at htest
    obtain ⟨t', hends, hapart⟩ := ihbody (hok _) ⟨hn.2.2, hn.2.2⟩ hs.ticked
    obtain ⟨u', hends', hapart'⟩ := ihnext (hok _) hn.2.1 hapart
    obtain ⟨v', hends'', hapart''⟩ := ihagain ho hn hapart'
    exact ⟨v', .again (Nat.lt_of_le_of_lt hs.steps h) htest hends hends' hends'', hapart''⟩
  | done => exact ⟨s', .done, hs⟩
  | fault _ ih =>
    obtain ⟨t', hends, hapart⟩ := ih ho (omits_cons.1 hn).1 hs
    exact ⟨t', .fault hends, hapart⟩
  | next _ _ ihstmt ihrest =>
    obtain ⟨hstmt, hrest⟩ := omits_cons.1 hn
    obtain ⟨t', hends, hapart⟩ := ihstmt (hok _) hstmt hs
    obtain ⟨u', hends', hapart'⟩ := ihrest ho hrest hapart
    exact ⟨u', .next hends hends', hapart'⟩
  | out _ hflow hgoto ih =>
    obtain ⟨t', hends, hapart⟩ := ih (hok _) (omits_cons.1 hn).1 hs
    exact ⟨t', .out hends hflow hgoto, hapart⟩
  | stranded => exact absurd rfl ho
  | jump _ hfound h _ ihstmt ihjump =>
    obtain ⟨t', hends, hapart⟩ := ihstmt (hok _) (omits_cons.1 hn).1 hs
    obtain ⟨u', hends', hapart'⟩ := ihjump ho ⟨hn.1, not_mem_after hfound hn.1⟩ hapart.ticked
    exact ⟨u', .jump hends hfound (Nat.lt_of_le_of_lt hapart.steps h) hends', hapart'⟩

end Omission

end StructuredBasic.Machine
