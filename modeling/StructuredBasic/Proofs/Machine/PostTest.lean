import StructuredBasic.Lowering.Loops
import StructuredBasic.Proofs.Machine.Apart

/-!
# Loops that test after their body

`PostTest` is a loop that runs its body first, and after each pass that ends normally evaluates its
test and goes on while the test is true. The loop with a latch that stands for it in lowered code
ends in the same way, with the same locals but for the latch (`exec_postTestLoop`).
-/

set_option autoImplicit false

namespace StructuredBasic.Machine

open Target (Expr Stmt)
open Target.Stmt (mentionedAll)
open Lowering (postTestLoop)

/-! ## The loop -/

/-- The loop from the state comes to the outcome. Only a pass that ends normally is followed by the
test, and only a test that is true by another pass. -/
inductive PostTest (limit : Nat) (test : Expr) (body : List Stmt) : State → Outcome → Prop
  | bodyFault {s t : State} {fault : Fault}
      (hbody : (Run.block limit (actions limit body)).run s = (.error fault, t)) :
      PostTest limit test body s (.error fault, t)
  | leave {s t : State} {flow : Flow}
      (hbody : (Run.block limit (actions limit body)).run s = (.ok flow, t))
      (hflow : flow ≠ .normal) : PostTest limit test body s (.ok flow.outOfLoop, t)
  | testFault {s t : State} {fault : Fault}
      (hbody : (Run.block limit (actions limit body)).run s = (.ok .normal, t))
      (htest : truth t.locals test = .error fault) : PostTest limit test body s (.error fault, t)
  | stop {s t : State} (hbody : (Run.block limit (actions limit body)).run s = (.ok .normal, t))
      (htest : truth t.locals test = .ok false) : PostTest limit test body s (.ok .normal, t)
  | again {s t : State} {o : Outcome}
      (hbody : (Run.block limit (actions limit body)).run s = (.ok .normal, t))
      (htest : truth t.locals test = .ok true) (hagain : PostTest limit test body t o) :
      PostTest limit test body s o

section Loops

variable {limit : Nat} {test : Expr} {body : List Stmt} {s : State} {o o' : Outcome}

/-- What follows a pass that ended normally, given the truth of the test. -/
def PostTest.Continues (limit : Nat) (test : Expr) (body : List Stmt) (s : State) (o : Outcome) :
    Except Fault Bool → Prop
  | .error fault => o = (.error fault, s)
  | .ok false => o = (.ok .normal, s)
  | .ok true => PostTest limit test body s o

/-- The body runs first, and the test only after a pass that ended normally. -/
theorem postTest_iff : PostTest limit test body s o ↔
    match (Run.block limit (actions limit body)).run s with
    | (.error fault, t) => o = (.error fault, t)
    | (.ok .normal, t) => PostTest.Continues limit test body t o (truth t.locals test)
    | (.ok flow, t) => o = (.ok flow.outOfLoop, t) := by
  constructor
  · intro h
    cases h with
    | bodyFault hbody => rw [hbody]
    | leave hbody hflow =>
      rw [hbody]
      split
      · next heq => cases heq
      · next heq => cases heq; exact absurd rfl hflow
      · next heq => cases heq; rfl
    | testFault hbody htest => rw [hbody]; dsimp only; rw [htest]; rfl
    | stop hbody htest => rw [hbody]; dsimp only; rw [htest]; rfl
    | again hbody htest hagain => rw [hbody]; dsimp only; rw [htest]; exact hagain
  · split
    · next fault t hbody =>
      rintro rfl
      exact .bodyFault hbody
    · next t hbody =>
      intro h
      match htest : truth t.locals test with
      | .error fault =>
        rw [htest] at h
        exact h ▸ .testFault hbody htest
      | .ok false =>
        rw [htest] at h
        exact h ▸ .stop hbody htest
      | .ok true =>
        rw [htest] at h
        exact .again hbody htest h
    · next flow t hflow hbody =>
      rintro rfl
      exact .leave hbody hflow

/-- The loop comes to one outcome. -/
theorem PostTest.unique (h : PostTest limit test body s o) (h' : PostTest limit test body s o') :
    o' = o := by
  induction h with
  | bodyFault hbody =>
    rw [postTest_iff, hbody] at h'
    exact h'
  | @leave s t flow hbody hflow =>
    rw [postTest_iff, hbody] at h'
    cases flow with
    | normal => exact absurd rfl hflow
    | breaks => exact h'
    | returns => exact h'
    | goto => exact h'
  | testFault hbody htest =>
    rw [postTest_iff, hbody] at h'
    dsimp only at h'
    rw [htest] at h'
    exact h'
  | stop hbody htest =>
    rw [postTest_iff, hbody] at h'
    dsimp only at h'
    rw [htest] at h'
    exact h'
  | again hbody htest _ ih =>
    rw [postTest_iff, hbody] at h'
    dsimp only at h'
    rw [htest] at h'
    exact ih h'

end Loops

/-! ## A body with an assignment behind it -/

section Lists

variable {limit : Nat} {body : List Stmt} {last : Stmt}

theorem after_append {label : String} (hlast : labelOf? last = none) :
    after? label (body ++ [last]) = (after? label body).map (· ++ [last]) := by
  induction body with
  | nil => simp [after?, hlast]
  | cons stmt body ih =>
    rw [List.cons_append, after?, after?, ih]
    split <;> rfl

/-- A list ends as the part in front of its last statement does, unless that part ends normally. -/
theorem Ends.of_append {rest : List Stmt} {s : State} {o : Outcome} (hlast : labelOf? last = none)
    (h : Ends limit (.list (body ++ [last]) (rest ++ [last])) s o)
    (ho : o.1 ≠ .error .stepLimit) :
    ∃ o', Ends limit (.list body rest) s o' ∧ (o'.1 ≠ .ok .normal ∧ o = o' ∨
      o'.1 = .ok .normal ∧ Ends limit (.list (body ++ [last]) [last]) o'.2 o) := by
  generalize htask : Task.list (body ++ [last]) (rest ++ [last]) = task at h
  induction h generalizing rest with
  | done => cases rest <;> cases htask
  | stranded => exact absurd rfl ho
  | fault hstmt =>
    cases rest with
    | nil =>
      cases htask
      exact ⟨_, .done, Or.inr ⟨rfl, .fault hstmt⟩⟩
    | cons stmt rest =>
      cases htask
      exact ⟨_, .fault hstmt, Or.inl ⟨fun h => (nomatch h), rfl⟩⟩
  | next hstmt hrest _ ih =>
    cases rest with
    | nil =>
      cases htask
      exact ⟨_, .done, Or.inr ⟨rfl, .next hstmt hrest⟩⟩
    | cons stmt rest =>
      cases htask
      obtain ⟨o', hends, hcase⟩ := ih ho rfl
      exact ⟨o', .next hstmt hends, hcase⟩
  | out hstmt hflow hgoto =>
    cases rest with
    | nil =>
      cases htask
      exact ⟨_, .done, Or.inr ⟨rfl, .out hstmt hflow hgoto⟩⟩
    | cons stmt rest =>
      cases htask
      refine ⟨_, .out hstmt hflow fun label hlabel => ?_, Or.inl ⟨fun h => ?_, rfl⟩⟩
      · have hnone := hgoto label hlabel
        rw [after_append hlast, Option.map_eq_none_iff] at hnone
        exact hnone
      · cases h
        exact hflow rfl
  | jump hstmt hfound hlt hjump _ ih =>
    cases rest with
    | nil =>
      cases htask
      exact ⟨_, .done, Or.inr ⟨rfl, .jump hstmt hfound hlt hjump⟩⟩
    | cons stmt rest =>
      cases htask
      rw [after_append hlast, Option.map_eq_some_iff] at hfound
      obtain ⟨found, hfound, rfl⟩ := hfound
      obtain ⟨o', hends, hcase⟩ := ih ho rfl
      exact ⟨o', .jump hstmt hfound hlt hends, hcase⟩
  | _ => cases htask

theorem Ends.of_plain {stmt : Stmt} {s : State} {o : Outcome} (h : Ends limit (.stmt stmt) s o)
    (hplain : isBlock stmt = false) : o = (exec limit stmt).run s := by
  cases h with
  | plain => rfl
  | _ => cases hplain

/-- Behind an assignment that stands last a list is at its end. -/
theorem Ends.of_assign {name : String} {e : Expr} {s : State} {o : Outcome}
    (h : Ends limit (.list body [.assign (.ident name) e]) s o) :
    o = (exec limit (.assign (.ident name) e)).run s := by
  have hnormal : ∀ {flow t}, Ends limit (.stmt (.assign (.ident name) e)) s (.ok flow, t) →
      flow = .normal := by
    intro flow t hstmt
    have hrun := hstmt.of_plain rfl
    rw [run_assign] at hrun
    split at hrun
    · cases hrun
    · split at hrun <;> cases hrun
      rfl
  cases h with
  | fault hstmt => exact hstmt.of_plain rfl
  | next hstmt hrest =>
    cases hrest
    exact hstmt.of_plain rfl
  | out hstmt hflow => exact absurd (hnormal hstmt) hflow
  | stranded hstmt => cases hnormal hstmt
  | jump hstmt => cases hnormal hstmt

end Lists

/-! ## Passes of the loop with a latch -/

section Passes

variable {limit : Nat} {test : Expr} {body : List Stmt} {latch : String} {s s' : State}
  {o : Outcome}

theorem Ends.declared (h : Ends limit (.list body body) s o) (hs : s.steps ≤ limit)
    (hdeclared : (s.locals.get? latch).isSome = true) (ho : o.1 = .ok .normal) :
    (o.2.locals.get? latch).isSome = true := by
  have hsat := sat_covered limit body (coveredList_true latch body) s fun _ => hdeclared
  rw [run_block_of_gives (h.agrees hs)] at hsat
  obtain ⟨result, t⟩ := o
  cases ho
  exact hsat rfl

/-- A pass of the body with the latch behind it, beside a pass of the body alone. -/
theorem Ends.pass
    (h : Ends limit (.list (body ++ [.assign (.ident latch) test])
      (body ++ [.assign (.ident latch) test])) s o) (ho : o.1 ≠ .error .stepLimit)
    (hbody : latch ∉ mentionedAll body) (htest : latch ∉ test.idents) (hs : s.steps ≤ limit)
    (hdeclared : (s.locals.get? latch).isSome = true) (happ : Apart latch s s') :
    (∃ t', (Run.block limit (actions limit body)).run s' = (o.1, t') ∧ o.1 ≠ .ok .normal ∧
      Apart latch o.2 t') ∨
    ∃ t t', (Run.block limit (actions limit body)).run s' = (.ok .normal, t') ∧
      Apart latch t t' ∧ o = match eval t'.locals test with
        | .error reason => (.error reason, t)
        | .ok v => (.ok .normal, { t with locals := t.locals.put latch v }) := by
  have hs' : s'.steps ≤ limit := Nat.le_trans happ.steps hs
  obtain ⟨⟨result, t⟩, hends, ⟨hne, rfl⟩ | ⟨heq, hlast⟩⟩ := h.of_append rfl ho
  · obtain ⟨t', hends', hapart⟩ := hends.apart ho ⟨hbody, hbody⟩ happ
    exact Or.inl ⟨t', run_block_of_gives (hends'.agrees hs'), hne, hapart⟩
  · cases heq
    obtain ⟨t', hends', hapart⟩ := hends.apart (fun h => nomatch h) ⟨hbody, hbody⟩ happ
    refine Or.inr ⟨t, t', run_block_of_gives (hends'.agrees hs'), hapart, ?_⟩
    obtain ⟨old, hold⟩ := Option.isSome_iff_exists.1 (hends.declared hs hdeclared rfl)
    rw [hlast.of_assign, run_assign, hapart.eval htest]
    cases eval t.locals test with
    | error reason => rfl
    | ok v =>
      dsimp only at hold
      rw [hold]

theorem truth_ident {locals : Locals} {name : String} {v : Value} (h : locals.get? name = some v) :
    truth locals (.ident name) = v.truth := by
  rw [truth, eval, h]
  rfl

/-- The passes that are still to come go on as the loop that tests after its body does, whose test
gave the value of the latch. -/
theorem Ends.continues
    (h : Ends limit (.passes (.ident latch) none (body ++ [.assign (.ident latch) test])) s o)
    (ho : o.1 ≠ .error .stepLimit) (hbody : latch ∉ mentionedAll body)
    (htest : latch ∉ test.idents) {v : Value} (hv : s.locals.get? latch = some v)
    (happ : Apart latch s s') :
    ∃ t', PostTest.Continues limit test body s' (o.1, t') v.truth ∧ Apart latch o.2 t' := by
  have declared : ∀ {s : State} {v : Value}, s.locals.get? latch = some v →
      (s.ticked.locals.get? latch).isSome = true := fun h => Option.isSome_of_eq_some h
  generalize htask :
    Task.passes (.ident latch) none (body ++ [.assign (.ident latch) test]) = task at h
  induction h generalizing s' v with
  | spent => exact absurd rfl ho
  | testFault hlt hfault =>
    cases htask
    rw [truth_ident hv] at hfault
    rw [hfault]
    exact ⟨s', rfl, (Apart.of_ticked latch _).trans happ⟩
  | stop hlt hfalse =>
    cases htask
    rw [truth_ident hv] at hfalse
    rw [hfalse]
    exact ⟨s', rfl, (Apart.of_ticked latch _).trans happ⟩
  | bodyFault hlt htrue hpass =>
    cases htask
    rw [truth_ident hv] at htrue
    rw [htrue]
    rcases hpass.pass ho hbody htest hlt (declared hv) ((Apart.of_ticked latch _).trans happ) with
      ⟨t', hrun, _, hapart⟩ | ⟨t, t', hrun, hapart, heq⟩
    · exact ⟨t', .bodyFault hrun, hapart⟩
    · split at heq
      · next hvalue =>
        cases heq
        exact ⟨t', .testFault hrun (by rw [truth, hvalue]; rfl), hapart⟩
      · cases heq
  | leave hlt htrue hpass hflow =>
    cases htask
    rw [truth_ident hv] at htrue
    rw [htrue]
    rcases hpass.pass (by simp) hbody htest hlt (declared hv)
      ((Apart.of_ticked latch _).trans happ) with
      ⟨t', hrun, _, hapart⟩ | ⟨t, t', hrun, hapart, heq⟩
    · exact ⟨t', .leave hrun hflow, hapart⟩
    · split at heq <;> cases heq
      exact absurd rfl hflow
  | nextFault _ _ _ hnext =>
    cases htask
    cases hnext
  | again hlt htrue hpass hnext _ _ _ ih =>
    cases htask
    cases hnext
    rw [truth_ident hv] at htrue
    rw [htrue]
    rcases hpass.pass (by simp) hbody htest hlt (declared hv)
      ((Apart.of_ticked latch _).trans happ) with
      ⟨t', hrun, hne, _⟩ | ⟨t, t', hrun, hapart, heq⟩
    · exact absurd rfl hne
    · split at heq
      · cases heq
      · next w hvalue =>
        cases heq
        have hlatch : (t.locals.put latch w).get? latch = some w := by
          rw [Locals.get?_put, if_pos rfl]
        obtain ⟨u, hcontinues, hapart'⟩ :=
          ih ho hlatch ((Apart.of_put latch t w).trans hapart) rfl
        have htruth : truth t'.locals test = w.truth := by
          rw [truth, hvalue]
          rfl
        refine ⟨u, postTest_iff.2 ?_, hapart'⟩
        rw [hrun]
        dsimp only
        rw [htruth]
        exact hcontinues
  | _ => cases htask

theorem exec_postTestLoop_spent (hs : limit < s.steps) :
    ((exec limit (postTestLoop latch test body)).run s).1 = .error .stepLimit := by
  have hinit : (execOptional limit
      (some (.declare latch (.primitive .bool) (some (.bool true))))).run s =
      (.ok (), { s with locals := s.locals.put latch (.bool true) }) := rfl
  exact exec_iteration_spent hinit hs

/-- A loop with a latch that neither its body nor its test mentions ends as the loop that tests
after its body does, with the same locals but for the latch. -/
theorem exec_postTestLoop (hbody : latch ∉ mentionedAll body) (htest : latch ∉ test.idents)
    (h : (exec limit (postTestLoop latch test body)).run s = o) (ho : o.1 ≠ .error .stepLimit) :
    ∃ o', PostTest limit test body s o' ∧ o'.1 = o.1 ∧
      ∀ x, x ≠ latch → o'.2.locals.get? x = o.2.locals.get? x := by
  have hs : s.steps ≤ limit := Nat.le_of_not_lt fun hlt => by
    rw [← h] at ho
    exact ho (exec_postTestLoop_spent hlt)
  obtain ⟨o'', hends⟩ := exists_ends limit (.stmt (postTestLoop latch test body)) s hs
  obtain rfl : o'' = o := (hends.agrees hs).symm.trans h
  cases hends with
  | plain hplain => cases hplain
  | initFault hinit =>
    cases hinit with
    | present hdeclare => cases hdeclare.of_plain rfl
  | iteration hinit hpasses =>
    cases hinit with
    | present hdeclare =>
      cases hdeclare.of_plain rfl
      have hlatch : (s.locals.put latch (.bool true)).get? latch = some (.bool true) := by
        rw [Locals.get?_put, if_pos rfl]
      obtain ⟨t', hloop, hapart⟩ :=
        hpasses.continues ho hbody htest hlatch (Apart.of_put latch s _)
      exact ⟨_, hloop, rfl, hapart.locals⟩

end Passes

end StructuredBasic.Machine
