import StructuredBasic.Proofs.Machine.Departures
import StructuredBasic.Proofs.Machine.Numbers

/-!
# Loops that count

`Reaches limit loop s k r` says that a loop from `s` tests in `r` when `k` passes have ended
normally, and `Finishes limit loop r o` how it ends at a test that is its last (`Ends.last_test`). A
loop that counts `i` from `l` in steps of `d`, whose body gives `i` no value, holds `l + k * d` at
the test number `k` (`Reaches.holds`). If its passes end normally or break, and the values of `i`
stay where comparing floats is comparing integers, the number of passes follows from the bounds and
the step (`exec_countedLoop`).
-/

set_option autoImplicit false

namespace StructuredBasic.Target.Stmt

/-- The local that a statement by itself gives a value. -/
def written? : Stmt → Option String
  | .declare name _ _ => some name
  | .assign (.ident name) _ => some name
  | _ => none

end StructuredBasic.Target.Stmt

namespace StructuredBasic.Machine

open Target (Expr Stmt)
open Target.Stmt (atomsAll)
open Lowering (countedLoop)

/-! ## Locals without a new value -/

section Frame

variable {limit : Nat} {i : String} {s : State}

theorem run_plain_spares {stmt : Stmt} (h : isBlock stmt = false) (hi : stmt.written? ≠ some i) :
    ((exec limit stmt).run s).2.locals.get? i = s.locals.get? i := by
  have hput : ∀ {name : String} {v : Value}, name ≠ i →
      (s.locals.put name v).get? i = s.locals.get? i := by
    intro name v hne
    rw [Locals.get?_put, if_neg hne]
  cases stmt with
  | declare name type init =>
    have hne : name ≠ i := fun heq => hi (congrArg some heq)
    cases init with
    | none =>
      rw [run_declare_bare]
      exact hput hne
    | some e =>
      rw [run_declare]
      cases eval s.locals e with
      | error fault => rfl
      | ok v => exact hput hne
  | assign target source =>
    cases target with
    | ident name =>
      have hne : name ≠ i := fun heq => hi (congrArg some heq)
      rw [run_assign]
      cases eval s.locals source with
      | error fault => rfl
      | ok v =>
        dsimp only
        cases s.locals.get? name with
        | none => rfl
        | some old => exact hput hne
    | _ => rfl
  | conditional => cases h
  | iteration => cases h
  | expression e => rw [run_expression]
  | returns value => rw [run_return]
  | goto => rfl
  | breaks => rfl
  | label => rfl
  | comment => rfl

/-- A task whose text gives a local no value leaves it as it is. -/
theorem Ends.spares {task : Task} {o : Outcome} (h : Ends limit task s o)
    (hi : ∀ stmt ∈ task.atoms, stmt.written? ≠ some i) :
    o.2.locals.get? i = s.locals.get? i := by
  refine h.preserves (P := fun t => t.locals.get? i = s.locals.get? i) (fun _ ht => ht) ?_ rfl
  intro stmt hmem hplain t ht
  rw [run_plain_spares hplain (hi stmt hmem), ht]

end Frame

/-! ## The passes of a loop -/

section Passes

/-- A loop behind its first statement. -/
structure Loop where
  test : Expr
  increment : Option Stmt
  body : List Stmt

variable {limit : Nat} {loop : Loop}

/-- A pass from the state comes to the outcome. -/
structure Pass (limit : Nat) (loop : Loop) (s : State) (o : Outcome) : Prop where
  left : s.steps < limit
  holds : truth s.locals loop.test = .ok true
  run : (Run.block limit (actions limit loop.body)).run s.ticked = o

/-- The loop from the first state tests in the second one when `k` passes have ended normally. -/
inductive Reaches (limit : Nat) (loop : Loop) : State → Nat → State → Prop
  | here {s : State} : Reaches limit loop s 0 s
  | again {s t u r : State} {k : Nat} (hpass : Pass limit loop s (.ok .normal, t))
      (hnext : (execOptional limit loop.increment).run t = (.ok (), u))
      (h : Reaches limit loop u k r) :
      Reaches limit loop s (k + 1) r

/-- How a loop ends at a test that is its last. -/
inductive Finishes (limit : Nat) (loop : Loop) (r : State) : Outcome → Prop
  | testFault {fault : Fault} (h : truth r.locals loop.test = .error fault) :
      Finishes limit loop r (.error fault, r.ticked)
  | stop (h : truth r.locals loop.test = .ok false) :
      Finishes limit loop r (.ok .normal, r.ticked)
  | bodyFault {fault : Fault} {t : State} (hpass : Pass limit loop r (.error fault, t)) :
      Finishes limit loop r (.error fault, t)
  | leave {flow : Flow} {t : State} (hpass : Pass limit loop r (.ok flow, t))
      (hflow : flow ≠ .normal) : Finishes limit loop r (.ok flow.outOfLoop, t)
  | nextFault {fault : Fault} {t u : State} (hpass : Pass limit loop r (.ok .normal, t))
      (hnext : (execOptional limit loop.increment).run t = (.error fault, u)) :
      Finishes limit loop r (.error fault, u)

theorem Pass.of_ends {s : State} {o : Outcome} (hlt : s.steps < limit)
    (htest : truth s.locals loop.test = .ok true)
    (h : Ends limit (.list loop.body loop.body) s.ticked o) :
    Pass limit loop s o :=
  ⟨hlt, htest, run_block_of_gives (h.agrees hlt)⟩

theorem Pass.ends {s : State} {o : Outcome} (h : Pass limit loop s o) :
    Ends limit (.list loop.body loop.body) s.ticked o := by
  have hlt : s.ticked.steps ≤ limit := h.left
  obtain ⟨o', hends⟩ := exists_ends limit (.list loop.body loop.body) s.ticked hlt
  obtain rfl : o = o' := h.run.symm.trans (run_block_of_gives (hends.agrees hlt))
  exact hends

/-- A loop within the limit ends at a test that it reaches. -/
theorem Ends.last_test {s : State} {o : Outcome}
    (h : Ends limit (.passes loop.test loop.increment loop.body) s o)
    (ho : o.1 ≠ .error .stepLimit) :
    ∃ n r, Reaches limit loop s n r ∧ Finishes limit loop r o := by
  generalize htask : Task.passes loop.test loop.increment loop.body = task at h
  induction h with
  | spent => exact absurd rfl ho
  | testFault _ htest =>
    cases htask
    exact ⟨0, _, .here, .testFault htest⟩
  | stop _ htest =>
    cases htask
    exact ⟨0, _, .here, .stop htest⟩
  | bodyFault hlt htest hbody =>
    cases htask
    exact ⟨0, _, .here, .bodyFault (.of_ends hlt htest hbody)⟩
  | leave hlt htest hbody hflow =>
    cases htask
    exact ⟨0, _, .here, .leave (.of_ends hlt htest hbody) hflow⟩
  | nextFault hlt htest hbody hnext =>
    cases htask
    exact ⟨0, _, .here, .nextFault (.of_ends hlt htest hbody) (hnext.agrees (hbody.within hlt).2)⟩
  | again hlt htest hbody hnext _ _ _ ih =>
    cases htask
    obtain ⟨n, r, hreaches, hfinishes⟩ := ih ho rfl
    have hcount := hnext.agrees (hbody.within hlt).2
    exact ⟨n + 1, r, .again (.of_ends hlt htest hbody) hcount hreaches, hfinishes⟩
  | _ => cases htask

/-- The last pass in front of a test that is not the first. -/
theorem Reaches.last_pass {s r : State} {k : Nat}
    (h : Reaches limit loop s (k + 1) r) :
    ∃ q t, Reaches limit loop s k q ∧ Pass limit loop q (.ok .normal, t) := by
  generalize hn : k + 1 = n at h
  induction h generalizing k with
  | here => cases hn
  | @again s t u r m hpass hnext hreaches ih =>
    cases hn
    cases m with
    | zero => exact ⟨s, t, .here, hpass⟩
    | succ m =>
      obtain ⟨q, t', hq, hpass'⟩ := ih rfl
      exact ⟨q, t', .again hpass hnext hq, hpass'⟩

end Passes

/-! ## Counting -/

/-- The local holds the integer. -/
def Holds (i : String) (n : Int) (s : State) : Prop :=
  ∃ v : Int64, s.locals.get? i = some (.int v) ∧ v.toInt = n

/-- The loop that tests whether a local is within a bound, and counts it on behind each pass. -/
def counting (i : String) (upper step : Expr) (body : List Stmt) : Loop where
  test := .binary .lessEqual (.ident i) upper
  increment := some (.assign (.ident i) (.binary .add (.ident i) step))
  body := body

section Counting

variable {limit : Nat} {i : String} {upper step : Expr} {body : List Stmt} {u d : Int64} {n : Int}
  {s t r : State} {o : Outcome} {k : Nat}

theorem Holds.put {locals : Locals} {v : Int64} (steps : Nat) (hv : v.toInt = n) :
    Holds i n ⟨locals.put i (.int v), steps⟩ :=
  ⟨v, by rw [Locals.get?_put, if_pos rfl], hv⟩

theorem Holds.unique {m : Int} (h : Holds i m s) (h' : Holds i n s) : m = n := by
  obtain ⟨v, hget, rfl⟩ := h
  obtain ⟨w, hget', rfl⟩ := h'
  rw [hget] at hget'
  cases hget'
  rfl

theorem Holds.eval_ident (h : Holds i n s) :
    ∃ v : Int64, eval s.locals (.ident i) = .ok (.int v) ∧ v.toInt = n := by
  obtain ⟨v, hget, hv⟩ := h
  refine ⟨v, ?_, hv⟩
  rw [eval, hget]

/-- Between integers that are floats, a test compares the integers. -/
theorem truth_lessEqual {locals : Locals} {left right : Expr} {a b : Int64}
    (hleft : eval locals left = .ok (.int a)) (hright : eval locals right = .ok (.int b))
    (ha : a.toInt.natAbs ≤ 2 ^ 53) (hb : b.toInt.natAbs ≤ 2 ^ 53) :
    truth locals (.binary .lessEqual left right) = .ok (decide (a.toInt ≤ b.toInt)) := by
  rw [truth, eval, hleft, hright]
  show ((binary .lessEqual (.int a) (.int b)).bind fun v => v.truth) = _
  rw [lessEqual_int ha hb]
  rfl

theorem truth_counting (h : Holds i n s) (hupper : ∀ locals, eval locals upper = .ok (.int u))
    (hn : n.natAbs ≤ 2 ^ 53) (hu : u.toInt.natAbs ≤ 2 ^ 53) :
    truth s.locals (counting i upper step body).test = .ok (decide (n ≤ u.toInt)) := by
  obtain ⟨v, hv, rfl⟩ := h.eval_ident
  exact truth_lessEqual hv (hupper _) hn hu

/-- A pass starts with a value within the bound. -/
theorem Pass.within (h : Pass limit (counting i upper step body) s o) (hs : Holds i n s)
    (hupper : ∀ locals, eval locals upper = .ok (.int u)) (hn : n.natAbs ≤ 2 ^ 53)
    (hu : u.toInt.natAbs ≤ 2 ^ 53) : n ≤ u.toInt := by
  have htest := h.holds
  rw [truth_counting hs hupper hn hu] at htest
  exact of_decide_eq_true (Except.ok.inj htest)

/-- The count adds the step, or stops the run where the sum does not fit. -/
theorem run_counting (h : Holds i n t) (hstep : ∀ locals, eval locals step = .ok (.int d)) :
    (execOptional limit (counting i upper step body).increment).run t =
      match word? (n + d.toInt) with
      | some w => (.ok (), { t with locals := t.locals.put i (.int w) })
      | none => (.error .overflow, t) := by
  obtain ⟨v, hget, rfl⟩ := h
  have hident : eval t.locals (.ident i) = .ok (.int v) := by rw [eval, hget]
  have hsum : eval t.locals (.binary .add (.ident i) step) = fit (v.toInt + d.toInt) := by
    rw [eval, hident, hstep]
    rfl
  show (execOptional limit (some (.assign (.ident i) (.binary .add (.ident i) step)))).run t = _
  rw [execOptional, Run.run_bind, run_assign, hsum, hget, fit]
  cases word? (v.toInt + d.toInt) <;> rfl

theorem Holds.counts_on (h : Holds i n t) (hstep : ∀ locals, eval locals step = .ok (.int d))
    (hrun : (execOptional limit (counting i upper step body).increment).run t = (.ok (), r)) :
    Holds i (n + d.toInt) r := by
  rw [run_counting h hstep] at hrun
  cases hword : word? (n + d.toInt) with
  | none =>
    rw [hword] at hrun
    cases hrun
  | some w =>
    rw [hword] at hrun
    cases hrun
    exact .put _ (word?_eq_some_iff.1 hword)

/-- A pass whose body gives the local no value leaves it as it is. -/
theorem Pass.holds_on {loop : Loop} (h : Pass limit loop s o)
    (hbody : ∀ stmt ∈ atomsAll loop.body, stmt.written? ≠ some i) (hs : Holds i n s) :
    Holds i n o.2 := by
  obtain ⟨v, hget, hv⟩ := hs
  refine ⟨v, ?_, hv⟩
  rw [h.ends.spares fun stmt hmem => hbody stmt (atoms_whole _ hmem)]
  exact hget

/-- At the test number `k` the local holds its first value and `k` steps. -/
theorem Reaches.holds (h : Reaches limit (counting i upper step body) s k r)
    (hbody : ∀ stmt ∈ atomsAll body, stmt.written? ≠ some i)
    (hstep : ∀ locals, eval locals step = .ok (.int d)) (hs : Holds i n s) :
    Holds i (n + k * d.toInt) r := by
  induction h generalizing n with
  | here =>
    have hzero : n + (0 : Nat) * d.toInt = n := by simp
    rw [hzero]
    exact hs
  | @again s t u r k hpass hnext _ ih =>
    have hsum : n + (k + 1 : Nat) * d.toInt = n + d.toInt + k * d.toInt := by
      push_cast
      ring
    rw [hsum]
    exact ih ((hpass.holds_on hbody hs).counts_on hstep hnext)

/-- The number of passes from `l` up to `u` in steps of `d`. -/
def passCount (l u d : Int) : Int := max 0 ((u - l) / d + 1)

/-- The first number of steps that leads beyond the bound is the number of passes. -/
theorem eq_passCount {l u d : Int} (hd : 0 < d) (hbeyond : u < l + k * d)
    (hbefore : ∀ j : Nat, k = j + 1 → l + j * d ≤ u) : (k : Int) = passCount l u d := by
  have hfloor := Int.mul_ediv_self_le (x := u - l) (k := d) (by omega)
  have hceil := Int.lt_mul_ediv_self_add (x := u - l) hd
  have hleast : (u - l) / d < k := by
    apply Int.lt_of_mul_lt_mul_left (a := d) _ hd.le
    have hcomm : d * (k : Int) = k * d := Int.mul_comm _ _
    omega
  unfold passCount
  cases k with
  | zero => omega
  | succ j =>
    have hlast := hbefore j rfl
    have hmost : (j : Int) ≤ (u - l) / d := by
      apply (Int.le_ediv_iff_mul_le hd).2
      omega
    push_cast at hleast ⊢
    omega

/-- No pass returns, jumps out or fails, and the values that the local is given behind a pass are
floats. -/
structure Orderly (limit : Nat) (loop : Loop) (i : String) (d : Int) (s : State) : Prop where
  passes : ∀ k r o, Reaches limit loop s k r → Pass limit loop r o →
    o.1 = .ok .normal ∨ o.1 = .ok .breaks ∨ o.1 = .error .stepLimit
  small : ∀ k r t n, Reaches limit loop s k r →
    Pass limit loop r (.ok .normal, t) → Holds i n t → (n + d).natAbs ≤ 2 ^ 53

/-- Where one step above the bound is a float, every value at a test is one. -/
theorem Reaches.small {l : Int} (h : Reaches limit (counting i upper step body) s k r)
    (hupper : ∀ locals, eval locals upper = .ok (.int u))
    (hstep : ∀ locals, eval locals step = .ok (.int d)) (hd : 1 ≤ d.toInt)
    (hbody : ∀ stmt ∈ atomsAll body, stmt.written? ≠ some i) (hs : Holds i l s)
    (hl : l.natAbs ≤ 2 ^ 53) (hu : u.toInt.natAbs ≤ 2 ^ 53) (hlast : u.toInt + d.toInt ≤ 2 ^ 53) :
    (l + k * d.toInt).natAbs ≤ 2 ^ 53 := by
  induction k generalizing r with
  | zero =>
    rw [Nat.cast_zero, Int.zero_mul, Int.add_zero]
    exact hl
  | succ k ih =>
    obtain ⟨q, t, hq, hpass⟩ := h.last_pass
    have hwithin := hpass.within (hq.holds hbody hstep hs) hupper (ih hq) hu
    have hgrows : 0 ≤ (k + 1 : Nat) * d.toInt := Int.mul_nonneg (by omega) (by omega)
    have hsum : (k + 1 : Nat) * d.toInt = k * d.toInt + d.toInt := by
      push_cast
      ring
    omega

/-- A loop is orderly if one step above the bound is a float, and every pass that starts with a
value from the first one up to the bound ends normally, by a break or at the step limit. -/
theorem Orderly.of_bounds {l : Int} (hupper : ∀ locals, eval locals upper = .ok (.int u))
    (hstep : ∀ locals, eval locals step = .ok (.int d)) (hd : 1 ≤ d.toInt)
    (hbody : ∀ stmt ∈ atomsAll body, stmt.written? ≠ some i) (hs : Holds i l s)
    (hl : l.natAbs ≤ 2 ^ 53) (hu : u.toInt.natAbs ≤ 2 ^ 53) (hlast : u.toInt + d.toInt ≤ 2 ^ 53)
    (hpasses : ∀ n r o, l ≤ n → n ≤ u.toInt → Holds i n r →
      Pass limit (counting i upper step body) r o →
      o.1 = .ok .normal ∨ o.1 = .ok .breaks ∨ o.1 = .error .stepLimit) :
    Orderly limit (counting i upper step body) i d.toInt s := by
  have hrange : ∀ {k r o}, Reaches limit (counting i upper step body) s k r →
      Pass limit (counting i upper step body) r o →
      Holds i (l + k * d.toInt) r ∧ l ≤ l + k * d.toInt ∧ l + k * d.toInt ≤ u.toInt := by
    intro k r o hreaches hpass
    have hholds := hreaches.holds hbody hstep hs
    have hsmall := hreaches.small hupper hstep hd hbody hs hl hu hlast
    have hgrows : 0 ≤ k * d.toInt := Int.mul_nonneg (by omega) (by omega)
    exact ⟨hholds, by omega, hpass.within hholds hupper hsmall hu⟩
  constructor
  · intro k r o hreaches hpass
    obtain ⟨hholds, hleast, hmost⟩ := hrange hreaches hpass
    exact hpasses _ r o hleast hmost hholds hpass
  · intro k r t n hreaches hpass hn
    obtain ⟨hholds, hleast, hmost⟩ := hrange hreaches hpass
    obtain rfl := (hpass.holds_on hbody hholds).unique hn
    omega

/-- The loop from the state counts the local from `l` up to `u` in steps of `d`, and comes to the
outcome: by a break in some pass, or normally behind the last pass. -/
structure Counts (limit : Nat) (loop : Loop) (i : String) (l u d : Int) (s : State)
    (o : Outcome) : Prop where
  starts : ∀ k r, Reaches limit loop s k r → Holds i (l + k * d) r.ticked
  ends :
    (∃ k r t, Reaches limit loop s k r ∧ Pass limit loop r (.ok .breaks, t) ∧
      o = (.ok .normal, t) ∧ Holds i (l + k * d) t) ∨
    ∃ n r, Reaches limit loop s n r ∧ (n : Int) = passCount l u d ∧
      o = (.ok .normal, r.ticked) ∧ Holds i (l + n * d) r.ticked

/-- The passes of an orderly loop are counted. -/
theorem Ends.counts {l : Int}
    (h : Ends limit (.passes (counting i upper step body).test
      (counting i upper step body).increment body) s o)
    (ho : o.1 ≠ .error .stepLimit) (hupper : ∀ locals, eval locals upper = .ok (.int u))
    (hstep : ∀ locals, eval locals step = .ok (.int d)) (hd : 1 ≤ d.toInt)
    (hbody : ∀ stmt ∈ atomsAll body, stmt.written? ≠ some i) (hs : Holds i l s)
    (hl : l.natAbs ≤ 2 ^ 53) (hu : u.toInt.natAbs ≤ 2 ^ 53)
    (horderly : Orderly limit (counting i upper step body) i d.toInt s) :
    Counts limit (counting i upper step body) i l u.toInt d.toInt s o := by
  have hholds : ∀ k r, Reaches limit (counting i upper step body) s k r →
      Holds i (l + k * d.toInt) r := fun k r hreaches => hreaches.holds hbody hstep hs
  -- the values at the tests are floats, the first by itself and the others behind a pass
  have hsmall : ∀ k r, Reaches limit (counting i upper step body) s k r →
      (l + k * d.toInt).natAbs ≤ 2 ^ 53 := by
    intro k r hreaches
    cases k with
    | zero =>
      rw [Nat.cast_zero, Int.zero_mul, Int.add_zero]
      exact hl
    | succ k =>
      obtain ⟨q, t, hq, hpass⟩ := hreaches.last_pass
      have hnext := horderly.small k q t _ hq hpass (hpass.holds_on hbody (hholds k q hq))
      have hsum : l + (k + 1 : Nat) * d.toInt = l + k * d.toInt + d.toInt := by
        push_cast
        ring
      rw [hsum]
      exact hnext
  have htruth : ∀ k r, Reaches limit (counting i upper step body) s k r →
      truth r.locals (counting i upper step body).test =
        .ok (decide (l + k * d.toInt ≤ u.toInt)) :=
    fun k r hreaches => truth_counting (hholds k r hreaches) hupper (hsmall k r hreaches) hu
  refine ⟨hholds, ?_⟩
  obtain ⟨n, r, hreaches, hfinishes⟩ := h.last_test ho
  cases hfinishes with
  | testFault htest =>
    rw [htruth n r hreaches] at htest
    cases htest
  | stop htest =>
    right
    refine ⟨n, r, hreaches, ?_, rfl, hholds n r hreaches⟩
    rw [htruth n r hreaches] at htest
    have hbeyond : ¬ l + n * d.toInt ≤ u.toInt := by
      intro hle
      rw [decide_eq_true hle] at htest
      cases htest
    apply eq_passCount (by omega) (by omega)
    rintro j rfl
    obtain ⟨q, t, hq, hpass⟩ := hreaches.last_pass
    exact hpass.within (hholds j q hq) hupper (hsmall j q hq) hu
  | bodyFault hpass =>
    rcases horderly.passes n r _ hreaches hpass with heq | heq | heq
    · cases heq
    · cases heq
    · exact absurd heq ho
  | leave hpass hflow =>
    rcases horderly.passes n r _ hreaches hpass with heq | heq | heq
    · cases heq
      exact absurd rfl hflow
    · cases heq
      left
      exact ⟨n, r, _, hreaches, hpass, rfl, hpass.holds_on hbody (hholds n r hreaches)⟩
    · cases heq
  | nextFault hpass hnext =>
    have ht := hpass.holds_on hbody (hholds n r hreaches)
    have hfloat := horderly.small n r _ _ hreaches hpass ht
    have hfits : Fits (l + n * d.toInt + d.toInt) := by
      rw [fits_iff]
      omega
    rw [run_counting ht hstep, word?_of_fits hfits] at hnext
    cases hnext

/-- A loop over a declared local counts from its lower bound up to its upper bound. -/
theorem exec_countedLoop {lower : Expr} {l : Int64}
    (hlower : ∀ locals, eval locals lower = .ok (.int l))
    (hupper : ∀ locals, eval locals upper = .ok (.int u))
    (hstep : ∀ locals, eval locals step = .ok (.int d)) (hd : 1 ≤ d.toInt)
    (hbody : ∀ stmt ∈ atomsAll body, stmt.written? ≠ some i)
    (hl : l.toInt.natAbs ≤ 2 ^ 53) (hu : u.toInt.natAbs ≤ 2 ^ 53)
    (hdeclared : (s.locals.get? i).isSome = true)
    (h : (exec limit (countedLoop (.ident i) lower upper step body)).run s = o)
    (ho : o.1 ≠ .error .stepLimit)
    (horderly : Orderly limit (counting i upper step body) i d.toInt
      { s with locals := s.locals.put i (.int l) }) :
    Counts limit (counting i upper step body) i l.toInt u.toInt d.toInt
      { s with locals := s.locals.put i (.int l) } o := by
  have hassign : (exec limit (.assign (.ident i) lower)).run s =
      (.ok .normal, { s with locals := s.locals.put i (.int l) }) := by
    obtain ⟨old, hold⟩ := Option.isSome_iff_exists.1 hdeclared
    rw [run_assign, hlower]
    dsimp only
    rw [hold]
  have hinit : (execOptional limit (some (.assign (.ident i) lower))).run s =
      (.ok (), { s with locals := s.locals.put i (.int l) }) := by
    rw [execOptional, Run.run_bind, hassign]
    rfl
  have hs : s.steps ≤ limit := Nat.le_of_not_lt fun hlt => by
    rw [← h] at ho
    exact ho (exec_iteration_spent hinit hlt)
  obtain ⟨o', hends⟩ :=
    exists_ends limit (.stmt (countedLoop (.ident i) lower upper step body)) s hs
  obtain rfl : o' = o := (hends.agrees hs).symm.trans h
  cases hends with
  | plain hplain => cases hplain
  | initFault hfault =>
    cases hfault with
    | present hfault => cases (hfault.of_plain rfl).trans hassign
  | iteration hfirst hpasses =>
    cases hfirst with
    | present hfirst =>
      cases (hfirst.of_plain rfl).trans hassign
      exact hpasses.counts ho hupper hstep hd hbody (.put _ rfl) hl hu horderly

end Counting

end StructuredBasic.Machine
