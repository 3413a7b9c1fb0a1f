import StructuredBasic.Proofs.Machine.Faults
import StructuredBasic.Proofs.Machine.Triples

/-!
# Declared before use

`CoveredList n entry d stmts` says that a list of statements declares `n` before each mention of it,
on every path: `d` tells whether `n` is declared where the list goes on, `entry` whether it was
declared when the list was entered. Declarations are never taken back, so at a label, which a jump
may come to from anywhere in the list, what held at the entry holds. A body that declares `n` before
use never stops because `n` is not declared (`DeclaresBeforeUse.sound`).
-/

set_option autoImplicit false

namespace StructuredBasic.Machine

open Target (Expr Stmt)

/-! ## Coverage -/

/-- Whether a statement declares `n`. -/
def declares (n : String) : Stmt → Bool
  | .declare name _ _ => name == n
  | _ => false

/-- Whether `n` is declared after a statement, given that it was (or not) at the entry of the list
and before the statement. -/
def declaredAfter (n : String) (entry d : Bool) : Stmt → Bool
  | .label _ => entry
  | stmt => d || declares n stmt

/-- An expression may be evaluated where `n` is declared, or where it does not mention `n`. -/
def Clear (n : String) (d : Bool) (names : List String) : Prop := d = true ∨ n ∉ names

mutual

/-- Every mention of `n` in the statement comes after a declaration of it. -/
def Covered (n : String) : Bool → Stmt → Prop
  | d, .assign target value => Clear n d target.idents ∧ Clear n d value.idents
  | d, .declare _ _ init => Clear n d (Expr.identsOptional init)
  | d, .conditional condition thenBody elseBody =>
    Clear n d condition.idents ∧ CoveredList n d d thenBody ∧ CoveredList n d d elseBody
  | d, .iteration init test increment body =>
    CoveredOptional n d init ∧ Clear n (d || init.any (declares n)) test.idents ∧
      CoveredOptional n (d || init.any (declares n)) increment ∧
      CoveredList n (d || init.any (declares n)) (d || init.any (declares n)) body
  | d, .expression value => Clear n d value.idents
  | d, .returns value => Clear n d (Expr.identsOptional value)
  | _, .goto _ => True
  | _, .label _ => True
  | _, .breaks => True
  | _, .comment _ => True

def CoveredOptional (n : String) : Bool → Option Stmt → Prop
  | _, none => True
  | d, some stmt => Covered n d stmt

/-- Every mention of `n` in the list comes after a declaration of it, whatever jumps are taken. -/
def CoveredList (n : String) : Bool → Bool → List Stmt → Prop
  | _, _, [] => True
  | entry, d, stmt :: rest =>
    Covered n d stmt ∧ CoveredList n entry (declaredAfter n entry d stmt) rest

end

theorem declaredAfter_true (n : String) (stmt : Stmt) : declaredAfter n true true stmt = true := by
  cases stmt <;> rfl

mutual

theorem covered_true (n : String) (stmt : Stmt) : Covered n true stmt := by
  match stmt with
  | .assign .. => exact ⟨Or.inl rfl, Or.inl rfl⟩
  | .declare .. => exact Or.inl rfl
  | .conditional _ thenBody elseBody =>
    exact ⟨Or.inl rfl, coveredList_true n thenBody, coveredList_true n elseBody⟩
  | .iteration init _ increment body =>
    exact ⟨coveredOptional_true n init, Or.inl rfl, coveredOptional_true n increment,
      coveredList_true n body⟩
  | .expression _ => exact Or.inl rfl
  | .returns _ => exact Or.inl rfl
  | .goto _ => exact trivial
  | .label _ => exact trivial
  | .breaks => exact trivial
  | .comment _ => exact trivial

theorem coveredOptional_true (n : String) (stmt : Option Stmt) : CoveredOptional n true stmt := by
  match stmt with
  | none => exact trivial
  | some stmt => exact covered_true n stmt

theorem coveredList_true (n : String) (stmts : List Stmt) : CoveredList n true true stmts := by
  match stmts with
  | [] => exact trivial
  | stmt :: rest =>
    have hrest := coveredList_true n rest
    rw [CoveredList, declaredAfter_true]
    exact ⟨covered_true n stmt, hrest⟩

end

/-! ## Lists that are covered anywhere -/

/-- The list is covered whatever is declared before it. -/
def Covers (n : String) (stmts : List Stmt) : Prop := ∀ entry d, CoveredList n entry d stmts

section Lists

variable {n : String} {stmts rest : List Stmt} {stmt : Stmt}

theorem coveredList_append {entry d : Bool} (h : CoveredList n entry d stmts) (hr : Covers n rest) :
    CoveredList n entry d (stmts ++ rest) := by
  induction stmts generalizing d with
  | nil => exact hr entry d
  | cons stmt stmts ih => exact ⟨h.1, ih h.2⟩

theorem covers_nil : Covers n [] := fun _ _ => trivial

theorem Covers.append (h : Covers n stmts) (hr : Covers n rest) : Covers n (stmts ++ rest) :=
  fun entry d => coveredList_append (h entry d) hr

theorem covers_singleton (h : ∀ d, Covered n d stmt) : Covers n [stmt] :=
  fun _ d => ⟨h d, trivial⟩

theorem covers_of_forall (h : ∀ stmt ∈ stmts, ∀ d, Covered n d stmt) : Covers n stmts := by
  induction stmts with
  | nil => exact covers_nil
  | cons stmt stmts ih =>
    have hrest := ih fun s hs => h s (List.mem_cons_of_mem _ hs)
    exact fun entry d => ⟨h stmt List.mem_cons_self d, hrest entry _⟩

theorem covers_flatten {lists : List (List Stmt)} (h : ∀ l ∈ lists, Covers n l) :
    Covers n lists.flatten := by
  induction lists with
  | nil => exact covers_nil
  | cons l lists ih =>
    have hrest := ih fun k hk => h k (List.mem_cons_of_mem _ hk)
    exact (h l List.mem_cons_self).append hrest

end Lists

/-- The body declares `n` before each mention of it, whatever jumps are taken: with its first
statement, or in each list that mentions it. -/
inductive DeclaresBeforeUse (n : String) : List Stmt → Prop
  | first {type : Target.Ty} {init : Expr} {rest : List Stmt} (h : n ∉ init.idents) :
      DeclaresBeforeUse n (.declare n type (some init) :: rest)
  | covered {body : List Stmt} (h : CoveredList n false false body) : DeclaresBeforeUse n body

/-! ## Soundness -/

theorem Locals.get?_put (locals : Locals) (name other : String) (v : Value) :
    (locals.put name v).get? other = if name = other then some v else locals.get? other := by
  induction locals with
  | nil => rfl
  | cons entry rest ih =>
    obtain ⟨key, old⟩ := entry
    simp only [Locals.put]
    by_cases hkey : key = name
    · rw [if_pos hkey]
      subst hkey
      simp only [Locals.get?]
      split <;> rfl
    · rw [if_neg hkey]
      simp only [Locals.get?, ih]
      by_cases hother : key = other
      · have hname : name ≠ other := fun h => hkey (hother.trans h.symm)
        rw [if_pos hother, if_neg hname, if_pos hother]
      · rw [if_neg hother, if_neg hother]

/-- The name is declared in the state, if it has to be. -/
def Declared (n : String) (d : Bool) (state : State) : Prop :=
  d = true → (state.locals.get? n).isSome = true

/-- Faults other than that `n` is not declared. -/
def NotMissing (n : String) (fault : Fault) : Prop := fault ≠ .undefinedVariable n

section Soundness

variable {n : String} {d : Bool}

theorem countFree_declared : CountFree (Declared n d) := fun _ _ h => h

theorem Declared.mono {entry : Bool} (hle : entry = true → d = true) {state : State}
    (h : Declared n d state) : Declared n entry state := fun he => h (hle he)

theorem notMissing_of_operational {fault : Fault} (h : fault.isOperational = true) :
    NotMissing n fault := by
  rintro rfl
  cases h

theorem Clear.notMissing {e : Expr} (hc : Clear n d e.idents) {state : State} {fault : Fault}
    (hd : Declared n d state) (h : eval state.locals e = .error fault) : NotMissing n fault := by
  rcases eval_failsOn state.locals e fault h with h | ⟨m, hm, hnone, rfl⟩
  · exact notMissing_of_operational h
  · intro heq
    cases heq
    rcases hc with hc | hc
    · have := hd hc
      rw [hnone] at this
      cases this
    · exact hc hm

theorem sat_value_of_clear {e : Expr} (hc : Clear n d e.idents) :
    Sat (Declared n d) (Run.value e) (fun _ => Declared n d) (NotMissing n) :=
  sat_value fun _ _ hd h => hc.notMissing hd h

theorem sat_test_of_clear {e : Expr} (hc : Clear n d e.idents) :
    Sat (Declared n d) (Run.test e) (fun _ => Declared n d) (NotMissing n) :=
  sat_test (fun _ _ hd h => hc.notMissing hd h) fun _ _ => notMissing_of_operational rfl

/-- Giving a local a value declares it and takes no declaration back. -/
theorem sat_put {name : String} {v : Value} :
    Sat (Declared n d) (Run.put name v) (fun _ => Declared n (d || name == n)) (NotMissing n) := by
  refine sat_modify fun state hd hd' => ?_
  simp only [Locals.get?_put]
  split
  · rfl
  · next hne =>
    refine hd ?_
    rcases Bool.or_eq_true_iff.1 hd' with h | h
    · exact h
    · exact absurd (beq_iff_eq.1 h) hne

theorem sat_assign {target value : Expr} (ht : Clear n d target.idents)
    (hv : Clear n d value.idents) :
    Sat (Declared n d) (Run.assign target value) (fun _ => Declared n d) (NotMissing n) := by
  unfold Run.assign
  split
  · next name =>
    refine (sat_value_of_clear hv).bind fun v => sat_get.bind fun state => ?_
    split
    · exact (sat_put (d := d)).weaken (fun _ h => h.2) fun _ _ h hd => h (by rw [hd]; rfl)
    · next hnone =>
      rintro s ⟨rfl, hs⟩
      have hvariable : eval state.locals (.ident name) = .error (.undefinedVariable name) := by
        rw [eval, hnone]
      exact ht.notMissing hs hvariable
  · exact sat_throw (notMissing_of_operational rfl)

theorem sat_of_keeps {m : Run Flow} {stmt : Stmt} (hs : declares n stmt = false)
    (h : Sat (Declared n d) m (fun _ => Declared n d) (NotMissing n)) :
    Sat (Declared n d) m (fun _ => Declared n (d || declares n stmt)) (NotMissing n) := by
  rw [hs, Bool.or_false]
  exact h

/-- A loop keeps what its parts keep once its first statement has run. -/
theorem sat_iteration {limit : Nat} {init increment : Run Unit} {test : Expr} {body : Run Flow}
    {i : Bool} (hinit : Sat (Declared n d) init (fun _ => Declared n (d || i)) (NotMissing n))
    (htest : Clear n (d || i) test.idents)
    (hnext : Sat (Declared n (d || i)) increment (fun _ => Declared n (d || i)) (NotMissing n))
    (hbody : Sat (Declared n (d || i)) body (fun _ => Declared n (d || i)) (NotMissing n)) :
    Sat (Declared n d) (Run.loop limit init (Run.test test) increment body)
      (fun _ => Declared n d) (NotMissing n) := by
  have hbody' := hbody.weaken (Q := fun _ s => True ∧ Declared n (d || i) s) (fun _ h => h)
    fun _ _ h => ⟨trivial, h⟩
  have hloop := sat_loop limit countFree_declared (fun h => by cases h) trivial hinit
    (sat_test_of_clear htest) hnext hbody'
  refine hloop.weaken (fun _ h => h) fun _ _ h => h.2.mono fun hd => ?_
  rw [hd, Bool.true_or]

theorem SatFrom.keeps {acts : List Run.Action}
    (h : SatFrom (Declared n d) (Declared n d) acts (fun _ => True) (NotMissing n))
    (limit : Nat) :
    Sat (Declared n d) (Run.block limit acts) (fun _ => Declared n d) (NotMissing n) :=
  (h.block limit countFree_declared nofun).weaken (fun _ hd => hd) fun _ _ h => h.2.1

mutual

/-- A covered statement never finds `n` missing, and leaves it declared where it declares it. -/
theorem sat_exec {n : String} (limit : Nat) (stmt : Stmt) {d : Bool} (h : Covered n d stmt) :
    Sat (Declared n d) (exec limit stmt) (fun _ => Declared n (d || declares n stmt))
      (NotMissing n) := by
  match stmt with
  | .declare name _ none =>
    rw [exec]
    exact sat_put.bind fun _ => sat_pure fun _ hd => hd
  | .declare name _ (some init) =>
    rw [exec]
    refine (sat_value_of_clear h).bind fun v => ?_
    exact sat_put.bind fun _ => sat_pure fun _ hd => hd
  | .assign target value =>
    rw [exec]
    exact sat_of_keeps rfl ((sat_assign h.1 h.2).bind fun _ => sat_pure fun _ hd => hd)
  | .conditional condition thenBody elseBody =>
    have hthen := (sat_actions limit thenBody id h.2.1).keeps limit
    have helse := (sat_actions limit elseBody id h.2.2).keeps limit
    rw [exec]
    refine sat_of_keeps rfl ((sat_test_of_clear h.1).bind fun holds => ?_)
    split
    · exact hthen
    · exact helse
  | .iteration init test increment body =>
    have hinit := sat_execOptional limit init h.1
    have hnext := sat_execOptional limit increment h.2.2.1
    have hbody := (sat_actions limit body id h.2.2.2).keeps limit
    rw [exec]
    refine sat_of_keeps rfl (sat_iteration hinit h.2.1 ?_ hbody)
    exact hnext.weaken (fun _ h => h) fun _ _ h => h.mono fun hd => by rw [hd, Bool.true_or]
  | .expression value =>
    rw [exec]
    exact sat_of_keeps rfl ((sat_value_of_clear h).bind fun _ => sat_pure fun _ hd => hd)
  | .returns none =>
    rw [exec]
    exact sat_of_keeps rfl (sat_pure fun _ hd => hd)
  | .returns (some value) =>
    rw [exec]
    exact sat_of_keeps rfl ((sat_value_of_clear h).bind fun _ => sat_pure fun _ hd => hd)
  | .goto _ => rw [exec]; exact sat_of_keeps rfl (sat_pure fun _ hd => hd)
  | .label _ => rw [exec]; exact sat_of_keeps rfl (sat_pure fun _ hd => hd)
  | .breaks => rw [exec]; exact sat_of_keeps rfl (sat_pure fun _ hd => hd)
  | .comment _ => rw [exec]; exact sat_of_keeps rfl (sat_pure fun _ hd => hd)

theorem sat_execOptional {n : String} (limit : Nat) (stmt : Option Stmt) {d : Bool}
    (h : CoveredOptional n d stmt) : Sat (Declared n d) (execOptional limit stmt)
      (fun _ => Declared n (d || stmt.any (declares n))) (NotMissing n) := by
  match stmt with
  | none =>
    rw [execOptional, Option.any_none, Bool.or_false]
    exact sat_pure fun _ hd => hd
  | some stmt =>
    have hstmt := sat_exec limit stmt h
    rw [execOptional, Option.any_some]
    exact hstmt.bind fun _ => sat_pure fun _ hd => hd

/-- From its start and from each of its labels a covered list never finds `n` missing. -/
theorem sat_actions {n : String} (limit : Nat) (stmts : List Stmt) {entry d : Bool}
    (hle : entry = true → d = true) (h : CoveredList n entry d stmts) :
    SatFrom (Declared n d) (Declared n entry) (actions limit stmts) (fun _ => True)
      (NotMissing n) := by
  match stmts with
  | [] =>
    rw [actions]
    exact .nil trivial fun _ hd => hd.mono hle
  | stmt :: rest =>
    have hstmt := sat_exec limit stmt h.1
    have hle' : entry = true → declaredAfter n entry d stmt = true := by
      intro he
      cases stmt <;> simp [declaredAfter, he, hle he]
    have hrest := sat_actions limit rest hle' h.2
    rw [actions]
    -- running on relies on `d`, a jump into the rest of the list only on `entry`
    refine .cons hstmt (fun s hd => hd.mono fun hafter => ?_)
      (fun _ s hd _ => ⟨trivial, hd.mono fun he => ?_⟩) (fun label hlabel s hd => ?_) hrest
    · cases stmt <;> simp_all [declaredAfter, declares]
    · rw [hle he, Bool.true_or]
    · cases stmt <;> simp only [labelOf?, reduceCtorEq] at hlabel
      exact hd

end

theorem sat_covered {n : String} (limit : Nat) (stmts : List Stmt) {d : Bool}
    (h : CoveredList n d d stmts) : Sat (Declared n d) (Run.block limit (actions limit stmts))
      (fun _ => Declared n d) (NotMissing n) :=
  (sat_actions limit stmts id h).keeps limit

theorem not_missing_of_sat {body : List Stmt} {limit : Nat} {Q : Flow → State → Prop}
    (h : Sat (fun _ => True) (Run.block limit (actions limit body)) Q (NotMissing n))
    (state : State) : ((runWithin limit body).run state).1 ≠ .error (.undefinedVariable n) := by
  have hrun : Sat (fun _ => True) (runWithin limit body) (fun _ _ => True) (NotMissing n) := by
    unfold runWithin
    refine h.bind fun flow => sat_lift (fun _ _ _ _ => trivial) fun fault s _ hresult => ?_
    cases flow <;> cases hresult <;> exact fun h => nomatch h
  exact hrun.not_error trivial fun h => h rfl

theorem covered_sound {body : List Stmt} (h : CoveredList n false false body) (limit : Nat)
    (state : State) : ((runWithin limit body).run state).1 ≠ .error (.undefinedVariable n) := by
  refine not_missing_of_sat ((sat_covered limit body h).weaken ?_ fun _ _ h => h) state
  intro s _ hd
  cases hd

/-- A body that begins with a declaration of `n` never stops because `n` is not declared: every
jump happens after the declaration. -/
theorem declared_first_sound {body : List Stmt} {type : Target.Ty} {init : Expr}
    (hinit : n ∉ init.idents) (limit : Nat) (state : State) :
    ((runWithin limit (.declare n type (some init) :: body)).run state).1 ≠
      .error (.undefinedVariable n) := by
  have hfirst : Covered n false (.declare n type (some init)) := Or.inr hinit
  have hrest := sat_actions limit body id (coveredList_true n body)
  have hdeclares : (false || declares n (.declare n type (some init))) = true := by
    simp [declares]
  have hstep := (sat_exec limit _ hfirst).weaken (P := fun _ => True) (fun _ _ hd => nomatch hd)
    fun _ _ h => h
  rw [hdeclares] at hstep
  have hall : SatFrom (fun _ => True) (Declared n true)
      (actions limit (.declare n type (some init) :: body)) (fun _ => True) (NotMissing n) := by
    rw [actions]
    exact .cons hstep (fun _ h => h) (fun _ _ h _ => ⟨trivial, h⟩) (fun _ h => nomatch h) hrest
  exact not_missing_of_sat (hall.block limit countFree_declared nofun) state

/-- No run of a body that declares `n` before use stops because `n` is not declared. -/
theorem DeclaresBeforeUse.sound {body : List Stmt} (h : DeclaresBeforeUse n body) (limit : Nat)
    (state : State) : ((runWithin limit body).run state).1 ≠ .error (.undefinedVariable n) := by
  cases h with
  | first h => exact declared_first_sound h limit state
  | covered h => exact covered_sound h limit state

end Soundness

end StructuredBasic.Machine
