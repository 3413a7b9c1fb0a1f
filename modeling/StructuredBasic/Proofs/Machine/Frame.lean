import StructuredBasic.Proofs.Machine.Counted

/-!
# What a run leaves alone

`Keeps P m` says that the change of state `m` keeps the property `P` of states, also where it stops
with a fault. A run of a body keeps what counting steps keeps and what every statement of its text
that holds no others keeps (`keeps_runWithin`). So a run takes back no local, gives values only to
the locals that its text declares or assigns, and adds only those that its text declares
(`run_frame`). This holds from every state, also from one whose steps are used up, about which the
derivations of `Ends` say nothing.
-/

set_option autoImplicit false

namespace StructuredBasic.Target.Stmt

/-- The local that a statement by itself declares. -/
def declared? : Stmt → Option String
  | .declare name _ _ => some name
  | _ => none

end StructuredBasic.Target.Stmt

namespace StructuredBasic.Machine

open Target (Expr Stmt)
open Target.Stmt (atoms atomsOptional atomsAll)

/-! ## Specification -/

/-- The locals of `t`, compared with those of `s`, are such as a run of the body may leave. -/
structure Frames (body : List Stmt) (s t : State) : Prop where
  /-- No local is taken back. -/
  kept : ∀ n, (s.locals.get? n).isSome = true → (t.locals.get? n).isSome = true
  /-- A local that no statement of the text declares or assigns is as it was. -/
  spared : ∀ n, (∀ stmt ∈ atomsAll body, stmt.written? ≠ some n) →
    t.locals.get? n = s.locals.get? n
  /-- A new local is one that a statement of the text declares. -/
  declared : ∀ n, (t.locals.get? n).isSome = true →
    (s.locals.get? n).isSome = true ∨ ∃ stmt ∈ atomsAll body, stmt.declared? = some n

/-! ## Changes of state that keep a property -/

/-- The change of state keeps `P`, whether it gives a result or stops with a fault. -/
def Keeps {α : Type} (P : State → Prop) (m : Run α) : Prop := ∀ s, P s → P (m.run s).2

section Rules

variable {α β : Type} {P : State → Prop} {limit : Nat}

theorem keeps_pure (a : α) : Keeps P (pure a) := fun _ hs => hs

theorem keeps_throw (fault : Fault) : Keeps P (throw fault : Run α) := fun _ hs => hs

theorem keeps_lift (r : Except Fault α) : Keeps P (liftM r : Run α) := by
  intro s hs
  rw [run_lift]
  exact hs

theorem Keeps.bind {m : Run α} {k : α → Run β} (hm : Keeps P m) (hk : ∀ a, Keeps P (k a)) :
    Keeps P (m >>= k) := by
  intro s hs
  have h := hm s hs
  rw [Run.run_bind]
  revert h
  cases m.run s with
  | mk result t =>
    cases result with
    | error fault => exact id
    | ok a => exact hk a t

theorem keeps_test (e : Expr) : Keeps P (Run.test e) := by
  intro s hs
  rw [run_test]
  exact hs

theorem keeps_tick (hP : CountFree P) : Keeps P (Run.tick limit) := by
  intro s hs
  rw [run_tick]
  split <;> exact hP s _ hs

theorem keeps_remaining : Keeps P (Run.remaining limit) := fun _ hs => hs

theorem keeps_passes (hP : CountFree P) {test : Run Bool} {body : Run Flow} {next : Run Unit}
    (htest : Keeps P test) (hbody : Keeps P body) (hnext : Keeps P next) (fuel : Nat) :
    Keeps P (Run.passes limit test body next fuel) := by
  induction fuel with
  | zero => exact keeps_throw _
  | succ fuel ih =>
    rw [Run.passes]
    refine (keeps_tick hP).bind fun _ => htest.bind fun holds => ?_
    split
    · refine hbody.bind fun flow => ?_
      split
      · exact hnext.bind fun _ => ih
      · exact keeps_pure _
      · exact keeps_pure _
    · exact keeps_pure _

theorem keeps_sequence {actions : List Run.Action} (h : ∀ action ∈ actions, Keeps P action.run) :
    Keeps P (Run.sequence actions) := by
  induction actions with
  | nil => exact keeps_pure _
  | cons action rest ih =>
    rw [Run.sequence]
    refine (h action List.mem_cons_self).bind fun flow => ?_
    split
    · exact ih fun other hmem => h other (List.mem_cons_of_mem _ hmem)
    · exact keeps_pure _

theorem afterLabel_subset {label : String} {actions rest : List Run.Action}
    (h : Run.afterLabel? label actions = some rest) : rest ⊆ actions := by
  induction actions with
  | nil => cases h
  | cons action actions ih =>
    rw [Run.afterLabel?] at h
    split at h
    · cases h
      exact List.subset_cons_self _ _
    · exact List.Subset.trans (ih h) (List.subset_cons_self _ _)

theorem keeps_jumps (hP : CountFree P) {actions : List Run.Action}
    (h : ∀ action ∈ actions, Keeps P action.run) (fuel : Nat) (flow : Flow) :
    Keeps P (Run.jumps limit actions fuel flow) := by
  induction fuel generalizing flow with
  | zero =>
    unfold Run.jumps
    split
    · split
      · exact keeps_pure _
      · exact keeps_throw _
    · exact keeps_pure _
  | succ fuel ih =>
    unfold Run.jumps
    split
    · split
      · exact keeps_pure _
      · next rest hrest =>
        have hseq := keeps_sequence fun action hmem => h action (afterLabel_subset hrest hmem)
        exact (keeps_tick hP).bind fun _ => hseq.bind ih
    · exact keeps_pure _

theorem keeps_block (hP : CountFree P) {actions : List Run.Action}
    (h : ∀ action ∈ actions, Keeps P action.run) : Keeps P (Run.block limit actions) := by
  unfold Run.block
  refine (keeps_sequence h).bind fun flow => keeps_remaining.bind fun fuel => ?_
  exact keeps_jumps hP h fuel flow

end Rules

/-! ## Statements and bodies -/

section Bodies

variable {P : State → Prop} {limit : Nat}

mutual

theorem keeps_exec (hP : CountFree P) (stmt : Stmt) (h : Preserved limit P stmt.atoms) :
    Keeps P (exec limit stmt) := by
  match stmt with
  | .conditional condition thenBody elseBody =>
    have hthen := keeps_actions hP thenBody (h.of_subset (List.subset_append_left _ _))
    have helse := keeps_actions hP elseBody (h.of_subset (List.subset_append_right _ _))
    rw [exec]
    refine (keeps_test condition).bind fun holds => ?_
    split
    · exact keeps_block hP hthen
    · exact keeps_block hP helse
  | .iteration init test increment body =>
    have hheads : atomsOptional init ++ atomsOptional increment ⊆
      atoms (.iteration init test increment body) := List.subset_append_left _ _
    have hinit := keeps_execOptional hP init
      (h.of_subset (List.Subset.trans (List.subset_append_left _ _) hheads))
    have hnext := keeps_execOptional hP increment
      (h.of_subset (List.Subset.trans (List.subset_append_right _ _) hheads))
    have hbody : Keeps P (Run.block limit (actions limit body)) :=
      keeps_block hP (keeps_actions hP body (h.of_subset (List.subset_append_right _ _)))
    rw [exec, Run.loop]
    refine hinit.bind fun _ => keeps_remaining.bind fun fuel => ?_
    exact keeps_passes hP (keeps_test test) hbody hnext fuel
  | .comment _ =>
    rw [exec]
    exact keeps_pure _
  | .declare .. => exact h _ (List.mem_singleton_self _) rfl
  | .assign .. => exact h _ (List.mem_singleton_self _) rfl
  | .expression _ => exact h _ (List.mem_singleton_self _) rfl
  | .goto _ => exact h _ (List.mem_singleton_self _) rfl
  | .returns _ => exact h _ (List.mem_singleton_self _) rfl
  | .breaks => exact h _ (List.mem_singleton_self _) rfl
  | .label _ => exact h _ (List.mem_singleton_self _) rfl

theorem keeps_execOptional (hP : CountFree P) (stmt : Option Stmt)
    (h : Preserved limit P (atomsOptional stmt)) : Keeps P (execOptional limit stmt) := by
  match stmt with
  | none =>
    rw [execOptional]
    exact keeps_pure _
  | some stmt =>
    have hstmt := keeps_exec hP stmt h
    rw [execOptional]
    exact hstmt.bind fun _ => keeps_pure _

theorem keeps_actions (hP : CountFree P) (stmts : List Stmt)
    (h : Preserved limit P (atomsAll stmts)) :
    ∀ action ∈ actions limit stmts, Keeps P action.run := by
  match stmts with
  | [] =>
    rw [actions]
    exact nofun
  | stmt :: rest =>
    have hstmt := keeps_exec hP stmt (h.of_subset (List.subset_append_left _ _))
    have hrest := keeps_actions hP rest (h.of_subset (List.subset_append_right _ _))
    rw [actions]
    exact List.forall_mem_cons.2 ⟨hstmt, hrest⟩

end

/-- A run of a body keeps what the statements of its text keep, from every state and whatever steps
are left. -/
theorem keeps_runWithin (hP : CountFree P) {body : List Stmt}
    (h : Preserved limit P (atomsAll body)) : Keeps P (runWithin limit body) := by
  unfold runWithin
  exact (keeps_block hP (keeps_actions hP body h)).bind fun flow => keeps_lift (result flow)

end Bodies

/-! ## The frame of a run -/

section Frame

variable {limit : Nat} {n : String} {s : State}

/-- Only a declaration adds a local. -/
theorem run_plain_adds {stmt : Stmt} (h : isBlock stmt = false) (hn : stmt.declared? ≠ some n)
    (hs : s.locals.get? n = none) : ((exec limit stmt).run s).2.locals.get? n = none := by
  by_cases hwritten : stmt.written? = some n
  · cases stmt with
    | declare name type init => exact absurd hwritten hn
    | assign target source =>
      cases target with
      | ident name =>
        obtain rfl : name = n := Option.some.inj hwritten
        -- a variable that is not declared is not written
        rw [run_assign]
        cases eval s.locals source with
        | error fault => exact hs
        | ok v =>
          simp only [hs]
      | _ => cases hwritten
    | _ => cases hwritten
  · rw [run_plain_spares h hwritten, hs]

theorem frames_runWithin (limit : Nat) (body : List Stmt) (s : State) :
    Frames body s ((runWithin limit body).run s).2 where
  kept n hn :=
    keeps_runWithin (P := fun t => (t.locals.get? n).isSome = true) (fun _ _ ht => ht)
      (fun _ _ hplain _ ht => run_plain_keeps hplain ht) s hn
  spared n hn := by
    refine keeps_runWithin (P := fun t => t.locals.get? n = s.locals.get? n) (fun _ _ ht => ht) ?_
      s rfl
    intro stmt hmem hplain t ht
    rw [run_plain_spares hplain (hn stmt hmem), ht]
  declared n hn := by
    by_contra hnot
    rw [not_or, Option.not_isSome_iff_eq_none] at hnot
    obtain ⟨hbefore, hnone⟩ := hnot
    have hkeeps : Keeps (fun t => t.locals.get? n = none) (runWithin limit body) := by
      refine keeps_runWithin (fun _ _ ht => ht) ?_
      intro stmt hmem hplain t ht
      exact run_plain_adds hplain (fun h => hnone ⟨stmt, hmem, h⟩) ht
    rw [hkeeps s hbefore] at hn
    cases hn

/-- From whatever state a body is run and however the run ends, it takes back no local, leaves those
alone that its text neither declares nor assigns, and adds only such as its text declares.
Evaluating an expression changes nothing. -/
theorem run_frame (body : List Stmt) (s : State) :
    Frames body s (run body s).2 ∧ ∀ e, (Run.value e).run s = (eval s.locals e, s) :=
  ⟨frames_runWithin stepLimit body s, run_value s⟩

end Frame

end StructuredBasic.Machine
