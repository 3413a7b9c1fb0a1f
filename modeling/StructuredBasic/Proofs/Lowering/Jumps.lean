import StructuredBasic.Proofs.Lowering.Plain
import StructuredBasic.Proofs.Lowering.Support
import StructuredBasic.Proofs.Machine.Jumps

/-!
# Jumps and labels of lowered code

`Env.marksAt` tells which jumps and labels a statement of the source becomes. The marks of a lowered
list are those of the statements below it, in order (`LowersAll.marksAll_eq`), and behind the jump
of every `GoSub` stands its return point (`LowersAll.follows`).
-/

set_option autoImplicit false

namespace StructuredBasic.Lowering

open Syntax Machine

/-! ## Marks of the source -/

/-- The label that a bare `Return` jumps to, if it does not leave the routine. -/
def Env.returnTarget? (env : Env) (id : Nat) : Option String :=
  match env.enclosingRoutine? id with
  | none => none
  | some routine =>
    match env.precedingLabel? routine id with
    | some label => if env.isGoSubTarget routine label then some (returnPoint label) else none
    | none => none

/-- The jumps and labels that a statement itself becomes. -/
def Env.marksAt (env : Env) (id : Nat) : List Mark :=
  match env.forest.stmt? id with
  | some (.labelReference name isLineNumber) =>
    let label := labelName name isLineNumber
    match env.forest.kind id with
    | .labelStatement => [.label label]
    | .gotoStatement => [.jump label]
    | .goSubStatement => [.jump label, .label (returnPoint label)]
    | _ => []
  | some (.returnValue none) => ((env.returnTarget? id).map Mark.jump).toList
  | _ => []

/-- Statements that become a jump or a label. -/
def Stmt.isJump : Stmt → Bool
  | .labelReference .. | .returnValue none => true
  | _ => false

section Marks

variable {env : Env} {id : Nat}

theorem marksAt_eq_nil {stmt : Stmt} (h : env.forest.stmt? id = some stmt)
    (hs : Stmt.isJump stmt = false) : env.marksAt id = [] := by
  unfold Env.marksAt
  split
  · next hstmt => rw [h] at hstmt; cases hstmt; cases hs
  · next hstmt => rw [h] at hstmt; cases hstmt; cases hs
  · rfl

theorem marksAt_of_decl {d : Decl} (h : env.forest.decl? id = some d) : env.marksAt id = [] := by
  have hstmt : env.forest.stmt? id = none := by
    simp only [Forest.stmt?, Forest.payload?_of_decl? h]
  unfold Env.marksAt
  rw [hstmt]

theorem kind_of_marksAt (hf : env.forest.Shaped) (h : env.marksAt id ≠ []) :
    env.forest.kind id = .labelStatement ∨ env.forest.kind id = .gotoStatement ∨
      env.forest.kind id = .goSubStatement ∨ env.forest.kind id = .returnStatement := by
  unfold Env.marksAt at h
  split at h
  · dsimp only at h
    split at h
    · next hk => exact Or.inl hk
    · next hk => exact Or.inr (Or.inl hk)
    · next hk => exact Or.inr (Or.inr (Or.inl hk))
    · exact absurd rfl h
  · next hstmt =>
    have hk := List.mem_singleton.1 (hf.mem_kinds_stmt hstmt)
    exact Or.inr (Or.inr (Or.inr hk))
  · exact absurd rfl h

theorem sparse_marksAt (env : Env) (hf : env.forest.Shaped) :
    env.forest.Sparse env.marksAt := by
  constructor
  · intro d hd
    by_contra h
    rcases kind_of_marksAt hf h with hk | hk | hk | hk <;> (rw [hk] at hd; cases hd)
  · intro d hd
    by_contra h
    rcases kind_of_marksAt hf h with hk | hk | hk | hk <;> (rw [hk] at hd; cases hd)
  · intro d hd
    by_contra h
    rcases kind_of_marksAt hf h with hk | hk | hk | hk <;> (rw [hk] at hd; cases hd)

theorem marks_of_lowerBareReturn {routine : Routine} {stmt : Target.Stmt}
    (h : env.lowerBareReturn routine id = .ok stmt) :
    isBlock stmt = false ∧ marks stmt = ((env.returnTarget? id).map Mark.jump).toList := by
  cases hroutine : env.enclosingRoutine? id with
  | none =>
    simp only [Env.lowerBareReturn, hroutine] at h
    cases h
  | some node =>
    cases hlabel : env.precedingLabel? node id with
    | none =>
      simp only [Env.lowerBareReturn, hroutine, hlabel] at h
      simp only [Env.returnTarget?, hroutine, hlabel]
      cases h
      exact ⟨rfl, rfl⟩
    | some label =>
      simp only [Env.lowerBareReturn, hroutine, hlabel] at h
      simp only [Env.returnTarget?, hroutine, hlabel]
      by_cases htarget : env.isGoSubTarget node label = true
      · rw [if_pos htarget] at h
        rw [if_pos htarget]
        cases h
        exact ⟨rfl, rfl⟩
      · rw [if_neg htarget] at h
        rw [if_neg htarget]
        cases h
        exact ⟨rfl, rfl⟩

end Marks

/-! ## Plain statements -/

section Plain

variable {routine : Routine} {env : Env} {id : Nat} {s t : BodyState} {out : List Target.Stmt}

theorem quiet_exit {block : Block} {stmt : Target.Stmt}
    (h : env.lowerExit routine id block = .ok stmt) : Quiet [stmt] := by
  refine List.forall_mem_singleton.2 ?_
  rcases lowerExit_ok h with rfl | rfl | ⟨type, rfl⟩ <;> exact ⟨rfl, rfl⟩

theorem quiet_of_isPlain (h : ∀ stmt ∈ out, stmt.isPlain = true) : Quiet out := by
  intro stmt hs
  have hplain := h stmt hs
  cases stmt <;> first
    | exact ⟨rfl, rfl⟩
    | cases hplain

theorem quiet_selector {expression : Nat} {declared : List Target.Stmt} {value : Target.Expr}
    (h : env.lowerSelector expression s = .ok ((declared, value), t)) : Quiet declared :=
  quiet_of_isPlain (isPlain_lowerSelector h)

theorem quiet_comments (comments : List String) : Quiet (comments.map Target.Stmt.comment) := by
  intro stmt hs
  obtain ⟨text, _, rfl⟩ := List.mem_map.1 hs
  exact ⟨rfl, rfl⟩

/-- A statement that names a label is its definition, a `GoTo` or a `GoSub`. -/
theorem kind_of_goSub (hf : env.forest.Shaped) {name : String} {isLine : Bool}
    (h : env.forest.stmt? id = some (.labelReference name isLine))
    (hl : env.forest.kind id ≠ .labelStatement) (hg : env.forest.kind id ≠ .gotoStatement) :
    env.forest.kind id = .goSubStatement := by
  have hk := hf.mem_kinds_stmt h
  simp only [Stmt.kinds, List.mem_cons, List.not_mem_nil, or_false, hl, hg, false_or] at hk
  exact hk

/-- Statements that hold no others lower to statements without lists, with the marks of the
source. -/
theorem LowersPlain.marksAll_eq (h : LowersPlain routine env id s out t) (hf : env.forest.Shaped) :
    (∀ stmt ∈ out, isBlock stmt = false) ∧ marksAll out = env.marksAt id := by
  have silent : ∀ {stmt : Stmt}, env.forest.stmt? id = some stmt → Stmt.isJump stmt = false →
      Quiet out → (∀ stmt ∈ out, isBlock stmt = false) ∧ marksAll out = env.marksAt id := by
    intro stmt hstmt hjump hquiet
    refine ⟨fun stmt hs => (hquiet stmt hs).1, ?_⟩
    rw [hquiet.marksAll, marksAt_eq_nil hstmt hjump]
  have single : ∀ {a : Target.Stmt}, isBlock a = false → marks a = [] → Quiet [a] :=
    fun h1 h2 => List.forall_mem_singleton.2 ⟨h1, h2⟩
  cases h with
  | empty h => exact silent h rfl fun _ h => nomatch h
  | stop h => exact silent h rfl (single rfl rfl)
  | halt h => exact silent h rfl (single rfl rfl)
  | endBlock h => exact silent h rfl fun _ h => nomatch h
  | label h hk =>
    refine ⟨List.forall_mem_singleton.2 rfl, ?_⟩
    simp [Env.marksAt, h, hk, marksAll, marks]
  | goto h hk =>
    refine ⟨List.forall_mem_singleton.2 rfl, ?_⟩
    simp [Env.marksAt, h, hk, marksAll, marks]
  | goSub h hl hg =>
    have hk := kind_of_goSub hf h hl hg
    refine ⟨by simp [isBlock], ?_⟩
    simp [Env.marksAt, h, hk, marksAll, marks]
  | exit h hs => exact silent h rfl (quiet_exit hs)
  | @returns expression _ h hs =>
    cases expression with
    | some expression =>
      simp only [Env.lowerReturn, Result.bind_ok, Result.pure_ok] at hs
      obtain ⟨_, _, rfl⟩ := hs
      exact silent h rfl (single rfl rfl)
    | none =>
      obtain ⟨hblock, hmarks⟩ := marks_of_lowerBareReturn hs
      refine ⟨List.forall_mem_singleton.2 hblock, ?_⟩
      simp only [marksAll, hmarks, List.append_nil, Env.marksAt, h]
  | raiseEvent h => exact silent h rfl (single rfl rfl)
  | reDim h hs => exact silent h rfl (quiet_of_isPlain (isPlain_lowerReDim hs))
  | erase h =>
    refine silent h rfl fun stmt hs => ?_
    obtain ⟨array, _, rfl⟩ := List.mem_map.1 hs
    exact ⟨rfl, rfl⟩
  | call h => exact silent h rfl (single rfl rfl)
  | assignment h => exact silent h rfl (single rfl rfl)
  | compound h hs =>
    obtain ⟨place, _, value, _, _, _, rfl⟩ := lowerCompound_ok hs
    exact silent h rfl (single rfl rfl)
  | mid h hs =>
    obtain ⟨_, _, _, _, _, _, _, _, rfl⟩ := lowerMid_ok hs
    exact silent h rfl (single rfl rfl)
  | locals h hs => exact silent h rfl (quiet_of_isPlain (isPlain_lowerLocals hs))

end Plain

/-! ## Loops and chains -/

/-- The list is a loop around `body`, with quiet statements in front of the loop and beside the
body. -/
def Wraps (body out : List Target.Stmt) : Prop :=
  ∃ front before after init test increment,
    out = front ++ [.iteration init test increment (before ++ body ++ after)] ∧ Quiet front ∧
      Quiet before ∧ Quiet after ∧ marksOptional init = [] ∧ marksOptional increment = []

section Loops

variable {r : String} {body out : List Target.Stmt}

theorem quiet_nil : Quiet [] := fun _ h => nomatch h

theorem quiet_assign (target value : Target.Expr) : Quiet [.assign target value] :=
  List.forall_mem_singleton.2 ⟨rfl, rfl⟩

theorem wraps_preTestLoop (test : Target.Expr) (body : List Target.Stmt) :
    Wraps body [preTestLoop test body] :=
  ⟨[], [], [], none, test, none, by rw [List.append_nil]; rfl, quiet_nil, quiet_nil, quiet_nil, rfl,
    rfl⟩

theorem wraps_postTestLoop (latch : String) (test : Target.Expr) (body : List Target.Stmt) :
    Wraps body [postTestLoop latch test body] :=
  ⟨[], [], [.assign (.ident latch) test], _, _, none, rfl, quiet_nil, quiet_nil, quiet_assign _ _,
    rfl, rfl⟩

theorem wraps_countedLoop {front : List Target.Stmt} (hfront : Quiet front)
    (control lower upper step : Target.Expr) (body : List Target.Stmt) :
    Wraps body (front ++ [countedLoop control lower upper step body]) :=
  ⟨front, [], [], _, _, _, by rw [List.append_nil]; rfl, hfront, quiet_nil, quiet_nil, rfl, rfl⟩

theorem wraps_elementLoop {front : List Target.Stmt} (hfront : Quiet front) (enumerator : String)
    (control collection : Target.Expr) (type : Target.Ty) (body : List Target.Stmt) :
    Wraps body (front ++ [elementLoop enumerator control collection type body]) :=
  ⟨front, [.assign control (.cast .convert type (.field (.ident enumerator) "Current"))], [], _, _,
    none, by rw [List.append_nil]; rfl, hfront, quiet_assign _ _, quiet_nil, rfl, rfl⟩

theorem Wraps.marksAll_eq (h : Wraps body out) : marksAll out = marksAll body := by
  obtain ⟨front, before, after, init, test, increment, rfl, hfront, hbefore, hafter, hinit,
    hnext⟩ := h
  rw [marksAll_append, hfront.marksAll, marksAll, marks, hinit, hnext,
    marksAll_between hbefore hafter]
  simp [marksAll]

theorem Wraps.holdsLabel_eq (h : Wraps body out) : holdsLabel r out = false := by
  obtain ⟨front, _, _, _, _, _, rfl, hfront, _⟩ := h
  rw [holdsLabel_append, hfront.holdsLabel, holdsLabel_of_isBlock rfl]
  rfl

theorem Wraps.scoped_iff (h : Wraps body out) :
    ScopedAll r false out ↔ InScope r false body := by
  obtain ⟨front, before, after, _, _, _, rfl, hfront, hbefore, hafter, _⟩ := h
  rw [← inScope_between hbefore hafter, scopedAll_append]
  exact ⟨fun h => h.2.1, fun h => ⟨hfront.scopedAll, h, trivial⟩⟩

theorem Wraps.follows (h : Wraps body out) {target point : String}
    (hb : Follows target point body) : Follows target point out := by
  obtain ⟨_, _, _, _, _, _, rfl, _⟩ := h
  exact .loop (List.mem_append_right _ List.mem_cons_self) ((hb.append_right _).append_left _)

theorem marksAll_chain (branches : List Branch) (last : List Target.Stmt) :
    marksAll (chain branches last) =
      branches.flatMap (fun branch => marksAll branch.2) ++ marksAll last := by
  induction branches with
  | nil => rfl
  | cons branch branches ih =>
    have hchain : chain (branch :: branches) last =
        [.conditional branch.1 branch.2 (chain branches last)] := rfl
    rw [hchain, marksAll, marks, ih, marksAll, List.append_nil, List.flatMap_cons,
      List.append_assoc]

theorem holdsLabel_chain (branches : List Branch) (last : List Target.Stmt) :
    holdsLabel r (chain branches last) = (branches.isEmpty && holdsLabel r last) := by
  cases branches with
  | nil => rfl
  | cons branch branches => exact holdsLabel_of_isBlock rfl

/-- The else body of a chain is in scope when the bodies of its branches and the last one are. -/
theorem inScope_chain {branches : List Branch} {last : List Target.Stmt} :
    InScope r false (chain branches last) ↔
      (∀ branch ∈ branches, InScope r false branch.2) ∧ InScope r false last := by
  induction branches with
  | nil => exact ⟨fun h => ⟨fun _ hb => (by cases hb), h⟩, fun h => h.2⟩
  | cons branch branches ih =>
    have hscope : InScope r false (chain (branch :: branches) last) ↔
        InScope r false branch.2 ∧ InScope r false (chain branches last) := by
      rw [InScope, holdsLabel_chain]
      exact ⟨fun h => h.1, fun h => ⟨h, trivial⟩⟩
    rw [hscope, ih, List.forall_mem_cons, and_assoc]

theorem scopedAll_chain {branches : List Branch} {last : List Target.Stmt}
    (h : holdsLabel r (chain branches last) = false) :
    ScopedAll r false (chain branches last) ↔
      (∀ branch ∈ branches, InScope r false branch.2) ∧ InScope r false last := by
  rw [← inScope_chain, InScope, h, Bool.false_or]

theorem follows_chain_branch {branches : List Branch} {last : List Target.Stmt}
    {branch : Branch} (hm : branch ∈ branches) {target point : String}
    (h : Follows target point branch.2) : Follows target point (chain branches last) := by
  induction branches with
  | nil => cases hm
  | cons first branches ih =>
    rcases List.mem_cons.1 hm with rfl | hm
    · exact .thenBody List.mem_cons_self h
    · exact .elseBody List.mem_cons_self (ih hm)

theorem follows_chain_last {branches : List Branch} {last : List Target.Stmt}
    {target point : String} (h : Follows target point last) :
    Follows target point (chain branches last) := by
  induction branches with
  | nil => exact h
  | cons branch branches ih => exact .elseBody List.mem_cons_self ih

end Loops

/-! ## Marks of a body -/

theorem Stmt.isJump_of_lists {stmt : Stmt} (h : stmt.lists ≠ []) : Stmt.isJump stmt = false := by
  cases stmt with
  | labelReference => exact absurd rfl h
  | returnValue => exact absurd rfl h
  | _ => rfl

theorem marksAt_of_lists {env : Env} {id : Nat} {stmt : Stmt}
    (h : env.forest.stmt? id = some stmt) (hl : stmt.lists ≠ []) : env.marksAt id = [] :=
  marksAt_eq_nil h (Stmt.isJump_of_lists hl)

theorem HasList.gather_eq {env : Env} {id : Nat} {statements : Option Nat}
    (h : HasList env.forest id statements) (hf : env.forest.Shaped) :
    env.forest.gather env.marksAt id =
      (env.forest.elements statements).flatMap (env.forest.gather env.marksAt) := by
  have hgather := h.gather hf (sparse_marksAt env hf)
  obtain ⟨stmt, hstmt, _, hlists, _⟩ := h
  rw [hgather, marksAt_of_lists hstmt (by simp [hlists]), List.nil_append]

mutual

theorem Lowers.marksAll_eq {routine : Routine} {env : Env} {id : Nat} {s t : BodyState}
    {out : List Target.Stmt} (h : Lowers routine env id s out t) (hf : env.forest.Shaped) :
    marksAll out = env.forest.gather env.marksAt id := by
  have hgather : ∀ {stmt : Stmt}, env.forest.stmt? id = some stmt →
      env.forest.gather env.marksAt id = env.marksAt id ++
        (stmt.lists.flatMap env.forest.elements).flatMap (env.forest.gather env.marksAt) ++
        stmt.last?.toList.flatMap (env.forest.gather env.marksAt) :=
    fun hstmt => hf.gather_stmt (sparse_marksAt env hf) hstmt
  match h with
  | .plain h =>
    obtain ⟨stmt, hstmt, _, hlists, hlast⟩ := h.stmt
    rw [(h.marksAll_eq hf).2, hgather hstmt, hlists, hlast]
    simp
  | .preTest h hb =>
    rw [(wraps_preTestLoop _ _).marksAll_eq, hb.marksAll_eq hf, h.hasList.gather_eq hf]
  | .postTest h _ hb _ =>
    have hlist : HasList env.forest id _ := ⟨_, h, rfl, rfl, rfl⟩
    rw [(wraps_postTestLoop _ _ _).marksAll_eq, hb.marksAll_eq hf, hlist.gather_eq hf]
  | .counted h hb =>
    rw [(wraps_countedLoop (quiet_of_isPlain h.isPlain) _ _ _ _ _).marksAll_eq, hb.marksAll_eq hf,
      h.hasList.gather_eq hf]
  | .element h hb =>
    rw [(wraps_elementLoop (quiet_of_isPlain h.isPlain) _ _ _ _ _).marksAll_eq, hb.marksAll_eq hf,
      h.hasList.gather_eq hf]
  | .within h _ _ hb =>
    have hbody : marksAll out = (env.forest.elements _).flatMap
        (env.forest.gather env.marksAt) := hb.marksAll_eq hf
    rw [hbody, hgather h, marksAt_of_lists h (by simp [Stmt.lists])]
    simp [Stmt.lists, Stmt.last?]
  | .ifBlock h _ hthen helseIfs helse =>
    have hthen := hthen.marksAll_eq hf
    have helseIfs := helseIfs.marksAll_eq hf
    have helse := helse.marksAll_eq hf
    rw [marksAll, marks, marksAll_chain, hthen, helseIfs, helse, hgather h,
      marksAt_of_lists h (by simp [Stmt.lists])]
    simp [Stmt.lists, Stmt.last?, marksAll]
  | .lineIf h _ hthen helse =>
    have hthen := hthen.marksAll_eq hf
    have helse := helse.marksAll_eq hf
    rw [marksAll, marks, hthen, helse, hgather h, marksAt_of_lists h (by simp [Stmt.lists])]
    simp [Stmt.lists, Stmt.last?, marksAll]
  | .select h hs hcases helse =>
    have hcases := hcases.marksAll_eq hf
    have helse := helse.marksAll_eq hf
    rw [marksAll_append, (quiet_selector hs).marksAll, marksAll_chain, hcases, helse, hgather h,
      marksAt_of_lists h (by simp [Stmt.lists])]
    simp [Stmt.lists, Stmt.last?]

/-- The jumps and labels of a lowered list are those of the statements below it, in order. -/
theorem LowersAll.marksAll_eq {routine : Routine} {env : Env} {ids : List Nat} {s t : BodyState}
    {out : List Target.Stmt} (h : LowersAll routine env ids s out t) (hf : env.forest.Shaped) :
    marksAll out = ids.flatMap (env.forest.gather env.marksAt) := by
  match h with
  | .nil => rfl
  | .cons h hs =>
    rw [marksAll_append, marksAll_append, (quiet_comments _).marksAll, h.marksAll_eq hf,
      hs.marksAll_eq hf, List.flatMap_cons, List.nil_append]

theorem LowersBranches.marksAll_eq {routine : Routine} {env : Env} {value : Option Target.Expr}
    {ids : List Nat} {s t : BodyState} {branches : List Branch}
    (h : LowersBranches routine env value ids s branches t) (hf : env.forest.Shaped) :
    branches.flatMap (fun branch => marksAll branch.2) =
      ids.flatMap (env.forest.gather env.marksAt) := by
  match h with
  | .nil => rfl
  | .cons h hb hs =>
    rw [List.flatMap_cons, List.flatMap_cons, hb.marksAll_eq hf, hs.marksAll_eq hf,
      h.hasList.gather_eq hf]

theorem LowersElse.marksAll_eq {routine : Routine} {env : Env} {block : Option Nat}
    {s t : BodyState} {out : List Target.Stmt} (h : LowersElse routine env block s out t)
    (hf : env.forest.Shaped) :
    marksAll out = block.toList.flatMap (env.forest.gather env.marksAt) := by
  match h with
  | .none => rfl
  | .some h hb =>
    rw [hb.marksAll_eq hf, Option.toList_some, List.flatMap_singleton,
      hf.gather_stmt (sparse_marksAt env hf) h, marksAt_of_lists h (by simp [Stmt.lists])]
    simp [Stmt.lists, Stmt.last?]

end

/-! ## Return points -/

/-- The label that a `GoSub` goes to, of other statements nothing. -/
def Env.goSubAt (env : Env) (id : Nat) : List String := (env.labelOf? .goSubStatement id).toList

section GoSubs

variable {env : Env} {id : Nat}

theorem mem_goSubAt {label : String} : label ∈ env.goSubAt id ↔ ∃ name isLineNumber,
    env.forest.stmt? id = some (.labelReference name isLineNumber) ∧
      env.forest.kind id = .goSubStatement ∧ label = labelName name isLineNumber := by
  unfold Env.goSubAt Env.labelOf?
  split
  · next name isLineNumber hstmt =>
    split
    · next hk =>
      constructor
      · intro h
        exact ⟨name, isLineNumber, hstmt, hk, List.mem_singleton.1 h⟩
      · rintro ⟨name', isLineNumber', hstmt', _, rfl⟩
        rw [hstmt] at hstmt'
        cases hstmt'
        exact List.mem_singleton.2 rfl
    · next hk => exact ⟨fun h => (nomatch h), fun ⟨_, _, _, h, _⟩ => absurd h hk⟩
  · next h =>
    refine ⟨fun h => (nomatch h), ?_⟩
    rintro ⟨name, isLineNumber, hstmt, _⟩
    exact absurd hstmt (h name isLineNumber)

theorem sparse_goSubAt (env : Env) : env.forest.Sparse env.goSubAt := by
  have hkind : ∀ d, env.forest.kind d ≠ .goSubStatement → env.goSubAt d = [] := by
    intro d hd
    refine List.eq_nil_iff_forall_not_mem.2 fun label hl => ?_
    obtain ⟨_, _, _, hk, _⟩ := mem_goSubAt.1 hl
    exact hd hk
  refine ⟨fun d hd => hkind d fun hk => ?_, fun d hd => hkind d fun hk => ?_,
    fun d hd => hkind d fun hk => ?_⟩ <;> (rw [hk] at hd; cases hd)

theorem goSubAt_of_lists {stmt : Stmt} (h : env.forest.stmt? id = some stmt)
    (hl : stmt.lists ≠ []) : env.goSubAt id = [] := by
  refine List.eq_nil_iff_forall_not_mem.2 fun label hmem => ?_
  obtain ⟨_, _, hstmt, _⟩ := mem_goSubAt.1 hmem
  rw [h] at hstmt
  cases hstmt
  exact hl rfl

theorem mem_gather_goSubAt (hf : env.forest.Shaped) {stmt : Stmt}
    (h : env.forest.stmt? id = some stmt) (hl : stmt.lists ≠ []) {label : String}
    (hm : label ∈ env.forest.gather env.goSubAt id) :
    (∃ list ∈ stmt.lists, label ∈ (env.forest.elements list).flatMap
      (env.forest.gather env.goSubAt)) ∨
      ∃ x, stmt.last? = some x ∧ label ∈ env.forest.gather env.goSubAt x := by
  rw [hf.gather_stmt (sparse_goSubAt env) h, goSubAt_of_lists h hl, List.nil_append,
    List.mem_append] at hm
  rcases hm with hm | hm
  · obtain ⟨x, hx, hm⟩ := List.mem_flatMap.1 hm
    obtain ⟨list, hlist, hx⟩ := List.mem_flatMap.1 hx
    exact Or.inl ⟨list, hlist, List.mem_flatMap.2 ⟨x, hx, hm⟩⟩
  · obtain ⟨x, hx, hm⟩ := List.mem_flatMap.1 hm
    exact Or.inr ⟨x, by simpa using hx, hm⟩

theorem HasList.mem_gather_goSubAt (hf : env.forest.Shaped) {statements : Option Nat}
    (h : HasList env.forest id statements) {label : String}
    (hm : label ∈ env.forest.gather env.goSubAt id) :
    label ∈ (env.forest.elements statements).flatMap (env.forest.gather env.goSubAt) := by
  obtain ⟨stmt, hstmt, _, hlists, hlast⟩ := h
  rcases Lowering.mem_gather_goSubAt hf hstmt (by simp [hlists]) hm with ⟨list, hl, hm⟩ | ⟨x, hx, _⟩
  · rw [hlists, List.mem_singleton] at hl
    rw [← hl]
    exact hm
  · rw [hlast] at hx
    cases hx

end GoSubs

theorem LowersPlain.follows {routine : Routine} {env : Env} {id : Nat} {s t : BodyState}
    {out : List Target.Stmt} (h : LowersPlain routine env id s out t) (hf : env.forest.Shaped)
    {l : String} (hm : l ∈ env.forest.gather env.goSubAt id) :
    Follows l (returnPoint l) out := by
  obtain ⟨stmt, hstmt, _, hlists, hlast⟩ := h.stmt
  rw [hf.gather_stmt (sparse_goSubAt env) hstmt, hlists, hlast] at hm
  simp only [List.flatMap_nil, List.append_nil, Option.toList_none] at hm
  obtain ⟨name, isLineNumber, hlabel, hk, rfl⟩ := mem_goSubAt.1 hm
  cases h with
  | label h hkind => rw [hk] at hkind; cases hkind
  | goto h hkind => rw [hk] at hkind; cases hkind
  | goSub h =>
    rw [hlabel] at h
    cases h
    exact .here [] []
  | _ h => rw [hlabel] at h; cases h

mutual

theorem Lowers.follows {routine : Routine} {env : Env} {id : Nat} {s t : BodyState}
    {out : List Target.Stmt} (h : Lowers routine env id s out t) (hf : env.forest.Shaped)
    {l : String} (hm : l ∈ env.forest.gather env.goSubAt id) :
    Follows l (returnPoint l) out := by
  match h with
  | .plain h => exact h.follows hf hm
  | .preTest h hb =>
    exact (wraps_preTestLoop _ _).follows (hb.follows hf (h.hasList.mem_gather_goSubAt hf hm))
  | .postTest h _ hb _ =>
    have hlist : HasList env.forest id _ := ⟨_, h, rfl, rfl, rfl⟩
    exact (wraps_postTestLoop _ _ _).follows (hb.follows hf (hlist.mem_gather_goSubAt hf hm))
  | .counted h hb =>
    exact (wraps_countedLoop (quiet_of_isPlain h.isPlain) _ _ _ _ _).follows
      (hb.follows hf (h.hasList.mem_gather_goSubAt hf hm))
  | .element h hb =>
    exact (wraps_elementLoop (quiet_of_isPlain h.isPlain) _ _ _ _ _).follows
      (hb.follows hf (h.hasList.mem_gather_goSubAt hf hm))
  | .within h _ _ hb =>
    have hbody : l ∈ (env.forest.elements _).flatMap (env.forest.gather env.goSubAt) → _ :=
      hb.follows hf
    rcases mem_gather_goSubAt hf h (by simp [Stmt.lists]) hm with ⟨list, hl, hm⟩ | ⟨x, hx, _⟩
    · cases List.mem_singleton.1 hl
      exact hbody hm
    · cases hx
  | .ifBlock h _ hthen helseIfs helse =>
    have hthen := hthen.follows (l := l) hf
    have helseIfs := helseIfs.follows (l := l) hf
    have helse := helse.follows (l := l) hf
    rcases mem_gather_goSubAt hf h (by simp [Stmt.lists]) hm with ⟨list, hl, hm⟩ | ⟨x, hx, hm⟩
    · rcases hl with _ | ⟨_, _ | ⟨_, hl⟩⟩
      · exact .thenBody List.mem_cons_self (hthen hm)
      · obtain ⟨branch, hbranch, hfollows⟩ := helseIfs hm
        exact .elseBody List.mem_cons_self (follows_chain_branch hbranch hfollows)
      · cases hl
    · exact .elseBody List.mem_cons_self (follows_chain_last (helse x hx hm))
  | .lineIf h _ hthen helse =>
    have hthen := hthen.follows (l := l) hf
    have helse := helse.follows (l := l) hf
    rcases mem_gather_goSubAt hf h (by simp [Stmt.lists]) hm with ⟨list, hl, hm⟩ | ⟨x, hx, _⟩
    · rcases hl with _ | ⟨_, _ | ⟨_, hl⟩⟩
      · exact .thenBody List.mem_cons_self (hthen hm)
      · exact .elseBody List.mem_cons_self (helse hm)
      · cases hl
    · cases hx
  | .select h _ hcases helse =>
    have hcases := hcases.follows (l := l) hf
    have helse := helse.follows (l := l) hf
    rcases mem_gather_goSubAt hf h (by simp [Stmt.lists]) hm with ⟨list, hl, hm⟩ | ⟨x, hx, hm⟩
    · cases List.mem_singleton.1 hl
      obtain ⟨branch, hbranch, hfollows⟩ := hcases hm
      exact (follows_chain_branch hbranch hfollows).append_right _
    · exact (follows_chain_last (helse x hx hm)).append_right _

/-- Behind the jump of every `GoSub` below a list stands its return point. -/
theorem LowersAll.follows {routine : Routine} {env : Env} {ids : List Nat} {s t : BodyState}
    {out : List Target.Stmt} (h : LowersAll routine env ids s out t) (hf : env.forest.Shaped)
    {l : String} (hm : l ∈ ids.flatMap (env.forest.gather env.goSubAt)) :
    Follows l (returnPoint l) out := by
  match h with
  | .nil => cases hm
  | .cons h hs =>
    have hfirst := h.follows (l := l) hf
    have hrest := hs.follows (l := l) hf
    rw [List.flatMap_cons, List.mem_append] at hm
    rcases hm with hm | hm
    · exact ((hfirst hm).append_right _).append_left _
    · exact (hrest hm).append_right _

theorem LowersBranches.follows {routine : Routine} {env : Env} {value : Option Target.Expr}
    {ids : List Nat} {s t : BodyState} {branches : List Branch}
    (h : LowersBranches routine env value ids s branches t) (hf : env.forest.Shaped)
    {l : String} (hm : l ∈ ids.flatMap (env.forest.gather env.goSubAt)) :
    ∃ branch ∈ branches, Follows l (returnPoint l) branch.2 := by
  match h with
  | .nil => cases hm
  | .cons h hb hs =>
    have hbody := hb.follows (l := l) hf
    have hrest := hs.follows (l := l) hf
    rw [List.flatMap_cons, List.mem_append] at hm
    rcases hm with hm | hm
    · exact ⟨_, List.mem_cons_self, hbody (h.hasList.mem_gather_goSubAt hf hm)⟩
    · obtain ⟨branch, hbranch, hfollows⟩ := hrest hm
      exact ⟨branch, List.mem_cons_of_mem _ hbranch, hfollows⟩

theorem LowersElse.follows {routine : Routine} {env : Env} {block : Option Nat}
    {s t : BodyState} {out : List Target.Stmt} (h : LowersElse routine env block s out t)
    (hf : env.forest.Shaped) {l : String} (x : Nat) (hx : block = some x)
    (hm : l ∈ env.forest.gather env.goSubAt x) : Follows l (returnPoint l) out := by
  match h with
  | .none => cases hx
  | .some h hb =>
    have hbody := hb.follows (l := l) hf
    cases hx
    rcases mem_gather_goSubAt hf h (by simp [Stmt.lists]) hm with ⟨list, hl, hm⟩ | ⟨x, hx, _⟩
    · cases List.mem_singleton.1 hl
      exact hbody hm
    · cases hx

end

end StructuredBasic.Lowering
