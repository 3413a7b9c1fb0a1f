import StructuredBasic.Proofs.Lowering.Census
import StructuredBasic.Proofs.Lowering.ExprRanks
import StructuredBasic.Proofs.Lowering.Malformed

/-!
# Ranks in lowered code

The array types of a built tree have at least one dimension, and the types of the code are taken
from them. The temporary of a `ReDim Preserve` is the one exception: it has as many dimensions as
its operand has bounds. So a lowered program is ranked exactly if every `ReDim Preserve` in it
states a bound for each of its arrays (`program_ranked_iff`).
-/

set_option autoImplicit false

namespace StructuredBasic.Target

theorem Member.Ranked.body {member : Member} {body : List Stmt}
    (hb : member.HasBody body) (h : member.Ranked) : Stmt.RankedAll body := by
  induction hb with
  | method => exact h.2.2
  | getter hget => exact h.2.2.1 _ hget
  | setter hset => exact h.2.2.2 _ hset
  | nested hm _ ih => exact ih (Member.rankedAll_iff.1 h.2 _ hm)

end StructuredBasic.Target

namespace StructuredBasic.Lowering

open Syntax
open Target (Ty)
open Target.Stmt (atomsAll)

/-! ## Statements without a body -/

/-- If the statement is a `ReDim Preserve`, it states a bound for each of its arrays. -/
def StatesBounds (f : Forest) (x : Nat) : Prop :=
  ∀ arrays, f.stmt? x = some (.reDim true arrays) →
    ∀ operand ∈ f.elements (some arrays), f.elements (operandBounds f operand) ≠ []

section Plain

variable {routine : Routine} {env : Env} {id : Nat} {s t : BodyState} {out : List Target.Stmt}

theorem Env.Ranked.assignmentTarget (hr : env.Ranked) {target : Nat} {place : Target.Expr}
    (h : env.assignmentTarget routine target = .ok place) : place.Ranked := by
  unfold Env.assignmentTarget at h
  split at h
  · split at h
    · cases h
      exact trivial
    · exact hr.lowerExpr h
  · exact hr.lowerExpr h

theorem ranked_shadow (shadow : Option String) :
    Target.Expr.RankedOptional (shadow.map Target.Expr.ident) := by
  cases shadow <;> exact trivial

/-- An `Exit` of the routine returns the local with the result, or a zero. -/
theorem Env.Ranked.leave (hr : env.Ranked) {shadow : Option String} {stmt : Target.Stmt}
    (h : (match shadow with
      | some shadow => .ok (.returns (some (.ident shadow)))
      | none => do
        let type ← env.exitType id
        if type.isVoid then return .returns none else return .returns (some (zeroValue type)) :
      Result Target.Stmt) = .ok stmt) : stmt.Ranked := by
  split at h
  · cases h
    exact trivial
  · obtain ⟨type, htype, h⟩ := Result.bind_ok.1 h
    split at h <;> cases h
    · exact trivial
    · exact ranked_zeroValue (ranked_exitType hr.shaped htype)

theorem Env.Ranked.lowerExit (hr : env.Ranked) {block : Block} {stmt : Target.Stmt}
    (h : env.lowerExit routine id block = .ok stmt) : stmt.Ranked := by
  unfold Env.lowerExit at h
  split at h
  all_goals first
    | exact absurd h unsupported_ne_ok
    | (split at h
       · cases h; exact trivial
       · exact absurd h unsupported_ne_ok)
    | exact hr.leave h

theorem Env.Ranked.lowerReturn (hr : env.Ranked) {expression : Option Nat} {stmt : Target.Stmt}
    (h : env.lowerReturn routine id expression = .ok stmt) : stmt.Ranked := by
  cases expression with
  | some expression =>
    simp only [Env.lowerReturn, Result.bind_ok, Result.pure_ok] at h
    obtain ⟨_, hvalue, rfl⟩ := h
    have hranked := hr.lowerExpr hvalue
    exact hranked
  | none =>
    simp only [Env.lowerReturn, Env.lowerBareReturn] at h
    split at h
    · cases h
    · split at h
      · split at h <;> cases h
        · exact trivial
        · exact ranked_shadow routine.shadow
      · cases h
        exact ranked_shadow routine.shadow

theorem ranked_preserved {temp : String} {array allocation : Target.Expr} {type : Ty}
    (ha : array.Ranked) (he : allocation.Ranked) (ht : type.Ranked) :
    ∀ stmt ∈ Env.preserved temp array allocation type, stmt.Ranked := by
  have hcopied : (Target.Expr.staticCall "Math" "Min"
      [.field array "Length", .field (.ident temp) "Length"]).Ranked :=
    Target.Expr.ranked_staticCall.2
      (List.forall_mem_cons.2 ⟨ha, List.forall_mem_singleton.2 trivial⟩)
  have hcopy : (Target.Expr.staticCall "Array" "Copy" [array, .ident temp,
      .staticCall "Math" "Min" [.field array "Length", .field (.ident temp) "Length"]]).Ranked :=
    Target.Expr.ranked_staticCall.2 (List.forall_mem_cons.2 ⟨ha, List.forall_mem_cons.2
      ⟨trivial, List.forall_mem_singleton.2 hcopied⟩⟩)
  refine List.forall_mem_cons.2 ⟨⟨ht, he⟩, List.forall_mem_cons.2 ⟨hcopy, ?_⟩⟩
  exact List.forall_mem_singleton.2 ⟨ha, trivial⟩

theorem ReDims.ranked {operand : Nat} {preserve : Bool} (h : ReDims env operand preserve out)
    (hr : env.Ranked)
    (hb : preserve = true → env.forest.elements (operandBounds env.forest operand) ≠ []) :
    ∀ stmt ∈ out, stmt.Ranked := by
  cases h with
  | anew _ he ha hl =>
    exact List.forall_mem_singleton.2
      ⟨hr.lowerExpr ha, ranked_reDimElement hr.shaped he, hr.boundLengths hl, trivial⟩
  | preserved hx he ha hl =>
    have helement := ranked_reDimElement hr.shaped he
    refine ranked_preserved (hr.lowerExpr ha) ⟨helement, hr.boundLengths hl, trivial⟩
      ⟨helement, ?_⟩
    rw [length_boundLengths hl, ← operandBounds_of_call hx]
    exact List.length_pos_iff.2 (hb rfl)

theorem Env.Ranked.lowerMid (hr : env.Ranked) {target start source : Nat} {length : Option Nat}
    (h : env.lowerMid routine target start length source = .ok out) :
    ∀ stmt ∈ out, stmt.Ranked := by
  obtain ⟨place, first, count, value, hplace, hfirst, hcount, hvalue, rfl⟩ := lowerMid_ok h
  have hp := hr.assignmentTarget hplace
  have hc : count.Ranked := by
    cases length with
    | none =>
      cases hcount
      exact trivial
    | some x => exact hr.lowerExpr hcount
  refine List.forall_mem_singleton.2 ⟨hp, Target.Expr.ranked_staticCall.2 ?_⟩
  simp [hp, hc, hr.lowerExpr hfirst, hr.lowerExpr hvalue]

theorem Env.Ranked.lowerCompound (hr : env.Ranked) {op : Operator} {target source : Nat}
    (h : env.lowerCompound routine id op target source = .ok out) :
    ∀ stmt ∈ out, stmt.Ranked := by
  obtain ⟨place, right, value, hplace, hright, hvalue, rfl⟩ := lowerCompound_ok h
  have hp := hr.assignmentTarget hplace
  exact List.forall_mem_singleton.2 ⟨hp, ranked_binaryOperation hp (hr.lowerExpr hright) hvalue⟩

theorem Env.Ranked.lowerLocals (hr : env.Ranked) {modifiers declarators : Nat}
    (h : env.lowerLocals modifiers declarators = .ok out) : ∀ stmt ∈ out, stmt.Ranked := by
  simp only [Env.lowerLocals, Result.bind_ok, Result.pure_ok] at h
  obtain ⟨lists, hlists, rfl⟩ := h
  rw [List.forall_mem_flatten]
  refine Result.forall_mapM_ok (fun declarator _ stmts hstmts => ?_) hlists
  obtain ⟨vs, hvs, hstmts⟩ := Result.bind_ok.1 hstmts
  refine Result.forall_mapM_ok (fun v hv stmt hstmt => ?_) hstmts
  obtain ⟨htype, hinit⟩ := hr.declaredVariables hvs v hv
  unfold Env.declareLocal at hstmt
  split at hstmt
  · next hsome =>
    cases hstmt
    rw [hsome] at hinit
    exact ⟨htype, hinit⟩
  · split at hstmt
    · exact absurd hstmt unsupported_ne_ok
    · cases hstmt
      exact ⟨htype, ranked_zeroValue htype⟩

theorem LowersPlain.ranked (h : LowersPlain routine env id s out t) (hr : env.Ranked)
    (hb : StatesBounds env.forest id) : ∀ stmt ∈ out, stmt.Ranked := by
  cases h with
  | empty | endBlock => exact List.forall_mem_nil _
  | stop => exact List.forall_mem_singleton.2 ⟨trivial, trivial⟩
  | halt => exact List.forall_mem_singleton.2 ⟨trivial, trivial, trivial⟩
  | label | goto => exact List.forall_mem_singleton.2 trivial
  | goSub => exact List.forall_mem_cons.2 ⟨trivial, List.forall_mem_singleton.2 trivial⟩
  | exit _ hs => exact List.forall_mem_singleton.2 (hr.lowerExit hs)
  | returns _ hs => exact List.forall_mem_singleton.2 (hr.lowerReturn hs)
  | raiseEvent _ _ ha =>
    exact List.forall_mem_singleton.2 ⟨trivial, hr.lowerArguments ha⟩
  | reDim h hs =>
    obtain ⟨lists, rfl, hlists⟩ := lowerReDim_ok h hs
    rw [List.forall_mem_flatten]
    intro list hlist
    obtain ⟨operand, hoperand, hlowered⟩ := (mem_of_forall₂ hlists).2 list hlist
    refine hlowered.ranked hr fun hpreserve => ?_
    rw [hpreserve] at h
    exact hb _ h operand hoperand
  | erase _ ht =>
    refine List.forall_mem_map.2 fun array harray => ⟨?_, trivial⟩
    exact Result.forall_mapM_ok (fun _ _ _ => hr.lowerExpr) ht array harray
  | call _ hc ha =>
    exact List.forall_mem_singleton.2 (ranked_invocation (hr.lowerExpr hc)
      (Target.Expr.rankedAll_iff.1 (hr.lowerArguments ha)))
  | assignment _ hp hv =>
    exact List.forall_mem_singleton.2 ⟨hr.assignmentTarget hp, hr.lowerExpr hv⟩
  | compound _ hs => exact hr.lowerCompound hs
  | mid _ hs => exact hr.lowerMid hs
  | locals _ hs => exact hr.lowerLocals hs

end Plain

/-! ## Blocks -/

section Heads

variable {env : Env} {id : Nat}

theorem Env.Ranked.lowerCondition (hr : env.Ranked) {condition : LoopCondition}
    {test : Target.Expr} (h : env.lowerCondition condition = .ok test) : test.Ranked := by
  simp only [Env.lowerCondition, Result.bind_ok, Result.pure_ok] at h
  obtain ⟨value, hvalue, rfl⟩ := h
  have hranked := hr.lowerExpr hvalue
  unfold loopTest
  split <;> exact hranked

theorem Env.Ranked.declareControl (hr : env.Ranked) {declarator : Option Nat}
    {out : List Target.Stmt} (h : env.declareControl declarator = .ok out) :
    Target.Stmt.RankedAll out := by
  cases declarator with
  | none =>
    cases h
    exact trivial
  | some declarator =>
    simp only [Env.declareControl, Result.bind_ok, Result.pure_ok] at h
    obtain ⟨vs, hvs, rfl⟩ := h
    refine Target.Stmt.rankedAll_iff.2 (List.forall_mem_map.2 fun v hv => ?_)
    exact ⟨(hr.declaredVariables hvs v hv).1, trivial⟩

theorem Env.Ranked.step (hr : env.Ranked) {step : Option Nat} {lowered : Target.Expr}
    (h : step.elim (.ok (.int 1)) env.lowerExpr = .ok lowered) : lowered.Ranked := by
  cases step with
  | none =>
    cases h
    exact trivial
  | some step => exact hr.lowerExpr h

theorem Env.Ranked.lowerClause (hr : env.Ranked) {clause : Nat} {value test : Target.Expr}
    (hv : value.Ranked) (h : env.lowerClause value clause = .ok test) : test.Ranked := by
  unfold Env.lowerClause at h
  split at h
  · simp only [Result.bind_ok, Result.pure_ok] at h
    obtain ⟨_, hoperand, rfl⟩ := h
    exact ⟨hv, hr.lowerExpr hoperand⟩
  · simp only [Result.bind_ok, Result.pure_ok] at h
    obtain ⟨_, hlower, _, hupper, rfl⟩ := h
    exact ⟨⟨hv, hr.lowerExpr hlower⟩, hv, hr.lowerExpr hupper⟩
  · exact absurd h unsupported_ne_ok

theorem ranked_conjunction {tests : List Target.Expr} (h : ∀ e ∈ tests, e.Ranked)
    {test : Target.Expr} (ht : conjunction? tests = some test) : test.Ranked := by
  cases tests with
  | nil => cases ht
  | cons first rest =>
    cases ht
    refine List.foldlRecOn rest _ (h first List.mem_cons_self) fun test hl clause hc => ?_
    exact ⟨hl, h clause (List.mem_cons_of_mem _ hc)⟩

theorem Env.Ranked.lowerCaseTest (hr : env.Ranked) {case clauses : Nat}
    {value test : Target.Expr} (hv : value.Ranked)
    (h : env.lowerCaseTest value case clauses = .ok test) : test.Ranked := by
  simp only [Env.lowerCaseTest, Result.bind_ok] at h
  obtain ⟨tests, htests, h⟩ := h
  split at h
  · next htest =>
    cases h
    exact ranked_conjunction (Result.forall_mapM_ok (fun _ _ _ => hr.lowerClause hv) htests) htest
  · exact absurd h unsupported_ne_ok

theorem Env.Ranked.lowerSelector (hr : env.Ranked) {expression : Nat} {s t : BodyState}
    {declared : List Target.Stmt} {value : Target.Expr}
    (h : env.lowerSelector expression s = .ok ((declared, value), t)) :
    Target.Stmt.RankedAll declared ∧ value.Ranked := by
  obtain ⟨lowered, hlowered, ⟨rfl, rfl, _⟩ | ⟨rfl, rfl, _⟩⟩ := lowerSelector_ok h
  · exact ⟨trivial, hr.lowerExpr hlowered⟩
  · exact ⟨⟨⟨trivial, hr.lowerExpr hlowered⟩, trivial⟩, trivial⟩

theorem LoopHead.ranked {test : Target.Expr} {statements : Option Nat}
    (h : LoopHead env id test statements) (hr : env.Ranked) : test.Ranked := by
  cases h with
  | doBlock _ _ hc => exact hr.lowerCondition hc
  | endless => exact trivial
  | whileBlock _ hc => exact hr.lowerExpr hc

theorem Arm.ranked {value : Option Target.Expr} {test : Target.Expr} {statements : Option Nat}
    (h : Arm env id value test statements) (hr : env.Ranked)
    (hv : Target.Expr.RankedOptional value) : test.Ranked := by
  cases h with
  | elseIf _ hc => exact hr.lowerExpr hc
  | case _ hc => exact hr.lowerCaseTest hv hc

theorem ranked_comments (texts : List String) :
    Target.Stmt.RankedAll (texts.map Target.Stmt.comment) :=
  Target.Stmt.rankedAll_iff.2 (List.forall_mem_map.2 fun _ _ => trivial)

theorem ranked_chain {branches : List Branch} {last : List Target.Stmt}
    (h : ∀ branch ∈ branches, branch.1.Ranked ∧ Target.Stmt.RankedAll branch.2)
    (hlast : Target.Stmt.RankedAll last) : Target.Stmt.RankedAll (chain branches last) := by
  induction branches with
  | nil => exact hlast
  | cons branch branches ih =>
    obtain ⟨⟨htest, hbody⟩, hrest⟩ := List.forall_mem_cons.1 h
    exact ⟨⟨htest, hbody, ih hrest⟩, trivial⟩

end Heads

mutual

theorem Lowers.ranked {routine : Routine} {env : Env} {node id : Nat} {s t : BodyState}
    {out : List Target.Stmt} (h : Lowers routine env id s out t) (hr : env.Ranked)
    (hb : ∀ x ∈ env.forest.descendants node, StatesBounds env.forest x)
    (hid : id ∈ env.forest.descendants node) : Target.Stmt.RankedAll out := by
  match h with
  | .plain h => exact Target.Stmt.rankedAll_iff.2 (h.ranked hr (hb id hid))
  | .preTest h hbody =>
    exact ⟨⟨trivial, h.ranked hr, trivial, hbody.ranked hr hb (h.hasList.below hid)⟩, trivial⟩
  | .postTest h _ hbody hc =>
    have hlist : HasList env.forest id _ := ⟨_, h, rfl, rfl, rfl⟩
    refine ⟨⟨⟨trivial, trivial⟩, trivial, trivial, ?_⟩, trivial⟩
    exact (hbody.ranked hr hb (hlist.below hid)).append ⟨⟨trivial, hr.lowerCondition hc⟩, trivial⟩
  | .counted h hbody =>
    have hbody := hbody.ranked hr hb (h.hasList.below hid)
    cases h with
    | forBlock _ hd hc hl hu hs =>
      have hcontrol := hr.lowerExpr hc
      have hstep := hr.step hs
      exact (hr.declareControl hd).append ⟨⟨⟨hcontrol, hr.lowerExpr hl⟩,
        ⟨hcontrol, hr.lowerExpr hu⟩, ⟨hcontrol, hcontrol, hstep⟩, hbody⟩, trivial⟩
  | .element h hbody =>
    have hbody := hbody.ranked hr hb (h.hasList.below hid)
    cases h with
    | forEachBlock _ hd ht hc hx =>
      refine (hr.declareControl hd).append ⟨⟨⟨trivial, hr.lowerExpr hx, trivial⟩,
        ⟨trivial, trivial⟩, trivial,
        ⟨hr.lowerExpr hc, ranked_controlType hr.shaped ht, trivial⟩, hbody⟩, trivial⟩
  | .within h _ hsubject hbody =>
    exact hbody.ranked (hr.within (hr.lowerExpr hsubject)) hb
      (Forest.elements_below hid h (by simp [Stmt.lists]))
  | .ifBlock h hc hthen helseIfs helse =>
    refine ⟨⟨hr.lowerExpr hc, ?_, ranked_chain ?_ ?_⟩, trivial⟩
    · exact hthen.ranked hr hb (Forest.elements_below hid h (by simp [Stmt.lists]))
    · exact helseIfs.ranked hr trivial hb (Forest.elements_below hid h (by simp [Stmt.lists]))
    · exact helse.ranked hr hb (Forest.last_below hid h)
  | .lineIf h hc hthen helse =>
    refine ⟨⟨hr.lowerExpr hc, ?_, ?_⟩, trivial⟩
    · exact hthen.ranked hr hb (Forest.elements_below hid h (by simp [Stmt.lists]))
    · exact helse.ranked hr hb (Forest.elements_below hid h (by simp [Stmt.lists]))
  | .select h hs hcases helse =>
    obtain ⟨hdeclared, hvalue⟩ := hr.lowerSelector hs
    refine hdeclared.append (ranked_chain ?_ ?_)
    · exact hcases.ranked hr hvalue hb (Forest.elements_below hid h (by simp [Stmt.lists]))
    · exact helse.ranked hr hb (Forest.last_below hid h)

theorem LowersAll.ranked {routine : Routine} {env : Env} {node : Nat} {ids : List Nat}
    {s t : BodyState} {out : List Target.Stmt} (h : LowersAll routine env ids s out t)
    (hr : env.Ranked) (hb : ∀ x ∈ env.forest.descendants node, StatesBounds env.forest x)
    (hids : ∀ id ∈ ids, id ∈ env.forest.descendants node) : Target.Stmt.RankedAll out := by
  match h with
  | .nil => exact trivial
  | .cons h hrest =>
    have hfirst := h.ranked hr hb (hids _ List.mem_cons_self)
    have hrest := hrest.ranked hr hb fun id hid => hids id (List.mem_cons_of_mem _ hid)
    exact ((ranked_comments _).append hfirst).append hrest

theorem LowersBranches.ranked {routine : Routine} {env : Env} {value : Option Target.Expr}
    {node : Nat} {ids : List Nat} {s t : BodyState} {branches : List Branch}
    (h : LowersBranches routine env value ids s branches t) (hr : env.Ranked)
    (hv : Target.Expr.RankedOptional value)
    (hb : ∀ x ∈ env.forest.descendants node, StatesBounds env.forest x)
    (hids : ∀ id ∈ ids, id ∈ env.forest.descendants node) :
    ∀ branch ∈ branches, branch.1.Ranked ∧ Target.Stmt.RankedAll branch.2 := by
  match h with
  | .nil => exact List.forall_mem_nil _
  | .cons harm hbody hrest =>
    have hbody := hbody.ranked hr hb (harm.hasList.below (hids _ List.mem_cons_self))
    have hrest := hrest.ranked hr hv hb fun id hid => hids id (List.mem_cons_of_mem _ hid)
    exact List.forall_mem_cons.2 ⟨⟨harm.ranked hr hv, hbody⟩, hrest⟩

theorem LowersElse.ranked {routine : Routine} {env : Env} {block : Option Nat} {node : Nat}
    {s t : BodyState} {out : List Target.Stmt} (h : LowersElse routine env block s out t)
    (hr : env.Ranked) (hb : ∀ x ∈ env.forest.descendants node, StatesBounds env.forest x)
    (hblock : ∀ y, block = some y → y ∈ env.forest.descendants node) :
    Target.Stmt.RankedAll out := by
  match h with
  | .none => exact trivial
  | .some h hbody =>
    exact hbody.ranked hr hb (Forest.elements_below (hblock _ rfl) h (by simp [Stmt.lists]))

end

/-! ## Bodies -/

section Bodies

variable {env : Env} {forest : Forest} {settings : Settings} {body : List Target.Stmt}

theorem ranked_lowerRoutine (hr : env.Ranked) {node : Nat} {name : String} {returnType : Ty}
    {statements : Option Nat} (ht : returnType.Ranked)
    (hbelow : ∀ x ∈ env.forest.elements statements, x ∈ env.forest.descendants node)
    (hb : ∀ x ∈ env.forest.descendants node, StatesBounds env.forest x)
    (h : env.lowerRoutine node name returnType statements = .ok body) :
    Target.Stmt.RankedAll body := by
  obtain ⟨out, state, hout, rfl⟩ := lowerRoutine_ok h
  have hranked := (lowersAll_of_lowerBody hout).ranked hr hb hbelow
  unfold Env.withShadow
  split
  · exact Target.Stmt.RankedAll.append ⟨⟨ht, ranked_zeroValue ht⟩, hranked⟩ ⟨trivial, trivial⟩
  · exact hranked

/-- The result of a routine that lowering enters has a type of the tree. -/
theorem Env.Enters.ranked {node : Nat} {routine : Routine} {statements : Option Nat}
    (h : env.Enters node routine statements) (hf : env.forest.Shaped) :
    routine.returnType.Ranked := by
  cases h with
  | method _ _ hform =>
    unfold Env.methodForm at hform
    split at hform
    · cases hform
      exact trivial
    · simp only [Result.bind_ok, Result.pure_ok] at hform
      obtain ⟨type, htype, hform⟩ := hform
      cases hform
      exact ranked_variableType hf htype
    · cases hform
      exact trivial
    · exact absurd hform unsupported_ne_ok
  | accessor _ _ ht =>
    unfold accessorType
    split
    · exact ranked_variableType hf ht
    · exact trivial

/-- What a `ReDim` brings is the lowering of its operands. -/
theorem Brings.reDim {routine : Routine} {f : Forest} {node x arrays : Nat} {preserve : Bool}
    {piece : List Target.Stmt} (h : Brings routine f node x piece)
    (hstmt : f.stmt? x = some (.reDim preserve arrays)) :
    ∃ env lists, Env.forest env = f ∧ piece = lists.flatten ∧
      List.Forall₂ (fun operand => ReDims env operand preserve)
        (f.elements (some arrays)) lists := by
  obtain ⟨env, s, t, rfl, hplain⟩ := h.plain_of_lists hstmt rfl
  have hs : env.lowerReDim x preserve arrays s = .ok (piece, t) := by
    cases hplain with
    | reDim h hs =>
      rw [hstmt] at h
      cases h
      exact hs
    | _ => simp_all
  obtain ⟨lists, hpiece, hlists⟩ := lowerReDim_ok hstmt hs
  exact ⟨env, lists, rfl, hpiece, hlists⟩

theorem RoutineBody.statesBounds (r : RoutineBody forest settings body) (hl : forest.Linked)
    (hf : forest.Shaped) (h : Target.Stmt.RankedAll body) :
    ∀ x ∈ forest.descendants r.node, StatesBounds forest x := by
  intro x hx arrays hstmt operand hoperand hempty
  obtain ⟨out, piece, hcensus⟩ := r.census hl hf
  have hwhole : x ∈ wholesBelow forest r.node := mem_wholesBelow.2 ⟨hx, _, hstmt, rfl⟩
  obtain ⟨env, lists, hforest, hpiece, hlists⟩ := (hcensus.brings x hwhole).reDim hstmt
  obtain ⟨list, hlist, hlowered⟩ := (mem_of_forall₂ hlists).1 operand hoperand
  -- the temporary is declared with an array type of as many dimensions as there are bounds
  cases hlowered with
  | preserved hexpr _ _ hlengths =>
    have hdeclared : Target.Stmt.Ranked _ :=
      h.atoms _ (hcensus.mem_atoms.2 (Or.inr ⟨x, hwhole, by
        rw [hpiece]
        exact List.mem_flatten.2 ⟨_, hlist, List.mem_cons_self⟩⟩))
    have hpos := hdeclared.1.2
    rw [length_boundLengths hlengths, ← operandBounds_of_call hexpr, hforest, hempty] at hpos
    exact absurd hpos (by simp)

end Bodies

/-! ## Members -/

/-- The member is ranked if its bodies are. -/
def RankedOutside (member : Target.Member) : Prop :=
  (∀ body, member.HasBody body → Target.Stmt.RankedAll body) → member.Ranked

section Members

variable {env : Env} {id : Nat}

theorem Env.Ranked.lowerParameter (hr : env.Ranked) {p : Target.Parameter}
    (h : env.lowerParameter id = .ok p) : p.Ranked := by
  unfold Env.lowerParameter at h
  split at h
  · next parameter _ =>
    simp only [Result.bind_ok, Result.pure_ok] at h
    obtain ⟨default, hdefault, _, _, type, htype, rfl⟩ := h
    refine ⟨ranked_variableType hr.shaped htype, ?_⟩
    unfold Env.defaultValue at hdefault
    split at hdefault
    · cases hdefault
      exact trivial
    · split at hdefault
      · simp only [Result.bind_ok, Result.pure_ok] at hdefault
        obtain ⟨_, hvalue, rfl⟩ := hdefault
        have hranked := hr.lowerExpr hvalue
        exact hranked
      · exact absurd hdefault unsupported_ne_ok
  · exact absurd h unsupported_ne_ok

theorem Env.Ranked.lowerParameters (hr : env.Ranked) {list : Option Nat}
    {ps : List Target.Parameter} (h : env.lowerParameters list = .ok ps) : ∀ p ∈ ps, p.Ranked :=
  Result.forall_mapM_ok (fun _ _ _ => hr.lowerParameter) h

theorem Env.Ranked.lowerFields (hr : env.Ranked) {header : Header} {declarators : Nat}
    {inModule : Bool} {fields : List Target.Field}
    (h : env.lowerFields id header declarators inModule = .ok fields) :
    ∀ field ∈ fields, Target.Member.Ranked (.field field) := by
  simp only [Env.lowerFields, Result.bind_ok, Result.pure_ok] at h
  obtain ⟨lists, hlists, rfl⟩ := h
  have hall : ∀ field ∈ lists.flatten, Target.Member.Ranked (.field field) := by
    rw [List.forall_mem_flatten]
    refine Result.forall_mapM_ok (fun declarator _ fields hfields => ?_) hlists
    obtain ⟨vs, hvs, hfields⟩ := Result.bind_ok.1 hfields
    refine Result.forall_mapM_ok (fun v hv field hfield => ?_) hfields
    have hranked := hr.declaredVariables hvs v hv
    unfold Env.lowerField at hfield
    split at hfield
    · exact absurd hfield unsupported_ne_ok
    · cases hfield
      exact hranked
  cases hflat : lists.flatten with
  | nil => exact List.forall_mem_nil _
  | cons field rest =>
    -- the first field takes the comments of the list
    rw [hflat] at hall
    obtain ⟨hfirst, hrest⟩ := List.forall_mem_cons.1 hall
    exact List.forall_mem_cons.2 ⟨hfirst, hrest⟩

theorem Env.Ranked.lowerEnum (hr : env.Ranked) {header : Header} {name : Nat}
    {underlying members : Option Nat} {enumeration : Target.Enumeration}
    (h : env.lowerEnum header name underlying members = .ok enumeration) :
    enumeration.Ranked := by
  simp only [Env.lowerEnum, Result.bind_ok, Result.pure_ok] at h
  obtain ⟨_, _, type, htype, values, hvalues, rfl⟩ := h
  refine ⟨fun stated hstated => ?_, fun member hmember => ?_⟩
  · unfold Env.lowerOptionalType at htype
    split at htype
    · simp only [Result.bind_ok, Result.pure_ok] at htype
      obtain ⟨_, hlowered, rfl⟩ := htype
      cases hstated
      exact ranked_lowerType hr.shaped hlowered
    · cases htype
      cases hstated
  · obtain ⟨value, hmem, hvalue⟩ := List.mem_filterMap.1 hmember
    refine Result.forall_mapM_ok (Q := fun value => ∀ member, value = some member →
      Target.Expr.RankedOptional member.value) (fun x _ value hx => ?_) hvalues value hmem member
      hvalue
    unfold Env.lowerEnumMember at hx
    split at hx
    · next value _ =>
      cases value with
      | none =>
        simp only [Result.bind_ok, Result.pure_ok] at hx
        obtain ⟨_, rfl, _, _, rfl⟩ := hx
        rintro member ⟨⟩
        exact trivial
      | some value =>
        simp only [Result.bind_ok, Result.map_ok, Result.pure_ok] at hx
        obtain ⟨_, ⟨lowered, hlowered, rfl⟩, _, _, rfl⟩ := hx
        have hranked := hr.lowerExpr hlowered
        rintro member ⟨⟩
        exact hranked
    · cases hx
      rintro member ⟨⟩
    · cases hx
      rintro member ⟨⟩
    · exact absurd hx unsupported_ne_ok

theorem Env.Ranked.lowerMethod (hr : env.Ranked) {header : Header} {signature : Signature}
    {operator : Option Operator} {implements statements tail : Option Nat} {owner : String}
    {inModule : Bool} {method : Target.Method}
    (hdecl : env.forest.decl? id =
      some (.method header signature operator implements statements tail))
    (h : env.lowerMethod id header signature statements owner inModule = .ok method) :
    RankedOutside (.method method) := by
  simp only [Env.lowerMethod, Result.bind_ok, Result.pure_ok] at h
  obtain ⟨name, hname, ⟨kind, methodName, returnType⟩, hform, ps, hps, body, hbody, _, _, rfl⟩ := h
  have htype := (Env.Enters.method hdecl hname hform).ranked hr.shaped
  exact fun hb => ⟨hr.lowerParameters hps, htype, hb _ (.method _)⟩

theorem Env.Ranked.lowerExternal (hr : env.Ranked) {header : Header} {signature : Signature}
    {entry : Target.Entry} {method : Target.Method}
    (h : env.lowerExternal id header signature entry = .ok method) :
    RankedOutside (.method method) := by
  unfold Env.lowerExternal at h
  split at h <;> simp only [Result.bind_ok, Result.pure_ok] at h
  · obtain ⟨type, htype, _, _, ps, hps, rfl⟩ := h
    exact fun hb => ⟨hr.lowerParameters hps, ranked_variableType hr.shaped htype, trivial⟩
  · obtain ⟨_, rfl, _, _, ps, hps, rfl⟩ := h
    exact fun hb => ⟨hr.lowerParameters hps, trivial, trivial⟩

theorem Env.Ranked.lowerProperty (hr : env.Ranked) {header : Header} {signature : Signature}
    {accessors : Option Nat} {inModule : Bool} {p : Target.Property}
    (h : env.lowerProperty id header signature accessors inModule = .ok p) :
    RankedOutside (.property p) := by
  simp only [Env.lowerProperty, Result.bind_ok] at h
  obtain ⟨name, _, type, htype, ps, hps, h⟩ := h
  obtain ⟨ht, hparameters⟩ : p.type = type ∧ p.parameters = ps := by
    refine Result.foldlM_ok (P := fun _ q => q.type = type ∧ q.parameters = ps) ?_ _ ⟨rfl, rfl⟩ h
    rintro x xs p q ⟨rfl, rfl⟩ hadd
    exact (addAccessor_ok hadd).2
  intro hb
  refine ⟨?_, ?_, fun body h => hb body (.getter h), fun body h => hb body (.setter h)⟩
  · rw [ht]
    exact ranked_variableType hr.shaped htype
  · rw [hparameters]
    exact hr.lowerParameters hps

end Members

mutual

theorem LowersType.ranked {env : Env} {id : Nat} {type : Target.TypeDecl}
    (h : LowersType env id type) (hr : env.Ranked) : RankedOutside (.type type) := by
  match h with
  | .block _ _ _ _ ha =>
    obtain ⟨hbases, hmembers⟩ := ha.ranked hr
    intro hb
    refine ⟨Ty.rankedAll_iff.2 hbases, Target.Member.rankedAll_iff.2 fun member hm => ?_⟩
    exact hmembers member hm fun body h => hb body (.nested hm h)

theorem LowersAdditions.ranked {env : Env} {owner : String} {inModule : Bool} {ids : List Nat}
    {additions : List Env.Addition} (h : LowersAdditions env owner inModule ids additions)
    (hr : env.Ranked) : (∀ type ∈ Env.baseTypes additions, type.Ranked) ∧
      ∀ member ∈ Env.memberList additions, RankedOutside member := by
  match h with
  | .nil => exact ⟨List.forall_mem_nil _, List.forall_mem_nil _⟩
  | .bases _ ht hs =>
    obtain ⟨hbases, hmembers⟩ := hs.ranked hr
    have hfirst := Result.forall_mapM_ok (fun _ _ _ => ranked_lowerType hr.shaped) ht
    exact ⟨List.forall_mem_append.2 ⟨hfirst, hbases⟩, hmembers⟩
  | .members h hs =>
    obtain ⟨hbases, hmembers⟩ := hs.ranked hr
    exact ⟨hbases, List.forall_mem_append.2 ⟨h.ranked hr, hmembers⟩⟩

theorem LowersMembers.ranked {env : Env} {owner : String} {inModule : Bool} {id : Nat}
    {members : List Target.Member} (h : LowersMembers env owner inModule id members)
    (hr : env.Ranked) : ∀ member ∈ members, RankedOutside member := by
  match h with
  | .empty _ => exact List.forall_mem_nil _
  | .endBlock _ => exact List.forall_mem_nil _
  | .fields _ hs => exact List.forall_mem_map.2 fun field hfield _ => hr.lowerFields hs field hfield
  | .method hdecl hs => exact List.forall_mem_singleton.2 (hr.lowerMethod hdecl hs)
  | .external _ hs => exact List.forall_mem_singleton.2 (hr.lowerExternal hs)
  | .property _ hs => exact List.forall_mem_singleton.2 (hr.lowerProperty hs)
  | .enumeration _ hs => exact List.forall_mem_singleton.2 fun _ => hr.lowerEnum hs
  | .type ht => exact List.forall_mem_singleton.2 (ht.ranked hr)

end

/-! ## Programs -/

/-- Bodies aside, what a file has given so far is ranked. -/
structure FileState.RankedOutside (state : FileState) : Prop where
  type : ∀ type, state.type = some type → Lowering.RankedOutside (.type type)
  members : ∀ member ∈ state.members, Lowering.RankedOutside member

section Files

variable {forest : Forest} {settings : Settings}

theorem ranked_atTop (hf : forest.Shaped) (options : Target.SourceOptions) :
    (Env.atTop forest settings options).Ranked :=
  ⟨hf, List.forall_mem_nil _⟩

theorem LowersTop.ranked {id : Nat} {state next : FileState}
    (h : LowersTop forest settings id state next) (hf : forest.Shaped)
    (hs : state.RankedOutside) : next.RankedOutside := by
  cases h with
  | directive => exact ⟨hs.type, hs.members⟩
  | imports => exact ⟨hs.type, hs.members⟩
  | empty => exact hs
  | endBlock => exact hs
  | type ht =>
    refine ⟨fun type htype => ?_, hs.members⟩
    cases htype
    exact ht.ranked (ranked_atTop hf _)
  | members hm =>
    exact ⟨hs.type, List.forall_mem_append.2 ⟨hs.members, hm.ranked (ranked_atTop hf _)⟩⟩

theorem LowersFile.ranked {ids : List Nat} {state last : FileState}
    (h : LowersFile forest settings ids state last) (hf : forest.Shaped)
    (hs : state.RankedOutside) : last.RankedOutside := by
  induction h with
  | nil => exact hs
  | cons h _ ih => exact ih (h.ranked hf hs)

variable {tree : Tree} {program : Target.Program}

theorem program_rankedOutside (hf : tree.toForest.Shaped)
    (h : lowerFile tree settings = .ok program) : RankedOutside (.type program.type) := by
  obtain ⟨file, state, _, hfile, htype⟩ := lowersFile_of_lowerFile h
  have hranked := hfile.ranked hf ⟨fun _ h => (nomatch h), List.forall_mem_nil _⟩
  rw [htype]
  cases hstate : state.type with
  | some type => exact hranked.type type hstate
  | none =>
    intro hb
    refine ⟨trivial, Target.Member.rankedAll_iff.2 fun member hm => ?_⟩
    exact hranked.members member hm fun body h => hb body (.nested hm h)

/-- A lowered program is ranked exactly if every `ReDim Preserve` that it comes from states a bound
for each of its arrays. -/
theorem program_ranked_iff (ht : tree.Finished) (h : lowerFile tree settings = .ok program) :
    program.Ranked ↔ ∀ body, program.HasBody body →
      ∀ r : RoutineBody tree.toForest settings body,
        ∀ x ∈ tree.descendants r.node, StatesBounds tree.toForest x := by
  have hl := ht.built.linked
  have hf := ht.built.shaped
  constructor
  · intro hranked body hbody r
    exact r.statesBounds hl hf (Target.Member.Ranked.body hbody hranked)
  · intro hbounds
    refine program_rankedOutside hf h fun body hbody => ?_
    cases body_entered h hbody with
    | empty => exact trivial
    | routine henters hlowered =>
      have hb := hbounds body hbody ⟨_, _, _, _, _, henters.holds, hlowered⟩
      exact ranked_lowerRoutine (ranked_atTop hf _) (henters.ranked hf) henters.holds.below hb
        hlowered

end Files

end StructuredBasic.Lowering
