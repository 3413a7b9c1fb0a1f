import StructuredBasic.Proofs.Lowering.Fresh
import StructuredBasic.Proofs.Lowering.Names
import StructuredBasic.Proofs.Lowering.Routines
import StructuredBasic.Proofs.Lowering.Support
import StructuredBasic.Proofs.Machine.Coverage

/-!
# Synthesized locals are declared before use

Lowering makes up locals: the result of a routine, the latch of a loop, an enumerator, a selected
value, an array to copy into. Each is declared in front of its uses, and lowered expressions of the
source mention none of them, so lowered statements are covered for every name that is no name of the
source (`LowersAll.covers`).
-/

set_option autoImplicit false

namespace StructuredBasic.Lowering

open Syntax Machine

/-! ## Plain statements -/

theorem clear_of_named {n : String} {e : Target.Expr} (h : e.Named (· ≠ n)) (d : Bool) :
    Clear n d e.idents :=
  Or.inr fun hmem => h n hmem rfl

/-- What lowering in a routine is known to meet: `n` is no name of the source below `node` and not
the local that holds the result. -/
structure Foreign (routine : Routine) (env : Env) (node : Nat) (n : String) : Prop where
  spells : Spells (· ≠ n) env node
  shadow : routine.shadow ≠ some n

section Statements

variable {routine : Routine} {env : Env} {node id : Nat} {n : String} {s t : BodyState}
  {out : List Target.Stmt}

theorem Foreign.clear (h : Foreign routine env node n) {x : Nat} {e : Target.Expr}
    (hx : x ∈ env.forest.descendants node) (he : env.lowerExpr x = .ok e) (d : Bool) :
    Clear n d e.idents :=
  clear_of_named (h.spells.lowerExpr hx he) d

theorem Foreign.shadow_ne (h : Foreign routine env node n) {shadow : String}
    (hs : routine.shadow = some shadow) : shadow ≠ n := by
  rintro rfl
  exact h.shadow hs

theorem Foreign.clear_shadow (h : Foreign routine env node n) (d : Bool) :
    Clear n d (Target.Expr.identsOptional (routine.shadow.map Target.Expr.ident)) := by
  cases hs : routine.shadow with
  | none => exact Or.inr List.not_mem_nil
  | some shadow => exact clear_of_named (Target.Expr.named_ident.2 (h.shadow_ne hs)) d

theorem Foreign.assignmentTarget (h : Foreign routine env node n) {x : Nat} {e : Target.Expr}
    (hx : x ∈ env.forest.descendants node) (he : env.assignmentTarget routine x = .ok e) :
    e.Named (· ≠ n) := by
  unfold Env.assignmentTarget at he
  split at he
  · next shadow hs =>
    split at he
    · cases he
      exact Target.Expr.named_ident.2 (h.shadow_ne hs)
    · exact h.spells.lowerExpr hx he
  · exact h.spells.lowerExpr hx he

theorem Foreign.exit (h : Foreign routine env node n) {block : Block} {stmt : Target.Stmt}
    (hs : env.lowerExit routine id block = .ok stmt) (d : Bool) : Covered n d stmt := by
  rcases lowerExit_ok hs with rfl | rfl | ⟨type, rfl⟩
  · exact trivial
  · exact h.clear_shadow d
  · exact clear_of_named (named_zeroValue type) d

theorem Foreign.returns (h : Foreign routine env node n) {expression : Option Nat}
    (hsub : ∀ x, expression = some x → x ∈ env.forest.descendants node) {stmt : Target.Stmt}
    (hs : env.lowerReturn routine id expression = .ok stmt) (d : Bool) : Covered n d stmt := by
  cases expression with
  | some x =>
    simp only [Env.lowerReturn, Result.bind_ok, Result.pure_ok] at hs
    obtain ⟨e, he, rfl⟩ := hs
    exact h.clear (hsub x rfl) he d
  | none =>
    simp only [Env.lowerReturn, Env.lowerBareReturn] at hs
    split at hs
    · cases hs
    · split at hs
      · split at hs
        · cases hs
          exact trivial
        · cases hs
          exact h.clear_shadow d
      · cases hs
        exact h.clear_shadow d

/-- The temporary of a `ReDim Preserve` is declared first. -/
theorem covers_preserved {temp : String} {array allocation : Target.Expr} {type : Target.Ty}
    (harray : array.Named (· ≠ n)) (hallocation : allocation.Named (· ≠ n)) :
    Covers n (Env.preserved temp array allocation type) := by
  intro entry d
  refine ⟨clear_of_named hallocation d, ?_⟩
  by_cases htemp : temp = n
  · have hafter : declaredAfter n entry d (.declare temp type (some allocation)) = true := by
      simp [declaredAfter, declares, htemp]
    rw [hafter]
    exact ⟨covered_true n _, covered_true n _, trivial⟩
  · refine ⟨clear_of_named ?_ _, ⟨clear_of_named harray _, clear_of_named ?_ _⟩, trivial⟩
    · simp [Target.Expr.staticCall, harray, htemp]
    · exact Target.Expr.named_ident.2 htemp

theorem Foreign.reDim (h : Foreign routine env node n) {preserve : Bool} {arrays : Nat}
    (hid : id ∈ env.forest.descendants node)
    (hstmt : env.forest.stmt? id = some (.reDim preserve arrays))
    (hs : env.lowerReDim id preserve arrays s = .ok (out, t)) : Covers n out := by
  simp only [Env.lowerReDim, Lower.bind_ok, Lower.pure_ok] at hs
  obtain ⟨lists, _, hlists, rfl, rfl⟩ := hs
  refine covers_flatten ?_
  refine Lower.mapM_ok (R := fun _ _ lists _ => ∀ l ∈ lists, Covers n l)
    (fun _ l hl => by cases hl) ?_ hlists
  rintro ⟨operand, declarator⟩ hmem _ s b u bs t hoperand hrest
  refine List.forall_mem_cons.2 ⟨?_, hrest⟩
  have hx : operand ∈ env.forest.descendants node := by
    have harrays := Forest.mem_children_of_stmt hstmt (c := arrays) (by simp [Stmt.slots, Slot.one])
    exact Forest.mem_descendants_child (Forest.mem_descendants_child hid harrays)
      (Forest.mem_children_of_elements (List.of_mem_zip hmem).1)
  obtain ⟨target, arguments, known, element, array, lengths, hexpr, harray, hlengths, hcases⟩ :=
    lowerReDimOperand_ok hoperand
  have hnamed : array.Named (· ≠ n) := by
    refine h.spells.lowerExpr (Forest.mem_descendants_child hx ?_) harray
    exact Forest.mem_children_of_expr hexpr (by simp [Expr.slots, Slot.expr, Slot.one])
  have hallocation : (Target.Expr.arrayCreate element lengths none).Named (· ≠ n) := by
    refine Target.Expr.named_arrayCreate_none.2 (h.spells.boundLengths (fun c hc => ?_) hlengths)
    subst hc
    exact Forest.mem_descendants_child hx (Forest.mem_children_of_expr hexpr
      (by simp [Expr.slots, Slot.arguments, Slot.opt]))
  rcases hcases with ⟨_, rfl, _⟩ | ⟨_, base, type, _, rfl, _⟩
  · exact covers_singleton fun d => ⟨clear_of_named hnamed d, clear_of_named hallocation d⟩
  · exact covers_preserved hnamed hallocation

theorem Foreign.locals (h : Foreign routine env node n) {modifiers declarators : Nat}
    (hid : id ∈ env.forest.descendants node)
    (hstmt : env.forest.stmt? id = some (.localDeclaration modifiers declarators))
    (hs : env.lowerLocals modifiers declarators = .ok out) : Covers n out := by
  simp only [Env.lowerLocals, Result.bind_ok, Result.pure_ok] at hs
  obtain ⟨lists, hlists, rfl⟩ := hs
  refine covers_flatten (Result.forall_mapM_ok (fun declarator hmem stmts hstmts => ?_) hlists)
  have hx : declarator ∈ env.forest.descendants node := by
    have hlist := Forest.mem_children_of_stmt hstmt (c := declarators)
      (by simp [Stmt.slots, Slot.one])
    exact Forest.mem_descendants_child (Forest.mem_descendants_child hid hlist)
      (Forest.mem_children_of_elements hmem)
  rw [Result.bind_ok] at hstmts
  obtain ⟨vs, hvs, hstmts⟩ := hstmts
  refine covers_of_forall (Result.forall_mapM_ok (fun v hv stmt hstmt d => ?_) hstmts)
  unfold Env.declareLocal at hstmt
  split at hstmt
  · next init hinit =>
    cases hstmt
    exact clear_of_named (h.spells.declaredVariables hx hvs v hv init hinit) d
  · split at hstmt
    · exact absurd hstmt unsupported_ne_ok
    · cases hstmt
      exact clear_of_named (named_zeroValue v.type) d

theorem Foreign.compound (h : Foreign routine env node n) {op : Operator} {target source : Nat}
    (ht : target ∈ env.forest.descendants node) (hsource : source ∈ env.forest.descendants node)
    (hs : env.lowerCompound routine id op target source = .ok out) : Covers n out := by
  obtain ⟨place, value, result, hplace, hvalue, hresult, rfl⟩ := lowerCompound_ok hs
  have hp := h.assignmentTarget ht hplace
  have hr := named_binaryOperation hp (h.spells.lowerExpr hsource hvalue) hresult
  exact covers_singleton fun d => ⟨clear_of_named hp d, clear_of_named hr d⟩

theorem Foreign.mid (h : Foreign routine env node n) {target start source : Nat}
    {length : Option Nat} (hid : id ∈ env.forest.descendants node)
    (hstmt : env.forest.stmt? id = some (.midAssignment target start length source))
    (hs : env.lowerMid routine target start length source = .ok out) : Covers n out := by
  have part : ∀ {c : Nat}, c ∈ (Stmt.midAssignment target start length source).slots.map Slot.id →
      c ∈ env.forest.descendants node :=
    fun hc => Forest.mem_descendants_child hid (Forest.mem_children_of_stmt hstmt hc)
  obtain ⟨place, first, count, value, hplace, hfirst, hcount, hvalue, rfl⟩ := lowerMid_ok hs
  have hp := h.assignmentTarget (part (by simp [Stmt.slots, Slot.expr, Slot.one])) hplace
  have hf := h.spells.lowerExpr (part (by simp [Stmt.slots, Slot.expr, Slot.one])) hfirst
  have hv := h.spells.lowerExpr (part (by simp [Stmt.slots, Slot.expr, Slot.one])) hvalue
  have hc : count.Named (· ≠ n) := by
    cases length with
    | some x =>
      exact h.spells.lowerExpr (part (by simp [Stmt.slots, Slot.expr, Slot.opt, Slot.one])) hcount
    | none =>
      cases hcount
      exact Target.Expr.named_field.2 Target.Expr.named_typeRef
  refine covers_singleton fun d => ⟨clear_of_named hp d, clear_of_named ?_ d⟩
  simp [Target.Expr.staticCall, hp, hf, hv, hc]

theorem LowersPlain.covers (h : LowersPlain routine env id s out t)
    (hf : Foreign routine env node n) (hid : id ∈ env.forest.descendants node) :
    Covers n out := by
  have part : ∀ {stmt : Stmt} {c : Nat}, env.forest.stmt? id = some stmt →
      c ∈ stmt.slots.map Slot.id → c ∈ env.forest.descendants node :=
    fun hstmt hc => Forest.mem_descendants_child hid (Forest.mem_children_of_stmt hstmt hc)
  cases h with
  | empty => exact covers_nil
  | stop =>
    exact covers_singleton (clear_of_named (by simp [Target.Expr.staticCall]))
  | halt =>
    exact covers_singleton
      (clear_of_named (by simp [Target.Expr.staticCall, Target.Expr.int]))
  | endBlock => exact covers_nil
  | label => exact covers_singleton fun d => trivial
  | goto => exact covers_singleton fun d => trivial
  | goSub => exact fun entry d => ⟨trivial, trivial, trivial⟩
  | exit h hs => exact covers_singleton (hf.exit hs)
  | returns h hs =>
    refine covers_singleton (hf.returns ?_ hs)
    rintro x rfl
    exact part h (by simp [Stmt.slots, Slot.opt])
  | raiseEvent h hn ha =>
    have hname := hf.spells.nameText (part h (by simp [Stmt.slots, Slot.one])) hn
    have hargs := hf.spells.lowerArguments (fun c hc => part h (c := c)
      (by simp [Stmt.slots, Slot.arguments, Slot.opt, hc])) ha
    refine covers_singleton (clear_of_named (Target.Expr.named_delegateInvoke.2 ⟨?_, hargs⟩))
    exact Target.Expr.named_ident.2 hname
  | reDim h hs => exact hf.reDim hid h hs
  | erase h ht =>
    refine covers_of_forall fun stmt hstmt d => ?_
    obtain ⟨array, harray, rfl⟩ := List.mem_map.1 hstmt
    have hall := Result.forall_mapM_ok (Q := Target.Expr.Named (· ≠ n)) (fun x hx e he =>
      hf.spells.lowerExpr (Forest.mem_descendants_child (part h (by simp [Stmt.slots, Slot.one]))
        (Forest.mem_children_of_elements hx)) he) ht
    exact ⟨clear_of_named (hall array harray) d, clear_of_named Target.Expr.named_null d⟩
  | call h hc ha =>
    have hcallee := hf.spells.lowerExpr (part h (by simp [Stmt.slots, Slot.expr, Slot.one])) hc
    have hargs := hf.spells.lowerArguments (fun c hc => part h (c := c)
      (by simp [Stmt.slots, Slot.arguments, Slot.opt, hc])) ha
    exact covers_singleton (clear_of_named (named_invocation hcallee hargs))
  | assignment h hp hv =>
    have hplace := hf.assignmentTarget (part h (by simp [Stmt.slots, Slot.expr, Slot.one])) hp
    exact covers_singleton fun d => ⟨clear_of_named hplace d,
      hf.clear (part h (by simp [Stmt.slots, Slot.expr, Slot.one])) hv d⟩
  | compound h hs =>
    exact hf.compound (part h (by simp [Stmt.slots, Slot.expr, Slot.one]))
      (part h (by simp [Stmt.slots, Slot.expr, Slot.one])) hs
  | mid h hs => exact hf.mid hid h hs
  | locals h hs => exact hf.locals hid h hs

end Statements

/-! ## Blocks -/

section Blocks

variable {routine : Routine} {env : Env} {node id : Nat} {n : String}

theorem covered_preTestLoop {test : Target.Expr} {body : List Target.Stmt}
    (ht : test.Named (· ≠ n)) (hb : Covers n body) (d : Bool) :
    Covered n d (preTestLoop test body) :=
  ⟨trivial, clear_of_named ht _, trivial, hb _ _⟩

theorem covered_countedLoop {control lower upper step : Target.Expr} {body : List Target.Stmt}
    (hc : control.Named (· ≠ n)) (hl : lower.Named (· ≠ n)) (hu : upper.Named (· ≠ n))
    (hs : step.Named (· ≠ n)) (hb : Covers n body) (d : Bool) :
    Covered n d (countedLoop control lower upper step body) :=
  ⟨⟨clear_of_named hc _, clear_of_named hl _⟩,
    clear_of_named (Target.Expr.named_binary.2 ⟨hc, hu⟩) _,
    ⟨clear_of_named hc _, clear_of_named (Target.Expr.named_binary.2 ⟨hc, hs⟩) _⟩, hb _ _⟩

/-- A loop may use the local that its first statement declares. -/
theorem covered_iteration_declare {name : String} {type : Target.Ty} {init test : Target.Expr}
    {body : List Target.Stmt} (hi : init.Named (· ≠ n))
    (hother : name ≠ n → test.Named (· ≠ n) ∧ Covers n body) (d : Bool) :
    Covered n d (.iteration (some (.declare name type (some init))) test none body) := by
  refine ⟨clear_of_named hi d, ?_⟩
  by_cases hname : name = n
  · have hdeclared :
        (d || Option.any (declares n) (some (.declare name type (some init)))) = true := by
      simp [declares, hname]
    rw [hdeclared]
    exact ⟨Or.inl rfl, trivial, coveredList_true n body⟩
  · exact ⟨clear_of_named (hother hname).1 _, trivial, (hother hname).2 _ _⟩

theorem covered_postTestLoop {latch : String} {test : Target.Expr} {body : List Target.Stmt}
    (ht : test.Named (· ≠ n)) (hb : Covers n body) (d : Bool) :
    Covered n d (postTestLoop latch test body) := by
  refine covered_iteration_declare Target.Expr.named_literal (fun hlatch => ?_) d
  have hident : (Target.Expr.ident latch).Named (· ≠ n) := Target.Expr.named_ident.2 hlatch
  refine ⟨hident, hb.append (covers_singleton fun d => ?_)⟩
  exact ⟨clear_of_named hident d, clear_of_named ht d⟩

theorem covered_elementLoop {enumerator : String} {control collection : Target.Expr}
    {type : Target.Ty} {body : List Target.Stmt} (hc : control.Named (· ≠ n))
    (hx : collection.Named (· ≠ n)) (hb : Covers n body) (d : Bool) :
    Covered n d (elementLoop enumerator control collection type body) := by
  refine covered_iteration_declare (by simp [hx]) (fun henumerator => ?_) d
  have hident : (Target.Expr.ident enumerator).Named (· ≠ n) :=
    Target.Expr.named_ident.2 henumerator
  refine ⟨by simp [henumerator], fun entry d => ⟨⟨clear_of_named hc d, ?_⟩, hb entry _⟩⟩
  exact clear_of_named (Target.Expr.named_cast.2 (Target.Expr.named_field.2 hident)) d

theorem covers_chain {branches : List Branch} {last : List Target.Stmt}
    (ht : ∀ branch ∈ branches, branch.1.Named (· ≠ n))
    (hb : ∀ branch ∈ branches, Covers n branch.2) (hl : Covers n last) :
    Covers n (chain branches last) := by
  induction branches with
  | nil => exact hl
  | cons branch branches ih =>
    have hrest := ih (fun b h => ht b (List.mem_cons_of_mem _ h))
      fun b h => hb b (List.mem_cons_of_mem _ h)
    exact covers_singleton fun d => ⟨clear_of_named (ht branch List.mem_cons_self) d,
      hb branch List.mem_cons_self d d, hrest d d⟩

/-- The local of a selected value is declared in front of the chain that compares it. -/
theorem covers_selected {selected : String} {type : Target.Ty} {value : Target.Expr}
    {branches : List Branch} {last : List Target.Stmt} (hv : value.Named (· ≠ n))
    (ht : selected ≠ n → ∀ branch ∈ branches, branch.1.Named (· ≠ n))
    (hb : ∀ branch ∈ branches, Covers n branch.2) (hl : Covers n last) :
    Covers n (.declare selected type (some value) :: chain branches last) := by
  intro entry d
  refine ⟨clear_of_named hv d, ?_⟩
  by_cases hselected : selected = n
  · cases branches with
    | nil => exact hl entry _
    | cons branch branches =>
      have hafter : declaredAfter n entry d (.declare selected type (some value)) = true := by
        simp [declaredAfter, declares, hselected]
      rw [hafter]
      exact ⟨covered_true n _, trivial⟩
  · exact covers_chain (ht hselected) hb hl entry _

theorem covers_comments (comments : List String) :
    Covers n (comments.map Target.Stmt.comment) := by
  refine covers_of_forall fun stmt hstmt d => ?_
  obtain ⟨text, _, rfl⟩ := List.mem_map.1 hstmt
  exact trivial

theorem covers_declareControl {declarator : Option Nat} {out : List Target.Stmt}
    (h : env.declareControl declarator = .ok out) : Covers n out := by
  cases declarator with
  | none =>
    cases h
    exact covers_nil
  | some declarator =>
    simp only [Env.declareControl, Result.bind_ok, Result.pure_ok] at h
    obtain ⟨declared, _, rfl⟩ := h
    refine covers_of_forall fun stmt hstmt d => ?_
    obtain ⟨v, _, rfl⟩ := List.mem_map.1 hstmt
    exact Or.inr List.not_mem_nil

section Heads

variable (hf : Foreign routine env node n) (hid : id ∈ env.forest.descendants node)
include hf hid

theorem Foreign.part {stmt : Stmt} {c : Nat} (hstmt : env.forest.stmt? id = some stmt)
    (hc : c ∈ stmt.slots.map Slot.id) {e : Target.Expr} (he : env.lowerExpr c = .ok e) :
    e.Named (· ≠ n) :=
  hf.spells.lowerExpr (Forest.mem_descendants_child hid (Forest.mem_children_of_stmt hstmt hc)) he

theorem Foreign.loopHead {test : Target.Expr} {statements : Option Nat}
    (h : LoopHead env id test statements) : test.Named (· ≠ n) := by
  cases h with
  | doBlock h _ hc =>
    refine hf.spells.lowerCondition (Forest.mem_descendants_child hid ?_) hc
    exact Forest.mem_children_of_stmt h
      (by simp [Stmt.slots, LoopCondition.slots, Slot.expr, Slot.one])
  | endless h => exact Target.Expr.named_literal
  | whileBlock h hc => exact hf.part hid h (by simp [Stmt.slots, Slot.expr, Slot.one]) hc

theorem Foreign.trailing {statements tail : Option Nat} {condition : LoopCondition}
    (h : env.forest.stmt? id = some (.doBlock none statements tail))
    (ht : env.trailingCondition? tail = some condition) {test : Target.Expr}
    (hc : env.lowerCondition condition = .ok test) : test.Named (· ≠ n) := by
  unfold Env.trailingCondition? at ht
  split at ht
  · next loopEnd htail =>
    subst ht
    obtain ⟨x, rfl, hx⟩ := Option.bind_eq_some_iff.1 htail
    refine hf.spells.lowerCondition (Forest.mem_descendants_child (Forest.mem_descendants_child
      hid (Forest.mem_children_of_stmt h (c := x) ?_)) (Forest.mem_children_of_stmt hx ?_)) hc
    · simp [Stmt.slots, Slot.opt]
    · simp [Stmt.slots, LoopCondition.slots, Slot.expr, Slot.one]
  · cases ht

theorem Foreign.countedHead {declared : List Target.Stmt} {control lower upper step : Target.Expr}
    {statements : Option Nat} (h : CountedHead env id declared control lower upper step statements)
    {body : List Target.Stmt} (hb : Covers n body) :
    Covers n (declared ++ [countedLoop control lower upper step body]) := by
  cases h with
  | @forBlock _ _ _ _ x _ _ _ _ _ _ _ h hd hc hl hu hs =>
    have hcontrol := hf.part hid h (by simp [Stmt.slots, Slot.expr, Slot.one]) hc
    have hlower := hf.part hid h (by simp [Stmt.slots, Slot.expr, Slot.one]) hl
    have hupper := hf.part hid h (by simp [Stmt.slots, Slot.expr, Slot.one]) hu
    have hstep : step.Named (· ≠ n) := by
      cases x with
      | none => cases hs; exact Target.Expr.named_literal
      | some x => exact hf.part hid h (by simp [Stmt.slots, Slot.expr, Slot.opt, Slot.one]) hs
    exact (covers_declareControl hd).append
      (covers_singleton (covered_countedLoop hcontrol hlower hupper hstep hb))

theorem Foreign.elementHead {declared : List Target.Stmt} {control collection : Target.Expr}
    {type : Target.Ty} {statements : Option Nat}
    (h : ElementHead env id declared control collection type statements) (enumerator : String)
    {body : List Target.Stmt} (hb : Covers n body) :
    Covers n (declared ++ [elementLoop enumerator control collection type body]) := by
  cases h with
  | forEachBlock h hd _ hc hx =>
    have hcontrol := hf.part hid h (by simp [Stmt.slots, Slot.expr, Slot.one]) hc
    have hcollection := hf.part hid h (by simp [Stmt.slots, Slot.expr, Slot.one]) hx
    exact (covers_declareControl hd).append
      (covers_singleton (covered_elementLoop hcontrol hcollection hb))

theorem Foreign.arm {value : Option Target.Expr} {test : Target.Expr} {statements : Option Nat}
    (h : Arm env id value test statements) (hv : ∀ v, value = some v → v.Named (· ≠ n)) :
    test.Named (· ≠ n) := by
  cases h with
  | elseIf h hc => exact hf.part hid h (by simp [Stmt.slots, Slot.expr, Slot.one]) hc
  | case h hc =>
    refine hf.spells.lowerCaseTest (hv _ rfl) (Forest.mem_descendants_child hid ?_) hc
    exact Forest.mem_children_of_stmt h (by simp [Stmt.slots, Slot.one])

end Heads

end Blocks

/-! ## Whole bodies -/

theorem Foreign.within {routine : Routine} {env : Env} {node : Nat} {n : String}
    (h : Foreign routine env node n) {subject : Target.Expr} (hs : subject.Named (· ≠ n)) :
    Foreign routine (env.within subject) node n :=
  ⟨h.spells.within hs, h.shadow⟩

mutual

theorem Lowers.covers {routine : Routine} {env : Env} {node id : Nat} {n : String}
    {s t : BodyState} {out : List Target.Stmt} (h : Lowers routine env id s out t)
    (hf : Foreign routine env node n) (hid : id ∈ env.forest.descendants node) :
    Covers n out := by
  match h with
  | .plain h => exact h.covers hf hid
  | .preTest h hb =>
    have hbody := hb.covers hf (h.hasList.below hid)
    exact covers_singleton (covered_preTestLoop (hf.loopHead hid h) hbody)
  | .postTest h ht hb hc =>
    have hbody := hb.covers hf (Forest.elements_below hid h (by simp [Stmt.lists]))
    exact covers_singleton (covered_postTestLoop (hf.trailing hid h ht hc) hbody)
  | .counted h hb => exact hf.countedHead hid h (hb.covers hf (h.hasList.below hid))
  | .element h hb => exact hf.elementHead hid h _ (hb.covers hf (h.hasList.below hid))
  | .within h hk hs hb =>
    have hsubject := hf.part hid h (by simp [Stmt.slots, Slot.expr, Slot.one]) hs
    exact hb.covers (hf.within hsubject) (Forest.elements_below hid h (by simp [Stmt.lists]))
  | .ifBlock h hc hthen helseIfs helse =>
    have htest := hf.part hid h (by simp [Stmt.slots, Slot.expr, Slot.one]) hc
    have hbody := hthen.covers hf (Forest.elements_below hid h (by simp [Stmt.lists]))
    have hbranches := helseIfs.covers hf (Forest.elements_below hid h (by simp [Stmt.lists]))
    have hlast := helse.covers hf (Forest.last_below hid h)
    have hchain := covers_chain (hbranches.2 fun _ hv => nomatch hv) hbranches.1 hlast
    exact covers_singleton fun d => ⟨clear_of_named htest d, hbody d d, hchain d d⟩
  | .lineIf h hc hthen helse =>
    have htest := hf.part hid h (by simp [Stmt.slots, Slot.expr, Slot.one]) hc
    have hbody := hthen.covers hf (Forest.elements_below hid h (by simp [Stmt.lists]))
    have hlast := helse.covers hf (Forest.elements_below hid h (by simp [Stmt.lists]))
    exact covers_singleton fun d => ⟨clear_of_named htest d, hbody d d, hlast d d⟩
  | .select h hs hcases helse =>
    have hbranches := hcases.covers hf (Forest.elements_below hid h (by simp [Stmt.lists]))
    have hlast := helse.covers hf (Forest.last_below hid h)
    -- a value that is no name or literal is kept in a local, and the tests mention that local
    obtain ⟨lowered, hlowered, hcase⟩ := lowerSelector_ok hs
    have hvalue := hf.part hid h (by simp [Stmt.slots, Slot.expr, Slot.one]) hlowered
    rcases hcase with ⟨hnil, hsame, _⟩ | ⟨hdeclare, hident, _⟩
    · rw [hnil, List.nil_append]
      refine covers_chain (hbranches.2 fun v hv => ?_) hbranches.1 hlast
      rw [← Option.some.inj hv, hsame]
      exact hvalue
    · rw [hdeclare, List.singleton_append]
      refine covers_selected hvalue (fun hne => hbranches.2 fun v hv => ?_) hbranches.1 hlast
      rw [← Option.some.inj hv, hident]
      exact Target.Expr.named_ident.2 hne

/-- Lowered statements declare every name that is foreign to the source before each use. -/
theorem LowersAll.covers {routine : Routine} {env : Env} {node : Nat} {ids : List Nat} {n : String}
    {s t : BodyState} {out : List Target.Stmt} (h : LowersAll routine env ids s out t)
    (hf : Foreign routine env node n) (hids : ∀ id ∈ ids, id ∈ env.forest.descendants node) :
    Covers n out := by
  match h with
  | .nil => exact covers_nil
  | .cons h hs =>
    have hfirst := h.covers hf (hids _ List.mem_cons_self)
    have hrest := hs.covers hf fun id hid => hids id (List.mem_cons_of_mem _ hid)
    exact ((covers_comments _).append hfirst).append hrest

theorem LowersBranches.covers {routine : Routine} {env : Env} {node : Nat} {ids : List Nat}
    {n : String} {value : Option Target.Expr} {s t : BodyState} {branches : List Branch}
    (h : LowersBranches routine env value ids s branches t) (hf : Foreign routine env node n)
    (hids : ∀ id ∈ ids, id ∈ env.forest.descendants node) :
    (∀ branch ∈ branches, Covers n branch.2) ∧ ((∀ v, value = some v → v.Named (· ≠ n)) →
      ∀ branch ∈ branches, branch.1.Named (· ≠ n)) := by
  match h with
  | .nil => exact ⟨fun _ hb => (nomatch hb), fun _ _ hb => (nomatch hb)⟩
  | .cons h hb hs =>
    have hid := hids _ List.mem_cons_self
    have hbody := hb.covers hf (h.hasList.below hid)
    have hrest := hs.covers hf fun id hid => hids id (List.mem_cons_of_mem _ hid)
    exact ⟨List.forall_mem_cons.2 ⟨hbody, hrest.1⟩,
      fun hv => List.forall_mem_cons.2 ⟨hf.arm hid h hv, hrest.2 hv⟩⟩

theorem LowersElse.covers {routine : Routine} {env : Env} {node : Nat} {block : Option Nat}
    {n : String} {s t : BodyState} {out : List Target.Stmt}
    (h : LowersElse routine env block s out t) (hf : Foreign routine env node n)
    (hblock : ∀ x, block = some x → x ∈ env.forest.descendants node) : Covers n out := by
  match h with
  | .none => exact covers_nil
  | .some h hb => exact hb.covers hf (Forest.elements_below (hblock _ rfl) h (by simp [Stmt.lists]))

end

/-! ## Routines -/

section Routines

variable {env : Env} {node : Nat} {name : String} {returnType : Target.Ty}
  {statements : Option Nat} {body : List Target.Stmt}

/-- The names that lowering a routine puts in use besides those of the source, in lower case. -/
def Env.madeUp (env : Env) (node : Nat) (name : String) (returnType : Target.Ty)
    (statements : Option Nat) : List String :=
  let (shadow, taken) := env.routineShadow node name returnType
  match env.lowerBody ⟨name, shadow, returnType⟩ statements ⟨taken, []⟩ with
  | .ok (_, state) => state.taken.take (state.taken.length - (env.namesUnder node).length)
  | .error _ => []

theorem grows_routineShadow (env : Env) (node : Nat) (name : String) (returnType : Target.Ty) :
    Grows ⟨env.namesUnder node, []⟩ ⟨(env.routineShadow node name returnType).2, []⟩ := by
  unfold Env.routineShadow
  dsimp only
  split
  · exact Grows.fresh ⟨env.namesUnder node, []⟩ _
  · exact Grows.refl _

theorem not_named_of_madeUp {n : String}
    (hn : n ∈ env.madeUp node name returnType statements) : n ∉ env.namesUnder node := by
  simp only [Env.madeUp] at hn
  split at hn
  · next out state hbody =>
    have hgrows := (grows_routineShadow env node name returnType).trans
      (lowersAll_of_lowerBody hbody).grows
    obtain ⟨made, htaken, _, hnew⟩ := hgrows
    have hlength : state.taken.length - (env.namesUnder node).length = made.length := by
      rw [htaken, List.length_append]
      exact Nat.add_sub_cancel _ _
    rw [hlength, htaken, List.take_left] at hn
    exact hnew n hn
  · cases hn

theorem mem_namesUnder {d : Nat} {text : String} {suffix : Option TypeSuffix} {escaped : Bool}
    (hd : d ∈ env.forest.descendants node)
    (h : env.forest.name? d = some (.simple text suffix escaped)) :
    text.toLower ∈ env.namesUnder node := by
  refine List.mem_filterMap.2 ⟨d, hd, ?_⟩
  rw [h]

theorem covers_withShadow {shadow : Option String} {n : String} (hs : shadow ≠ some n)
    (hb : Covers n body) : Covers n (Env.withShadow shadow returnType body) := by
  cases shadow with
  | none => exact hb
  | some result =>
    have hne : result ≠ n := fun h => hs (by rw [h])
    have hfirst : Covers n [.declare result returnType (some (zeroValue returnType))] :=
      covers_singleton fun d => clear_of_named (named_zeroValue returnType) d
    have hlast : Covers n [.returns (some (.ident result))] :=
      covers_singleton fun d => clear_of_named (Target.Expr.named_ident.2 hne) d
    exact (hfirst.append hb).append hlast

/-- The body of a routine declares every name that is no name of the source before use. -/
theorem declaresBeforeUse_of_lowerRoutine {n : String} (hsubjects : env.subjects = [])
    (hids : ∀ x ∈ env.forest.elements statements, x ∈ env.forest.descendants node)
    (h : env.lowerRoutine node name returnType statements = .ok body)
    (hn : n.toLower ∉ env.namesUnder node) : DeclaresBeforeUse n body := by
  obtain ⟨out, state, hbody, rfl⟩ := lowerRoutine_ok h
  by_cases hshadow : (env.routineShadow node name returnType).1 = some n
  · rw [hshadow]
    exact .first fun hmem => named_zeroValue (P := fun _ => False) returnType n hmem
  · refine .covered (covers_withShadow hshadow ?_ false false)
    refine (lowersAll_of_lowerBody hbody).covers ⟨⟨?_, ?_⟩, hshadow⟩ hids
    · rintro d hd text suffix escaped hname rfl
      exact hn (mem_namesUnder hd hname)
    · rw [hsubjects]
      exact fun e he => nomatch he

end Routines

theorem HoldsStatements.below {f : Forest} {id : Nat} {statements : Option Nat}
    (h : HoldsStatements f id statements) : ∀ x ∈ f.elements statements, x ∈ f.descendants id := by
  intro x hx
  cases statements with
  | none => cases hx
  | some c =>
    have hc : c ∈ f.children id := by
      cases h with
      | method h =>
        exact Forest.mem_children_of_decl h (by simp [Decl.slots, Slot.statements, Slot.opt])
      | accessor h =>
        exact Forest.mem_children_of_decl h (by simp [Decl.slots, Slot.statements, Slot.opt])
    exact Forest.mem_descendants_child (Forest.mem_descendants_child
      (Forest.mem_descendants_self f id) hc) (Forest.mem_children_of_elements hx)

namespace RoutineBody

variable {forest : Forest} {settings : Settings} {body : List Target.Stmt}

/-- Whether lowering the routine makes up a local of this name, in whatever case. -/
def Synthesizes (r : RoutineBody forest settings body) (n : String) : Prop :=
  n.toLower ∈ r.env.madeUp r.node r.name r.returnType r.statements

end RoutineBody

/-- Every body of a lowered program declares the locals that lowering makes up before each use, so
no run of it stops because one of them is not declared. -/
theorem synthesized_declared_before_use {tree : Tree} {settings : Settings}
    {program : Target.Program} (h : lowerFile tree settings = .ok program)
    {body : List Target.Stmt} (hb : program.HasBody body) :
    HasOrigin tree.toForest settings body ∧
      ∀ r : RoutineBody tree.toForest settings body, ∀ n, r.Synthesizes n →
        DeclaresBeforeUse n body ∧
        ∀ limit state, ((runWithin limit body).run state).1 ≠ .error (.undefinedVariable n) := by
  refine ⟨body_origin h hb, fun r n hn => ?_⟩
  have hdeclares : DeclaresBeforeUse n body :=
    declaresBeforeUse_of_lowerRoutine rfl r.holds.below r.lowered (not_named_of_madeUp hn)
  exact ⟨hdeclares, hdeclares.sound⟩

/-- A `Sub` with a loop that tests after its body. -/
def latchFile : List Call :=
  let span := Span.startingAt ⟨1, 1⟩
  [.alloc .simpleName span (.name (.simple "Main" none false)),
    .alloc .booleanLiteralExpression span (.expr (.literal (.boolean true))),
    .alloc .loopStatement span (.stmt (.loopEnd (some ⟨true, 1⟩))),
    .alloc .doBlockStatement span (.stmt (.doBlock none none (some 2))),
    .collection .statementCollection span [some 3] [],
    .alloc .subDeclaration span
      (.decl (.method ⟨none, none⟩ (.ofName 0) none none (some 4) none)),
    .collection .declarationCollection span [some 5] [],
    .alloc .file span (.file ⟨some 6⟩)]

def latchMethod : Target.Method where
  name := "Main"
  kind := .normal
  visibility := .publicAccess
  isStatic := true
  typeParameters := []
  parameters := []
  returnType := .void
  body := [postTestLoop "latch" (.bool true) []]
  entry := none
  comments := []

def latchProgram : Target.Program where
  nameSpace := none
  imports := []
  options := Settings.standard.options
  type := wrapper .standard [.method latchMethod]

theorem latchFile_lowers : lowerFile (.ofCalls latchFile 7) .standard = .ok latchProgram := by
  set_option maxRecDepth 4000 in with_unfolding_all rfl

def latchRoutine : RoutineBody (Tree.ofCalls latchFile 7).toForest .standard latchMethod.body where
  options := Settings.standard.options
  node := 5
  name := "Main"
  returnType := .void
  statements := some 4
  holds := .method rfl
  lowered := by with_unfolding_all rfl

theorem latch_declared_before_use : latchRoutine.Synthesizes "latch" ∧
    DeclaresBeforeUse "latch" latchMethod.body ∧ ∀ limit state,
      ((runWithin limit latchMethod.body).run state).1 ≠ .error (.undefinedVariable "latch") := by
  have hbody : latchProgram.HasBody latchMethod.body :=
    .nested List.mem_cons_self (.method latchMethod)
  have hlatch : latchRoutine.Synthesizes "latch" := by
    unfold RoutineBody.Synthesizes
    decide +kernel
  exact ⟨hlatch, (synthesized_declared_before_use latchFile_lowers hbody).2 latchRoutine "latch"
    hlatch⟩

end StructuredBasic.Lowering
