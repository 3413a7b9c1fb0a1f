import StructuredBasic.Proofs.Lowering.Declarations

/-!
# Statements that lower to plain code

Assignments, declarations, calls and returns are plain: they hold no other statements and are no
jumps, labels or comments. What the statements of the source without a body become is plain, the
jumps and labels among them aside, and so is what stands in front of a loop or a chain.
-/

set_option autoImplicit false

namespace StructuredBasic.Target

def Stmt.isPlain : Stmt → Bool
  | .assign .. | .declare .. | .expression _ | .returns _ => true
  | _ => false

end StructuredBasic.Target

namespace StructuredBasic.Lowering

open Syntax

/-- The keywords of loops. -/
def isLoopBlock : Block → Bool
  | .doLoop | .forLoop | .whileLoop => true
  | _ => false

section Plain

variable {routine : Routine} {env : Env} {id : Nat} {s t : BodyState} {out : List Target.Stmt}

/-- `Exit` of a loop is a break, which needs a loop of that keyword around it. -/
theorem lowerExit_loop {block : Block} {stmt : Target.Stmt} (hb : isLoopBlock block = true)
    (h : env.lowerExit routine id block = .ok stmt) :
    stmt = .breaks ∧ env.enclosingLoop? id = some block := by
  have hform : env.lowerExit routine id block =
      if env.enclosingLoop? id = some block then .ok .breaks else env.unsupported id := by
    cases block <;> first
      | rfl
      | cases hb
  rw [hform] at h
  split at h
  · next hloop =>
    cases h
    exact ⟨rfl, hloop⟩
  · exact absurd h unsupported_ne_ok

/-- `Exit` of anything else leaves the routine. -/
theorem isPlain_lowerExit {block : Block} {stmt : Target.Stmt} (hb : isLoopBlock block = false)
    (h : env.lowerExit routine id block = .ok stmt) : stmt.isPlain = true := by
  rcases lowerExit_ok h with rfl | rfl | ⟨type, rfl⟩
  · -- only the keyword of a loop gives a break
    unfold Env.lowerExit at h
    split at h
    · cases hb
    · cases hb
    · cases hb
    all_goals first
      | exact absurd h unsupported_ne_ok
      | (split at h
         · cases h
         · simp only [Result.bind_ok] at h
           obtain ⟨_, _, h⟩ := h
           split at h <;> cases h)
  · rfl
  · rfl

/-- `Return` leaves the routine, or jumps to a return point. -/
theorem lowerReturn_ok {expression : Option Nat} {stmt : Target.Stmt}
    (h : env.lowerReturn routine id expression = .ok stmt) :
    (∃ label, stmt = .goto label) ∨ ∃ value, stmt = .returns value := by
  cases expression with
  | some expression =>
    simp only [Env.lowerReturn, Result.bind_ok, Result.pure_ok] at h
    obtain ⟨_, _, rfl⟩ := h
    exact Or.inr ⟨_, rfl⟩
  | none =>
    simp only [Env.lowerReturn, Env.lowerBareReturn] at h
    split at h
    · cases h
    · split at h
      · split at h
        · cases h; exact Or.inl ⟨_, rfl⟩
        · cases h; exact Or.inr ⟨_, rfl⟩
      · cases h
        exact Or.inr ⟨_, rfl⟩

theorem isPlain_lowerReDim {preserve : Bool} {arrays : Nat}
    (h : env.lowerReDim id preserve arrays s = .ok (out, t)) :
    ∀ stmt ∈ out, stmt.isPlain = true := by
  simp only [Env.lowerReDim, Lower.bind_ok, Lower.pure_ok] at h
  obtain ⟨lists, _, hlists, rfl, rfl⟩ := h
  rw [List.forall_mem_flatten]
  refine Lower.mapM_ok (R := fun _ _ lists _ => ∀ l ∈ lists, ∀ stmt ∈ l, stmt.isPlain = true)
    (fun _ l hl => nomatch hl) ?_ hlists
  intro operand _ _ s b u bs t hoperand hrest
  refine List.forall_mem_cons.2 ⟨?_, hrest⟩
  obtain ⟨_, _, _, _, _, _, _, _, _, ⟨_, rfl, _⟩ | ⟨_, _, _, _, rfl, _⟩⟩ :=
    lowerReDimOperand_ok hoperand
  · exact List.forall_mem_singleton.2 rfl
  · simp [Env.preserved, Target.Stmt.isPlain]

theorem declareLocal_ok {isConst : Bool} {declarator : Nat} {v : DeclaredVariable}
    {stmt : Target.Stmt} (h : env.declareLocal isConst declarator v = .ok stmt) :
    ∃ init, stmt = .declare v.name v.type init := by
  unfold Env.declareLocal at h
  split at h
  · cases h
    exact ⟨_, rfl⟩
  · split at h
    · exact absurd h unsupported_ne_ok
    · cases h
      exact ⟨_, rfl⟩

theorem isPlain_lowerLocals {modifiers declarators : Nat}
    (h : env.lowerLocals modifiers declarators = .ok out) :
    ∀ stmt ∈ out, stmt.isPlain = true := by
  simp only [Env.lowerLocals, Result.bind_ok, Result.pure_ok] at h
  obtain ⟨lists, hlists, rfl⟩ := h
  rw [List.forall_mem_flatten]
  refine Result.forall_mapM_ok (fun declarator _ stmts hstmts => ?_) hlists
  rw [Result.bind_ok] at hstmts
  obtain ⟨vs, _, hstmts⟩ := hstmts
  refine Result.forall_mapM_ok (fun v _ stmt hstmt => ?_) hstmts
  obtain ⟨init, rfl⟩ := declareLocal_ok hstmt
  rfl

theorem isPlain_declareControl {declarator : Option Nat}
    (h : env.declareControl declarator = .ok out) : ∀ stmt ∈ out, stmt.isPlain = true := by
  cases declarator with
  | none =>
    cases h
    exact fun _ h => nomatch h
  | some declarator =>
    simp only [Env.declareControl, Result.bind_ok, Result.pure_ok] at h
    obtain ⟨declared, _, rfl⟩ := h
    exact List.forall_mem_map.2 fun _ _ => rfl

theorem CountedHead.isPlain {declared : List Target.Stmt} {control lower upper step : Target.Expr}
    {statements : Option Nat}
    (h : CountedHead env id declared control lower upper step statements) :
    ∀ stmt ∈ declared, stmt.isPlain = true := by
  cases h with
  | forBlock _ hd => exact isPlain_declareControl hd

theorem ElementHead.isPlain {declared : List Target.Stmt} {control collection : Target.Expr}
    {type : Target.Ty} {statements : Option Nat}
    (h : ElementHead env id declared control collection type statements) :
    ∀ stmt ∈ declared, stmt.isPlain = true := by
  cases h with
  | forEachBlock _ hd => exact isPlain_declareControl hd

theorem isPlain_lowerSelector {expression : Nat} {value : Target.Expr}
    (h : env.lowerSelector expression s = .ok ((out, value), t)) :
    ∀ stmt ∈ out, stmt.isPlain = true := by
  obtain ⟨_, _, ⟨rfl, _⟩ | ⟨rfl, _⟩⟩ := lowerSelector_ok h
  · exact fun _ h => nomatch h
  · exact List.forall_mem_singleton.2 rfl

end Plain

end StructuredBasic.Lowering
