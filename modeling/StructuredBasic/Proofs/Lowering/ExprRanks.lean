import StructuredBasic.Proofs.Forest.Shapes
import StructuredBasic.Proofs.Lowering.Expressions
import StructuredBasic.Proofs.Target.Ranks

/-!
# Ranks of lowered types and expressions

The array types of a built tree have at least one dimension, and the types of the code are taken
from them: those of declared names (`ranked_variableType`), those in expressions
(`Env.Ranked.lowerExpr`) and those of declared variables (`Env.Ranked.declaredVariables`).
-/

set_option autoImplicit false

namespace StructuredBasic.Syntax

/-- The builder refuses array types without dimensions. -/
theorem Forest.Shaped.rank_pos {f : Forest} (hf : f.Shaped) {id rank : Nat}
    {element bounds : Option Nat} (h : f.type? id = some (.array element rank bounds)) :
    1 ≤ rank := by
  obtain ⟨n, hn, hp⟩ := Option.map_eq_some_iff.1 (Forest.payload?_of_type? h)
  have hfault := hf.payload id n hn
  rw [hp] at hfault
  refine Nat.one_le_iff_ne_zero.2 fun hrank => ?_
  subst hrank
  unfold Forest.payloadFault? at hfault
  split at hfault
  · cases hfault
  · split at hfault <;> cases hfault

end StructuredBasic.Syntax

namespace StructuredBasic.Lowering

open Syntax
open Target (Ty)

/-! ## Types -/

section Types

variable {env : Env} {id : Nat} {type : Ty}

theorem ranked_lowerType (hf : env.forest.Shaped) (h : env.lowerType id = .ok type) :
    type.Ranked := by
  induction id using Nat.strongRecOn generalizing type with
  | ind id ih =>
    rw [Env.lowerType] at h
    split at h
    case h_1 =>
      cases h
      exact trivial
    case h_2 =>
      obtain ⟨_, _, h⟩ := Result.bind_ok.1 h
      cases h
      exact trivial
    case h_3 element rank bounds htype =>
      simp only [Result.bind_ok, Result.pure_ok] at h
      obtain ⟨lowered, hlowered, rfl⟩ := h
      refine ⟨ih element (Forest.lt_of_type htype ?_) hlowered, hf.rank_pos htype⟩
      simp [TypeName.slots, Slot.opt]
    case h_4 htype =>
      cases h
      exact ⟨trivial, hf.rank_pos htype⟩
    case h_5 name arguments htype =>
      simp only [Result.bind_ok, Result.pure_ok] at h
      obtain ⟨_, _, types, htypes, rfl⟩ := h
      refine Ty.rankedAll_iff.2 (Result.forall_mapM_ok ?_ htypes)
      rintro ⟨argument, hmem⟩ _ lowered hlowered
      have h1 := Forest.lt_of_mem_elements hmem
      have h2 := Forest.lt_of_type htype (c := arguments) (by simp [TypeName.slots, Slot.one])
      exact ih argument (by omega) hlowered
    case h_6 => exact absurd h unsupported_ne_ok

theorem ranked_suffixType (suffix : Option TypeSuffix) : (suffixType suffix).Ranked := by
  cases suffix <;> exact trivial

/-- The array type on a declared name. -/
def boundsType? (f : Forest) (declared : Nat) : Option TypeName :=
  match f.name? declared with
  | some (.declared _ arrayType) => arrayType.bind f.type?
  | _ => none

/-- Bounds on a name make an array of what the `As` clause or the suffix of the name states. -/
theorem variableType_ok {declared : Nat} {asType : Option Nat}
    (h : env.variableType declared asType = .ok type) :
    ∃ plain, ((∃ x, env.lowerType x = .ok plain) ∨ ∃ suffix, plain = suffixType suffix) ∧
      type = match boundsType? env.forest declared with
        | some (.array _ rank _) => .array plain rank
        | _ => plain := by
  have finish : ∀ {plain : Ty} {array : Option TypeName},
      (match array with
        | some (.array _ rank _) => pure (.array plain rank)
        | _ => pure plain : Result Ty) = .ok type →
      type = match array with
        | some (.array _ rank _) => .array plain rank
        | _ => plain := by
    intro plain array h
    split at h <;> cases h <;> rfl
  unfold Env.variableType at h
  split at h
  next name bounds hpair =>
    have hbounds : boundsType? env.forest declared = bounds.bind env.forest.type? := by
      split at hpair <;> cases hpair
      · next hname => rw [boundsType?, hname]
      · next hother =>
        unfold boundsType?
        split
        · next hname => exact absurd hname (hother _ _)
        · rfl
    rw [hbounds]
    cases asType with
    | some x =>
      obtain ⟨plain, hplain, h⟩ := Result.bind_ok.1 h
      exact ⟨plain, Or.inl ⟨x, hplain⟩, finish h⟩
    | none =>
      dsimp only at h
      split at h
      · exact ⟨_, Or.inr ⟨_, rfl⟩, finish h⟩
      · exact ⟨_, Or.inr ⟨none, rfl⟩, finish h⟩

theorem ranked_variableType (hf : env.forest.Shaped) {declared : Nat} {asType : Option Nat}
    (h : env.variableType declared asType = .ok type) : type.Ranked := by
  obtain ⟨plain, hplain, rfl⟩ := variableType_ok h
  have hranked : plain.Ranked := by
    rcases hplain with ⟨x, hx⟩ | ⟨suffix, rfl⟩
    · exact ranked_lowerType hf hx
    · exact ranked_suffixType suffix
  split
  · next rank _ htype =>
    unfold boundsType? at htype
    split at htype
    · obtain ⟨arrayType, _, harray⟩ := Option.bind_eq_some_iff.1 htype
      exact ⟨hranked, hf.rank_pos harray⟩
    · cases htype
  · exact hranked

theorem ranked_declaratorType (hf : env.forest.Shaped) {declarator : Nat} {name : String}
    (h : env.declaratorType declarator name = .ok type) : type.Ranked := by
  unfold Env.declaratorType at h
  split at h
  · cases h
    exact trivial
  · split at h
    · exact ranked_variableType hf h
    · cases h
      exact trivial

theorem ranked_elementType (hf : env.forest.Shaped) {element : Option Nat}
    (h : env.elementType element = .ok type) : type.Ranked := by
  cases element with
  | none =>
    cases h
    exact trivial
  | some element => exact ranked_lowerType hf h

theorem ranked_controlType (hf : env.forest.Shaped) {control : Nat}
    (h : env.controlType id control = .ok type) : type.Ranked := by
  unfold Env.controlType at h
  split at h
  · exact ranked_declaratorType hf h
  · cases h
    exact trivial

theorem ranked_reDimElement (hf : env.forest.Shaped) {declarator : Option Nat}
    {name : Option String} (h : env.reDimElement declarator name = .ok type) : type.Ranked := by
  unfold Env.reDimElement at h
  split at h
  · simp only [Result.bind_ok, Result.pure_ok] at h
    obtain ⟨declared, hdeclared, rfl⟩ := h
    exact (ranked_declaratorType hf hdeclared).element
  · cases h
    exact trivial

theorem ranked_exitType (hf : env.forest.Shaped) (h : env.exitType id = .ok type) :
    type.Ranked := by
  unfold Env.exitType at h
  split at h
  · cases h
  · split at h
    · exact ranked_variableType hf h
    · exact ranked_variableType hf h
    · split at h
      · exact ranked_variableType hf h
      · cases h
    · cases h
      exact trivial

theorem ranked_zeroValue (h : type.Ranked) : (zeroValue type).Ranked := by
  unfold zeroValue
  split
  · exact trivial
  · split <;> exact trivial
  · exact h

end Types

/-! ## Expressions -/

/-- The tree is built, and the subjects of the `With` blocks in effect are ranked. -/
structure Env.Ranked (env : Env) : Prop where
  shaped : env.forest.Shaped
  subjects : ∀ e ∈ env.subjects, e.Ranked

section Exprs

variable {env : Env} {id : Nat}

theorem ranked_invocation {callee : Target.Expr} {args : List Target.Expr} (hc : callee.Ranked)
    (ha : ∀ e ∈ args, e.Ranked) : (invocation callee args).Ranked := by
  have hargs := Target.Expr.rankedAll_iff.2 ha
  unfold invocation
  split
  · exact ⟨trivial, hargs⟩
  · exact ⟨hc, hargs⟩
  · split
    · exact hc
    · exact ⟨hc, hargs⟩
  · exact ⟨hc, hargs⟩

theorem ranked_binaryOperation {mode : Target.CompareMode} {op : Operator}
    {left right e : Target.Expr} (hl : left.Ranked) (hr : right.Ranked)
    (h : binaryOperation? mode op left right = some e) : e.Ranked := by
  have hmode : (compareArgument mode).Ranked := trivial
  unfold binaryOperation? at h
  split at h <;> cases h
  · exact ⟨hl, hr⟩
  · exact Target.Expr.ranked_staticCall.2 (by simp [hl, hr])
  · exact Target.Expr.ranked_staticCall.2 (by simp [hl, hr, hmode])

theorem ranked_methodReference {callee e : Target.Expr} (hc : callee.Ranked)
    (h : env.methodReference id callee = .ok e) : e.Ranked := by
  unfold Env.methodReference at h
  split at h
  · cases h
    exact trivial
  · cases h
    exact hc
  · exact absurd h unsupported_ne_ok

theorem Env.Ranked.subject (hr : env.Ranked) {e : Target.Expr} (h : env.subject id = .ok e) :
    e.Ranked := by
  unfold Env.subject at h
  split at h
  · next innermost rest hsubjects =>
    cases h
    exact hr.subjects _ (by rw [hsubjects]; exact List.mem_cons_self)
  · cases h

theorem Env.Ranked.within (hr : env.Ranked) {subject : Target.Expr} (hs : subject.Ranked) :
    (env.within subject).Ranked :=
  ⟨hr.shaped, List.forall_mem_cons.2 ⟨hs, hr.subjects⟩⟩

theorem LowersLength.ranked {e : Target.Expr} (h : LowersLength env id e)
    (operand : ∀ x e, Operand env id x e → e.Ranked) : e.Ranked := by
  cases h with
  | known => exact trivial
  | plain h => exact operand _ _ h
  | shifted h => exact ⟨operand _ _ h, trivial⟩

theorem Env.Ranked.lowerExpr (hr : env.Ranked) {e : Target.Expr} (h : env.lowerExpr id = .ok e) :
    e.Ranked := by
  induction id using Nat.strongRecOn generalizing e with
  | ind id ih =>
    have operand : ∀ x e, Operand env id x e → e.Ranked := fun x _ hx => ih x hx.lt hx.lowered
    have arguments : ∀ {list : Option Nat} {args : List Target.Expr},
        LowersArguments env id list args → ∀ e ∈ args, e.Ranked := by
      intro list args hargs e he
      rcases hargs.operand e he with rfl | ⟨x, hx⟩
      · exact trivial
      · exact operand x e hx
    cases lowersExpr_of_ok h with
    | literal | nothing | self | base | simpleName => exact trivial
    | typeReference _ ht | getType _ ht => exact ranked_lowerType hr.shaped ht
    | @qualified _ _ _ target _ _ hq =>
      have ht : target.Ranked := operand _ _ hq
      exact ht
    | @member _ _ target _ _ hs =>
      have ht : target.Ranked := hr.subject hs
      exact ht
    | lookup _ hq => exact ⟨operand _ _ hq, trivial, trivial⟩
    | memberLookup _ hs => exact ⟨hr.subject hs, trivial, trivial⟩
    | index _ _ hc ha => exact ⟨operand _ _ hc, Target.Expr.rankedAll_iff.2 (arguments ha)⟩
    | call _ _ hc ha => exact ranked_invocation (operand _ _ hc) (arguments ha)
    | construct _ ht ha =>
      exact ⟨ranked_lowerType hr.shaped ht, Target.Expr.rankedAll_iff.2 (arguments ha)⟩
    | constructArray _ ht hl helements =>
      have hlengths := Target.Expr.rankedAll_iff.2 fun e he => (hl e he).ranked operand
      refine ⟨ranked_elementType hr.shaped ht, hlengths, Target.Expr.rankedAll_iff.2 ?_⟩
      intro e he
      obtain ⟨x, hx⟩ := helements e he
      exact operand x e hx
    | cast _ ht ho => exact ⟨ranked_lowerType hr.shaped ht, operand _ _ ho⟩
    | intrinsicCast _ ho => exact ⟨trivial, operand _ _ ho⟩
    | typeTest _ ho ht => exact ⟨operand _ _ ho, ranked_lowerType hr.shaped ht⟩
    | addressOf _ ho hm => exact ranked_methodReference (operand _ _ ho) hm
    | parenthetical _ ho => exact operand _ _ ho
    | @unary _ _ _ inner _ _ ho =>
      have hinner : inner.Ranked := operand _ _ ho
      exact hinner
    | range _ _ hl hr => exact ⟨operand _ _ hr, operand _ _ hl⟩
    | binary _ _ hl hr hvalue =>
      exact ranked_binaryOperation (operand _ _ hl) (operand _ _ hr) hvalue

theorem Env.Ranked.lowerArguments (hr : env.Ranked) {arguments : Option Nat}
    {es : List Target.Expr} (h : env.lowerArguments arguments = .ok es) :
    Target.Expr.RankedAll es := by
  refine Target.Expr.rankedAll_iff.2 fun e he => ?_
  rcases forall_lowerArguments h e he with rfl | ⟨c, _, x, hx⟩
  · exact trivial
  · exact hr.lowerExpr hx.lowered

theorem Env.Ranked.boundLengths (hr : env.Ranked) {bounds : Option Nat} {es : List Target.Expr}
    (h : env.boundLengths bounds = .ok es) : Target.Expr.RankedAll es := by
  refine Target.Expr.rankedAll_iff.2 fun e he => ?_
  obtain ⟨c, _, hlength⟩ := forall_boundLengths h e he
  exact hlength.ranked fun _ _ hx => hr.lowerExpr hx.lowered

end Exprs

/-! ## Declared variables -/

section Variables

variable {env : Env}

theorem Env.Ranked.initialValue (hr : env.Ranked) {initializer : Nat} {type : Ty}
    (ht : type.Ranked) {e : Target.Expr} (h : env.initialValue initializer type = .ok e) :
    e.Ranked := by
  unfold Env.initialValue at h
  split at h
  · exact hr.lowerExpr h
  · simp only [Result.bind_ok, Result.pure_ok] at h
    obtain ⟨elements, helements, rfl⟩ := h
    have hall : ∀ e ∈ elements, e.Ranked := by
      intro e he
      obtain ⟨x, hx⟩ := forall_lowerAggregate helements e he
      exact hr.lowerExpr hx.lowered
    exact ⟨ht.element, trivial, Target.Expr.rankedAll_iff.2 hall⟩
  · exact absurd h unsupported_ne_ok

theorem Env.Ranked.allocation (hr : env.Ranked) {declared : Nat} {type : Ty} (ht : type.Ranked)
    {init : Option Target.Expr} (h : env.allocation declared type = .ok init) :
    Target.Expr.RankedOptional init := by
  unfold Env.allocation at h
  split at h
  · split at h
    · simp only [Result.bind_ok, Result.pure_ok] at h
      obtain ⟨lengths, hlengths, rfl⟩ := h
      exact ⟨ht.element, hr.boundLengths hlengths, trivial⟩
    · cases h
      exact trivial
  · cases h
    exact trivial

theorem Env.Ranked.declaredVariable (hr : env.Ranked) {d : Declarator} {declared : Nat}
    {v : DeclaredVariable} (h : env.declaredVariable d declared = .ok v) :
    v.type.Ranked ∧ Target.Expr.RankedOptional v.init := by
  obtain ⟨_, htype, hstarts⟩ := declaredVariable_ok h
  have ht := ranked_variableType hr.shaped htype
  generalize v.init = init at hstarts ⊢
  cases hstarts with
  | value _ he => exact ⟨ht, hr.initialValue ht he⟩
  | object _ _ ha => exact ⟨ht, ht, hr.lowerArguments ha⟩
  | array _ _ ha => exact ⟨ht, hr.allocation ht ha⟩

theorem Env.Ranked.declaredVariables (hr : env.Ranked) {declarator : Nat}
    {vs : List DeclaredVariable} (h : env.declaredVariables declarator = .ok vs) :
    ∀ v ∈ vs, v.type.Ranked ∧ Target.Expr.RankedOptional v.init := by
  unfold Env.declaredVariables at h
  split at h
  · exact Result.forall_mapM_ok (fun _ _ _ hv => hr.declaredVariable hv) h
  · exact absurd h unsupported_ne_ok

end Variables

end StructuredBasic.Lowering
