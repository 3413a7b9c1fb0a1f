import StructuredBasic.Proofs.Lowering.Census
import StructuredBasic.Proofs.Lowering.Expressions
import StructuredBasic.Proofs.Lowering.Visits
import StructuredBasic.Proofs.Target.Occurrences

/-!
# Accesses in lowered code

Most nodes feed the code of the nodes around them (`Forest.Feeds`). An access without a qualifier
that feeds a node stands in the code of this node: as it is, or as the call or the reference that is
made of it, each with the lowered target of the access (`Stands`). This holds of expressions by
their cases and of statements along their derivations (`LowersAll.shown`), so it holds of the body
of every routine (`RoutineBody.shown`).
-/

set_option autoImplicit false

namespace StructuredBasic.Syntax.Forest

variable {f : Forest}

/-! ## What feeds the code of a node -/

/-- The parts whose code does not go into the code of the node: the subject of a `With` block goes
to the accesses among the statements, and of what declares the control variable of a loop only the
name and the type are kept. -/
inductive LeftOut (f : Forest) (id : Nat) : Nat → Prop
  | subject {expression statements tail}
      (h : f.stmt? id = some (.guarded expression statements tail)) : LeftOut f id expression
  | counter {control declarator lower upper step statements tail}
      (h : f.stmt? id = some (.forBlock control (some declarator) lower upper step statements
        tail)) : LeftOut f id declarator
  | element {control declarator collection statements tail}
      (h : f.stmt? id = some (.forEachBlock control (some declarator) collection statements
        tail)) : LeftOut f id declarator

/-- The code of the node `x` goes into the code of another node. -/
inductive Feeds (f : Forest) (x : Nat) : Nat → Prop
  | here : Feeds f x x
  | part {id c} (hc : c ∈ f.parts id) (hkept : ¬ LeftOut f id c) (h : Feeds f x c) : Feeds f x id
  | within {id expression statements tail c}
      (h : f.stmt? id = some (.guarded expression statements tail))
      (hk : f.kind id = .withBlockStatement) (hc : c ∈ f.elements statements)
      (hx : Feeds f x c) : Feeds f x id

end StructuredBasic.Syntax.Forest

namespace StructuredBasic.Lowering

open Syntax
open Target.Expr (Contains Occurs OccursIn contains_of_mem contains_of_operands contains_of_subset
  occurs_of_mem)
open Target.Stmt (exprs exprsAll exprsAll_append exprsAll_subset exprs_subset)

/-! ## What is made of an access -/

/-- What stands for an access: the access itself, or what a call or a reference makes of a
member. -/
inductive Makes : Target.Expr → Target.Expr → Prop
  | member {target name} : Makes (.field target name) (.field target name)
  | element {target indices} : Makes (.index target indices) (.index target indices)
  | call {target name args} : Makes (.field target name) (.invoke (some target) name args)
  | reference {target name} : Makes (.field target name) (.methodRef (some target) name)

/-- The access stands in the code. -/
def Stands (access : Target.Expr) (code : List Target.Expr) : Prop :=
  ∃ e, Makes access e ∧ OccursIn e code

section Stands

variable {access e : Target.Expr} {code whole : List Target.Expr}

theorem Stands.mono (h : Stands access code) (hcode : Contains whole code) :
    Stands access whole := by
  obtain ⟨e, hmakes, hin⟩ := h
  exact ⟨e, hmakes, hin.of_contains hcode⟩

/-- What stands in an expression is made of it or stands among its operands. -/
theorem stands_single : Stands access [e] ↔ Makes access e ∨ Stands access e.operands := by
  constructor
  · rintro ⟨made, hmakes, w, hw, hin⟩
    obtain rfl := List.mem_singleton.1 hw
    cases hin with
    | self => exact Or.inl hmakes
    | operand hm h => exact Or.inr ⟨made, hmakes, _, hm, h⟩
  · rintro (h | h)
    · exact ⟨e, h, e, List.mem_singleton_self e, .self⟩
    · exact h.mono (contains_of_operands (List.Subset.refl _))

theorem contains_invocation (callee : Target.Expr) (args : List Target.Expr) :
    Contains [invocation callee args] args := by
  intro arg harg
  refine ⟨_, List.mem_singleton_self _, ?_⟩
  unfold invocation
  split
  · exact occurs_of_mem harg
  · exact occurs_of_mem (List.mem_append_right _ harg)
  · split
    · next hempty =>
      rw [List.isEmpty_iff.1 hempty] at harg
      cases harg
    · exact occurs_of_mem (List.mem_cons_of_mem _ harg)
  · exact occurs_of_mem (List.mem_cons_of_mem _ harg)

/-- A call keeps what stands in what it calls. -/
theorem Stands.invocation (h : Stands access [e]) (args : List Target.Expr) :
    Stands access [invocation e args] := by
  have wrapped : ∀ {w : Target.Expr}, e ∈ w.operands → Stands access [w] := fun hw =>
    h.mono (contains_of_operands (List.cons_subset.2 ⟨hw, List.nil_subset _⟩))
  unfold Lowering.invocation
  split
  · rcases stands_single.1 h with h | ⟨_, _, _, hw, _⟩
    · cases h
    · cases hw
  · rcases stands_single.1 h with h | h
    · cases h
      exact stands_single.2 (Or.inl .call)
    · exact stands_single.2 (Or.inr (h.mono (contains_of_subset (List.subset_append_left _ _))))
  · split
    · exact h
    · exact wrapped List.mem_cons_self
  · exact wrapped List.mem_cons_self

theorem Stands.methodReference {env : Env} {id : Nat} {made : Target.Expr} (h : Stands access [e])
    (hm : env.methodReference id e = .ok made) : Stands access [made] := by
  unfold Env.methodReference at hm
  split at hm
  · rcases stands_single.1 h with h | ⟨_, _, _, hw, _⟩
    · cases h
    · cases hw
  · cases hm
    rcases stands_single.1 h with h | h
    · cases h
      exact stands_single.2 (Or.inl .reference)
    · exact stands_single.2 (Or.inr h)
  · exact absurd hm unsupported_ne_ok

theorem contains_binaryOperation {mode : Target.CompareMode} {op : Operator}
    {left right value : Target.Expr} (h : binaryOperation? mode op left right = some value) :
    Contains [value] [left, right] := by
  unfold binaryOperation? at h
  split at h <;> cases h
  · exact contains_of_operands (List.Subset.refl _)
  · exact contains_of_operands (List.subset_cons_self _ _)
  · refine contains_of_operands fun e he => ?_
    rcases List.mem_cons.1 he with rfl | he
    · exact List.mem_cons_of_mem _ List.mem_cons_self
    · rw [List.mem_singleton.1 he]
      exact List.mem_cons_of_mem _ (List.mem_cons_of_mem _ List.mem_cons_self)

end Stands

/-! ## Nodes and the code that they feed -/

/-- Every access without a qualifier that feeds the node is lowered in the surroundings in which
lowering comes to it, and stands in the code. -/
def Shown (env : Env) (id : Nat) (code : List Target.Expr) : Prop :=
  ∀ x, env.forest.Feeds x id → IsBare env.forest x →
    ∃ inner e, LeadsTo env id inner x ∧ inner.lowerExpr x = .ok e ∧ Stands e code

section Shown

variable {env : Env} {id : Nat} {e : Target.Expr} {code whole : List Target.Expr}

theorem Shown.imp (h : Shown env id code)
    (hcode : ∀ access, Stands access code → Stands access whole) : Shown env id whole := by
  intro x hfeeds hbare
  obtain ⟨inner, e, hleads, he, hstands⟩ := h x hfeeds hbare
  exact ⟨inner, e, hleads, he, hcode e hstands⟩

theorem Shown.mono (h : Shown env id code) (hcode : Contains whole code) : Shown env id whole :=
  h.imp fun _ hstands => hstands.mono hcode

theorem Shown.of_occursIn (h : Shown env id [e]) (he : OccursIn e code) : Shown env id code :=
  h.mono (List.forall_mem_singleton.2 he)

theorem Shown.of_mem (h : Shown env id [e]) (he : e ∈ code) : Shown env id code :=
  h.of_occursIn ⟨e, he, .self⟩

theorem Shown.of_operand {w : Target.Expr} (h : Shown env id [e]) (he : e ∈ w.operands) :
    Shown env id [w] :=
  h.of_occursIn ⟨w, List.mem_singleton_self w, occurs_of_mem he⟩

theorem Shown.of_subset (h : Shown env id code) (hcode : code ⊆ whole) : Shown env id whole :=
  h.mono (contains_of_subset hcode)

/-- Whatever feeds an ordinary node feeds one of its parts. -/
theorem Shown.of_parts {p : Payload} (hp : env.forest.payload? id = some p)
    (ho : isOrdinary p = true)
    (h : ∀ c ∈ env.forest.parts id, ¬ env.forest.LeftOut id c → Shown env c code) :
    Shown env id code := by
  intro x hfeeds hbare
  cases hfeeds with
  | here =>
    rw [hbare.not_ordinary hp] at ho
    cases ho
  | part hc hkept hfeeds =>
    obtain ⟨inner, e, hleads, he, hstands⟩ := h _ hc hkept x hfeeds hbare
    exact ⟨inner, e, .part hc hleads, he, hstands⟩
  | within hstmt =>
    cases (Forest.payload?_of_stmt? hstmt).symm.trans hp
    cases ho

theorem Shown.expr {expr : Expr} (h : env.forest.expr? id = some expr)
    (ho : isOrdinary (.expr expr) = true)
    (hparts : ∀ c ∈ env.forest.exprParts expr, Shown env c code) : Shown env id code := by
  have hp := Forest.payload?_of_expr? h
  refine .of_parts hp ho fun c hc _ => hparts c ?_
  rw [Forest.parts, hp] at hc
  exact hc

theorem Shown.stmt {stmt : Stmt} (h : env.forest.stmt? id = some stmt)
    (ho : isOrdinary (.stmt stmt) = true)
    (hparts : ∀ c ∈ env.forest.stmtParts stmt, ¬ env.forest.LeftOut id c → Shown env c code) :
    Shown env id code := by
  have hp := Forest.payload?_of_stmt? h
  refine .of_parts hp ho fun c hc hkept => hparts c ?_ hkept
  rw [Forest.parts, hp] at hc
  exact hc

theorem Shown.argument {a : Argument} (ha : env.forest.argument? id = some a)
    (h : Shown env a.expression code) : Shown env id code := by
  have hp := Forest.payload?_of_argument? ha
  refine .of_parts hp rfl fun c hc _ => ?_
  rw [Forest.parts, hp] at hc
  rwa [List.mem_singleton.1 hc]

theorem Shown.initializer {value : Nat}
    (hi : env.forest.initializer? id = some (.expression value)) (h : Shown env value code) :
    Shown env id code := by
  have hp := Forest.payload?_of_initializer? hi
  refine .of_parts hp rfl fun c hc _ => ?_
  rw [Forest.parts, hp] at hc
  rwa [List.mem_singleton.1 hc]

theorem Shown.aggregate {elements : Option Nat}
    (hi : env.forest.initializer? id = some (.aggregate elements))
    (h : ∀ c ∈ env.forest.elements elements, Shown env c code) : Shown env id code := by
  have hp := Forest.payload?_of_initializer? hi
  refine .of_parts hp rfl fun c hc _ => ?_
  rw [Forest.parts, hp] at hc
  exact h c hc

/-- An access without a qualifier stands in its own code. -/
theorem shown_of_bare {name : Nat} {build : Target.Expr → String → Target.Expr}
    (h : BareAccess env.forest id name build) (he : env.lowerExpr id = .ok e) :
    Shown env id [e] := by
  intro x hfeeds _
  cases hfeeds with
  | here =>
    refine ⟨env, e, .here, he, e, ?_, e, List.mem_singleton_self e, .self⟩
    rw [h.lowerExpr] at he
    simp only [Result.bind_ok, Result.pure_ok] at he
    obtain ⟨target, _, text, _, rfl⟩ := he
    cases h with
    | member => exact .member
    | lookup => exact .element
  | part hc =>
    rw [h.parts_eq_nil] at hc
    cases hc
  | within hstmt => exact absurd hstmt (IsBare.ne_stmt ⟨name, build, h⟩)

/-- No access feeds a literal bound. -/
theorem shown_of_literalInt? {n : Int64} (h : env.literalInt? id = some n) :
    Shown env id code := by
  induction id using Env.literalInt?.induct env generalizing n with
  | case1 id value base suffix hexpr => exact .expr hexpr rfl (List.forall_mem_nil _)
  | case2 id operand hexpr ih =>
    rw [Env.literalInt?, hexpr] at h
    exact .expr hexpr rfl (List.forall_mem_singleton.2 (ih h))
  | case3 id operand hexpr ih =>
    rw [Env.literalInt?, hexpr] at h
    obtain ⟨m, hm, -⟩ := Option.bind_eq_some_iff.1 h
    exact .expr hexpr rfl (List.forall_mem_singleton.2 (ih hm))
  | case4 id h1 h2 h3 =>
    rw [Env.literalInt?] at h
    split at h <;> simp_all

end Shown

/-! ## Expressions -/

section Exprs

variable {env : Env} {id : Nat} {e : Target.Expr} {es : List Target.Expr}

/-- What the lowering of the expression shows. -/
def ShowsFor (env : Env) (id : Nat) : Prop := ∀ e, env.lowerExpr id = .ok e → Shown env id [e]

theorem shown_lowerArguments_of {arguments : Option Nat}
    (ih : ∀ c, arguments = some c → ∀ x < c, ShowsFor env x)
    (h : env.lowerArguments arguments = .ok es) :
    ∀ a ∈ env.forest.elements arguments, Shown env a es := by
  intro a ha
  cases arguments with
  | none => cases ha
  | some c =>
    rw [Env.lowerArguments] at h
    split at h
    · next hnone =>
      rw [Forest.elements, Option.bind_some, hnone] at ha
      cases ha
    · next value hvalue =>
      rw [Forest.elements, Option.bind_some, hvalue] at ha
      obtain ⟨element, hmem, rfl⟩ := List.mem_filterMap.1 ha
      obtain ⟨e, hes, he⟩ := Result.exists_of_mapM_ok h ⟨some a, hmem⟩ (List.mem_attach _ _)
      dsimp only at he
      split at he
      · next expression hargument =>
        have hlt : expression + 1 < c := Forest.lt_of_argument_of_mem hvalue hmem hargument
        have hshown := ih c rfl expression (by omega) e he
        exact .argument hargument (hshown.of_mem hes)
      · exact absurd he unsupported_ne_ok

theorem shown_boundLength_of {bound : Nat} (ih : ShowsFor env bound)
    (h : env.boundLength bound = .ok e) : Shown env bound [e] := by
  rw [Env.boundLength] at h
  split at h
  · next hexpr =>
    split at h
    · next hl hu =>
      exact .expr hexpr rfl (List.forall_mem_cons.2
        ⟨shown_of_literalInt? hl, List.forall_mem_singleton.2 (shown_of_literalInt? hu)⟩)
    · simp only [Result.bind_ok, Result.pure_ok] at h
      obtain ⟨length, hlength, rfl⟩ := h
      exact (ih _ hlength).of_operand List.mem_cons_self
  · split at h
    · next hu => exact shown_of_literalInt? hu
    · simp only [Result.bind_ok, Result.pure_ok] at h
      obtain ⟨upper, hupper, rfl⟩ := h
      have hshown := ih _ hupper
      unfold Env.shiftedLength
      split
      · exact hshown
      · exact hshown.of_operand List.mem_cons_self

theorem shown_boundLengths_of {bounds : Option Nat}
    (ih : ∀ c, bounds = some c → ∀ x < c, ShowsFor env x)
    (h : env.boundLengths bounds = .ok es) :
    ∀ a ∈ env.forest.elements bounds, Shown env a es := by
  intro a ha
  cases bounds with
  | none => cases ha
  | some c =>
    rw [Env.boundLengths] at h
    obtain ⟨e, hes, he⟩ := Result.exists_of_mapM_ok h ⟨a, ha⟩ (List.mem_attach _ _)
    dsimp only at he
    split at he
    · next argument hargument =>
      have hlt := Forest.lt_of_argument_of_mem_elements ha hargument
      have hshown := shown_boundLength_of (ih c rfl _ (by omega)) he
      exact .argument hargument (hshown.of_mem hes)
    · exact absurd he unsupported_ne_ok

theorem shown_lowerAggregate_of {initializer : Nat}
    (ih : ∀ x < initializer, ShowsFor env x) (h : env.lowerAggregate initializer = .ok es) :
    Shown env initializer es := by
  rw [Env.lowerAggregate] at h
  split at h
  · next hinitializer => exact .aggregate hinitializer (List.forall_mem_nil _)
  · next c hinitializer =>
    refine .aggregate hinitializer fun element hmem => ?_
    obtain ⟨e, hes, he⟩ := Result.exists_of_mapM_ok h ⟨element, hmem⟩ (List.mem_attach _ _)
    dsimp only at he
    split at he
    · next expression hexpression =>
      have h1 := Forest.lt_of_initializer hinitializer (c := c)
        (by simp [Initializer.slots, Slot.opt])
      have h2 := Forest.lt_of_mem_elements hmem
      have h3 := Forest.lt_of_initializer hexpression (c := expression)
        (by simp [Initializer.slots, Slot.expr, Slot.one])
      have hshown := ih expression (by omega) e he
      exact .initializer hexpression (hshown.of_mem hes)
    · exact absurd he unsupported_ne_ok
  · exact absurd h unsupported_ne_ok

theorem shown_constructArray_of {type initializer : Nat} (ih : ∀ x < id, ShowsFor env x)
    (h : env.forest.expr? id = some (.constructArray type initializer))
    (he : env.lowerExpr id = .ok e) : Shown env id [e] := by
  obtain ⟨element, rank, bounds, lowered, lengths, elements, htype, _, hlengths, helements, rfl⟩ :=
    lowerExpr_constructArray h he
  have htypeLt : type < id := Forest.lt_of_expr h (by simp [Expr.slots, Slot.one])
  have hinitLt : initializer < id := Forest.lt_of_expr h (by simp [Expr.slots, Slot.one])
  have hbounds : ∀ c ∈ env.forest.boundsOf type, Shown env c lengths := by
    rw [Forest.boundsOf, htype]
    refine shown_boundLengths_of (fun c hc x hx => ih x ?_) hlengths
    have hlt := Forest.bounds_lt htype c hc
    omega
  have hinit : Shown env initializer elements :=
    shown_lowerAggregate_of (fun x hx => ih x (by omega)) helements
  refine .expr h rfl fun c hc => ?_
  rcases List.mem_append.1 hc with hc | hc
  · exact (hbounds c hc).mono (contains_of_operands (List.subset_append_left _ _))
  · rw [List.mem_singleton.1 hc]
    exact hinit.mono (contains_of_operands (List.subset_append_right _ _))

/-- Every access without a qualifier that feeds an expression stands in its lowering. -/
theorem shown_lowerExpr (env : Env) (id : Nat) : ShowsFor env id := by
  induction id using Nat.strongRecOn with
  | ind id ih =>
    intro e he
    have operand : ∀ {c : Nat} {inner whole : Target.Expr}, Operand env id c inner →
        inner ∈ whole.operands → Shown env c [whole] := fun ho hmem =>
      (ih _ ho.lt _ ho.lowered).of_operand hmem
    have hargs : ∀ {expr : Expr} {arguments : Option Nat} {args : List Target.Expr},
        env.forest.expr? id = some expr →
        (∀ c, arguments = some c → c ∈ expr.slots.map Slot.id) →
        LowersArguments env id arguments args →
        ∀ a ∈ env.forest.elements arguments, Shown env a args := fun h hslot ha =>
      shown_lowerArguments_of (fun c hc x hx => ih x
        (Nat.lt_trans hx (Forest.lt_of_expr h (hslot c hc)))) ha.lowered
    cases lowersExpr_of_ok he with
    | literal h | nothing h | self h | base h | simpleName h | typeReference h | getType h =>
      exact .expr h rfl (List.forall_mem_nil _)
    | member h => exact shown_of_bare (.member h) he
    | memberLookup h => exact shown_of_bare (.lookup h) he
    | qualified h ho | lookup h ho | cast h _ ho | intrinsicCast h ho | typeTest h ho
    | unary h _ ho =>
      exact .expr h rfl (List.forall_mem_singleton.2 (operand ho List.mem_cons_self))
    | parenthetical h ho =>
      exact .expr h rfl (List.forall_mem_singleton.2 (ih _ ho.lt _ ho.lowered))
    | addressOf h ho hm =>
      have hmethod := ih _ ho.lt _ ho.lowered
      exact .expr h rfl (List.forall_mem_singleton.2
        (hmethod.imp fun _ hstands => hstands.methodReference hm))
    | index h _ hc ha =>
      have harguments := hargs h (by rintro c rfl; simp [Expr.slots, Slot.arguments, Slot.opt]) ha
      refine .expr h rfl (List.forall_mem_cons.2 ⟨operand hc List.mem_cons_self, fun a hmem => ?_⟩)
      exact (harguments a hmem).mono (contains_of_operands (List.subset_cons_self _ _))
    | @call target arguments known callee args h _ hc ha =>
      have harguments := hargs h (by rintro c rfl; simp [Expr.slots, Slot.arguments, Slot.opt]) ha
      refine .expr h rfl (List.forall_mem_cons.2 ⟨?_, fun a hmem => ?_⟩)
      · exact (ih _ hc.lt _ hc.lowered).imp fun _ hstands => hstands.invocation args
      · exact (harguments a hmem).mono (contains_invocation callee args)
    | construct h _ ha =>
      have harguments := hargs h (by rintro c rfl; simp [Expr.slots, Slot.arguments, Slot.opt]) ha
      refine .expr h rfl fun a hmem => ?_
      exact (harguments a hmem).mono (contains_of_operands (List.Subset.refl _))
    | constructArray h => exact shown_constructArray_of ih h he
    | @range _ _ _ lower upper h _ hl hr =>
      refine .expr h rfl (List.forall_mem_cons.2 ⟨?_, List.forall_mem_singleton.2 ?_⟩)
      · exact operand hl (List.mem_cons_of_mem _ List.mem_cons_self)
      · exact operand hr List.mem_cons_self
    | binary h _ hl hr hvalue =>
      have hcontains := contains_binaryOperation hvalue
      refine .expr h rfl (List.forall_mem_cons.2 ⟨?_, List.forall_mem_singleton.2 ?_⟩)
      · exact (ih _ hl.lt _ hl.lowered).of_occursIn (hcontains _ List.mem_cons_self)
      · exact (ih _ hr.lt _ hr.lowered).of_occursIn
          (hcontains _ (List.mem_cons_of_mem _ List.mem_cons_self))

theorem shown_lowerArguments {arguments : Option Nat} (h : env.lowerArguments arguments = .ok es) :
    ∀ a ∈ env.forest.elements arguments, Shown env a es :=
  shown_lowerArguments_of (fun _ _ x _ => shown_lowerExpr env x) h

theorem shown_boundLengths {bounds : Option Nat} (h : env.boundLengths bounds = .ok es) :
    ∀ a ∈ env.forest.elements bounds, Shown env a es :=
  shown_boundLengths_of (fun _ _ x _ => shown_lowerExpr env x) h

end Exprs

/-! ## Declared variables -/

section Variables

variable {env : Env} {e : Target.Expr}

theorem shown_initialValue {initializer : Nat} {type : Target.Ty}
    (h : env.initialValue initializer type = .ok e) : Shown env initializer [e] := by
  unfold Env.initialValue at h
  split at h
  · next hinit => exact .initializer hinit (shown_lowerExpr env _ e h)
  · simp only [Result.bind_ok, Result.pure_ok] at h
    obtain ⟨elements, helements, rfl⟩ := h
    have hshown := shown_lowerAggregate_of (fun x _ => shown_lowerExpr env x) helements
    exact hshown.mono (contains_of_operands (List.subset_append_right _ _))
  · exact absurd h unsupported_ne_ok

theorem shown_allocation {declared : Nat} {type : Target.Ty} {init : Option Target.Expr}
    (h : env.allocation declared type = .ok init) :
    ∀ c ∈ env.forest.declaredBounds declared, Shown env c init.toList := by
  intro c hc
  unfold Forest.declaredBounds at hc
  unfold Env.allocation at h
  split at hc
  · next inner arrayType hname =>
    rw [hname] at h
    unfold Forest.boundsOf at hc
    split at hc
    · next element rank bounds htype =>
      cases bounds with
      | none => cases hc
      | some bounds =>
        simp only [htype, Result.bind_ok, Result.pure_ok] at h
        obtain ⟨lengths, hlengths, rfl⟩ := h
        exact (shown_boundLengths hlengths c hc).mono
          (contains_of_operands (List.subset_append_left _ _))
    · cases hc
  · cases hc

theorem shown_declaredVariable {d : Declarator} {declared c : Nat} {v : DeclaredVariable}
    (h : env.declaredVariable d declared = .ok v)
    (hc : c ∈ match d.initializer with
      | some initializer => [initializer]
      | none =>
        if d.isNew then env.forest.elements d.arguments
        else env.forest.declaredBounds declared) : Shown env c v.init.toList := by
  obtain ⟨_, _, hstarts⟩ := declaredVariable_ok h
  generalize v.init = init at hstarts ⊢
  cases hstarts with
  | value hinit he =>
    rw [hinit, List.mem_singleton] at hc
    rw [hc]
    exact shown_initialValue he
  | object hinit hnew hargs =>
    simp only [hinit, hnew, if_true] at hc
    exact (shown_lowerArguments hargs c hc).mono (contains_of_operands (List.Subset.refl _))
  | array hinit hnew ha =>
    simp only [hinit, hnew, Bool.false_eq_true, if_false] at hc
    exact shown_allocation ha c hc

/-- What feeds a declarator goes into the initial values of its variables. -/
theorem shown_declaredVariables {declarator : Nat} {vs : List DeclaredVariable}
    (h : env.declaredVariables declarator = .ok vs) :
    Shown env declarator (vs.filterMap DeclaredVariable.init) := by
  unfold Env.declaredVariables at h
  split at h
  · next d hd =>
    have hp := payload?_of_declarator? hd
    refine .of_parts hp rfl fun c hc _ => ?_
    rw [Forest.parts, hp] at hc
    obtain ⟨declared, hmem, hc⟩ := List.mem_flatMap.1 hc
    obtain ⟨v, hv, hlowered⟩ := Result.exists_of_mapM_ok h declared hmem
    refine (shown_declaredVariable hlowered hc).of_subset fun init hinit => ?_
    exact List.mem_filterMap.2 ⟨v, hv, Option.mem_toList.1 hinit⟩
  · exact absurd h unsupported_ne_ok

end Variables

/-! ## Statements without a body -/

section Plain

variable {env : Env} {id : Nat} {routine : Routine} {s t : BodyState} {e : Target.Expr}
  {out : List Target.Stmt}

theorem shown_assignmentTarget {target : Nat} (h : env.assignmentTarget routine target = .ok e) :
    Shown env target [e] := by
  unfold Env.assignmentTarget at h
  split at h
  · split at h
    · next hnamed =>
      unfold Env.isNamed at hnamed
      split at hnamed
      · next hexpr => exact .expr hexpr rfl (List.forall_mem_nil _)
      · cases hnamed
    · exact shown_lowerExpr env target e h
  · exact shown_lowerExpr env target e h

theorem shown_lowerCompound {op : Operator} {target source : Nat}
    (h : env.lowerCompound routine id op target source = .ok out) :
    Shown env target (exprsAll out) ∧ Shown env source (exprsAll out) := by
  obtain ⟨place, right, value, hplace, hright, hvalue, rfl⟩ := lowerCompound_ok h
  have hoperands : Contains (exprsAll [.assign place value]) [place, right] :=
    contains_of_mem (List.mem_cons_of_mem _ List.mem_cons_self) (contains_binaryOperation hvalue)
  exact ⟨(shown_assignmentTarget hplace).of_occursIn (hoperands _ List.mem_cons_self),
    (shown_lowerExpr env source right hright).of_occursIn
      (hoperands _ (List.mem_cons_of_mem _ List.mem_cons_self))⟩

theorem shown_lowerMid {target start source : Nat} {length : Option Nat}
    (h : env.lowerMid routine target start length source = .ok out) :
    ∀ c ∈ [target, start] ++ length.toList ++ [source], Shown env c (exprsAll out) := by
  obtain ⟨place, first, count, value, hplace, hfirst, hcount, hvalue, rfl⟩ := lowerMid_ok h
  have part : ∀ {c : Nat} {e : Target.Expr}, Shown env c [e] →
      e ∈ [place, first, count, value] →
      Shown env c (exprsAll [.assign place
        (.staticCall "StringType" "MidStmtStr" [place, first, count, value])]) := fun h hmem =>
    h.of_occursIn ⟨_, List.mem_cons_of_mem _ List.mem_cons_self,
      occurs_of_mem (List.mem_append_right _ hmem)⟩
  intro c hc
  simp only [List.mem_append, List.mem_cons, List.not_mem_nil, or_false, Option.mem_toList] at hc
  rcases hc with ((rfl | rfl) | hlength) | rfl
  · exact part (shown_assignmentTarget hplace) List.mem_cons_self
  · exact part (shown_lowerExpr env _ first hfirst) (by simp)
  · subst hlength
    exact part (shown_lowerExpr env _ count hcount) (by simp)
  · exact part (shown_lowerExpr env _ value hvalue) (by simp)

theorem shown_lowerLocals {modifiers declarators : Nat}
    (h : env.lowerLocals modifiers declarators = .ok out) :
    ∀ c ∈ env.forest.elements (some declarators), Shown env c (exprsAll out) := by
  simp only [Env.lowerLocals, Result.bind_ok, Result.pure_ok] at h
  obtain ⟨lists, hlists, rfl⟩ := h
  intro declarator hmem
  obtain ⟨stmts, hstmts, hlowered⟩ := Result.exists_of_mapM_ok hlists declarator hmem
  obtain ⟨vs, hvs, hlowered⟩ := Result.bind_ok.1 hlowered
  refine (shown_declaredVariables hvs).of_subset fun init hinit => ?_
  obtain ⟨v, hv, hinit⟩ := List.mem_filterMap.1 hinit
  obtain ⟨stmt, hstmt, hdeclare⟩ := Result.exists_of_mapM_ok hlowered v hv
  rw [Env.declareLocal, hinit] at hdeclare
  cases hdeclare
  have hlist : stmts ⊆ lists.flatten := fun x hx => List.mem_flatten.2 ⟨stmts, hstmts, hx⟩
  exact exprs_subset (hlist hstmt) List.mem_cons_self

/-- The array and the lengths of an operand both go into the statements. -/
theorem ReDims.shown {operand : Nat} {preserve : Bool} (h : ReDims env operand preserve out) :
    Shown env operand (exprsAll out) := by
  have parts : ∀ {target : Nat} {arguments known : Option Nat} {element : Target.Ty}
      {array : Target.Expr} {lengths : List Target.Expr} {initializer : Option (List Target.Expr)},
      env.forest.expr? operand = some (.callOrIndex target arguments known) →
      env.lowerExpr target = .ok array → env.boundLengths arguments = .ok lengths →
      array ∈ exprsAll out → .arrayCreate element lengths initializer ∈ exprsAll out →
      Shown env operand (exprsAll out) := fun hx ha hl harray hcreate =>
    .expr hx rfl (List.forall_mem_cons.2 ⟨(shown_lowerExpr env _ _ ha).of_mem harray,
      fun a hmem => (shown_boundLengths hl a hmem).mono (contains_of_mem hcreate
        (contains_of_operands (List.subset_append_left _ _)))⟩)
  cases h with
  | anew hx _ ha hl =>
    exact parts hx ha hl List.mem_cons_self (List.mem_cons_of_mem _ List.mem_cons_self)
  | preserved hx _ ha hl =>
    exact parts hx ha hl (by simp [exprsAll, exprs, Env.preserved]) List.mem_cons_self

theorem LowersPlain.shown (h : LowersPlain routine env id s out t) :
    Shown env id (exprsAll out) := by
  cases h with
  | empty h | stop h | halt h | endBlock h | label h | goto h | goSub h | exit h =>
    exact .stmt h rfl fun c hc => nomatch hc
  | @returns expression _ h hs =>
    refine .stmt h rfl fun c hc _ => ?_
    cases expression with
    | none => cases hc
    | some expression =>
      obtain ⟨value, hvalue, hs⟩ := Result.bind_ok.1 hs
      cases hs
      rw [List.mem_singleton.1 hc]
      exact (shown_lowerExpr env _ value hvalue).of_mem List.mem_cons_self
  | raiseEvent h _ ha =>
    exact .stmt h rfl fun c hc _ => (shown_lowerArguments ha c hc).mono
      (contains_of_operands (List.subset_cons_self _ _))
  | reDim h hs =>
    obtain ⟨lists, rfl, hlists⟩ := lowerReDim_ok h hs
    refine .stmt h rfl fun operand hmem _ => ?_
    obtain ⟨list, hlist, hoperand⟩ := (mem_of_forall₂ hlists).1 operand hmem
    exact hoperand.shown.of_subset
      (exprsAll_subset fun x hx => List.mem_flatten.2 ⟨list, hlist, hx⟩)
  | erase h ht =>
    refine .stmt h rfl fun c hc _ => ?_
    obtain ⟨array, harray, hlowered⟩ := Result.exists_of_mapM_ok ht c hc
    exact (shown_lowerExpr env c array hlowered).of_mem
      (exprs_subset (List.mem_map_of_mem harray) List.mem_cons_self)
  | call h hc ha =>
    refine .stmt h rfl (List.forall_mem_cons.2 ⟨fun _ => ?_, fun a hmem _ => ?_⟩)
    · exact (shown_lowerExpr env _ _ hc).imp fun _ hstands => hstands.invocation _
    · exact (shown_lowerArguments ha a hmem).mono (contains_invocation _ _)
  | assignment h hp hv =>
    exact .stmt h rfl (List.forall_mem_cons.2
      ⟨fun _ => (shown_assignmentTarget hp).of_mem List.mem_cons_self,
        List.forall_mem_singleton.2 fun _ =>
          (shown_lowerExpr env _ _ hv).of_mem (List.mem_cons_of_mem _ List.mem_cons_self)⟩)
  | compound h hs =>
    obtain ⟨htarget, hsource⟩ := shown_lowerCompound hs
    exact .stmt h rfl (List.forall_mem_cons.2
      ⟨fun _ => htarget, List.forall_mem_singleton.2 fun _ => hsource⟩)
  | mid h hs => exact .stmt h rfl fun c hc _ => shown_lowerMid hs c hc
  | locals h hs => exact .stmt h rfl fun c hc _ => shown_lowerLocals hs c hc

end Plain

/-! ## Heads of blocks -/

section Heads

variable {env : Env} {id : Nat} {s t : BodyState} {code : List Target.Expr}
  {statements : Option Nat}

theorem shown_lowerCondition {condition : LoopCondition} {test : Target.Expr}
    (h : env.lowerCondition condition = .ok test) : Shown env condition.expression [test] := by
  obtain ⟨inner, hinner, h⟩ := Result.bind_ok.1 h
  cases h
  have hshown := shown_lowerExpr env _ inner hinner
  unfold loopTest
  split
  · exact hshown
  · exact hshown.of_operand List.mem_cons_self

/-- A loop shows what its test and its statements show. -/
theorem LoopHead.shown {test : Target.Expr} (h : LoopHead env id test statements)
    (htest : OccursIn test code)
    (hbody : ∀ c ∈ env.forest.elements statements, Shown env c code) : Shown env id code := by
  cases h with
  | doBlock h ht hc =>
    have htrailing : env.forest.trailing _ = none := ht
    refine .stmt h rfl fun c hmem _ => ?_
    rw [Forest.stmtParts, htrailing] at hmem
    simp only [Option.toList_some, List.map_cons, List.map_nil, Option.toList_none,
      List.append_nil, List.singleton_append, List.mem_cons] at hmem
    rcases hmem with rfl | hmem
    · exact (shown_lowerCondition hc).of_occursIn htest
    · exact hbody c hmem
  | endless h ht =>
    have htrailing : env.forest.trailing _ = none := ht
    refine .stmt h rfl fun c hmem _ => hbody c ?_
    rw [Forest.stmtParts, htrailing] at hmem
    simpa using hmem
  | whileBlock h hc =>
    exact .stmt h rfl (List.forall_mem_cons.2
      ⟨fun _ => (shown_lowerExpr env _ _ hc).of_occursIn htest, fun c hmem _ => hbody c hmem⟩)

theorem CountedHead.shown {declared : List Target.Stmt} {control lower upper step : Target.Expr}
    (h : CountedHead env id declared control lower upper step statements)
    (hparts : Contains code [control, lower, upper, step])
    (hbody : ∀ c ∈ env.forest.elements statements, Shown env c code) : Shown env id code := by
  cases h with
  | @forBlock c declarator l u given _ tail _ _ _ _ _ h _ hc hl hu hs =>
    refine .stmt h rfl fun x hmem hkept => ?_
    simp only [Forest.stmtParts, List.mem_append, List.mem_cons, List.not_mem_nil, or_false,
      Option.mem_toList] at hmem
    have part : ∀ {x : Nat} {e : Target.Expr}, env.lowerExpr x = .ok e →
        e ∈ [control, lower, upper, step] → Shown env x code := fun he hmem =>
      (shown_lowerExpr env _ _ he).of_occursIn (hparts _ hmem)
    rcases hmem with ((hcounter | rfl | rfl | rfl) | hstep) | hmem
    · subst hcounter
      exact absurd (.counter h) hkept
    · exact part hc List.mem_cons_self
    · exact part hl (by simp)
    · exact part hu (by simp)
    · subst hstep
      exact part hs (by simp)
    · exact hbody x hmem

theorem ElementHead.shown {declared : List Target.Stmt} {control collection : Target.Expr}
    {type : Target.Ty} (h : ElementHead env id declared control collection type statements)
    (hparts : Contains code [control, collection])
    (hbody : ∀ c ∈ env.forest.elements statements, Shown env c code) : Shown env id code := by
  cases h with
  | @forEachBlock c declarator given _ tail _ _ _ _ h _ _ hc hx =>
    refine .stmt h rfl fun x hmem hkept => ?_
    simp only [Forest.stmtParts, List.mem_append, List.mem_cons, List.not_mem_nil, or_false,
      Option.mem_toList] at hmem
    rcases hmem with (hcounter | rfl | rfl) | hmem
    · subst hcounter
      exact absurd (.element h) hkept
    · exact (shown_lowerExpr env _ _ hc).of_occursIn (hparts _ List.mem_cons_self)
    · exact (shown_lowerExpr env _ _ hx).of_occursIn
        (hparts _ (List.mem_cons_of_mem _ List.mem_cons_self))
    · exact hbody x hmem

/-- A test of a range holds both ends. -/
theorem shown_lowerClause {value test : Target.Expr} {clause : Nat}
    (h : env.lowerClause value clause = .ok test) : Shown env clause [test] := by
  have operand : ∀ {x : Nat} {e whole : Target.Expr}, env.lowerExpr x = .ok e →
      Occurs e whole → Shown env x [whole] := fun he hoccurs =>
    (shown_lowerExpr env _ _ he).of_occursIn ⟨_, List.mem_singleton_self _, hoccurs⟩
  unfold Env.lowerClause at h
  split at h
  · next op x hp =>
    obtain ⟨e, he, h⟩ := Result.bind_ok.1 h
    cases h
    refine .of_parts hp rfl fun c hc _ => ?_
    rw [Forest.parts, hp] at hc
    rw [List.mem_singleton.1 hc]
    exact operand he (occurs_of_mem (List.mem_cons_of_mem _ List.mem_cons_self))
  · next lower upper hp =>
    simp only [Result.bind_ok, Result.pure_ok] at h
    obtain ⟨first, hfirst, last, hlast, rfl⟩ := h
    have hends : ∀ {e : Target.Expr} {op : Target.BinaryOp}, Occurs e (.binary op value e) :=
      occurs_of_mem (List.mem_cons_of_mem _ List.mem_cons_self)
    refine .of_parts hp rfl fun c hc _ => ?_
    rw [Forest.parts, hp] at hc
    rcases List.mem_cons.1 hc with rfl | hc
    · exact operand hfirst (hends.trans (occurs_of_mem List.mem_cons_self))
    · rw [List.mem_singleton.1 hc]
      exact operand hlast
        (hends.trans (occurs_of_mem (List.mem_cons_of_mem _ List.mem_cons_self)))
  · exact absurd h unsupported_ne_ok

theorem contains_conjunction {tests : List Target.Expr} {test : Target.Expr}
    (h : conjunction? tests = some test) : Contains [test] tests := by
  cases tests with
  | nil => cases h
  | cons first rest =>
    rw [conjunction?, Option.some.injEq] at h
    induction rest generalizing first with
    | nil => exact h ▸ Contains.refl _
    | cons clause rest ih =>
      refine (ih (.binary .logicalAnd first clause) h).trans fun e he => ?_
      rw [List.mem_cons, List.mem_cons] at he
      rcases he with rfl | rfl | he
      · exact ⟨_, List.mem_cons_self, occurs_of_mem List.mem_cons_self⟩
      · exact ⟨_, List.mem_cons_self, occurs_of_mem (List.mem_cons_of_mem _ List.mem_cons_self)⟩
      · exact ⟨e, List.mem_cons_of_mem _ he, .self⟩

theorem shown_lowerCaseTest {value test : Target.Expr} {case clauses : Nat}
    (h : env.lowerCaseTest value case clauses = .ok test) :
    ∀ clause ∈ env.forest.elements (some clauses), Shown env clause [test] := by
  intro clause hmem
  obtain ⟨tests, htests, h⟩ := Result.bind_ok.1 h
  split at h
  · next hconjunction =>
    cases h
    obtain ⟨e, he, hlowered⟩ := Result.exists_of_mapM_ok htests clause hmem
    exact (shown_lowerClause hlowered).of_occursIn (contains_conjunction hconjunction e he)
  · exact absurd h unsupported_ne_ok

theorem Arm.shown {value : Option Target.Expr} {test : Target.Expr}
    (h : Arm env id value test statements) (htest : OccursIn test code)
    (hbody : ∀ c ∈ env.forest.elements statements, Shown env c code) : Shown env id code := by
  cases h with
  | elseIf h hc =>
    exact .stmt h rfl (List.forall_mem_cons.2
      ⟨fun _ => (shown_lowerExpr env _ _ hc).of_occursIn htest, fun c hmem _ => hbody c hmem⟩)
  | case h hc =>
    refine .stmt h rfl fun c hmem _ => ?_
    rcases List.mem_append.1 hmem with hmem | hmem
    · exact (shown_lowerCaseTest hc c hmem).of_occursIn htest
    · exact hbody c hmem

/-- A selector that is no name and no literal goes into the local that holds its value. -/
theorem shown_lowerSelector {expression : Nat} {declared : List Target.Stmt}
    {value : Target.Expr} (h : env.lowerSelector expression s = .ok ((declared, value), t)) :
    Shown env expression (exprsAll declared) := by
  unfold Env.lowerSelector at h
  simp only [Lower.bind_ok, Lower.lift_ok] at h
  obtain ⟨lowered, _, ⟨hlowered, rfl⟩, h⟩ := h
  obtain ⟨m, hm, h⟩ := Lower.exists_eq h
  split at hm <;> subst hm
  · next hexpr => exact .expr hexpr rfl (List.forall_mem_nil _)
  · next hexpr => exact .expr hexpr rfl (List.forall_mem_nil _)
  · simp only [Lower.bind_ok, Lower.pure_ok, Prod.mk.injEq] at h
    obtain ⟨_, _, _, ⟨rfl, _⟩, _⟩ := h
    exact (shown_lowerExpr env _ lowered hlowered).of_mem List.mem_cons_self

end Heads

/-! ## Bodies -/

section Bodies

variable {routine : Routine} {env : Env} {id : Nat} {s t : BodyState}

/-- The expressions of a chain are those of its branches and of its last block. -/
theorem exprsAll_chain (branches : List Branch) (last : List Target.Stmt) :
    exprsAll (chain branches last) =
      branches.flatMap (fun branch => branch.1 :: exprsAll branch.2) ++ exprsAll last := by
  induction branches with
  | nil => rfl
  | cons branch branches ih =>
    have hcons : chain (branch :: branches) last =
        [.conditional branch.1 branch.2 (chain branches last)] := rfl
    rw [hcons, Target.Stmt.exprsAll_singleton, exprs, ih, List.flatMap_cons, List.cons_append,
      List.cons_append, List.append_assoc]

theorem exprsAll_preTestLoop (test : Target.Expr) (body : List Target.Stmt) :
    exprsAll [preTestLoop test body] = test :: exprsAll body :=
  Target.Stmt.exprsAll_singleton _

theorem exprsAll_postTestLoop (latch : String) (test : Target.Expr) (body : List Target.Stmt) :
    exprsAll [postTestLoop latch test body] =
      .bool true :: .ident latch :: (exprsAll body ++ [.ident latch, test]) := by
  rw [Target.Stmt.exprsAll_singleton, postTestLoop, exprs, exprsAll_append]
  rfl

theorem exprsAll_countedLoop (control lower upper step : Target.Expr) (body : List Target.Stmt) :
    exprsAll [countedLoop control lower upper step body] =
      [control, lower, .binary .lessEqual control upper, control, .binary .add control step] ++
        exprsAll body :=
  Target.Stmt.exprsAll_singleton _

theorem exprsAll_elementLoop (enumerator : String) (control collection : Target.Expr)
    (type : Target.Ty) (body : List Target.Stmt) :
    exprsAll [elementLoop enumerator control collection type body] =
      [.invoke (some collection) "GetEnumerator" [],
        .invoke (some (.ident enumerator)) "MoveNext" [], control,
        .cast .convert type (.field (.ident enumerator) "Current")] ++ exprsAll body :=
  Target.Stmt.exprsAll_singleton _

theorem contains_countedLoop (control lower upper step : Target.Expr) (body : List Target.Stmt) :
    Contains (exprsAll [countedLoop control lower upper step body])
      [control, lower, upper, step] := by
  have behind : ∀ {op : Target.BinaryOp} {e : Target.Expr}, Occurs e (.binary op control e) :=
    occurs_of_mem (List.mem_cons_of_mem _ List.mem_cons_self)
  rw [exprsAll_countedLoop]
  intro e he
  simp only [List.mem_cons, List.not_mem_nil, or_false] at he
  rcases he with rfl | rfl | rfl | rfl
  · exact ⟨e, List.mem_cons_self, .self⟩
  · exact ⟨e, by simp, .self⟩
  · exact ⟨.binary .lessEqual control e, by simp, behind⟩
  · exact ⟨.binary .add control e, by simp, behind⟩

theorem contains_elementLoop (enumerator : String) (control collection : Target.Expr)
    (type : Target.Ty) (body : List Target.Stmt) :
    Contains (exprsAll [elementLoop enumerator control collection type body])
      [control, collection] := by
  rw [exprsAll_elementLoop]
  intro e he
  simp only [List.mem_cons, List.not_mem_nil, or_false] at he
  rcases he with rfl | rfl
  · exact ⟨e, by simp, .self⟩
  · exact ⟨.invoke (some e) "GetEnumerator" [], by simp, occurs_of_mem List.mem_cons_self⟩

/-- The subject of a `With` block feeds no statement, and the accesses among its statements are
lowered under it. -/
theorem Shown.within {expression : Nat} {statements tail : Option Nat} {subject : Target.Expr}
    {code : List Target.Expr}
    (h : env.forest.stmt? id = some (.guarded expression statements tail))
    (hk : env.forest.kind id = .withBlockStatement) (hs : env.lowerExpr expression = .ok subject)
    (hbody : ∀ c ∈ env.forest.elements statements, Shown (env.within subject) c code) :
    Shown env id code := by
  have hp := Forest.payload?_of_stmt? h
  intro x hfeeds hbare
  cases hfeeds with
  | here => exact absurd h hbare.ne_stmt
  | part hc hkept =>
    rw [Forest.parts, hp] at hc
    obtain rfl := List.mem_singleton.1 hc
    exact absurd (.subject h) hkept
  | within hother _ hc hfeeds =>
    cases h.symm.trans hother
    obtain ⟨inner, e, hleads, he, hstands⟩ := hbody _ hc x hfeeds hbare
    exact ⟨inner, e, .within h hk hs hc hleads, he, hstands⟩

end Bodies

mutual

theorem Lowers.shown {routine : Routine} {env : Env} {id : Nat} {s t : BodyState}
    {out : List Target.Stmt} (h : Lowers routine env id s out t) :
    Shown env id (exprsAll out) := by
  match h with
  | .plain h => exact h.shown
  | .preTest h hb =>
    have hbody := hb.shown
    rw [exprsAll_preTestLoop]
    refine h.shown ⟨_, List.mem_cons_self, .self⟩ fun c hc => (hbody c hc).of_subset ?_
    exact List.subset_cons_self _ _
  | @Lowers.postTest _ _ _ _ _ condition statements tail _ body h ht hb hc =>
    have hbody := hb.shown
    have htrailing : env.forest.trailing tail = some condition := ht
    rw [exprsAll_postTestLoop]
    refine .stmt h rfl fun c hmem _ => ?_
    rw [Forest.stmtParts, htrailing] at hmem
    simp only [Option.toList_none, List.map_nil, List.nil_append, Option.toList_some,
      List.map_cons, List.mem_append, List.mem_singleton] at hmem
    rcases hmem with hmem | rfl
    · exact (hbody c hmem).of_subset fun e he => by simp [he]
    · exact (shown_lowerCondition hc).of_mem (by simp)
  | .counted h hb =>
    have hbody := hb.shown
    rw [exprsAll_append]
    refine h.shown ?_ fun c hc => (hbody c hc).of_subset ?_
    · exact (contains_of_subset (List.subset_append_right _ _)).trans
        (contains_countedLoop _ _ _ _ _)
    · rw [exprsAll_countedLoop]
      exact List.subset_append_of_subset_right _ (List.subset_append_right _ _)
  | .element h hb =>
    have hbody := hb.shown
    rw [exprsAll_append]
    refine h.shown ?_ fun c hc => (hbody c hc).of_subset ?_
    · exact (contains_of_subset (List.subset_append_right _ _)).trans
        (contains_elementLoop _ _ _ _ _)
    · rw [exprsAll_elementLoop]
      exact List.subset_append_of_subset_right _ (List.subset_append_right _ _)
  | .within h hk hs hb => exact .within h hk hs hb.shown
  | .ifBlock h hc hthen helseIfs helse =>
    have hthen := hthen.shown
    have helseIfs := helseIfs.shown
    have helse := helse.shown
    rw [Target.Stmt.exprsAll_singleton, exprs, exprsAll_chain]
    refine .stmt h rfl fun c hmem _ => ?_
    rw [Forest.stmtParts, List.mem_append, List.mem_append, List.mem_cons] at hmem
    rcases hmem with ((rfl | hmem) | hmem) | hmem
    · exact (shown_lowerExpr env _ _ hc).of_mem List.mem_cons_self
    · exact (hthen c hmem).of_subset fun e he => by simp [he]
    · exact (helseIfs c hmem).of_subset fun e he => by
        exact List.mem_cons_of_mem _ (List.mem_append_right _ (List.mem_append_left _ he))
    · exact (helse c hmem).of_subset fun e he => by simp [he]
  | .lineIf h hc hthen helse =>
    have hthen := hthen.shown
    have helse := helse.shown
    rw [Target.Stmt.exprsAll_singleton, exprs]
    refine .stmt h rfl fun c hmem _ => ?_
    rw [Forest.stmtParts, List.mem_append, List.mem_cons] at hmem
    rcases hmem with (rfl | hmem) | hmem
    · exact (shown_lowerExpr env _ _ hc).of_mem List.mem_cons_self
    · exact (hthen c hmem).of_subset fun e he => by simp [he]
    · exact (helse c hmem).of_subset fun e he => by simp [he]
  | .select h hs hcases helse =>
    have hcases := hcases.shown
    have helse := helse.shown
    rw [exprsAll_append, exprsAll_chain]
    refine .stmt h rfl fun c hmem _ => ?_
    rw [Forest.stmtParts, List.mem_append, List.mem_cons] at hmem
    rcases hmem with (rfl | hmem) | hmem
    · exact (shown_lowerSelector hs).of_subset (List.subset_append_left _ _)
    · exact (hcases c hmem).of_subset fun e he =>
        List.mem_append_right _ (List.mem_append_left _ he)
    · exact (helse c hmem).of_subset fun e he => by simp [he]

/-- Every access without a qualifier that feeds a statement stands in what becomes of the
statements. -/
theorem LowersAll.shown {routine : Routine} {env : Env} {ids : List Nat} {s t : BodyState}
    {out : List Target.Stmt} (h : LowersAll routine env ids s out t) :
    ∀ id ∈ ids, Shown env id (exprsAll out) := by
  match h with
  | .nil => exact List.forall_mem_nil _
  | .cons h hs =>
    have hfirst := h.shown
    have hrest := hs.shown
    rw [exprsAll_append, exprsAll_append]
    refine List.forall_mem_cons.2 ⟨?_, fun id hid => ?_⟩
    · refine hfirst.of_subset ?_
      exact List.Subset.trans (List.subset_append_right _ _) (List.subset_append_left _ _)
    · exact (hrest id hid).of_subset (List.subset_append_right _ _)

theorem LowersBranches.shown {routine : Routine} {env : Env} {value : Option Target.Expr}
    {ids : List Nat} {s t : BodyState} {branches : List Branch}
    (h : LowersBranches routine env value ids s branches t) : ∀ id ∈ ids,
      Shown env id (branches.flatMap fun branch => branch.1 :: exprsAll branch.2) := by
  match h with
  | .nil => exact List.forall_mem_nil _
  | .cons harm hb hs =>
    have hbody := hb.shown
    have hrest := hs.shown
    rw [List.flatMap_cons]
    refine List.forall_mem_cons.2 ⟨?_, fun id hid => ?_⟩
    · refine harm.shown ⟨_, List.mem_cons_self, .self⟩ fun c hc => (hbody c hc).of_subset ?_
      exact List.subset_cons_of_subset _ (List.subset_append_left _ _)
    · exact (hrest id hid).of_subset (List.subset_append_right _ _)

theorem LowersElse.shown {routine : Routine} {env : Env} {block : Option Nat} {s t : BodyState}
    {out : List Target.Stmt} (h : LowersElse routine env block s out t) :
    ∀ id ∈ block.toList, Shown env id (exprsAll out) := by
  match h with
  | .none => exact List.forall_mem_nil _
  | .some h hb =>
    have hbody := hb.shown
    exact List.forall_mem_singleton.2 (.stmt h rfl fun c hc _ => hbody c hc)

end

/-! ## Routines -/

theorem exprsAll_withShadow (shadow : Option String) (returnType : Target.Ty)
    (out : List Target.Stmt) :
    exprsAll out ⊆ exprsAll (Env.withShadow shadow returnType out) := by
  cases shadow with
  | none => exact List.Subset.refl _
  | some name =>
    rw [Env.withShadow]
    exact exprsAll_subset fun stmt hstmt => by simp [hstmt]

/-- Every access without a qualifier that feeds a statement of a routine stands in the body. -/
theorem RoutineBody.shown {forest : Forest} {settings : Settings} {body : List Target.Stmt}
    (r : RoutineBody forest settings body) :
    ∀ id ∈ r.env.forest.elements r.statements, Shown r.env id (exprsAll body) := by
  obtain ⟨out, state, hout, hbody⟩ := lowerRoutine_ok r.lowered
  have hframe : exprsAll out ⊆ exprsAll body :=
    hbody ▸ exprsAll_withShadow r.routine.shadow r.returnType out
  exact fun id hid => ((lowersAll_of_lowerBody hout).shown id hid).of_subset hframe

end StructuredBasic.Lowering
