import StructuredBasic.Proofs.Lowering.Declarations

/-!
# What becomes of an expression

A lowering of an expression that succeeds is one of the cases of `LowersExpr`: the form of the
expression, the lowerings of its parts and what is built of them. Every part lies below the
expression, so a fact about lowered expressions is proved by induction on the number of a node and
on these cases (`lowersExpr_of_ok`), and needs no unfolding of the function.
-/

set_option autoImplicit false

namespace StructuredBasic.Lowering

open Syntax

/-! ## Parts -/

/-- A part of the node `id`, with what it is lowered to. -/
structure Operand (env : Env) (id x : Nat) (e : Target.Expr) : Prop where
  below : x ∈ env.forest.descendants id
  lt : x < id
  lowered : env.lowerExpr x = .ok e

/-- A length of an array: known, or computed from a bound below the node. -/
inductive LowersLength (env : Env) (id : Nat) : Target.Expr → Prop
  | known {n} : LowersLength env id (.int n)
  | plain {x e} (h : Operand env id x e) : LowersLength env id e
  | shifted {x e n} (h : Operand env id x e) : LowersLength env id (.binary .add e (.int n))

/-- The arguments of the node, with what they are lowered to. One that is left out has a value that
stands for it. -/
structure LowersArguments (env : Env) (id : Nat) (arguments : Option Nat)
    (args : List Target.Expr) : Prop where
  lowered : env.lowerArguments arguments = .ok args
  operand : ∀ e ∈ args, e = missingArgument ∨ ∃ x, Operand env id x e

section Parts

variable {env : Env} {id c x : Nat} {e : Target.Expr} {es : List Target.Expr}

theorem Operand.of_child (hc : c ∈ env.forest.children id) (h : env.lowerExpr c = .ok e) :
    Operand env id c e :=
  ⟨Forest.mem_descendants_of_child hc (Forest.mem_descendants_self _ c),
    Forest.lt_of_mem_children hc, h⟩

theorem Operand.lift (h : Operand env c x e) (hc : c ∈ env.forest.children id) :
    Operand env id x e :=
  ⟨Forest.mem_descendants_of_child hc h.below, Nat.lt_trans h.lt (Forest.lt_of_mem_children hc),
    h.lowered⟩

theorem LowersLength.lift (h : LowersLength env c e) (hc : c ∈ env.forest.children id) :
    LowersLength env id e := by
  cases h with
  | known => exact .known
  | plain h => exact .plain (h.lift hc)
  | shifted h => exact .shifted (h.lift hc)

theorem forall_lowerArguments {arguments : Option Nat}
    (h : env.lowerArguments arguments = .ok es) :
    ∀ e ∈ es, e = missingArgument ∨ ∃ c, arguments = some c ∧ ∃ x, Operand env c x e := by
  cases arguments with
  | none =>
    rw [Env.lowerArguments] at h
    cases h
    exact List.forall_mem_nil _
  | some c =>
    rw [Env.lowerArguments] at h
    split at h
    · cases h
      exact List.forall_mem_nil _
    · next value hvalue =>
      refine Result.forall_mapM_ok (fun element _ e he => ?_) h
      split at he
      · cases he
        exact Or.inl rfl
      · next a ha _ =>
        split at he
        · next expression hargument =>
          have hexpression := Operand.of_child (Forest.mem_children_of_argument hargument) he
          have ha := Forest.mem_children_of_collection hvalue ha
          exact Or.inr ⟨c, rfl, expression, hexpression.lift ha⟩
        · exact absurd he unsupported_ne_ok

theorem lowersLength_of_ok {bound : Nat} (hc : bound ∈ env.forest.children id)
    (h : env.boundLength bound = .ok e) : LowersLength env id e := by
  have hliteral : ∀ {length : Option Int64},
      env.literalLength bound length = .ok e → LowersLength env id e := by
    intro length h
    unfold Env.literalLength at h
    split at h <;> cases h
    exact .known
  rw [Env.boundLength] at h
  split at h
  · split at h
    · exact hliteral h
    · simp only [Result.bind_ok, Result.pure_ok] at h
      obtain ⟨length, hlength, rfl⟩ := h
      exact .shifted (.of_child hc hlength)
  · split at h
    · exact hliteral h
    · simp only [Result.bind_ok, Result.pure_ok] at h
      obtain ⟨upper, hupper, rfl⟩ := h
      unfold Env.shiftedLength
      split
      · exact .plain (.of_child hc hupper)
      · exact .shifted (.of_child hc hupper)

theorem forall_boundLengths {bounds : Option Nat} (h : env.boundLengths bounds = .ok es) :
    ∀ e ∈ es, ∃ c, bounds = some c ∧ LowersLength env c e := by
  cases bounds with
  | none =>
    rw [Env.boundLengths] at h
    cases h
    exact List.forall_mem_nil _
  | some c =>
    rw [Env.boundLengths] at h
    refine Result.forall_mapM_ok ?_ h
    rintro ⟨a, ha⟩ _ e he
    dsimp only at he
    split at he
    · next argument hargument =>
      have hlength := lowersLength_of_ok (Forest.mem_children_of_argument hargument) he
      exact ⟨c, rfl, hlength.lift (Forest.mem_children_of_elements ha)⟩
    · exact absurd he unsupported_ne_ok

theorem forall_lowerAggregate {initializer : Nat}
    (h : env.lowerAggregate initializer = .ok es) :
    ∀ e ∈ es, ∃ x, Operand env initializer x e := by
  rw [Env.lowerAggregate] at h
  split at h
  · cases h
    exact List.forall_mem_nil _
  · next c hinitializer =>
    have hc : c ∈ env.forest.children initializer :=
      Forest.mem_children_of_initializer hinitializer (by simp [Initializer.slots, Slot.opt])
    refine Result.forall_mapM_ok ?_ h
    rintro ⟨element, hmem⟩ _ e he
    dsimp only at he
    split at he
    · next expression hexpression =>
      have hchild : expression ∈ env.forest.children element :=
        Forest.mem_children_of_initializer hexpression
          (by simp [Initializer.slots, Slot.expr, Slot.one])
      have helement := Forest.mem_children_of_elements hmem
      exact ⟨expression, ((Operand.of_child hchild he).lift helement).lift hc⟩
    · exact absurd he unsupported_ne_ok
  · exact absurd h unsupported_ne_ok

end Parts

/-! ## Cases -/

/-- What becomes of an expression. -/
inductive LowersExpr (env : Env) (id : Nat) : Target.Expr → Prop
  | literal {value} (h : env.forest.expr? id = some (.literal value)) :
      LowersExpr env id (.literal (lowerLiteral value))
  | nothing (h : env.forest.expr? id = some .nothing) : LowersExpr env id .null
  | self (h : env.forest.expr? id = some .self) (hk : env.forest.kind id ≠ .myBaseExpression) :
      LowersExpr env id .self
  | base (h : env.forest.expr? id = some .self) (hk : env.forest.kind id = .myBaseExpression) :
      LowersExpr env id .base
  | simpleName {name text} (h : env.forest.expr? id = some (.simpleName name))
      (hn : env.nameText name = .ok text) : LowersExpr env id (.ident text)
  | typeReference {type lowered} (h : env.forest.expr? id = some (.typeReference type))
      (ht : env.lowerType type = .ok lowered) : LowersExpr env id (.typeRef lowered)
  | qualified {qualifier dot name target text}
      (h : env.forest.expr? id = some (.qualified (some qualifier) dot name))
      (hq : Operand env id qualifier target) (hn : env.nameText name = .ok text) :
      LowersExpr env id (.field target text)
  | member {dot name target text} (h : env.forest.expr? id = some (.qualified none dot name))
      (hs : env.subject id = .ok target) (hn : env.nameText name = .ok text) :
      LowersExpr env id (.field target text)
  | lookup {qualifier bang name target text}
      (h : env.forest.expr? id = some (.dictionaryLookup (some qualifier) bang name))
      (hq : Operand env id qualifier target) (hn : env.nameText name = .ok text) :
      LowersExpr env id (.index target [.literal (.string text)])
  | memberLookup {bang name target text}
      (h : env.forest.expr? id = some (.dictionaryLookup none bang name))
      (hs : env.subject id = .ok target) (hn : env.nameText name = .ok text) :
      LowersExpr env id (.index target [.literal (.string text)])
  | index {target arguments known callee args}
      (h : env.forest.expr? id = some (.callOrIndex target arguments known))
      (harray : env.targetsArray id target = .ok true) (hc : Operand env id target callee)
      (ha : LowersArguments env id arguments args) : LowersExpr env id (.index callee args)
  | call {target arguments known callee args}
      (h : env.forest.expr? id = some (.callOrIndex target arguments known))
      (harray : env.targetsArray id target = .ok false) (hc : Operand env id target callee)
      (ha : LowersArguments env id arguments args) :
      LowersExpr env id (invocation callee args)
  | construct {type arguments lowered args}
      (h : env.forest.expr? id = some (.construct type arguments))
      (ht : env.lowerType type = .ok lowered)
      (ha : LowersArguments env id arguments args) :
      LowersExpr env id (.objectCreate lowered args)
  | constructArray {type initializer element lowered lengths elements}
      (h : env.forest.expr? id = some (.constructArray type initializer))
      (ht : env.elementType element = .ok lowered) (hl : ∀ e ∈ lengths, LowersLength env id e)
      (he : ∀ e ∈ elements, ∃ x, Operand env id x e) :
      LowersExpr env id (.arrayCreate lowered lengths (some elements))
  | cast {operand type lowered inner} (h : env.forest.expr? id = some (.cast operand type))
      (ht : env.lowerType type = .ok lowered) (ho : Operand env id operand inner) :
      LowersExpr env id (.cast (castKind (env.forest.kind id)) lowered inner)
  | intrinsicCast {target operand inner}
      (h : env.forest.expr? id = some (.intrinsicCast target operand))
      (ho : Operand env id operand inner) :
      LowersExpr env id (.cast .convert (.primitive (primitive target)) inner)
  | typeTest {operand type lowered inner} (h : env.forest.expr? id = some (.typeTest operand type))
      (ho : Operand env id operand inner) (ht : env.lowerType type = .ok lowered) :
      LowersExpr env id (.typeIs inner lowered)
  | getType {type lowered} (h : env.forest.expr? id = some (.getType type))
      (ht : env.lowerType type = .ok lowered) : LowersExpr env id (.typeOf lowered)
  | addressOf {operand method e} (h : env.forest.expr? id = some (.addressOf operand))
      (ho : Operand env id operand method) (hm : env.methodReference id method = .ok e) :
      LowersExpr env id e
  | parenthetical {operand e} (h : env.forest.expr? id = some (.parenthetical operand))
      (ho : Operand env id operand e) : LowersExpr env id e
  | unary {op operand unary inner} (h : env.forest.expr? id = some (.unary op operand))
      (hop : unaryOp? op = some unary) (ho : Operand env id operand inner) :
      LowersExpr env id (.unary unary inner)
  | range {place left right lower upper}
      (h : env.forest.expr? id = some (.binary .to place left right))
      (hb : env.isArrayBound id = true) (hl : Operand env id left lower)
      (hr : Operand env id right upper) :
      LowersExpr env id (.binary .subtract upper lower)
  | binary {op place left right first second e}
      (h : env.forest.expr? id = some (.binary op place left right)) (hop : op ≠ .to)
      (hl : Operand env id left first) (hr : Operand env id right second)
      (he : binaryOperation? env.compare op first second = some e) : LowersExpr env id e

section Cases

variable {env : Env} {id : Nat} {e : Target.Expr} {es : List Target.Expr}

theorem operand_of_expr {expr : Expr} {c : Nat} (h : env.forest.expr? id = some expr)
    (hc : c ∈ expr.slots.map Slot.id) (hlowered : env.lowerExpr c = .ok e) : Operand env id c e :=
  .of_child (Forest.mem_children_of_expr h hc) hlowered

theorem arguments_of_expr {expr : Expr} {arguments : Option Nat}
    (h : env.forest.expr? id = some expr)
    (hslot : ∀ c, arguments = some c → c ∈ expr.slots.map Slot.id)
    (hargs : env.lowerArguments arguments = .ok es) : LowersArguments env id arguments es := by
  refine ⟨hargs, fun e he => ?_⟩
  refine (forall_lowerArguments hargs e he).imp_right ?_
  rintro ⟨c, hc, x, hx⟩
  exact ⟨x, hx.lift (Forest.mem_children_of_expr h (hslot c hc))⟩

theorem lowersExpr_of_qualified {qualifier : Option Nat} {dot : Location} {name : Nat}
    (h : env.forest.expr? id = some (.qualified qualifier dot name))
    (he : env.lowerExpr id = .ok e) : LowersExpr env id e := by
  cases qualifier with
  | none =>
    rw [Env.lowerExpr, h] at he
    simp only [Result.bind_ok, Result.pure_ok] at he
    obtain ⟨target, hs, text, hn, rfl⟩ := he
    exact .member h hs hn
  | some qualifier =>
    rw [Env.lowerExpr, h] at he
    simp only [Result.bind_ok, Result.pure_ok] at he
    obtain ⟨target, hq, text, hn, rfl⟩ := he
    exact .qualified h (operand_of_expr h (by simp [Expr.slots, Slot.opt]) hq) hn

theorem lowersExpr_of_lookup {qualifier : Option Nat} {bang : Location} {name : Nat}
    (h : env.forest.expr? id = some (.dictionaryLookup qualifier bang name))
    (he : env.lowerExpr id = .ok e) : LowersExpr env id e := by
  cases qualifier with
  | none =>
    rw [Env.lowerExpr, h] at he
    simp only [Result.bind_ok, Result.pure_ok] at he
    obtain ⟨target, hs, text, hn, rfl⟩ := he
    exact .memberLookup h hs hn
  | some qualifier =>
    rw [Env.lowerExpr, h] at he
    simp only [Result.bind_ok, Result.pure_ok] at he
    obtain ⟨target, hq, text, hn, rfl⟩ := he
    exact .lookup h (operand_of_expr h (by simp [Expr.slots, Slot.opt]) hq) hn

theorem lowersExpr_of_call {target : Nat} {arguments known : Option Nat}
    (h : env.forest.expr? id = some (.callOrIndex target arguments known))
    (he : env.lowerExpr id = .ok e) : LowersExpr env id e := by
  rw [Env.lowerExpr, h] at he
  simp only [Result.bind_ok, Result.pure_ok] at he
  obtain ⟨isArray, harray, callee, hc, args, hargs, rfl⟩ := he
  have hc := operand_of_expr h (by simp [Expr.slots, Slot.expr, Slot.one]) hc
  have ha := arguments_of_expr h
    (by rintro c rfl; simp [Expr.slots, Slot.arguments, Slot.opt]) hargs
  cases isArray with
  | true => exact .index h harray hc ha
  | false => exact .call h harray hc ha

/-- An array with its elements: the lengths come from the bounds of the type, the elements from the
list behind it. -/
theorem lowerExpr_constructArray {type initializer : Nat}
    (h : env.forest.expr? id = some (.constructArray type initializer))
    (he : env.lowerExpr id = .ok e) : ∃ element rank bounds lowered lengths elements,
      env.forest.type? type = some (.array element rank bounds) ∧
      env.elementType element = .ok lowered ∧ env.boundLengths bounds = .ok lengths ∧
      env.lowerAggregate initializer = .ok elements ∧
      e = .arrayCreate lowered lengths (some elements) := by
  rw [Env.lowerExpr, h] at he
  dsimp only at he
  split at he
  · next element rank bounds htype =>
    simp only [Result.bind_ok, Result.pure_ok] at he
    obtain ⟨lowered, ht, lengths, hlengths, elements, helements, rfl⟩ := he
    exact ⟨_, _, _, _, _, _, htype, ht, hlengths, helements, rfl⟩
  · exact absurd he unsupported_ne_ok

theorem lowersExpr_of_constructArray {type initializer : Nat}
    (h : env.forest.expr? id = some (.constructArray type initializer))
    (he : env.lowerExpr id = .ok e) : LowersExpr env id e := by
  obtain ⟨element, rank, bounds, lowered, lengths, elements, htype, ht, hlengths, helements,
    rfl⟩ := lowerExpr_constructArray h he
  refine .constructArray h ht (fun e he => ?_) fun e he => ?_
  · obtain ⟨c, rfl, hlength⟩ := forall_boundLengths hlengths e he
    have hc : c ∈ env.forest.children type :=
      Forest.mem_children_of_type htype (by simp [TypeName.slots, Slot.opt])
    refine (hlength.lift hc).lift (Forest.mem_children_of_expr h ?_)
    simp [Expr.slots, Slot.one]
  · obtain ⟨x, hx⟩ := forall_lowerAggregate helements e he
    refine ⟨x, hx.lift (Forest.mem_children_of_expr h ?_)⟩
    simp [Expr.slots, Slot.one]

/-- `To` makes a range, where it bounds an array. -/
theorem lowersExpr_of_binary {op : Operator} {place : Location} {left right : Nat}
    (h : env.forest.expr? id = some (.binary op place left right))
    (he : env.lowerExpr id = .ok e) : LowersExpr env id e := by
  have operand : ∀ {c : Nat} {e : Target.Expr}, c = left ∨ c = right →
      env.lowerExpr c = .ok e → Operand env id c e :=
    fun hc => operand_of_expr h (by simpa [Expr.slots, Slot.expr, Slot.one] using hc)
  rw [Env.lowerExpr, h] at he
  dsimp only at he
  split at he
  · next hto =>
    subst hto
    split at he
    · next hb =>
      simp only [Result.bind_ok, Result.pure_ok] at he
      obtain ⟨lower, hl, upper, hr, rfl⟩ := he
      exact .range h hb (operand (Or.inl rfl) hl) (operand (Or.inr rfl) hr)
    · exact absurd he unsupported_ne_ok
  · next hop =>
    simp only [Result.bind_ok] at he
    obtain ⟨first, hl, second, hr, he⟩ := he
    split at he
    · next hvalue =>
      cases he
      exact .binary h hop (operand (Or.inl rfl) hl) (operand (Or.inr rfl) hr) hvalue
    · exact absurd he unsupported_ne_ok

/-- Lowering the expression, when it succeeds, is one of the cases. -/
theorem lowersExpr_of_ok (he : env.lowerExpr id = .ok e) : LowersExpr env id e := by
  cases h : env.forest.expr? id with
  | none =>
    rw [Env.lowerExpr, h] at he
    exact absurd he unsupported_ne_ok
  | some expr =>
    cases expr with
    | qualified => exact lowersExpr_of_qualified h he
    | dictionaryLookup => exact lowersExpr_of_lookup h he
    | callOrIndex => exact lowersExpr_of_call h he
    | constructArray => exact lowersExpr_of_constructArray h he
    | binary => exact lowersExpr_of_binary h he
    | literal | nothing =>
      rw [Env.lowerExpr, h] at he
      cases he
      constructor
      exact h
    | self =>
      rw [Env.lowerExpr, h] at he
      dsimp only at he
      split at he
      · next hk => cases he; exact .base h hk
      · next hk => cases he; exact .self h hk
    | simpleName name =>
      rw [Env.lowerExpr, h] at he
      obtain ⟨text, hn, he⟩ := Result.bind_ok.1 he
      cases he
      exact .simpleName h hn
    | typeReference type =>
      rw [Env.lowerExpr, h] at he
      obtain ⟨lowered, ht, he⟩ := Result.bind_ok.1 he
      cases he
      exact .typeReference h ht
    | getType type =>
      rw [Env.lowerExpr, h] at he
      obtain ⟨lowered, ht, he⟩ := Result.bind_ok.1 he
      cases he
      exact .getType h ht
    | construct type arguments =>
      rw [Env.lowerExpr, h] at he
      simp only [Result.bind_ok, Result.pure_ok] at he
      obtain ⟨lowered, ht, args, hargs, rfl⟩ := he
      exact .construct h ht (arguments_of_expr h
        (by rintro c rfl; simp [Expr.slots, Slot.arguments, Slot.opt]) hargs)
    | cast operand type =>
      rw [Env.lowerExpr, h] at he
      simp only [Result.bind_ok, Result.pure_ok] at he
      obtain ⟨lowered, ht, inner, ho, rfl⟩ := he
      exact .cast h ht (operand_of_expr h (by simp [Expr.slots, Slot.expr, Slot.one]) ho)
    | intrinsicCast target operand =>
      rw [Env.lowerExpr, h] at he
      simp only [Result.bind_ok, Result.pure_ok] at he
      obtain ⟨inner, ho, rfl⟩ := he
      exact .intrinsicCast h (operand_of_expr h (by simp [Expr.slots, Slot.expr, Slot.one]) ho)
    | typeTest operand type =>
      rw [Env.lowerExpr, h] at he
      simp only [Result.bind_ok, Result.pure_ok] at he
      obtain ⟨inner, ho, lowered, ht, rfl⟩ := he
      exact .typeTest h (operand_of_expr h (by simp [Expr.slots, Slot.expr, Slot.one]) ho) ht
    | addressOf operand =>
      rw [Env.lowerExpr, h] at he
      obtain ⟨method, ho, he⟩ := Result.bind_ok.1 he
      exact .addressOf h (operand_of_expr h (by simp [Expr.slots, Slot.expr, Slot.one]) ho) he
    | parenthetical operand =>
      rw [Env.lowerExpr, h] at he
      exact .parenthetical h (operand_of_expr h (by simp [Expr.slots, Slot.expr, Slot.one]) he)
    | unary op operand =>
      rw [Env.lowerExpr, h] at he
      dsimp only at he
      split at he
      · next hop =>
        simp only [Result.bind_ok, Result.pure_ok] at he
        obtain ⟨inner, ho, rfl⟩ := he
        exact .unary h hop (operand_of_expr h (by simp [Expr.slots, Slot.expr, Slot.one]) ho)
      · exact absurd he unsupported_ne_ok
    | genericQualified base arguments =>
      rw [Env.lowerExpr, h] at he
      exact absurd he unsupported_ne_ok

end Cases

end StructuredBasic.Lowering
