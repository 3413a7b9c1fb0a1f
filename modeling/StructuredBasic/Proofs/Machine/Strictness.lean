import StructuredBasic.Proofs.Machine.Faults

/-!
# Operands are always evaluated

An expression has a value only if each of its parts has one, however deep the part stands
(`exists_of_part`). The logical operators are no exception. Where the left operand decides the
result, the operator still gives it exactly if the right operand comes to a truth value, and stops
with the fault of the right operand if there is one (`decided_iff`).
-/

set_option autoImplicit false

namespace StructuredBasic.Machine

open Target (BinaryOp Expr)

/-! ## Parts of expressions -/

/-- The part is the expression itself, or a part of an operand or an argument. -/
inductive PartOf (part : Expr) : Expr → Prop
  | self : PartOf part part
  | left {op left right} (h : PartOf part left) : PartOf part (.binary op left right)
  | right {op left right} (h : PartOf part right) : PartOf part (.binary op left right)
  | operand {op operand} (h : PartOf part operand) : PartOf part (.unary op operand)
  | argument {target method args arg} (hm : arg ∈ args) (h : PartOf part arg) :
      PartOf part (.invoke target method args)
  | converted {kind type operand} (h : PartOf part operand) :
      PartOf part (.cast kind type operand)

section Parts

variable {locals : Locals} {part e : Expr}

theorem PartOf.trans {whole : Expr} (h : PartOf part e) (h' : PartOf e whole) :
    PartOf part whole := by
  induction h' with
  | self => exact h
  | left _ ih => exact .left ih
  | right _ ih => exact .right ih
  | operand _ ih => exact .operand ih
  | argument hm _ ih => exact .argument hm ih
  | converted _ ih => exact .converted ih

theorem eval_bind_ok {α β : Type} {r : Except Fault α} {k : α → Except Fault β} {b : β}
    (h : r >>= k = .ok b) : ∃ a, r = .ok a ∧ k a = .ok b := by
  cases r with
  | error fault => cases h
  | ok a => exact ⟨a, rfl, h⟩

theorem eval_binary_ok {op : BinaryOp} {left right : Expr} {v : Value}
    (h : eval locals (.binary op left right) = .ok v) : ∃ a b, eval locals left = .ok a ∧
      eval locals right = .ok b ∧ binary op a b = .ok v := by
  rw [eval] at h
  obtain ⟨a, ha, h⟩ := eval_bind_ok h
  obtain ⟨b, hb, h⟩ := eval_bind_ok h
  exact ⟨a, b, ha, hb, h⟩

theorem exists_of_evalAll {args : List Expr} {values : List Value}
    (h : evalAll locals args = .ok values) : ∀ arg ∈ args, ∃ v, eval locals arg = .ok v := by
  induction args generalizing values with
  | nil => exact fun _ hm => nomatch hm
  | cons arg args ih =>
    rw [evalAll] at h
    obtain ⟨v, hv, h⟩ := eval_bind_ok h
    obtain ⟨rest, hrest, -⟩ := eval_bind_ok h
    exact List.forall_mem_cons.2 ⟨⟨v, hv⟩, ih hrest⟩

/-- No part of an expression that has a value is left out. -/
theorem exists_of_part (h : PartOf part e) {v : Value} (hv : eval locals e = .ok v) :
    ∃ w, eval locals part = .ok w := by
  induction h generalizing v with
  | self => exact ⟨v, hv⟩
  | left _ ih =>
    obtain ⟨a, b, ha, -, -⟩ := eval_binary_ok hv
    exact ih ha
  | right _ ih =>
    obtain ⟨a, b, -, hb, -⟩ := eval_binary_ok hv
    exact ih hb
  | operand _ ih =>
    rw [eval] at hv
    obtain ⟨a, ha, -⟩ := eval_bind_ok hv
    exact ih ha
  | @argument target method args arg hm _ ih =>
    rcases eval_invoke target method args with hunsupported | ⟨type, hcall⟩
    · rw [hunsupported] at hv
      cases hv
    · rw [hcall] at hv
      obtain ⟨values, hvalues, -⟩ := eval_bind_ok hv
      obtain ⟨w, hw⟩ := exists_of_evalAll hvalues arg hm
      exact ih hw
  | @converted kind type operand _ ih =>
    rcases eval_cast kind type operand with hunsupported | hconvert
    · rw [hunsupported] at hv
      cases hv
    · rw [hconvert] at hv
      obtain ⟨a, ha, -⟩ := eval_bind_ok hv
      exact ih ha

end Parts

/-! ## Logical operators -/

/-- The truth value of one operand that decides a logical operator. -/
def deciding? : BinaryOp → Option Bool
  | .logicalAnd => some false
  | .logicalOr => some true
  | _ => none

section Logical

variable {locals : Locals} {op : BinaryOp} {b : Bool} {left right : Expr}

theorem binary_decided (hop : deciding? op = some b) (c : Bool) :
    binary op (.bool b) (.bool c) = .ok (.bool b) := by
  cases op <;> cases hop <;> rfl

theorem binary_decided_other (hop : deciding? op = some b) {v : Value}
    (hv : ∀ c, v ≠ .bool c) : binary op (.bool b) v = .error .unsupported := by
  cases v with
  | bool c => exact absurd rfl (hv c)
  | null | int | float | string => cases op <;> cases hop <;> rfl

/-- Where the left operand is evaluated, the operator does what the right operand leads to. -/
theorem eval_binary_of_left (hleft : eval locals left = .ok (.bool b)) :
    eval locals (.binary op left right) = eval locals right >>= binary op (.bool b) := by
  rw [eval, hleft]
  rfl

/-- The left operand decides the operator, and the right one is evaluated all the same. The result
is the decided one exactly if the right operand is a truth value, and otherwise a fault: the one of
the right operand, if it has one. Wherever the operator stands in an expression, a part of the right
operand that has no value leaves the expression without one. -/
theorem decided_iff (hop : deciding? op = some b) (hleft : eval locals left = .ok (.bool b)) :
    (eval locals (.binary op left right) = .ok (.bool b) ↔
      ∃ c, eval locals right = .ok (.bool c)) ∧
    (∀ fault, eval locals right = .error fault →
      eval locals (.binary op left right) = .error fault) ∧
    (∀ v, eval locals right = .ok v → (∀ c, v ≠ .bool c) →
      eval locals (.binary op left right) = .error .unsupported) ∧
    (∀ whole part, PartOf (.binary op left right) whole → PartOf part right →
      (∀ w, eval locals part ≠ .ok w) → ∀ v, eval locals whole ≠ .ok v) := by
  have heval : eval locals (.binary op left right) = eval locals right >>= binary op (.bool b) :=
    eval_binary_of_left hleft
  have hother : ∀ v, eval locals right = .ok v → (∀ c, v ≠ .bool c) →
      eval locals (.binary op left right) = .error .unsupported := by
    intro v hv hnot
    rw [heval, hv]
    exact binary_decided_other hop hnot
  refine ⟨⟨?_, ?_⟩, ?_, hother, ?_⟩
  · intro h
    obtain ⟨_, v, -, hv, -⟩ := eval_binary_ok h
    cases v with
    | bool c => exact ⟨c, hv⟩
    | null | int | float | string =>
      rw [hother _ hv fun _ => nofun] at h
      cases h
  · rintro ⟨c, hc⟩
    rw [heval, hc]
    exact binary_decided hop c
  · intro fault hfault
    rw [heval, hfault]
    rfl
  · intro whole part hwhole hpart hnone v hv
    obtain ⟨w, hw⟩ := exists_of_part ((hpart.right).trans hwhole) hv
    exact hnone w hw

end Logical

/-- Division by zero in the right operand. -/
def failingTest : Expr := .binary .equal (.binary .integerDivide (.int 1) (.int 0)) (.int 1)

theorem decided_or_evaluates : deciding? .logicalOr = some true ∧
    eval [] (.bool true) = .ok (.bool true) ∧
    eval [] (.binary .logicalOr (.bool true) (.unary .not (.bool true))) = .ok (.bool true) := by
  refine ⟨rfl, rfl, ?_⟩
  exact ((decided_iff rfl rfl).1).2 ⟨false, rfl⟩

/-- The left operand is false, and the conjunction stops with the fault of the right one. -/
theorem decided_and_fails : eval [] (.bool false) = .ok (.bool false) ∧
    eval [] (.binary .logicalAnd (.bool false) failingTest) = .error .divisionByZero :=
  ⟨rfl, rfl⟩

end StructuredBasic.Machine
