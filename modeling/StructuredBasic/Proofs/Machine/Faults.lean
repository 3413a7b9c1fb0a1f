import StructuredBasic.Machine.Eval

/-!
# Where faults come from

An operator fails for reasons of its own (`Fault.isOperational`). Evaluation fails for such a reason
or because a name that the expression mentions is not declared (`eval_failsOn`).
-/

set_option autoImplicit false

namespace StructuredBasic.Target

/-! ## Identifiers -/

namespace Expr

mutual

/-- The names of variables in an expression. -/
def idents : Expr → List String
  | .literal _ => []
  | .ident name => [name]
  | .typeRef _ => []
  | .field target _ => target.idents
  | .invoke target _ args => identsOptional target ++ identsAll args
  | .delegateInvoke target args => target.idents ++ identsAll args
  | .index target indices => target.idents ++ identsAll indices
  | .arrayCreate _ lengths initializer => identsAll lengths ++ identsInitializer initializer
  | .objectCreate _ args => identsAll args
  | .cast _ _ operand => operand.idents
  | .binary _ left right => left.idents ++ right.idents
  | .unary _ operand => operand.idents
  | .typeOf _ => []
  | .typeIs operand _ => operand.idents
  | .defaultOf _ => []
  | .self => []
  | .base => []
  | .null => []
  | .methodRef target _ => identsOptional target

def identsOptional : Option Expr → List String
  | none => []
  | some e => e.idents

def identsAll : List Expr → List String
  | [] => []
  | e :: es => e.idents ++ identsAll es

def identsInitializer : Option (List Expr) → List String
  | none => []
  | some es => identsAll es

end

theorem mem_identsAll {n : String} {es : List Expr} :
    n ∈ identsAll es ↔ ∃ e ∈ es, n ∈ e.idents := by
  induction es with
  | nil => simp [identsAll]
  | cons e es ih => simp [identsAll, ih]

end Expr

end StructuredBasic.Target

namespace StructuredBasic.Machine

open Target (Expr BinaryOp UnaryOp)

/-! ## Operators -/

/-- Faults of an operator on its operands. -/
def Fault.isOperational : Fault → Bool
  | .typeMismatch .. | .divisionByZero | .unsupported | .overflow => true
  | _ => false

/-- Whatever fails, fails for a reason of the operator. -/
def Operational {α : Type} (r : Except Fault α) : Prop :=
  ∀ fault, r = .error fault → fault.isOperational = true

section Operators

variable {α β : Type}

theorem operational_ok {a : α} : Operational (.ok a) := by
  intro fault h
  cases h

theorem operational_error {fault : Fault} (h : fault.isOperational = true) :
    Operational (.error fault : Except Fault α) := by
  intro other heq
  cases heq
  exact h

theorem Operational.bind {r : Except Fault α} {k : α → Except Fault β} (hr : Operational r)
    (hk : ∀ a, Operational (k a)) : Operational (r >>= k) := by
  cases r with
  | error fault => exact operational_error (hr fault rfl)
  | ok a => exact hk a

theorem operational_fit (n : Int) : Operational (fit n) := by
  unfold fit
  split
  · exact operational_ok
  · exact operational_error rfl

theorem operational_quotient (a b : Int64) : Operational (quotient a b) := by
  unfold quotient
  split
  · exact operational_error rfl
  · exact operational_fit _

theorem operational_remainder (a b : Int64) : Operational (remainder a b) :=
  (operational_quotient a b).bind fun _ => operational_fit _

theorem operational_number (v : Value) : Operational v.number := by
  cases v <;> first
    | exact operational_ok
    | exact operational_error rfl

theorem operational_onFloats (op : Float → Float → Float) (a b : Value) :
    Operational (onFloats op a b) :=
  (operational_number a).bind fun _ => (operational_number b).bind fun _ => operational_ok

theorem operational_ordered (holds : Ordering → Bool) (a b : Value) :
    Operational (ordered holds a b) := by
  have hcompare : Operational (compareValues a b) := by
    unfold compareValues
    split
    · exact operational_ok
    · refine (operational_number a).bind fun x => (operational_number b).bind fun y => ?_
      split
      · exact operational_ok
      · exact operational_error rfl
  exact hcompare.bind fun _ => operational_ok

theorem operational_binary (op : BinaryOp) (a b : Value) : Operational (binary op a b) := by
  unfold binary
  split <;> first
    | exact operational_ok
    | exact operational_error rfl
    | exact operational_fit _
    | exact operational_quotient _ _
    | exact operational_remainder _ _
    | exact operational_onFloats _ _ _
    | exact operational_ordered _ _ _

theorem operational_unary (op : UnaryOp) (a : Value) : Operational (unary op a) := by
  unfold unary
  split <;> first
    | exact operational_ok
    | exact operational_error rfl
    | exact operational_fit _

theorem operational_libraryCall (type method : String) (args : List Value) :
    Operational (libraryCall type method args) := by
  unfold libraryCall
  split <;> first
    | exact operational_ok
    | exact operational_error rfl
    | exact operational_onFloats _ _ _

end Operators

/-! ## Evaluation -/

/-- Whatever fails, fails for a reason of an operator or for a name of the list that is not
declared. -/
def FailsOn (locals : Locals) (names : List String) {α : Type} (r : Except Fault α) : Prop :=
  ∀ fault, r = .error fault → fault.isOperational = true ∨
    ∃ n ∈ names, locals.get? n = none ∧ fault = .undefinedVariable n

section Evaluation

variable {α β : Type} {locals : Locals} {names : List String}

theorem Operational.failsOn {r : Except Fault α} (h : Operational r) : FailsOn locals names r :=
  fun fault hr => Or.inl (h fault hr)

theorem FailsOn.mono {more : List String} {r : Except Fault α} (h : FailsOn locals names r)
    (hsub : ∀ n ∈ names, n ∈ more) : FailsOn locals more r := by
  intro fault hr
  rcases h fault hr with h | ⟨n, hn, h⟩
  · exact Or.inl h
  · exact Or.inr ⟨n, hsub n hn, h⟩

theorem FailsOn.bind {more : List String} {r : Except Fault α} {k : α → Except Fault β}
    (hr : FailsOn locals names r) (hk : ∀ a, FailsOn locals more (k a)) :
    FailsOn locals (names ++ more) (r >>= k) := by
  cases r with
  | error fault =>
    intro other heq
    cases heq
    rcases hr fault rfl with h | ⟨n, hn, h⟩
    · exact Or.inl h
    · exact Or.inr ⟨n, List.mem_append_left _ hn, h⟩
  | ok a =>
    intro fault heq
    rcases hk a fault heq with h | ⟨n, hn, h⟩
    · exact Or.inl h
    · exact Or.inr ⟨n, List.mem_append_right _ hn, h⟩

theorem FailsOn.finish {r : Except Fault α} {k : α → Except Fault β}
    (hr : FailsOn locals names r) (hk : ∀ a, Operational (k a)) :
    FailsOn locals names (r >>= k) := by
  have h : FailsOn locals (names ++ []) (r >>= k) := hr.bind fun a => (hk a).failsOn
  rw [List.append_nil] at h
  exact h

end Evaluation

/-- Of calls only those of library methods are evaluated. -/
theorem eval_invoke (target : Option Expr) (method : String) (args : List Expr) :
    (∀ locals, eval locals (.invoke target method args) = .error .unsupported) ∨
      ∃ type, ∀ locals, eval locals (.invoke target method args) =
        evalAll locals args >>= libraryCall type method := by
  cases target with
  | none => exact Or.inl fun _ => rfl
  | some target =>
    cases target with
    | typeRef type =>
      cases type <;> first
        | exact Or.inl fun _ => rfl
        | exact Or.inr ⟨_, fun _ => rfl⟩
    | _ => exact Or.inl fun _ => rfl

/-- Of casts only conversions to an integer are evaluated. -/
theorem eval_cast (kind : Target.CastKind) (type : Target.Ty) (operand : Expr) :
    (∀ locals, eval locals (.cast kind type operand) = .error .unsupported) ∨
      ∀ locals, eval locals (.cast kind type operand) =
        eval locals operand >>= fun a => .ok (convertToInt a) := by
  cases kind <;> cases type <;> first
    | exact Or.inl fun _ => rfl
    | skip
  next primitive =>
    cases primitive <;> first
      | exact Or.inl fun _ => rfl
      | exact Or.inr fun _ => rfl

mutual

theorem eval_failsOn (locals : Locals) (e : Expr) : FailsOn locals e.idents (eval locals e) := by
  match e with
  | .literal value =>
    cases value <;> first
      | exact operational_ok.failsOn
      | exact (operational_error rfl).failsOn
  | .ident name =>
    intro fault h
    rw [eval] at h
    split at h
    · cases h
    · next hnone =>
      cases h
      exact Or.inr ⟨name, List.mem_singleton_self name, hnone, rfl⟩
  | .binary op left right =>
    rw [eval]
    refine (eval_failsOn locals left).bind fun a => ?_
    exact (eval_failsOn locals right).finish fun b => operational_binary op a b
  | .unary op operand =>
    rw [eval]
    exact (eval_failsOn locals operand).finish fun a => operational_unary op a
  | .invoke target method args =>
    have hargs := evalAll_failsOn locals args
    rcases eval_invoke target method args with h | ⟨type, h⟩
    · rw [h]
      exact (operational_error rfl).failsOn
    · rw [h]
      have hall := hargs.finish fun values => operational_libraryCall type method values
      exact hall.mono fun n hn => List.mem_append_right _ hn
  | .cast kind type operand =>
    have hoperand := eval_failsOn locals operand
    rcases eval_cast kind type operand with h | h
    · rw [h]
      exact (operational_error rfl).failsOn
    · rw [h]
      exact hoperand.finish fun a => operational_ok
  | .defaultOf _ => exact operational_ok.failsOn
  | .null => exact operational_ok.failsOn
  | .typeRef _ => exact (operational_error rfl).failsOn
  | .field .. => exact (operational_error rfl).failsOn
  | .delegateInvoke .. => exact (operational_error rfl).failsOn
  | .index .. => exact (operational_error rfl).failsOn
  | .arrayCreate .. => exact (operational_error rfl).failsOn
  | .objectCreate .. => exact (operational_error rfl).failsOn
  | .typeOf _ => exact (operational_error rfl).failsOn
  | .typeIs .. => exact (operational_error rfl).failsOn
  | .self => exact (operational_error rfl).failsOn
  | .base => exact (operational_error rfl).failsOn
  | .methodRef .. => exact (operational_error rfl).failsOn

theorem evalAll_failsOn (locals : Locals) (es : List Expr) :
    FailsOn locals (Expr.identsAll es) (evalAll locals es) := by
  match es with
  | [] => exact operational_ok.failsOn
  | e :: es =>
    rw [evalAll]
    refine (eval_failsOn locals e).bind fun v => ?_
    exact (evalAll_failsOn locals es).finish fun vs => operational_ok

end

end StructuredBasic.Machine
