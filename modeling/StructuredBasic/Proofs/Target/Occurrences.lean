import StructuredBasic.Target.Code

/-!
# Where expressions occur

An expression occurs in itself and in whatever has it among its operands, however deep. The
expressions of statements are those that any statement holds, in however deep a body. A list of
expressions is contained in another one if each of its expressions occurs there (`Contains`), and
containment passes from lists to what is built of them.
-/

set_option autoImplicit false

namespace StructuredBasic.Target

/-! ## Occurrences in expressions -/

namespace Expr

/-- The expressions that an expression is built of. -/
def operands : Expr → List Expr
  | .field target _ => [target]
  | .invoke target _ args => target.toList ++ args
  | .delegateInvoke target args => target :: args
  | .index target indices => target :: indices
  | .arrayCreate _ lengths initializer => lengths ++ initializer.getD []
  | .objectCreate _ args => args
  | .cast _ _ operand => [operand]
  | .binary _ left right => [left, right]
  | .unary _ operand => [operand]
  | .typeIs operand _ => [operand]
  | .methodRef target _ => target.toList
  | _ => []

/-- The part is the expression itself or occurs in one of its operands. -/
inductive Occurs (part : Expr) : Expr → Prop
  | self : Occurs part part
  | operand {whole e : Expr} (hm : e ∈ whole.operands) (h : Occurs part e) : Occurs part whole

section Occurs

variable {part e whole : Expr} {l m n : List Expr}

theorem Occurs.trans (h : Occurs part e) (h' : Occurs e whole) : Occurs part whole := by
  induction h' with
  | self => exact h
  | operand hm _ ih => exact .operand hm ih

theorem occurs_of_mem (h : e ∈ whole.operands) : Occurs e whole := .operand h .self

/-! ## Lists of expressions -/

/-- The part occurs in one of the expressions. -/
def OccursIn (part : Expr) (l : List Expr) : Prop := ∃ e ∈ l, Occurs part e

/-- Each expression of the second list occurs in the first. -/
def Contains (l m : List Expr) : Prop := ∀ e ∈ m, OccursIn e l

theorem OccursIn.of_contains (h : OccursIn part m) (hl : Contains l m) : OccursIn part l := by
  obtain ⟨e, he, hpart⟩ := h
  obtain ⟨w, hw, hin⟩ := hl e he
  exact ⟨w, hw, hpart.trans hin⟩

theorem Contains.refl (l : List Expr) : Contains l l := fun e he => ⟨e, he, .self⟩

theorem Contains.trans (h : Contains l m) (h' : Contains m n) : Contains l n :=
  fun e he => (h' e he).of_contains h

theorem contains_of_subset (h : m ⊆ l) : Contains l m := fun e he => ⟨e, h he, .self⟩

/-- An expression contains its operands. -/
theorem contains_of_operands (h : m ⊆ whole.operands) : Contains [whole] m :=
  fun _ he => ⟨whole, List.mem_singleton_self whole, occurs_of_mem (h he)⟩

theorem contains_of_mem (he : e ∈ l) (h : Contains [e] m) : Contains l m :=
  Contains.trans (contains_of_subset (List.cons_subset.2 ⟨he, List.nil_subset _⟩)) h

end Occurs

end Expr

/-! ## The expressions of statements -/

namespace Stmt

mutual

/-- The expressions of a statement and of all statements inside it. -/
def exprs : Stmt → List Expr
  | .assign target value => [target, value]
  | .declare _ _ init => init.toList
  | .conditional condition thenBody elseBody =>
    condition :: (exprsAll thenBody ++ exprsAll elseBody)
  | .iteration init test increment body =>
    exprsOptional init ++ test :: (exprsOptional increment ++ exprsAll body)
  | .expression value => [value]
  | .returns value => value.toList
  | .goto _ | .label _ | .breaks | .comment _ => []

def exprsOptional : Option Stmt → List Expr
  | none => []
  | some stmt => exprs stmt

def exprsAll : List Stmt → List Expr
  | [] => []
  | stmt :: rest => exprs stmt ++ exprsAll rest

end

section Lists

variable {a b : List Stmt} {stmt : Stmt}

theorem exprsAll_append (a b : List Stmt) : exprsAll (a ++ b) = exprsAll a ++ exprsAll b := by
  induction a with
  | nil => rfl
  | cons stmt a ih => rw [List.cons_append, exprsAll, exprsAll, ih, List.append_assoc]

theorem exprsAll_singleton (stmt : Stmt) : exprsAll [stmt] = exprs stmt := List.append_nil _

theorem exprs_subset (h : stmt ∈ a) : exprs stmt ⊆ exprsAll a := by
  induction a with
  | nil => cases h
  | cons first a ih =>
    rw [exprsAll]
    rcases List.mem_cons.1 h with rfl | h
    · exact List.subset_append_left _ _
    · exact List.Subset.trans (ih h) (List.subset_append_right _ _)

theorem exprsAll_subset (h : a ⊆ b) : exprsAll a ⊆ exprsAll b := by
  induction a with
  | nil => exact List.nil_subset _
  | cons stmt a ih =>
    obtain ⟨hstmt, ha⟩ := List.cons_subset.1 h
    rw [exprsAll]
    exact List.append_subset.2 ⟨exprs_subset hstmt, ih ha⟩

end Lists

end Stmt

end StructuredBasic.Target
