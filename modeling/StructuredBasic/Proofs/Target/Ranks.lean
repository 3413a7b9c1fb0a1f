import StructuredBasic.Proofs.Machine.Departures
import StructuredBasic.Target.Program

/-!
# Ranks of the array types of a program

A type is ranked if every array type in it has at least one dimension, and code is ranked if all the
types that it mentions are. In ranked code so are the statements that hold no others
(`Stmt.RankedAll.atoms`).
-/

set_option autoImplicit false

namespace StructuredBasic.Target

/-! ## Code -/

mutual

def Ty.Ranked : Ty → Prop
  | .void | .primitive _ | .named _ => True
  | .generic _ arguments => RankedAll arguments
  | .array element rank => element.Ranked ∧ 1 ≤ rank

def Ty.RankedAll : List Ty → Prop
  | [] => True
  | type :: rest => type.Ranked ∧ RankedAll rest

end

mutual

def Expr.Ranked : Expr → Prop
  | .typeRef type | .typeOf type | .defaultOf type => type.Ranked
  | .field target _ => target.Ranked
  | .invoke target _ args => RankedOptional target ∧ RankedAll args
  | .delegateInvoke target args => target.Ranked ∧ RankedAll args
  | .index target indices => target.Ranked ∧ RankedAll indices
  | .arrayCreate element lengths initializer =>
    element.Ranked ∧ RankedAll lengths ∧ RankedElements initializer
  | .objectCreate type args => type.Ranked ∧ RankedAll args
  | .cast _ type operand => type.Ranked ∧ operand.Ranked
  | .binary _ left right => left.Ranked ∧ right.Ranked
  | .unary _ operand => operand.Ranked
  | .typeIs operand type => operand.Ranked ∧ type.Ranked
  | .methodRef target _ => RankedOptional target
  | .literal _ | .ident _ | .self | .base | .null => True

def Expr.RankedOptional : Option Expr → Prop
  | none => True
  | some value => value.Ranked

def Expr.RankedElements : Option (List Expr) → Prop
  | none => True
  | some elements => RankedAll elements

def Expr.RankedAll : List Expr → Prop
  | [] => True
  | value :: rest => value.Ranked ∧ RankedAll rest

end

mutual

def Stmt.Ranked : Stmt → Prop
  | .assign target value => target.Ranked ∧ value.Ranked
  | .declare _ type init => type.Ranked ∧ Expr.RankedOptional init
  | .conditional condition thenBody elseBody =>
    condition.Ranked ∧ RankedAll thenBody ∧ RankedAll elseBody
  | .iteration init test increment body =>
    RankedOptional init ∧ test.Ranked ∧ RankedOptional increment ∧ RankedAll body
  | .expression value => value.Ranked
  | .returns value => Expr.RankedOptional value
  | .goto _ | .label _ | .breaks | .comment _ => True

def Stmt.RankedOptional : Option Stmt → Prop
  | none => True
  | some stmt => stmt.Ranked

def Stmt.RankedAll : List Stmt → Prop
  | [] => True
  | stmt :: rest => stmt.Ranked ∧ RankedAll rest

end

/-! ## Members -/

def Parameter.Ranked (p : Parameter) : Prop := p.type.Ranked ∧ Expr.RankedOptional p.default

def Enumeration.Ranked (e : Enumeration) : Prop :=
  (∀ type, e.underlying = some type → type.Ranked) ∧
    ∀ member ∈ e.members, Expr.RankedOptional member.value

mutual

def Member.Ranked : Member → Prop
  | .field value => value.type.Ranked ∧ Expr.RankedOptional value.init
  | .method value =>
    (∀ p ∈ value.parameters, p.Ranked) ∧ value.returnType.Ranked ∧ Stmt.RankedAll value.body
  | .property value => value.type.Ranked ∧ (∀ p ∈ value.parameters, p.Ranked) ∧
    (∀ body, value.getter = some body → Stmt.RankedAll body) ∧
    ∀ body, value.setter = some body → Stmt.RankedAll body
  | .type ⟨_, _, _, _, baseTypes, members, _⟩ => Ty.RankedAll baseTypes ∧ RankedAll members
  | .enumeration value => value.Ranked

def Member.RankedAll : List Member → Prop
  | [] => True
  | member :: rest => member.Ranked ∧ RankedAll rest

end

/-- Every array type in the program has at least one dimension. -/
def Program.Ranked (p : Program) : Prop := Member.Ranked (.type p.type)

/-! ## Lists -/

theorem Ty.rankedAll_iff {types : List Ty} :
    RankedAll types ↔ ∀ type ∈ types, type.Ranked := by
  induction types with
  | nil => simp [RankedAll]
  | cons type types ih => simp [RankedAll, ih]

theorem Expr.rankedAll_iff {values : List Expr} :
    RankedAll values ↔ ∀ value ∈ values, value.Ranked := by
  induction values with
  | nil => simp [RankedAll]
  | cons value values ih => simp [RankedAll, ih]

theorem Stmt.rankedAll_iff {stmts : List Stmt} :
    RankedAll stmts ↔ ∀ stmt ∈ stmts, stmt.Ranked := by
  induction stmts with
  | nil => simp [RankedAll]
  | cons stmt stmts ih => simp [RankedAll, ih]

theorem Stmt.RankedAll.append {stmts rest : List Stmt} (h : RankedAll stmts)
    (hs : RankedAll rest) : RankedAll (stmts ++ rest) :=
  rankedAll_iff.2 (List.forall_mem_append.2 ⟨rankedAll_iff.1 h, rankedAll_iff.1 hs⟩)

theorem Member.rankedAll_iff {members : List Member} :
    RankedAll members ↔ ∀ member ∈ members, member.Ranked := by
  induction members with
  | nil => simp [RankedAll]
  | cons member members ih => simp [RankedAll, ih]

theorem Expr.ranked_staticCall {type method : String} {args : List Expr} :
    (staticCall type method args).Ranked ↔ ∀ value ∈ args, value.Ranked := by
  simp [staticCall, Ranked, RankedOptional, Ty.Ranked, rankedAll_iff]

/-! ## Statements that hold no others -/

mutual

theorem Stmt.Ranked.atoms {stmt : Stmt} (h : stmt.Ranked) : ∀ atom ∈ atoms stmt, atom.Ranked := by
  match stmt with
  | .conditional condition thenBody elseBody =>
    exact List.forall_mem_append.2 ⟨Stmt.RankedAll.atoms h.2.1, Stmt.RankedAll.atoms h.2.2⟩
  | .iteration init test increment body =>
    refine List.forall_mem_append.2 ⟨List.forall_mem_append.2 ⟨?_, ?_⟩, ?_⟩
    · exact Stmt.RankedOptional.atoms h.1
    · exact Stmt.RankedOptional.atoms h.2.2.1
    · exact Stmt.RankedAll.atoms h.2.2.2
  | .assign .. | .declare .. | .expression .. | .returns .. | .goto .. | .label .. | .breaks =>
    exact List.forall_mem_singleton.2 h
  | .comment .. => exact List.forall_mem_nil _

theorem Stmt.RankedOptional.atoms {stmt : Option Stmt} (h : RankedOptional stmt) :
    ∀ atom ∈ atomsOptional stmt, atom.Ranked := by
  match stmt with
  | none => exact List.forall_mem_nil _
  | some stmt =>
    have hstmt : stmt.Ranked := h
    exact hstmt.atoms

theorem Stmt.RankedAll.atoms {stmts : List Stmt} (h : RankedAll stmts) :
    ∀ atom ∈ atomsAll stmts, atom.Ranked := by
  match stmts with
  | [] => exact List.forall_mem_nil _
  | stmt :: rest =>
    exact List.forall_mem_append.2 ⟨Stmt.Ranked.atoms h.1, Stmt.RankedAll.atoms h.2⟩

end

/-! ## Types -/

theorem Ty.Ranked.element {type : Ty} (h : type.Ranked) :
    (type.element?.getD .object).Ranked := by
  cases type with
  | array element rank => exact h.1
  | _ => exact trivial

end StructuredBasic.Target
