import StructuredBasic.Syntax.Forest

/-!
# Finding declarators

A reference is resolved by place alone: from the reference outwards, the direct children of each
ancestor are searched in order for a declarator of the same spelling. There is no symbol table.
-/

set_option autoImplicit false

namespace StructuredBasic.Syntax.Forest

variable (f : Forest)

/-! ## References -/

set_option linter.unusedVariables false in
/-- The name that an expression refers to, under any number of parentheses and calls. Other
expressions, qualified ones among them, refer to no name. -/
def referenceText? (id : Nat) : Option String :=
  match h : f.expr? id with
  | some (.simpleName name) => f.nameText? name
  | some (.parenthetical operand) => referenceText? operand
  | some (.callOrIndex target _ _) => referenceText? target
  | _ => none
termination_by id
decreasing_by
  all_goals exact lt_of_expr h (by simp [Expr.slots, Slot.expr, Slot.one])

/-! ## Scopes -/

/-- Whether one of the variables of a declarator is spelled `name`. -/
def declares (declarator : Nat) (name : String) : Bool :=
  match f.declarator? declarator with
  | some d => (f.elements (some d.names)).any fun declared => f.nameText? declared == some name
  | none => false

/-- The first declarator of a list that declares `name`. -/
def findDeclarator? (list : Nat) (name : String) : Option Nat :=
  (f.elements (some list)).find? fun declarator => f.declares declarator name

/-- The list of declarators of a local declaration or of a list of fields. -/
def declaratorList? (declaration : Nat) : Option Nat :=
  match f.payload? declaration with
  | some (.stmt (.localDeclaration _ declarators)) => some declarators
  | some (.decl (.variableList _ declarators)) => some declarators
  | _ => none

/-- The declarator of `name` that a child of a scope brings in. -/
def introduced? (child : Nat) (name : String) : Option Nat :=
  match f.kind child with
  | .variableDeclaratorCollection => f.findDeclarator? child name
  | .variableDeclarator => if f.declares child name then some child else none
  | .localDeclarationStatement | .variableListDeclaration =>
    (f.declaratorList? child).bind fun list => f.findDeclarator? list name
  | _ => none

def scopeDeclarator? (scope : Nat) (name : String) : Option Nat :=
  (f.children scope).findSome? fun child => f.introduced? child name

/-- The declarator that a reference means, searched from the inside out. -/
def resolve? (reference : Nat) : Option Nat :=
  (f.referenceText? reference).bind fun name =>
    (f.ancestors reference).findSome? fun scope => f.scopeDeclarator? scope name

/-! ## Declarators of particular nodes -/

/-- The declarator of the control variable of a `For` or `For Each` block. One written in the
block itself goes first. -/
def controlDeclarator? (block : Nat) : Option Nat :=
  match f.stmt? block with
  | some (.forBlock control declarator _ _ _ _ _) => declarator.or (f.resolve? control)
  | some (.forEachBlock control declarator _ _ _) => declarator.or (f.resolve? control)
  | _ => none

/-- The declarator of what is called or indexed. One recorded in the expression goes first. -/
def targetDeclarator? (expression : Nat) : Option Nat :=
  match f.expr? expression with
  | some (.callOrIndex target _ declarator) => declarator.or (f.resolve? target)
  | _ => none

/-- The declarators of the operands of a `ReDim`, in order. -/
def reDimDeclarators (statement : Nat) : List (Option Nat) :=
  match f.stmt? statement with
  | some (.reDim _ arrays) =>
    (f.elements (some arrays)).map fun operand =>
      match f.kind operand with
      | .callOrIndexExpression => f.targetDeclarator? operand
      | _ => f.resolve? operand
  | _ => []

end StructuredBasic.Syntax.Forest
