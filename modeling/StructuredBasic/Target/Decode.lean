import StructuredBasic.Json.Access
import StructuredBasic.Target.Program

/-!
# Programs from their serialized form

Reads back what serialization writes. A field that may be missing in a program may be left out, a
structure may be a list of its fields, and a variant without content may stand in front of `null`.
Recursion is on how deep the value nests.
-/

set_option autoImplicit false

namespace StructuredBasic.Target

open Json

/-! ## Types -/

/-- Types without content. -/
def Ty.ofName? : String → Option Ty
  | "Void" => some .void
  | _ => none

def Ty.decode : Nat → Json → Option Ty
  | 0, _ => none
  | fuel + 1, j => (j.bareVariant?.bind Ty.ofName?).or do
    let (name, content) ← j.variant?
    match name with
    | "Primitive" => return .primitive (← content.named? Primitive)
    | "Named" => return .named (← content.string?)
    | "Generic" =>
      return .generic (← (content.field "name").string?)
        (← (content.field "arguments").list? (Ty.decode fuel))
    | "Array" =>
      return .array (← Ty.decode fuel (content.field "element"))
        (← (content.field "rank").natBelow? 4294967296)
    | _ => none

def Ty.ofJson? (j : Json) : Option Ty := Ty.decode (j.depth + 1) j

/-! ## Expressions and statements -/

def Literal.ofJson? (j : Json) : Option Literal := do
  let (name, content) ← j.variant?
  match name with
  | "Int" => return .int (← content.int64?)
  | "Float" => return .float (← content.float?)
  | "Decimal" => return .decimal (← content.string?)
  | "Bool" => return .bool (← content.bool?)
  | "String" => return .string (← content.string?)
  | "Char" => return .char (← content.char?)
  | "Date" => return .date (← content.string?)
  | _ => none

/-- Expressions without content. -/
def Expr.ofName? : String → Option Expr
  | "This" => some .self
  | "Base" => some .base
  | "Null" => some .null
  | _ => none

def Expr.decode : Nat → Json → Option Expr
  | 0, _ => none
  | fuel + 1, j => (j.bareVariant?.bind Expr.ofName?).or do
    let (name, content) ← j.variant?
    let part key := Expr.decode fuel (content.field key)
    let parts key := (content.field key).list? (Expr.decode fuel)
    let receiver := (content.field "target").option? (Expr.decode fuel)
    let type key := Ty.ofJson? (content.field key)
    let text key := (content.field key).string?
    match name with
    | "Literal" => return .literal (← Literal.ofJson? content)
    | "Variable" => return .ident (← content.string?)
    | "TypeRef" => return .typeRef (← Ty.ofJson? content)
    | "FieldRef" => return .field (← part "target") (← text "name")
    | "Invoke" => return .invoke (← receiver) (← text "method") (← parts "args")
    | "DelegateInvoke" => return .delegateInvoke (← part "target") (← parts "args")
    | "Index" => return .index (← part "target") (← parts "indices")
    | "ArrayCreate" =>
      return .arrayCreate (← type "element") (← parts "lengths")
        (← (content.field "initializer").option? fun j => j.list? (Expr.decode fuel))
    | "ObjectCreate" => return .objectCreate (← type "ty") (← parts "args")
    | "Cast" =>
      return .cast (← (content.field "kind").named? CastKind) (← type "ty") (← part "expr")
    | "Binary" =>
      return .binary (← (content.field "op").named? BinaryOp) (← part "left") (← part "right")
    | "Unary" => return .unary (← (content.field "op").named? UnaryOp) (← part "operand")
    | "TypeOf" => return .typeOf (← Ty.ofJson? content)
    | "TypeIs" => return .typeIs (← part "expr") (← type "ty")
    | "Default" => return .defaultOf (← Ty.ofJson? content)
    | "MethodRef" => return .methodRef (← receiver) (← text "method")
    | _ => none

def Expr.ofJson? (j : Json) : Option Expr := Expr.decode (j.depth + 1) j

/-- Statements without content. -/
def Stmt.ofName? : String → Option Stmt
  | "Break" => some .breaks
  | _ => none

def Stmt.decode : Nat → Json → Option Stmt
  | 0, _ => none
  | fuel + 1, j => (j.bareVariant?.bind Stmt.ofName?).or do
    let (name, content) ← j.variant?
    let part key := Expr.ofJson? (content.field key)
    let body key := (content.field key).list? (Stmt.decode fuel)
    let clause key := (content.field key).option? (Stmt.decode fuel)
    match name with
    | "Assign" => return .assign (← part "target") (← part "value")
    | "Declare" =>
      return .declare (← (content.field "name").string?) (← Ty.ofJson? (content.field "ty"))
        (← (content.field "init").option? Expr.ofJson?)
    | "Conditional" =>
      return .conditional (← part "condition") (← body "then_body") (← body "else_body")
    | "Iteration" =>
      return .iteration (← clause "init") (← part "test") (← clause "increment") (← body "body")
    | "Goto" => return .goto (← content.string?)
    | "Label" => return .label (← content.string?)
    | "Expression" => return .expression (← Expr.ofJson? content)
    | "Return" => return .returns (← content.option? Expr.ofJson?)
    | "Comment" => return .comment (← content.string?)
    | _ => none

def Stmt.ofJson? (j : Json) : Option Stmt := Stmt.decode (j.depth + 1) j

/-! ## Members -/

/-- A list of texts under a key. -/
def texts? (key : String) (j : Json) : Option (List String) := (j.field key).list? string?

/-- A text under a key. -/
def text? (key : String) (j : Json) : Option String := (j.field key).string?

def flag? (key : String) (j : Json) : Option Bool := (j.field key).bool?

/-- The visibility of a member. -/
def visibility? (j : Json) : Option Visibility := (j.field "visibility").named? Visibility

def Field.ofJson? (j : Json) : Option Field := do
  let j ← j.record? ["name", "ty", "visibility", "is_static", "is_const", "is_readonly", "init",
    "comments"]
  return {
    name := ← text? "name" j
    type := ← Ty.ofJson? (j.field "ty")
    visibility := ← visibility? j
    isStatic := ← flag? "is_static" j
    isConst := ← flag? "is_const" j
    isReadonly := ← flag? "is_readonly" j
    init := ← (j.field "init").option? Expr.ofJson?
    comments := ← texts? "comments" j }

def Parameter.ofJson? (j : Json) : Option Parameter := do
  let j ← j.record? ["name", "ty", "direction", "is_params", "default"]
  return {
    name := ← text? "name" j
    type := ← Ty.ofJson? (j.field "ty")
    direction := ← (j.field "direction").named? Direction
    isParams := ← flag? "is_params" j
    default := ← (j.field "default").option? Expr.ofJson? }

def Entry.ofJson? (j : Json) : Option Entry := do
  let j ← j.record? ["library", "entry_point", "charset"]
  return {
    library := ← text? "library" j
    entryPoint := ← (j.field "entry_point").option? string?
    charset := ← text? "charset" j }

def Method.ofJson? (j : Json) : Option Method := do
  let j ← j.record? ["name", "kind", "visibility", "is_static", "type_parameters", "parameters",
    "return_type", "body", "external", "comments"]
  return {
    name := ← text? "name" j
    kind := ← (j.field "kind").named? MethodKind
    visibility := ← visibility? j
    isStatic := ← flag? "is_static" j
    typeParameters := ← texts? "type_parameters" j
    parameters := ← (j.field "parameters").list? Parameter.ofJson?
    returnType := ← Ty.ofJson? (j.field "return_type")
    body := ← (j.field "body").list? Stmt.ofJson?
    entry := ← (j.field "external").option? Entry.ofJson?
    comments := ← texts? "comments" j }

def Property.ofJson? (j : Json) : Option Property := do
  let j ← j.record? ["name", "ty", "visibility", "is_static", "parameters", "getter", "setter",
    "setter_parameter", "comments"]
  return {
    name := ← text? "name" j
    type := ← Ty.ofJson? (j.field "ty")
    visibility := ← visibility? j
    isStatic := ← flag? "is_static" j
    parameters := ← (j.field "parameters").list? Parameter.ofJson?
    getter := ← (j.field "getter").option? (list? Stmt.ofJson?)
    setter := ← (j.field "setter").option? (list? Stmt.ofJson?)
    setterParameter := ← text? "setter_parameter" j
    comments := ← texts? "comments" j }

def EnumMember.ofJson? (j : Json) : Option EnumMember := do
  let j ← j.record? ["name", "value"]
  return ⟨← text? "name" j, ← (j.field "value").option? Expr.ofJson?⟩

def Enumeration.ofJson? (j : Json) : Option Enumeration := do
  let j ← j.record? ["name", "visibility", "underlying", "members"]
  return ⟨← text? "name" j, ← visibility? j, ← (j.field "underlying").option? Ty.ofJson?,
    ← (j.field "members").list? EnumMember.ofJson?⟩

/-- A declared type over a reader of its members. -/
def typeOf? {μ : Type} (member : Json → Option μ) (j : Json) : Option (TypeOf μ) := do
  let j ← j.record? ["name", "kind", "visibility", "type_parameters", "base_types", "members",
    "comments"]
  return {
    name := ← text? "name" j
    kind := ← (j.field "kind").named? TypeKind
    visibility := ← visibility? j
    typeParameters := ← texts? "type_parameters" j
    baseTypes := ← (j.field "base_types").list? Ty.ofJson?
    members := ← (j.field "members").list? member
    comments := ← texts? "comments" j }

def Member.decode : Nat → Json → Option Member
  | 0, _ => none
  | fuel + 1, j => do
    let (name, content) ← j.variant?
    match name with
    | "Field" => return .field (← Field.ofJson? content)
    | "Method" => return .method (← Method.ofJson? content)
    | "Property" => return .property (← Property.ofJson? content)
    | "Type" => return .type (← typeOf? (Member.decode fuel) content)
    | "Enum" => return .enumeration (← Enumeration.ofJson? content)
    | _ => none

def TypeDecl.ofJson? (j : Json) : Option TypeDecl := typeOf? (Member.decode (j.depth + 1)) j

/-! ## Programs -/

def Import.ofJson? (j : Json) : Option Import := do
  let j ← j.record? ["alias", "target"]
  return ⟨← (j.field "alias").option? string?, ← text? "target" j⟩

def SourceOptions.ofJson? (j : Json) : Option SourceOptions := do
  let j ← j.record? ["explicit", "strict", "compare", "base"]
  return ⟨← (j.field "explicit").option? bool?, ← (j.field "strict").option? bool?,
    ← (j.field "compare").named? CompareMode, ← (j.field "base").natBelow? 256⟩

/-- Reads a program. An import counts where it is mentioned first. -/
def Program.ofJson? (j : Json) : Option Program := do
  let j ← j.record? ["namespace", "imports", "options", "ty"]
  let imports ← (j.field "imports").list? Import.ofJson?
  return {
    nameSpace := ← (j.field "namespace").option? string?
    imports := imports.foldl insertNew []
    options := ← SourceOptions.ofJson? (j.field "options")
    type := ← TypeDecl.ofJson? (j.field "ty") }

end StructuredBasic.Target
