import StructuredBasic.Decimal.Layout
import StructuredBasic.Target.Program
import StructuredBasic.Text.Quoted

/-!
# Printed programs

Lowered programs as readable text in braces, four spaces a level. A label stands one level further
out than the statements around it, and a chain of conditionals prints as `else if`.
-/

set_option autoImplicit false

namespace StructuredBasic.Target

/-! ## Pieces -/

def indent (depth : Nat) : String := String.ofList (List.replicate (4 * depth) ' ')

def commaList : List String → String
  | [] => ""
  | [text] => text
  | text :: next :: rest => text ++ ", " ++ commaList (next :: rest)

/-- A block whose lines are already printed one level deeper. -/
def braces (depth : Nat) (lines : String) : String :=
  "\x7b\n" ++ lines ++ indent depth ++ "\x7d"

def commentLines (depth : Nat) (comments : List String) : String :=
  String.join (comments.map fun comment => indent depth ++ "//" ++ comment ++ "\n")

def staticText (isStatic : Bool) : String := if isStatic then "static " else ""

def typeParameterText (names : List String) : String :=
  if names.isEmpty then "" else "<" ++ commaList names ++ ">"

/-! ## Expressions -/

def Literal.text : Literal → String
  | .int value => toString value.toInt
  | .float value => Decimal.source.text value
  | .decimal text => text ++ "m"
  | .bool value => if value then "true" else "false"
  | .string value => Text.quoted value
  | .char value => Text.quotedChar value
  | .date text => "DateTime.Parse(" ++ Text.quoted text ++ ")"

/-- Operands that are put in parentheses. -/
def Expr.isCompound : Expr → Bool
  | .binary .. => true
  | .cast .. => true
  | .typeIs .. => true
  | _ => false

/-- An operand, in parentheses if it is compound. -/
def operandText (isCompound : Bool) (text : String) : String :=
  if isCompound then "(" ++ text ++ ")" else text

mutual

def Expr.text : Expr → String
  | .literal value => value.text
  | .ident name => name
  | .typeRef type => type.text
  | .field target name => Expr.text target ++ "." ++ name
  | .invoke target method args =>
    Expr.receiverText target ++ method ++ "(" ++ commaList (Expr.texts args) ++ ")"
  | .delegateInvoke target args => Expr.text target ++ "(" ++ commaList (Expr.texts args) ++ ")"
  | .index target indices => Expr.text target ++ "[" ++ commaList (Expr.texts indices) ++ "]"
  | .arrayCreate element lengths none =>
    "new " ++ element.text ++ "[" ++ commaList (Expr.texts lengths) ++ "]"
  | .arrayCreate element lengths (some elements) =>
    "new " ++ element.text ++ "[" ++ commaList (Expr.texts lengths) ++ "] \x7b " ++
      commaList (Expr.texts elements) ++ " \x7d"
  | .objectCreate type args => "new " ++ type.text ++ "(" ++ commaList (Expr.texts args) ++ ")"
  | .cast .attempt type operand =>
    operandText operand.isCompound (Expr.text operand) ++ " as " ++ type.text
  | .cast _ type operand =>
    "(" ++ type.text ++ ")" ++ operandText operand.isCompound (Expr.text operand)
  | .binary op left right =>
    operandText left.isCompound (Expr.text left) ++ " " ++ op.text ++ " " ++
      operandText right.isCompound (Expr.text right)
  | .unary op operand => op.text ++ operandText operand.isCompound (Expr.text operand)
  | .typeOf type => "typeof(" ++ type.text ++ ")"
  | .typeIs operand type =>
    operandText operand.isCompound (Expr.text operand) ++ " is " ++ type.text
  | .defaultOf type => "default(" ++ type.text ++ ")"
  | .self => "this"
  | .base => "base"
  | .null => "null"
  | .methodRef target method => Expr.receiverText target ++ method

/-- What stands in front of the name of a method. -/
def Expr.receiverText : Option Expr → String
  | none => ""
  | some target => Expr.text target ++ "."

def Expr.texts : List Expr → List String
  | [] => []
  | value :: rest => Expr.text value :: Expr.texts rest

end

/-- ` = value` where there is a value. -/
def initText : Option Expr → String
  | some init => " = " ++ init.text
  | none => ""

/-! ## Statements -/

/-- A statement in the header of an iteration, without indentation and semicolon. -/
def Stmt.inlineText : Stmt → String
  | .assign target value => target.text ++ " = " ++ value.text
  | .declare name type init => type.text ++ " " ++ name ++ initText init
  | .expression value => value.text
  | _ => "/* unsupported in header */"

mutual

/-- The lines of a statement at a depth. -/
def Stmt.text (depth : Nat) : Stmt → String
  | .label name => indent (depth - 1) ++ name ++ ":\n"
  | .assign target value => indent depth ++ target.text ++ " = " ++ value.text ++ ";\n"
  | .declare name type init =>
    indent depth ++ type.text ++ " " ++ name ++ initText init ++ ";\n"
  | .expression value => indent depth ++ value.text ++ ";\n"
  | .conditional condition thenBody elseBody =>
    indent depth ++ "if (" ++ condition.text ++ ") " ++
      braces depth (Stmt.texts (depth + 1) thenBody) ++ Stmt.elseText depth elseBody ++ "\n"
  | .iteration init test increment body =>
    indent depth ++ "for (" ++ (init.map Stmt.inlineText).getD "" ++ "; " ++ test.text ++ ";" ++
      ((increment.map Stmt.inlineText).map fun text => " " ++ text).getD "" ++ ") " ++
      braces depth (Stmt.texts (depth + 1) body) ++ "\n"
  | .goto target => indent depth ++ "goto " ++ target ++ ";\n"
  | .returns (some value) => indent depth ++ "return " ++ value.text ++ ";\n"
  | .returns none => indent depth ++ "return;\n"
  | .breaks => indent depth ++ "break;\n"
  | .comment text => indent depth ++ "//" ++ text ++ "\n"

def Stmt.texts (depth : Nat) : List Stmt → String
  | [] => ""
  | stmt :: rest => Stmt.text depth stmt ++ Stmt.texts depth rest

/-- What follows the braces of a conditional. A lone conditional goes on in the same line. -/
def Stmt.elseText (depth : Nat) : List Stmt → String
  | [] => ""
  | [.conditional condition thenBody elseBody] =>
    " else if (" ++ condition.text ++ ") " ++
      braces depth (Stmt.texts (depth + 1) thenBody) ++ Stmt.elseText depth elseBody
  | stmt :: rest =>
    " else " ++ braces depth (Stmt.text (depth + 1) stmt ++ Stmt.texts (depth + 1) rest)

end

/-! ## Members -/

def Field.text (depth : Nat) (f : Field) : String :=
  commentLines depth f.comments ++ indent depth ++ f.visibility.text ++ " " ++
    (if f.isConst then "const " else staticText f.isStatic) ++
    (if f.isReadonly then "readonly " else "") ++ f.type.text ++ " " ++ f.name ++
    initText f.init ++ ";\n"

def Parameter.text (p : Parameter) : String :=
  p.direction.text ++ (if p.isParams then "params " else "") ++ p.type.text ++ " " ++ p.name ++
    initText p.default

/-- The line above an external method. -/
def Entry.text (depth : Nat) (e : Entry) : String :=
  indent depth ++ "[DllImport(\"" ++ e.library ++ "\"" ++
    (match e.entryPoint with
      | some entry => ", EntryPoint = \"" ++ entry ++ "\""
      | none => "") ++
    ", CharSet = CharSet." ++ e.charset ++ ")]\n"

def Method.text (depth : Nat) (m : Method) : String :=
  let name := m.name ++ typeParameterText m.typeParameters ++ "(" ++
    commaList (m.parameters.map Parameter.text) ++ ")"
  commentLines depth m.comments ++
  match m.entry with
  | some entry =>
    entry.text depth ++ indent depth ++ m.visibility.text ++ " static extern " ++
      m.returnType.text ++ " " ++ name ++ ";\n"
  | none =>
    let result := match m.kind with
      | .normal => m.returnType.text ++ " "
      | .constructor => ""
    indent depth ++ m.visibility.text ++ " " ++ staticText m.isStatic ++ result ++ name ++ " " ++
      braces depth (Stmt.texts (depth + 1) m.body) ++ "\n"

/-- An accessor with its heading. -/
def accessorText (depth : Nat) (heading : String) : Option (List Stmt) → String
  | some body =>
    indent depth ++ heading ++ " " ++ braces depth (Stmt.texts (depth + 1) body) ++ "\n"
  | none => ""

def Property.text (depth : Nat) (p : Property) : String :=
  let parameters := if p.parameters.isEmpty then ""
    else "[" ++ commaList (p.parameters.map Parameter.text) ++ "]"
  commentLines depth p.comments ++ indent depth ++ p.visibility.text ++ " " ++
    staticText p.isStatic ++ p.type.text ++ " " ++ p.name ++ parameters ++ " " ++
    braces depth (accessorText (depth + 1) "get" p.getter ++
      accessorText (depth + 1) ("set(" ++ p.setterParameter ++ ")") p.setter) ++ "\n"

def EnumMember.text (depth : Nat) (m : EnumMember) : String :=
  indent depth ++ m.name ++ initText m.value ++ ",\n"

def Enumeration.text (depth : Nat) (e : Enumeration) : String :=
  let underlying := match e.underlying with
    | some type => " : " ++ type.text
    | none => ""
  indent depth ++ e.visibility.text ++ " enum " ++ e.name ++ underlying ++ " " ++
    braces depth (String.join (e.members.map (EnumMember.text (depth + 1)))) ++ "\n"

def baseTypeText (types : List Ty) : String :=
  if types.isEmpty then "" else " : " ++ commaList (types.map Ty.text)

/-- A declared type over the lines of its members. -/
def typeText (depth : Nat) (name : String) (kind : TypeKind) (visibility : Visibility)
    (typeParameters : List String) (baseTypes : List Ty) (members : String)
    (comments : List String) : String :=
  commentLines depth comments ++ indent depth ++ visibility.text ++ " " ++ kind.text ++ " " ++
    name ++ typeParameterText typeParameters ++ baseTypeText baseTypes ++ " " ++
    braces depth members ++ "\n"

mutual

/-- Methods of a module print as static. -/
def Member.text (depth : Nat) (inModule : Bool) : Member → String
  | .field value => value.text depth
  | .method value => Method.text depth { value with isStatic := inModule || value.isStatic }
  | .property value => value.text depth
  | .type ⟨name, kind, visibility, typeParameters, baseTypes, members, comments⟩ =>
    typeText depth name kind visibility typeParameters baseTypes
      (Member.texts (depth + 1) (kind == .moduleType) true members) comments
  | .enumeration value => value.text depth

/-- Members with a blank line in front of each but the first. -/
def Member.texts (depth : Nat) (inModule isFirst : Bool) : List Member → String
  | [] => ""
  | member :: rest =>
    (if isFirst then "" else "\n") ++ Member.text depth inModule member ++
      Member.texts depth inModule false rest

end

def TypeDecl.text (depth : Nat) (t : TypeDecl) : String :=
  typeText depth t.name t.kind t.visibility t.typeParameters t.baseTypes
    (Member.texts (depth + 1) (t.kind == .moduleType) true t.members) t.comments

/-! ## Programs -/

def Import.text (i : Import) : String :=
  match i.short with
  | some short => "using " ++ short ++ " = " ++ i.target ++ ";\n"
  | none => "using " ++ i.target ++ ";\n"

def Program.text (p : Program) : String :=
  String.join (p.imports.map Import.text) ++ (if p.imports.isEmpty then "" else "\n") ++
  match p.nameSpace with
  | some nameSpace => "namespace " ++ nameSpace ++ " \x7b\n" ++ TypeDecl.text 1 p.type ++ "\x7d\n"
  | none => TypeDecl.text 0 p.type

end StructuredBasic.Target
