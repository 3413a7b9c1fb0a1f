import StructuredBasic.Json.Access
import StructuredBasic.Json.Read
import StructuredBasic.Syntax.Payload

/-!
# Payloads from their serialized form

A payload is an object with a tag and the fields of its variant. Nodes are given by number. A field
that may be missing may be left out, a flag that is left out is off, and a place that is left out is
unknown.
-/

set_option autoImplicit false

namespace StructuredBasic

/-- The number of a node, a line or a column. -/
def Json.number? : Json → Option Nat := natBelow? 4294967296

/-- A line and a column. -/
def Location.ofJson? : Json → Option Location
  | .array [line, column] => do return ⟨← line.number?, ← column.number?⟩
  | _ => none

namespace Json

/-! ## Fields -/

/-- A value, with another in its place when it is left out. -/
def default? {α : Type} (otherwise : α) (decode : Json → Option α) : Json → Option α
  | .null => some otherwise
  | j => decode j

/-- The node under a key. -/
def nodeAt? (j : Json) (key : String) : Option Nat := (j.field key).number?

/-- The node under a key, which may be missing. -/
def optionalNodeAt? (j : Json) (key : String) : Option (Option Nat) := (j.field key).option? number?

def textAt? (j : Json) (key : String) : Option String := (j.field key).string?

def optionalTextAt? (j : Json) (key : String) : Option (Option String) :=
  (j.field key).option? string?

def flagAt? (j : Json) (key : String) : Option Bool := (j.field key).default? false bool?

def placeAt? (j : Json) (key : String) : Option Location :=
  (j.field key).default? .unknown Location.ofJson?

/-- The member of a vocabulary under a key. -/
def memberAt? (α : Type) [Named α] (j : Json) (key : String) : Option α := (j.field key).named? α

def optionalMemberAt? (α : Type) [Named α] (j : Json) (key : String) : Option (Option α) :=
  (j.field key).option? (named? α)

/-- The bits of a floating-point number as a hexadecimal number, with an optional plus sign. -/
def bits? (j : Json) : Option Float := do
  let text ← j.string?
  let digits := match text.toList with
    | '+' :: rest => rest
    | cs => cs
  let n ← if digits.isEmpty then none else hexNumber? digits
  if n < 18446744073709551616 then some (Float.ofBits (UInt64.ofNat n)) else none

end Json

namespace Syntax

/-! ## Parts -/

def Directive.ofJson? (j : Json) : Option Directive :=
  match j.bareVariant?, j.variant? with
  | some "CompareText", _ => some .compareText
  | some "CompareBinary", _ => some .compareBinary
  | _, some ("Explicit", on) => on.bool?.map Directive.explicit
  | _, some ("Strict", on) => on.bool?.map Directive.strict
  | _, some ("Base", lower) => (lower.natBelow? 256).map Directive.base
  | _, _ => none

def LoopCondition.ofJson? (j : Json) : Option LoopCondition := do
  return ⟨← j.flagAt? "is_while", ← j.nodeAt? "expression"⟩

def Header.ofJson? (j : Json) : Option Header := do
  return ⟨← j.optionalNodeAt? "attributes", ← j.optionalNodeAt? "modifiers"⟩

def Signature.ofJson? (j : Json) : Option Signature := do
  return ⟨← j.nodeAt? "name", ← j.optionalNodeAt? "type_parameters",
    ← j.optionalNodeAt? "parameters", ← j.optionalNodeAt? "result_type"⟩

/-- The expression with a tag. -/
def Expr.ofJson? (tag : String) (j : Json) : Option Expr :=
  let id := j.nodeAt?
  let opt := j.optionalNodeAt?
  match tag with
  | "Expr.SimpleName" => Expr.simpleName <$> id "name"
  | "Expr.TypeReference" => Expr.typeReference <$> id "ty"
  | "Expr.Qualified" => Expr.qualified <$> opt "qualifier" <*> j.placeAt? "dot" <*> id "name"
  | "Expr.DictionaryLookup" =>
    Expr.dictionaryLookup <$> opt "qualifier" <*> j.placeAt? "bang" <*> id "name"
  | "Expr.GenericQualified" => Expr.genericQualified <$> id "base" <*> id "type_arguments"
  | "Expr.CallOrIndex" => Expr.callOrIndex <$> id "target" <*> opt "arguments" <*> opt "declarator"
  | "Expr.New" => Expr.construct <$> id "ty" <*> opt "arguments"
  | "Expr.NewAggregate" => Expr.constructArray <$> id "ty" <*> id "initializer"
  | "Expr.Cast" => Expr.cast <$> id "operand" <*> id "ty"
  | "Expr.IntrinsicCast" =>
    Expr.intrinsicCast <$> Json.memberAt? Intrinsic j "target" <*> id "operand"
  | "Expr.TypeOf" => Expr.typeTest <$> id "operand" <*> id "ty"
  | "Expr.GetType" => Expr.getType <$> id "ty"
  | "Expr.AddressOf" => Expr.addressOf <$> id "operand"
  | "Expr.Instance" => some .self
  | "Expr.Nothing" => some .nothing
  | "Expr.Parenthetical" => Expr.parenthetical <$> id "operand"
  | "Expr.Unary" => Expr.unary <$> Json.memberAt? Operator j "op" <*> id "operand"
  | "Expr.Binary" =>
    Expr.binary <$> Json.memberAt? Operator j "op" <*> j.placeAt? "op_location" <*> id "left" <*>
      id "right"
  | "Literal.String" => do return .literal (.string (← j.textAt? "value"))
  | "Literal.Date" => do return .literal (.date (← j.textAt? "value"))
  | "Literal.Decimal" => do return .literal (.decimal (← j.textAt? "value"))
  | "Literal.Character" => do return .literal (.character (← (j.field "value").char?))
  | "Literal.Integer" => do
    return .literal (.integer (← (j.field "value").int64?)
      (← (j.field "base").default? .decimal (Json.named? Radix))
      (← Json.optionalMemberAt? TypeSuffix j "type_character"))
  | "Literal.FloatingPoint" => do
    return .literal (.float (← (j.field "bits").bits?)
      (← Json.optionalMemberAt? TypeSuffix j "type_character"))
  | "Literal.Boolean" => do return .literal (.boolean (← (j.field "value").bool?))
  | _ => none

/-- The statement with a tag. -/
def Stmt.ofJson? (tag : String) (j : Json) : Option Stmt :=
  let id := j.nodeAt?
  let opt := j.optionalNodeAt?
  let condition key := (j.field key).option? LoopCondition.ofJson?
  match tag with
  | "Stmt.Empty" => some .empty
  | "Stmt.LabelReference" =>
    Stmt.labelReference <$> j.textAt? "name" <*> j.flagAt? "is_line_number"
  | "Stmt.Resume" =>
    Stmt.resume <$> Json.memberAt? ResumeForm j "kind" <*> j.optionalTextAt? "label"
  | "Stmt.Exit" => Stmt.exit <$> Json.memberAt? Block j "block"
  | "Stmt.Continue" => Stmt.next <$> Json.memberAt? Block j "block"
  | "Stmt.Return" => Stmt.returnValue <$> opt "expression"
  | "Stmt.Error" => Stmt.raise <$> id "expression"
  | "Stmt.OnError" =>
    Stmt.onError <$> Json.memberAt? OnErrorForm j "kind" <*> j.optionalTextAt? "label"
  | "Stmt.RaiseEvent" => Stmt.raiseEvent <$> id "name" <*> opt "arguments"
  | "Stmt.Handler" => Stmt.handler <$> id "event" <*> id "handler"
  | "Stmt.ReDim" => Stmt.reDim <$> j.flagAt? "preserve" <*> id "variables"
  | "Stmt.Erase" => Stmt.erase <$> id "variables"
  | "Stmt.Call" => Stmt.call <$> id "target" <*> opt "arguments"
  | "Stmt.Assignment" => Stmt.assignment <$> id "target" <*> id "source"
  | "Stmt.CompoundAssignment" =>
    Stmt.compoundAssignment <$> Json.memberAt? Operator j "op" <*> id "target" <*> id "source"
  | "Stmt.MidAssignment" =>
    Stmt.midAssignment <$> id "target" <*> id "start" <*> opt "length" <*> id "source"
  | "Stmt.LocalDeclaration" => Stmt.localDeclaration <$> id "modifiers" <*> id "declarators"
  | "Stmt.EndBlock" => Stmt.endBlock <$> Json.memberAt? Block j "block"
  | "Stmt.Loop" => Stmt.loopEnd <$> condition "condition"
  | "Stmt.Next" => Stmt.nextEnd <$> opt "variables"
  | "Stmt.DoBlock" => Stmt.doBlock <$> condition "condition" <*> opt "statements" <*> opt "end"
  | "Stmt.WhileBlock" => Stmt.whileBlock <$> id "condition" <*> opt "statements" <*> opt "end"
  | "Stmt.ForBlock" =>
    Stmt.forBlock <$> id "control" <*> opt "declarator" <*> id "lower" <*> id "upper" <*>
      opt "step" <*> opt "statements" <*> opt "next"
  | "Stmt.ForEachBlock" =>
    Stmt.forEachBlock <$> id "control" <*> opt "declarator" <*> id "collection" <*>
      opt "statements" <*> opt "next"
  | "Stmt.Guarded" => Stmt.guarded <$> id "expression" <*> opt "statements" <*> opt "end"
  | "Stmt.Using" =>
    Stmt.usingBlock <$> opt "expression" <*> opt "declarators" <*> opt "statements" <*> opt "end"
  | "Stmt.TryBlock" =>
    Stmt.tryBlock <$> opt "statements" <*> opt "catches" <*> opt "finally" <*> opt "end"
  | "Stmt.CatchBlock" =>
    Stmt.catchBlock <$> opt "name" <*> opt "ty" <*> opt "filter" <*> opt "statements"
  | "Stmt.Body" => Stmt.body <$> opt "statements"
  | "Stmt.IfBlock" =>
    Stmt.ifBlock <$> id "condition" <*> opt "statements" <*> opt "else_ifs" <*> opt "else_block" <*>
      opt "end"
  | "Stmt.ElseIfBlock" => Stmt.elseIfBlock <$> id "condition" <*> opt "statements"
  | "Stmt.LineIf" => Stmt.lineIf <$> id "condition" <*> opt "statements" <*> opt "else_statements"
  | "Stmt.SelectBlock" =>
    Stmt.selectBlock <$> id "expression" <*> opt "cases" <*> opt "case_else" <*> opt "end"
  | "Stmt.CaseBlock" => Stmt.caseBlock <$> id "clauses" <*> opt "statements"
  | _ => none

/-- The declaration with a tag. -/
def Decl.ofJson? (tag : String) (j : Json) : Option Decl :=
  let id := j.nodeAt?
  let opt := j.optionalNodeAt?
  match tag with
  | "Decl.Empty" => some .empty
  | "Decl.EndBlock" => Decl.endBlock <$> Json.memberAt? Block j "block"
  | "Decl.Option" => Decl.directive <$> Directive.ofJson? (j.field "option")
  | "Decl.Imports" => Decl.imports <$> id "imports"
  | "Decl.Attribute" => Decl.attributes <$> id "attributes"
  | "Decl.Namespace" => Decl.namespaceBlock <$> id "name" <*> opt "declarations" <*> opt "end"
  | "Decl.TypeBlock" =>
    Decl.typeBlock <$> Header.ofJson? j <*> id "name" <*> opt "type_parameters" <*>
      opt "declarations" <*> opt "end"
  | "Decl.Enum" =>
    Decl.enumBlock <$> Header.ofJson? j <*> id "name" <*> opt "underlying" <*> opt "members" <*>
      opt "end"
  | "Decl.EnumValue" => Decl.enumValue <$> Header.ofJson? j <*> id "name" <*> opt "value"
  | "Decl.Delegate" => Decl.delegate <$> Header.ofJson? j <*> Signature.ofJson? j
  | "Decl.Event" => Decl.event <$> Header.ofJson? j <*> Signature.ofJson? j <*> opt "implements"
  | "Decl.Method" =>
    Decl.method <$> Header.ofJson? j <*> Signature.ofJson? j <*>
      Json.optionalMemberAt? Operator j "operator" <*> opt "implements" <*> opt "statements" <*>
      opt "end"
  | "Decl.External" =>
    Decl.external <$> Header.ofJson? j <*> Signature.ofJson? j <*>
      Json.memberAt? Charset j "charset" <*> j.textAt? "library" <*> j.optionalTextAt? "alias"
  | "Decl.Property" =>
    Decl.property <$> Header.ofJson? j <*> Signature.ofJson? j <*> opt "implements" <*>
      opt "accessors" <*> opt "end"
  | "Decl.Accessor" =>
    Decl.accessor <$> Header.ofJson? j <*> opt "parameters" <*> opt "statements" <*> opt "end"
  | "Decl.VariableList" => Decl.variableList <$> Header.ofJson? j <*> id "declarators"
  | "Decl.TypeList" => Decl.typeList <$> id "types"
  | _ => none

/-- The payload with a tag, if it is neither an expression nor a statement nor a declaration. -/
def Payload.partOfJson? (tag : String) (j : Json) : Option Payload :=
  let id := j.nodeAt?
  let opt := j.optionalNodeAt?
  match tag with
  | "SyntaxError" => some .syntaxError
  | "Collection" => do
    return .collection ⟨← (j.field "elements").list? (Json.option? Json.number?),
      ← (j.field "separators").default? [] (Json.list? Location.ofJson?),
      ← (j.field "right_delimiter").option? Location.ofJson?⟩
  | "Comment" => do
    return .comment ⟨← j.textAt? "text", ← j.flagAt? "is_rem"⟩
  | "Modifier" => do return .modifier (← Json.memberAt? Modifier j "modifier")
  | "Name.Simple" => do
    return .name (.simple (← j.textAt? "text")
      (← Json.optionalMemberAt? TypeSuffix j "type_character") (← j.flagAt? "escaped"))
  | "Name.Special" => do return .name (.special (← Json.memberAt? SpecialName j "special"))
  | "Name.Qualified" => do
    return .name (.qualified (← id "qualifier") (← j.placeAt? "dot") (← id "name"))
  | "Name.Variable" => do return .name (.declared (← id "name") (← opt "array_type"))
  | "Type.Intrinsic" => do return .type (.intrinsic (← Json.memberAt? Intrinsic j "type"))
  | "Type.Named" => do return .type (.named (← id "name"))
  | "Type.Array" => do
    return .type (.array (← opt "element") (← (j.field "rank").number?) (← opt "bounds"))
  | "Type.Constructed" => do return .type (.constructed (← id "name") (← id "type_arguments"))
  | "Initializer.Expression" => do return .initializer (.expression (← id "expression"))
  | "Initializer.Aggregate" => do return .initializer (.aggregate (← opt "elements"))
  | "Argument" => do return .argument ⟨← opt "name", ← id "expression"⟩
  | "Declarator" => do
    return .declarator ⟨← id "names", ← opt "ty", ← j.flagAt? "is_new", ← opt "arguments",
      ← opt "initializer"⟩
  | "CaseClause.Comparison" => do
    return .caseClause (.comparison (← Json.optionalMemberAt? Operator j "op") (← id "operand"))
  | "CaseClause.Range" => do return .caseClause (.range (← id "lower") (← id "upper"))
  | "Attribute" => do
    return .attributeUse ⟨← Json.optionalMemberAt? AttributeTarget j "target", ← id "name",
      ← opt "arguments"⟩
  | "Parameter" => do
    return .parameter ⟨← opt "attributes", ← opt "modifiers", ← id "name", ← opt "ty",
      ← opt "initializer"⟩
  | "Import.Name" => do return .importClause (.name (← id "target"))
  | "Import.Alias" => do return .importClause (.renamed (← id "alias") (← id "target"))
  | "TypeParameter" => do return .typeParameter ⟨← id "name", ← opt "constraints"⟩
  | "File" => do return .file ⟨← opt "declarations"⟩
  | _ => none

/-- A payload by its tag. -/
def Payload.ofJson? (j : Json) : Option Payload := do
  let tag ← j.textAt? "t"
  (Payload.partOfJson? tag j)
    |>.or ((Expr.ofJson? tag j).map Payload.expr)
    |>.or ((Stmt.ofJson? tag j).map Payload.stmt)
    |>.or ((Decl.ofJson? tag j).map Payload.decl)

end Syntax

end StructuredBasic
