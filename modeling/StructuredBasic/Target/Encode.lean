import StructuredBasic.Decimal.Layout
import StructuredBasic.Json
import StructuredBasic.Target.Program

/-!
# Serialized programs

Every part of a program as a value of the interchange format: structures as objects with their
fields in order, variants under their name, and variants without content as the name alone.
-/

set_option autoImplicit false

namespace StructuredBasic.Target

open Json

/-- The name of a member of a vocabulary. -/
def nameJson {α : Type} [Named α] (value : α) : Json := .string (Named.name value)

def strings (values : List String) : Json := ofList Json.string values

def optionalString (value : Option String) : Json := ofOption Json.string value

/-! ## Types -/

mutual

def Ty.toJson : Ty → Json
  | .void => .string "Void"
  | .primitive type => tagged "Primitive" (nameJson type)
  | .named name => tagged "Named" (.string name)
  | .generic name arguments =>
    tagged "Generic" (.object [("name", .string name), ("arguments", .array (Ty.listJson arguments))])
  | .array element rank =>
    tagged "Array" (.object [("element", Ty.toJson element), ("rank", ofInt rank)])

def Ty.listJson : List Ty → List Json
  | [] => []
  | type :: rest => Ty.toJson type :: Ty.listJson rest

end

/-! ## Expressions and statements -/

/-- A number that is not finite has no text and is `null`. -/
def Literal.toJson : Literal → Json
  | .int value => tagged "Int" (ofInt value.toInt)
  | .float value => tagged "Float" (ofOption Json.number (Decimal.serialized.finiteText? value))
  | .decimal text => tagged "Decimal" (.string text)
  | .bool value => tagged "Bool" (.bool value)
  | .string value => tagged "String" (.string value)
  | .char value => tagged "Char" (.string (String.singleton value))
  | .date text => tagged "Date" (.string text)

mutual

def Expr.toJson : Expr → Json
  | .literal value => tagged "Literal" value.toJson
  | .ident name => tagged "Variable" (.string name)
  | .typeRef type => tagged "TypeRef" type.toJson
  | .field target name =>
    tagged "FieldRef" (.object [("target", Expr.toJson target), ("name", .string name)])
  | .invoke target method args =>
    tagged "Invoke" (.object [("target", Expr.optionJson target), ("method", .string method),
      ("args", .array (Expr.listJson args))])
  | .delegateInvoke target args =>
    tagged "DelegateInvoke" (.object [("target", Expr.toJson target),
      ("args", .array (Expr.listJson args))])
  | .index target indices =>
    tagged "Index" (.object [("target", Expr.toJson target),
      ("indices", .array (Expr.listJson indices))])
  | .arrayCreate element lengths none =>
    tagged "ArrayCreate" (.object [("element", element.toJson),
      ("lengths", .array (Expr.listJson lengths)), ("initializer", .null)])
  | .arrayCreate element lengths (some elements) =>
    tagged "ArrayCreate" (.object [("element", element.toJson),
      ("lengths", .array (Expr.listJson lengths)),
      ("initializer", .array (Expr.listJson elements))])
  | .objectCreate type args =>
    tagged "ObjectCreate" (.object [("ty", type.toJson), ("args", .array (Expr.listJson args))])
  | .cast kind type operand =>
    tagged "Cast" (.object [("kind", nameJson kind), ("ty", type.toJson),
      ("expr", Expr.toJson operand)])
  | .binary op left right =>
    tagged "Binary" (.object [("op", nameJson op), ("left", Expr.toJson left),
      ("right", Expr.toJson right)])
  | .unary op operand =>
    tagged "Unary" (.object [("op", nameJson op), ("operand", Expr.toJson operand)])
  | .typeOf type => tagged "TypeOf" type.toJson
  | .typeIs operand type =>
    tagged "TypeIs" (.object [("expr", Expr.toJson operand), ("ty", type.toJson)])
  | .defaultOf type => tagged "Default" type.toJson
  | .self => .string "This"
  | .base => .string "Base"
  | .null => .string "Null"
  | .methodRef target method =>
    tagged "MethodRef" (.object [("target", Expr.optionJson target), ("method", .string method)])

def Expr.optionJson : Option Expr → Json
  | none => .null
  | some value => Expr.toJson value

def Expr.listJson : List Expr → List Json
  | [] => []
  | value :: rest => Expr.toJson value :: Expr.listJson rest

end

mutual

def Stmt.toJson : Stmt → Json
  | .assign target value =>
    tagged "Assign" (.object [("target", target.toJson), ("value", value.toJson)])
  | .declare name type init =>
    tagged "Declare" (.object [("name", .string name), ("ty", type.toJson),
      ("init", Expr.optionJson init)])
  | .conditional condition thenBody elseBody =>
    tagged "Conditional" (.object [("condition", condition.toJson),
      ("then_body", .array (Stmt.listJson thenBody)),
      ("else_body", .array (Stmt.listJson elseBody))])
  | .iteration init test increment body =>
    tagged "Iteration" (.object [("init", Stmt.optionJson init), ("test", test.toJson),
      ("increment", Stmt.optionJson increment), ("body", .array (Stmt.listJson body))])
  | .goto target => tagged "Goto" (.string target)
  | .label name => tagged "Label" (.string name)
  | .expression value => tagged "Expression" value.toJson
  | .returns value => tagged "Return" (Expr.optionJson value)
  | .breaks => .string "Break"
  | .comment text => tagged "Comment" (.string text)

def Stmt.optionJson : Option Stmt → Json
  | none => .null
  | some value => Stmt.toJson value

def Stmt.listJson : List Stmt → List Json
  | [] => []
  | value :: rest => Stmt.toJson value :: Stmt.listJson rest

end

/-! ## Members -/

def Field.toJson (f : Field) : Json :=
  .object [("name", .string f.name), ("ty", f.type.toJson), ("visibility", nameJson f.visibility),
    ("is_static", .bool f.isStatic), ("is_const", .bool f.isConst),
    ("is_readonly", .bool f.isReadonly), ("init", Expr.optionJson f.init),
    ("comments", strings f.comments)]

def Parameter.toJson (p : Parameter) : Json :=
  .object [("name", .string p.name), ("ty", p.type.toJson), ("direction", nameJson p.direction),
    ("is_params", .bool p.isParams), ("default", Expr.optionJson p.default)]

def Entry.toJson (e : Entry) : Json :=
  .object [("library", .string e.library), ("entry_point", optionalString e.entryPoint),
    ("charset", .string e.charset)]

def Method.toJson (m : Method) : Json :=
  .object [("name", .string m.name), ("kind", nameJson m.kind), ("visibility", nameJson m.visibility),
    ("is_static", .bool m.isStatic), ("type_parameters", strings m.typeParameters),
    ("parameters", ofList Parameter.toJson m.parameters), ("return_type", m.returnType.toJson),
    ("body", .array (Stmt.listJson m.body)), ("external", ofOption Entry.toJson m.entry),
    ("comments", strings m.comments)]

/-- A body that may be missing. -/
def bodyJson : Option (List Stmt) → Json
  | none => .null
  | some body => .array (Stmt.listJson body)

def Property.toJson (p : Property) : Json :=
  .object [("name", .string p.name), ("ty", p.type.toJson), ("visibility", nameJson p.visibility),
    ("is_static", .bool p.isStatic), ("parameters", ofList Parameter.toJson p.parameters),
    ("getter", bodyJson p.getter), ("setter", bodyJson p.setter),
    ("setter_parameter", .string p.setterParameter), ("comments", strings p.comments)]

def EnumMember.toJson (m : EnumMember) : Json :=
  .object [("name", .string m.name), ("value", Expr.optionJson m.value)]

def Enumeration.toJson (e : Enumeration) : Json :=
  .object [("name", .string e.name), ("visibility", nameJson e.visibility),
    ("underlying", ofOption Ty.toJson e.underlying),
    ("members", ofList EnumMember.toJson e.members)]

/-- A declared type over the serialized form of its members. -/
def typeJson (name : String) (kind : TypeKind) (visibility : Visibility)
    (typeParameters : List String) (baseTypes : List Ty) (members : List Json)
    (comments : List String) : Json :=
  .object [("name", .string name), ("kind", nameJson kind), ("visibility", nameJson visibility),
    ("type_parameters", strings typeParameters), ("base_types", .array (Ty.listJson baseTypes)),
    ("members", .array members), ("comments", strings comments)]

mutual

def Member.toJson : Member → Json
  | .field value => tagged "Field" value.toJson
  | .method value => tagged "Method" value.toJson
  | .property value => tagged "Property" value.toJson
  | .type ⟨name, kind, visibility, typeParameters, baseTypes, members, comments⟩ =>
    tagged "Type" (typeJson name kind visibility typeParameters baseTypes
      (Member.listJson members) comments)
  | .enumeration value => tagged "Enum" value.toJson

def Member.listJson : List Member → List Json
  | [] => []
  | value :: rest => Member.toJson value :: Member.listJson rest

end

def TypeDecl.toJson (t : TypeDecl) : Json :=
  typeJson t.name t.kind t.visibility t.typeParameters t.baseTypes (Member.listJson t.members)
    t.comments

/-! ## Programs -/

def Import.toJson (i : Import) : Json :=
  .object [("alias", optionalString i.short), ("target", .string i.target)]

def SourceOptions.toJson (o : SourceOptions) : Json :=
  .object [("explicit", ofOption Json.bool o.explicit), ("strict", ofOption Json.bool o.strict),
    ("compare", nameJson o.compare), ("base", ofInt o.base)]

def Program.toJson (p : Program) : Json :=
  .object [("namespace", optionalString p.nameSpace), ("imports", ofList Import.toJson p.imports),
    ("options", p.options.toJson), ("ty", TypeDecl.toJson p.type)]

/-- The serialized text of a program. -/
def Program.json (p : Program) : String := p.toJson.pretty 0

end StructuredBasic.Target
