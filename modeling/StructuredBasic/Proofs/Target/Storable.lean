import StructuredBasic.Proofs.Json.Access
import StructuredBasic.Target.Encode

/-!
# Programs that serialization keeps

A program is storable when none of its literals is a floating point number, its counts fit the
fields that hold them and no import is listed twice. The numbers of a storable program are
integers (`Program.numeric`).
-/

set_option autoImplicit false

namespace StructuredBasic.Target

open Json

/-! ## Storable code -/

mutual

/-- The number of dimensions of an array takes 32 bits. -/
def Ty.storable : Ty → Bool
  | .void | .primitive _ | .named _ => true
  | .generic _ arguments => storableAll arguments
  | .array element rank => element.storable && decide (rank < 4294967296)

def Ty.storableAll : List Ty → Bool
  | [] => true
  | type :: rest => type.storable && storableAll rest

end

/-- The text of a floating point number may stand for another one, and some have no text. -/
def Literal.storable : Literal → Bool
  | .float _ => false
  | _ => true

mutual

def Expr.storable : Expr → Bool
  | .literal value => value.storable
  | .typeRef type | .typeOf type | .defaultOf type => type.storable
  | .field target _ => target.storable
  | .invoke target _ args => storableOptional target && storableAll args
  | .delegateInvoke target args => target.storable && storableAll args
  | .index target indices => target.storable && storableAll indices
  | .arrayCreate element lengths initializer =>
    element.storable && storableAll lengths && storableElements initializer
  | .objectCreate type args => type.storable && storableAll args
  | .cast _ type operand => type.storable && operand.storable
  | .binary _ left right => left.storable && right.storable
  | .unary _ operand => operand.storable
  | .typeIs operand type => operand.storable && type.storable
  | .methodRef target _ => storableOptional target
  | .ident _ | .self | .base | .null => true

def Expr.storableOptional : Option Expr → Bool
  | none => true
  | some value => value.storable

def Expr.storableElements : Option (List Expr) → Bool
  | none => true
  | some elements => storableAll elements

def Expr.storableAll : List Expr → Bool
  | [] => true
  | value :: rest => value.storable && storableAll rest

end

mutual

def Stmt.storable : Stmt → Bool
  | .assign target value => target.storable && value.storable
  | .declare _ type init => type.storable && Expr.storableOptional init
  | .conditional condition thenBody elseBody =>
    condition.storable && storableAll thenBody && storableAll elseBody
  | .iteration init test increment body =>
    storableOptional init && test.storable && storableOptional increment && storableAll body
  | .expression value => value.storable
  | .returns value => Expr.storableOptional value
  | .goto _ | .label _ | .breaks | .comment _ => true

def Stmt.storableOptional : Option Stmt → Bool
  | none => true
  | some stmt => stmt.storable

def Stmt.storableAll : List Stmt → Bool
  | [] => true
  | stmt :: rest => stmt.storable && storableAll rest

end

/-! ## Storable members -/

def Field.storable (f : Field) : Bool := f.type.storable && Expr.storableOptional f.init

def Parameter.storable (p : Parameter) : Bool :=
  p.type.storable && Expr.storableOptional p.default

def Method.storable (m : Method) : Bool :=
  m.parameters.all Parameter.storable && m.returnType.storable && Stmt.storableAll m.body

def Property.storable (p : Property) : Bool :=
  p.type.storable && p.parameters.all Parameter.storable && p.getter.all Stmt.storableAll &&
    p.setter.all Stmt.storableAll

def EnumMember.storable (m : EnumMember) : Bool := Expr.storableOptional m.value

def Enumeration.storable (e : Enumeration) : Bool :=
  e.underlying.all Ty.storable && e.members.all EnumMember.storable

mutual

def Member.storable : Member → Bool
  | .field value => value.storable
  | .method value => value.storable
  | .property value => value.storable
  | .type ⟨_, _, _, _, baseTypes, members, _⟩ => Ty.storableAll baseTypes && storableAll members
  | .enumeration value => value.storable

def Member.storableAll : List Member → Bool
  | [] => true
  | member :: rest => member.storable && storableAll rest

end

/-- A program that comes back from its serialized text. The lowest index of arrays takes 8 bits. -/
structure Program.Storable (p : Program) : Prop where
  baseTypes : Ty.storableAll p.type.baseTypes
  members : Member.storableAll p.type.members
  base : p.options.base < 256
  imports : p.imports.Nodup

/-! ## Numbers -/

/-- The elements that an array is created with, where they are given. -/
def elementsJson : Option (List Expr) → Json :=
  ofOption fun elements => .array (Expr.listJson elements)

theorem Expr.toJson_arrayCreate (element : Ty) (lengths : List Expr)
    (initializer : Option (List Expr)) :
    (Expr.arrayCreate element lengths initializer).toJson = tagged "ArrayCreate"
      (.object [("element", element.toJson), ("lengths", .array (Expr.listJson lengths)),
        ("initializer", elementsJson initializer)]) := by
  cases initializer <;> rfl

theorem numeric_name {α : Type} [Named α] (value : α) : (nameJson value).Numeric :=
  numeric_string _

theorem numeric_strings (values : List String) : (strings values).Numeric := by
  simp [strings, Json.ofList]

theorem numeric_optionalString (value : Option String) : (optionalString value).Numeric := by
  cases value <;> simp [optionalString, ofOption]

mutual

theorem Ty.numeric (t : Ty) : t.toJson.Numeric := by
  match t with
  | .void | .primitive _ | .named _ => simp [Ty.toJson, numeric_name]
  | .generic name arguments => simpa [Ty.toJson] using Ty.numericAll arguments
  | .array element rank => simpa [Ty.toJson] using Ty.numeric element

theorem Ty.numericAll (ts : List Ty) : ∀ j ∈ Ty.listJson ts, j.Numeric := by
  match ts with
  | [] => simp [Ty.listJson]
  | t :: ts => exact List.forall_mem_cons.mpr ⟨Ty.numeric t, Ty.numericAll ts⟩

end

theorem Literal.numeric {l : Literal} (h : l.storable) : l.toJson.Numeric := by
  cases l with
  | float value => simp [Literal.storable] at h
  | _ => simp [Literal.toJson]

mutual

theorem Expr.numeric (e : Expr) (h : e.storable) : e.toJson.Numeric := by
  match e with
  | .literal value => simpa [Expr.toJson] using Literal.numeric h
  | .typeRef type | .typeOf type | .defaultOf type => simpa [Expr.toJson] using type.numeric
  | .ident _ | .self | .base | .null => simp [Expr.toJson]
  | .field target name => simpa [Expr.toJson] using Expr.numeric target h
  | .invoke target method args =>
    simp only [Expr.storable, Bool.and_eq_true] at h
    simpa [Expr.toJson] using ⟨Expr.numericOptional target h.1, Expr.numericAll args h.2⟩
  | .delegateInvoke target args =>
    simp only [Expr.storable, Bool.and_eq_true] at h
    simpa [Expr.toJson] using ⟨Expr.numeric target h.1, Expr.numericAll args h.2⟩
  | .index target indices =>
    simp only [Expr.storable, Bool.and_eq_true] at h
    simpa [Expr.toJson] using ⟨Expr.numeric target h.1, Expr.numericAll indices h.2⟩
  | .arrayCreate element lengths initializer =>
    simp only [Expr.storable, Bool.and_eq_true] at h
    simpa [Expr.toJson_arrayCreate] using
      ⟨element.numeric, Expr.numericAll lengths h.1.2, Expr.numericElements initializer h.2⟩
  | .objectCreate type args =>
    simp only [Expr.storable, Bool.and_eq_true] at h
    simpa [Expr.toJson] using ⟨type.numeric, Expr.numericAll args h.2⟩
  | .cast kind type operand =>
    simp only [Expr.storable, Bool.and_eq_true] at h
    simpa [Expr.toJson, numeric_name] using ⟨type.numeric, Expr.numeric operand h.2⟩
  | .binary op left right =>
    simp only [Expr.storable, Bool.and_eq_true] at h
    simpa [Expr.toJson, numeric_name] using ⟨Expr.numeric left h.1, Expr.numeric right h.2⟩
  | .unary op operand => simpa [Expr.toJson, numeric_name] using Expr.numeric operand h
  | .typeIs operand type =>
    simp only [Expr.storable, Bool.and_eq_true] at h
    simpa [Expr.toJson] using ⟨Expr.numeric operand h.1, type.numeric⟩
  | .methodRef target method => simpa [Expr.toJson] using Expr.numericOptional target h

theorem Expr.numericOptional (e : Option Expr) (h : Expr.storableOptional e) :
    (Expr.optionJson e).Numeric := by
  match e with
  | none => exact numeric_null
  | some e => exact Expr.numeric e h

theorem Expr.numericElements (es : Option (List Expr)) (h : Expr.storableElements es) :
    (elementsJson es).Numeric := by
  match es with
  | none => exact numeric_null
  | some es => exact numeric_array.mpr (Expr.numericAll es h)

theorem Expr.numericAll (es : List Expr) (h : Expr.storableAll es) :
    ∀ j ∈ Expr.listJson es, j.Numeric := by
  match es with
  | [] => simp [Expr.listJson]
  | e :: es =>
    simp only [Expr.storableAll, Bool.and_eq_true] at h
    exact List.forall_mem_cons.mpr ⟨Expr.numeric e h.1, Expr.numericAll es h.2⟩

end

mutual

theorem Stmt.numeric (s : Stmt) (h : s.storable) : s.toJson.Numeric := by
  match s with
  | .assign target value =>
    simp only [Stmt.storable, Bool.and_eq_true] at h
    simpa [Stmt.toJson] using ⟨target.numeric h.1, value.numeric h.2⟩
  | .declare name type init =>
    simp only [Stmt.storable, Bool.and_eq_true] at h
    simpa [Stmt.toJson] using ⟨type.numeric, Expr.numericOptional init h.2⟩
  | .conditional condition thenBody elseBody =>
    simp only [Stmt.storable, Bool.and_eq_true] at h
    simpa [Stmt.toJson] using
      ⟨condition.numeric h.1.1, Stmt.numericAll thenBody h.1.2, Stmt.numericAll elseBody h.2⟩
  | .iteration init test increment body =>
    simp only [Stmt.storable, Bool.and_eq_true] at h
    simpa [Stmt.toJson] using
      ⟨Stmt.numericOptional init h.1.1.1, test.numeric h.1.1.2,
        Stmt.numericOptional increment h.1.2, Stmt.numericAll body h.2⟩
  | .expression value => simpa [Stmt.toJson] using value.numeric h
  | .returns value => simpa [Stmt.toJson] using Expr.numericOptional value h
  | .goto _ | .label _ | .breaks | .comment _ => simp [Stmt.toJson]

theorem Stmt.numericOptional (s : Option Stmt) (h : Stmt.storableOptional s) :
    (Stmt.optionJson s).Numeric := by
  match s with
  | none => exact numeric_null
  | some s => exact Stmt.numeric s h

theorem Stmt.numericAll (ss : List Stmt) (h : Stmt.storableAll ss) :
    ∀ j ∈ Stmt.listJson ss, j.Numeric := by
  match ss with
  | [] => simp [Stmt.listJson]
  | s :: ss =>
    simp only [Stmt.storableAll, Bool.and_eq_true] at h
    exact List.forall_mem_cons.mpr ⟨Stmt.numeric s h.1, Stmt.numericAll ss h.2⟩

end

theorem Field.numeric {f : Field} (h : f.storable) : f.toJson.Numeric := by
  simp only [Field.storable, Bool.and_eq_true] at h
  simpa [Field.toJson, numeric_name, numeric_strings, Ty.numeric] using
    Expr.numericOptional f.init h.2

theorem Parameter.numeric {p : Parameter} (h : p.storable) : p.toJson.Numeric := by
  simp only [Parameter.storable, Bool.and_eq_true] at h
  simpa [Parameter.toJson, numeric_name, Ty.numeric] using Expr.numericOptional p.default h.2

theorem numeric_parameters {ps : List Parameter} (h : ps.all Parameter.storable) :
    (Json.ofList Parameter.toJson ps).Numeric := by
  simpa [Json.ofList] using fun p hp => Parameter.numeric (List.all_eq_true.mp h p hp)

theorem Entry.numeric (e : Entry) : e.toJson.Numeric := by
  simp [Entry.toJson, numeric_optionalString]

theorem Method.numeric {m : Method} (h : m.storable) : m.toJson.Numeric := by
  simp only [Method.storable, Bool.and_eq_true] at h
  have hentry : (ofOption Entry.toJson m.entry).Numeric := by
    cases m.entry <;> simp [ofOption, Entry.numeric]
  simpa [Method.toJson, numeric_name, numeric_strings, Ty.numeric, hentry] using
    ⟨numeric_parameters h.1.1, Stmt.numericAll m.body h.2⟩

theorem numeric_body {body : Option (List Stmt)} (h : body.all Stmt.storableAll) :
    (bodyJson body).Numeric := by
  cases body with
  | none => exact numeric_null
  | some body => exact numeric_array.mpr (Stmt.numericAll body h)

theorem Property.numeric {p : Property} (h : p.storable) : p.toJson.Numeric := by
  simp only [Property.storable, Bool.and_eq_true] at h
  simpa [Property.toJson, numeric_name, numeric_strings, Ty.numeric] using
    ⟨numeric_parameters h.1.1.2, numeric_body h.1.2, numeric_body h.2⟩

theorem EnumMember.numeric {m : EnumMember} (h : m.storable) : m.toJson.Numeric := by
  simpa [EnumMember.toJson] using Expr.numericOptional m.value h

theorem Enumeration.numeric {e : Enumeration} (h : e.storable) : e.toJson.Numeric := by
  simp only [Enumeration.storable, Bool.and_eq_true] at h
  have hunderlying : (ofOption Ty.toJson e.underlying).Numeric := by
    cases e.underlying <;> simp [ofOption, Ty.numeric]
  simpa [Enumeration.toJson, numeric_name, hunderlying, Json.ofList] using
    fun m hm => EnumMember.numeric (List.all_eq_true.mp h.2 m hm)

theorem numeric_type {name : String} {kind : TypeKind} {visibility : Visibility}
    {typeParameters comments : List String} (baseTypes : List Ty) {members : List Json}
    (h : ∀ j ∈ members, j.Numeric) :
    (typeJson name kind visibility typeParameters baseTypes members comments).Numeric := by
  simpa [typeJson, numeric_name, numeric_strings] using ⟨Ty.numericAll baseTypes, h⟩

mutual

theorem Member.numeric (m : Member) (h : m.storable) : m.toJson.Numeric := by
  match m with
  | .field value => simpa [Member.toJson] using Field.numeric h
  | .method value => simpa [Member.toJson] using Method.numeric h
  | .property value => simpa [Member.toJson] using Property.numeric h
  | .type ⟨name, kind, visibility, typeParameters, baseTypes, members, comments⟩ =>
    simp only [Member.storable, Bool.and_eq_true] at h
    simpa [Member.toJson] using numeric_type baseTypes (Member.numericAll members h.2)
  | .enumeration value => simpa [Member.toJson] using Enumeration.numeric h

theorem Member.numericAll (ms : List Member) (h : Member.storableAll ms) :
    ∀ j ∈ Member.listJson ms, j.Numeric := by
  match ms with
  | [] => simp [Member.listJson]
  | m :: ms =>
    simp only [Member.storableAll, Bool.and_eq_true] at h
    exact List.forall_mem_cons.mpr ⟨Member.numeric m h.1, Member.numericAll ms h.2⟩

end

/-- The numbers of a storable program are integers, which the reader can read. -/
theorem Program.numeric {p : Program} (h : p.Storable) : p.toJson.Numeric := by
  have htype : (TypeDecl.toJson p.type).Numeric :=
    numeric_type p.type.baseTypes (Member.numericAll p.type.members h.members)
  have hflag (flag : Option Bool) : (ofOption Json.bool flag).Numeric := by
    cases flag <;> simp [ofOption]
  simpa [Program.toJson, SourceOptions.toJson, Import.toJson, numeric_optionalString, Json.ofList,
    numeric_name, hflag] using htype

end StructuredBasic.Target
