import StructuredBasic.Target.Code

/-!
# Programs of the target

A lowered file is a program: a type with its members, the imports in order of first mention and
what the file said about comparison and array bounds.
-/

set_option autoImplicit false

namespace StructuredBasic.Target

/-- How texts are compared: by code, or ignoring case. -/
inductive CompareMode where
  | binary | text
deriving DecidableEq

instance : Named CompareMode where
  all := [.binary, .text]
  name
    | .binary => "Binary"
    | .text => "Text"

/-- What the `Option` lines of a file said. -/
structure SourceOptions where
  explicit : Option Bool
  strict : Option Bool
  compare : CompareMode
  base : Nat

structure Import where
  short : Option String
  target : String
deriving DecidableEq

/-- A list with one more element, unless the element is in it. -/
def insertNew {α : Type} [BEq α] (xs : List α) (x : α) : List α :=
  if xs.contains x then xs else xs ++ [x]

/-- Kinds of declared types. -/
inductive TypeKind where
  | classType | moduleType | structType
deriving DecidableEq

instance : Named TypeKind where
  all := [.classType, .moduleType, .structType]
  name
    | .classType => "Class"
    | .moduleType => "Module"
    | .structType => "Struct"

/-- The keywords of a kind of type. -/
def TypeKind.text : TypeKind → String
  | .classType => "class"
  | .moduleType => "static class"
  | .structType => "struct"

/-- How an argument is passed. -/
inductive Direction where
  | byValue | byReference
deriving DecidableEq

instance : Named Direction where
  all := [.byValue, .byReference]
  name
    | .byValue => "In"
    | .byReference => "Ref"

/-- The keyword in front of a parameter. -/
def Direction.text : Direction → String
  | .byValue => ""
  | .byReference => "ref "

/-- Ordinary methods and constructors. -/
inductive MethodKind where
  | normal | constructor
deriving DecidableEq

instance : Named MethodKind where
  all := [.normal, .constructor]
  name
    | .normal => "Normal"
    | .constructor => "Constructor"

structure Field where
  name : String
  type : Ty
  visibility : Visibility
  isStatic : Bool
  isConst : Bool
  isReadonly : Bool
  init : Option Expr
  comments : List String

structure Parameter where
  name : String
  type : Ty
  direction : Direction
  isParams : Bool
  default : Option Expr

/-- Where the code of an external method lives. -/
structure Entry where
  library : String
  entryPoint : Option String
  charset : String

structure Method where
  name : String
  kind : MethodKind
  visibility : Visibility
  isStatic : Bool
  typeParameters : List String
  parameters : List Parameter
  returnType : Ty
  body : List Stmt
  entry : Option Entry
  comments : List String

structure Property where
  name : String
  type : Ty
  visibility : Visibility
  isStatic : Bool
  parameters : List Parameter
  getter : Option (List Stmt)
  setter : Option (List Stmt)
  setterParameter : String
  comments : List String

structure EnumMember where
  name : String
  value : Option Expr

structure Enumeration where
  name : String
  visibility : Visibility
  underlying : Option Ty
  members : List EnumMember

/-- A declared type over the type of its members. -/
structure TypeOf (μ : Type) where
  name : String
  kind : TypeKind
  visibility : Visibility
  typeParameters : List String
  baseTypes : List Ty
  members : List μ
  comments : List String

inductive Member where
  | field (value : Field)
  | method (value : Method)
  | property (value : Property)
  | type (value : TypeOf Member)
  | enumeration (value : Enumeration)

abbrev TypeDecl := TypeOf Member

/-- A public type that has a name and nothing else. -/
def TypeDecl.ofName (name : String) (kind : TypeKind) : TypeDecl where
  name := name
  kind := kind
  visibility := .publicAccess
  typeParameters := []
  baseTypes := []
  members := []
  comments := []

/-- The first method of this name. -/
def TypeDecl.method? (type : TypeDecl) (name : String) : Option Method :=
  type.members.findSome? fun member =>
    match member with
    | .method value => if value.name = name then some value else none
    | _ => none

structure Program where
  nameSpace : Option String
  imports : List Import
  options : SourceOptions
  type : TypeDecl

end StructuredBasic.Target
