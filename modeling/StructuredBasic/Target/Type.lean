import StructuredBasic.Named

/-!
# Types of the target

Types of lowered programs with their text.
-/

set_option autoImplicit false

namespace StructuredBasic.Target

/-- Primitive types of the target. -/
inductive Primitive where
  | bool | sbyte | byte | short | ushort | int | uint | long | ulong | decimal | float | double
  | dateTime | char | string | object
deriving DecidableEq

instance : Named Primitive where
  all := [.bool, .sbyte, .byte, .short, .ushort, .int, .uint, .long, .ulong, .decimal, .float,
    .double, .dateTime, .char, .string, .object]
  name
    | .bool => "Bool"
    | .sbyte => "SByte"
    | .byte => "Byte"
    | .short => "Short"
    | .ushort => "UShort"
    | .int => "Int"
    | .uint => "UInt"
    | .long => "Long"
    | .ulong => "ULong"
    | .decimal => "Decimal"
    | .float => "Float"
    | .double => "Double"
    | .dateTime => "DateTime"
    | .char => "Char"
    | .string => "String"
    | .object => "Object"

/-- The keyword of a primitive type. -/
def Primitive.text : Primitive → String
  | .bool => "bool"
  | .sbyte => "sbyte"
  | .byte => "byte"
  | .short => "short"
  | .ushort => "ushort"
  | .int => "int"
  | .uint => "uint"
  | .long => "long"
  | .ulong => "ulong"
  | .decimal => "decimal"
  | .float => "float"
  | .double => "double"
  | .dateTime => "DateTime"
  | .char => "char"
  | .string => "string"
  | .object => "object"

/-- Everything but truth values, dates, characters, texts and objects. -/
def Primitive.isNumeric : Primitive → Bool
  | .bool | .dateTime | .char | .string | .object => false
  | _ => true

inductive Ty where
  | void
  | primitive (type : Primitive)
  | named (name : String)
  | generic (name : String) (arguments : List Ty)
  | array (element : Ty) (rank : Nat)

namespace Ty

/-- The type of values about which nothing is known. -/
def object : Ty := .primitive .object

def element? : Ty → Option Ty
  | .array element _ => some element
  | _ => none

def isArray : Ty → Bool
  | .array .. => true
  | _ => false

def isVoid : Ty → Bool
  | .void => true
  | _ => false

mutual

def text : Ty → String
  | .void => "void"
  | .primitive type => type.text
  | .named name => name
  | .generic name arguments => name ++ "<" ++ listText arguments ++ ">"
  | .array element rank => text element ++ "[" ++ String.ofList (List.replicate (rank - 1) ',') ++ "]"

/-- Types separated by commas. -/
def listText : List Ty → String
  | [] => ""
  | [type] => text type
  | type :: next :: rest => text type ++ ", " ++ listText (next :: rest)

end

end Ty

/-- Who may use a member. -/
inductive Visibility where
  | publicAccess | privateAccess | protectedAccess | internalAccess | protectedInternal
deriving DecidableEq

instance : Named Visibility where
  all := [.publicAccess, .privateAccess, .protectedAccess, .internalAccess, .protectedInternal]
  name
    | .publicAccess => "Public"
    | .privateAccess => "Private"
    | .protectedAccess => "Protected"
    | .internalAccess => "Internal"
    | .protectedInternal => "ProtectedInternal"

/-- The keywords of a visibility. -/
def Visibility.text : Visibility → String
  | .publicAccess => "public"
  | .privateAccess => "private"
  | .protectedAccess => "protected"
  | .internalAccess => "internal"
  | .protectedInternal => "protected internal"

end StructuredBasic.Target
