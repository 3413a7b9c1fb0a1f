import StructuredBasic.Named

/-!
# The vocabulary of the source language

Operators, block keywords, built-in types and the other enumerated values that nodes carry. Where
a node accepts only part of a vocabulary, the part is a predicate here.
-/

set_option autoImplicit false

namespace StructuredBasic.Syntax

/-- Operators as written in source. `to` has a meaning only inside array bounds. -/
inductive Operator where
  | unaryPlus | negate | not | plus | minus | multiply | divide | integralDivide | modulus
  | power | concatenate | shiftLeft | shiftRight | equals | notEquals | lessThan | lessThanEquals
  | greaterThan | greaterThanEquals | like | is | isNot | and | andAlso | or | orElse | xor | to
deriving DecidableEq

instance : Named Operator where
  all := [.unaryPlus, .negate, .not, .plus, .minus, .multiply, .divide, .integralDivide,
    .modulus, .power, .concatenate, .shiftLeft, .shiftRight, .equals, .notEquals, .lessThan,
    .lessThanEquals, .greaterThan, .greaterThanEquals, .like, .is, .isNot, .and, .andAlso, .or,
    .orElse, .xor, .to]
  name
    | .unaryPlus => "UnaryPlus"
    | .negate => "Negate"
    | .not => "Not"
    | .plus => "Plus"
    | .minus => "Minus"
    | .multiply => "Multiply"
    | .divide => "Divide"
    | .integralDivide => "IntegralDivide"
    | .modulus => "Modulus"
    | .power => "Power"
    | .concatenate => "Concatenate"
    | .shiftLeft => "ShiftLeft"
    | .shiftRight => "ShiftRight"
    | .equals => "Equals"
    | .notEquals => "NotEquals"
    | .lessThan => "LessThan"
    | .lessThanEquals => "LessThanEquals"
    | .greaterThan => "GreaterThan"
    | .greaterThanEquals => "GreaterThanEquals"
    | .like => "Like"
    | .is => "Is"
    | .isNot => "IsNot"
    | .and => "And"
    | .andAlso => "AndAlso"
    | .or => "Or"
    | .orElse => "OrElse"
    | .xor => "Xor"
    | .to => "To"

/-- Operators that take one operand. -/
def Operator.isUnary : Operator → Bool
  | .unaryPlus | .negate | .not => true
  | _ => false

/-- Every other operator takes two operands. -/
def Operator.isBinary (op : Operator) : Bool := !op.isUnary

/-- Operators with a compound assignment form such as `+=`. -/
def Operator.isCompound : Operator → Bool
  | .plus | .minus | .multiply | .divide | .integralDivide | .power | .concatenate |
    .shiftLeft | .shiftRight => true
  | _ => false

/-- Operators allowed after `Case Is`. -/
def Operator.isRelational : Operator → Bool
  | .equals | .notEquals | .lessThan | .lessThanEquals | .greaterThan | .greaterThanEquals => true
  | _ => false

/-- Blocks named by `Exit`, `Continue` and `End` lines. -/
inductive Block where
  | doLoop | forLoop | whileLoop | selectCase | subroutine | function | property | getter
  | setter | tryCatch | ifThen | withTarget | syncLock | usingResource | classType | moduleType
  | structureType | interfaceType | enumeration | namespaceScope | operator | event
deriving DecidableEq

instance : Named Block where
  all := [.doLoop, .forLoop, .whileLoop, .selectCase, .subroutine, .function, .property, .getter,
    .setter, .tryCatch, .ifThen, .withTarget, .syncLock, .usingResource, .classType, .moduleType,
    .structureType, .interfaceType, .enumeration, .namespaceScope, .operator, .event]
  name
    | .doLoop => "Do"
    | .forLoop => "For"
    | .whileLoop => "While"
    | .selectCase => "Select"
    | .subroutine => "Sub"
    | .function => "Function"
    | .property => "Property"
    | .getter => "Get"
    | .setter => "Set"
    | .tryCatch => "Try"
    | .ifThen => "If"
    | .withTarget => "With"
    | .syncLock => "SyncLock"
    | .usingResource => "Using"
    | .classType => "Class"
    | .moduleType => "Module"
    | .structureType => "Structure"
    | .interfaceType => "Interface"
    | .enumeration => "Enum"
    | .namespaceScope => "Namespace"
    | .operator => "Operator"
    | .event => "Event"

/-- Blocks an `Exit` line may leave. -/
def Block.isExitable : Block → Bool
  | .doLoop | .forLoop | .whileLoop | .selectCase | .subroutine | .function | .property |
    .tryCatch => true
  | _ => false

/-- Blocks a `Continue` line may name. -/
def Block.isLoop : Block → Bool
  | .doLoop | .forLoop | .whileLoop => true
  | _ => false

/-- Blocks closed by an `End` line inside a body. -/
def Block.closesStatement : Block → Bool
  | .ifThen | .selectCase | .whileLoop | .withTarget | .syncLock | .usingResource | .tryCatch => true
  | _ => false

/-- Blocks closed by an `End` line between declarations. -/
def Block.closesDeclaration : Block → Bool
  | .subroutine | .function | .property | .getter | .setter | .classType | .moduleType |
    .structureType | .interfaceType | .enumeration | .namespaceScope | .operator | .event => true
  | _ => false

/-- Built-in types. -/
inductive Intrinsic where
  | boolean | sbyte | byte | short | ushort | integer | uinteger | long | ulong | decimal
  | single | double | date | char | string | object
deriving DecidableEq

instance : Named Intrinsic where
  all := [.boolean, .sbyte, .byte, .short, .ushort, .integer, .uinteger, .long, .ulong, .decimal,
    .single, .double, .date, .char, .string, .object]
  name
    | .boolean => "Boolean"
    | .sbyte => "SByte"
    | .byte => "Byte"
    | .short => "Short"
    | .ushort => "UShort"
    | .integer => "Integer"
    | .uinteger => "UInteger"
    | .long => "Long"
    | .ulong => "ULong"
    | .decimal => "Decimal"
    | .single => "Single"
    | .double => "Double"
    | .date => "Date"
    | .char => "Char"
    | .string => "String"
    | .object => "Object"

/-- The types whose values are numbers. -/
def Intrinsic.isNumeric : Intrinsic → Bool
  | .sbyte | .byte | .short | .ushort | .integer | .uinteger | .long | .ulong | .decimal |
    .single | .double => true
  | _ => false

/-- Type characters that may follow an identifier or a number. -/
inductive TypeSuffix where
  | string | integer | long | single | double | decimal
deriving DecidableEq

instance : Named TypeSuffix where
  all := [.string, .integer, .long, .single, .double, .decimal]
  name
    | .string => "String"
    | .integer => "Integer"
    | .long => "Long"
    | .single => "Single"
    | .double => "Double"
    | .decimal => "Decimal"

/-- The character itself. -/
def TypeSuffix.text : TypeSuffix → String
  | .string => "$"
  | .integer => "%"
  | .long => "&"
  | .single => "!"
  | .double => "#"
  | .decimal => "@"

/-- The type that a suffix stands for. -/
def TypeSuffix.intrinsic : TypeSuffix → Intrinsic
  | .string => .string
  | .integer => .integer
  | .long => .long
  | .single => .single
  | .double => .double
  | .decimal => .decimal

/-- Keywords in front of a declaration or a parameter. -/
inductive Modifier where
  | publicAccess | privateAccess | protectedAccess | friendAccess | staticLocal | shared
  | constant | dim | readOnly | writeOnly | withEvents | overridable | notOverridable | overrides
  | overloads | mustOverride | mustInherit | notInheritable | shadows | partialType
  | defaultMember | byVal | byRef | optional | paramArray
deriving DecidableEq

instance : Named Modifier where
  all := [.publicAccess, .privateAccess, .protectedAccess, .friendAccess, .staticLocal, .shared,
    .constant, .dim, .readOnly, .writeOnly, .withEvents, .overridable, .notOverridable,
    .overrides, .overloads, .mustOverride, .mustInherit, .notInheritable, .shadows, .partialType,
    .defaultMember, .byVal, .byRef, .optional, .paramArray]
  name
    | .publicAccess => "Public"
    | .privateAccess => "Private"
    | .protectedAccess => "Protected"
    | .friendAccess => "Friend"
    | .staticLocal => "Static"
    | .shared => "Shared"
    | .constant => "Const"
    | .dim => "Dim"
    | .readOnly => "ReadOnly"
    | .writeOnly => "WriteOnly"
    | .withEvents => "WithEvents"
    | .overridable => "Overridable"
    | .notOverridable => "NotOverridable"
    | .overrides => "Overrides"
    | .overloads => "Overloads"
    | .mustOverride => "MustOverride"
    | .mustInherit => "MustInherit"
    | .notInheritable => "NotInheritable"
    | .shadows => "Shadows"
    | .partialType => "Partial"
    | .defaultMember => "Default"
    | .byVal => "ByVal"
    | .byRef => "ByRef"
    | .optional => "Optional"
    | .paramArray => "ParamArray"

/-- Modifiers with a meaning only on a parameter. -/
def Modifier.isForParameter : Modifier → Bool
  | .byVal | .byRef | .optional | .paramArray => true
  | _ => false

/-- `Option` lines. -/
inductive Directive where
  | explicit (on : Bool)
  | strict (on : Bool)
  | compareText
  | compareBinary
  | base (lower : Nat)
deriving DecidableEq

def Directive.text : Directive → String
  | .explicit on => "Explicit " ++ onOff on
  | .strict on => "Strict " ++ onOff on
  | .compareText => "Compare Text"
  | .compareBinary => "Compare Binary"
  | .base lower => "Base " ++ toString lower
where
  onOff (on : Bool) : String := if on then "On" else "Off"

/-- Names with a meaning of their own. -/
inductive SpecialName where
  | global
deriving DecidableEq

instance : Named SpecialName where
  all := [.global]
  name
    | .global => "Global"

/-- Forms of a `Resume` line. -/
inductive ResumeForm where
  | plain | next | label
deriving DecidableEq

instance : Named ResumeForm where
  all := [.plain, .next, .label]
  name
    | .plain => "None"
    | .next => "Next"
    | .label => "Label"

/-- Forms of an `On Error` line. -/
inductive OnErrorForm where
  | label | zero | minusOne | next
deriving DecidableEq

instance : Named OnErrorForm where
  all := [.label, .zero, .minusOne, .next]
  name
    | .label => "Label"
    | .zero => "Zero"
    | .minusOne => "MinusOne"
    | .next => "Next"

/-- What an attribute in front of a colon applies to. -/
inductive AttributeTarget where
  | assembly | moduleFile
deriving DecidableEq

instance : Named AttributeTarget where
  all := [.assembly, .moduleFile]
  name
    | .assembly => "Assembly"
    | .moduleFile => "Module"

/-- Character sets of a `Declare` line. -/
inductive Charset where
  | unspecified | ansi | unicode | auto
deriving DecidableEq

instance : Named Charset where
  all := [.unspecified, .ansi, .unicode, .auto]
  name
    | .unspecified => "Default"
    | .ansi => "Ansi"
    | .unicode => "Unicode"
    | .auto => "Auto"

/-- Radixes of an integer literal. -/
inductive Radix where
  | decimal | hexadecimal | octal
deriving DecidableEq

instance : Named Radix where
  all := [.decimal, .hexadecimal, .octal]
  name
    | .decimal => "Decimal"
    | .hexadecimal => "Hexadecimal"
    | .octal => "Octal"

end StructuredBasic.Syntax
