import StructuredBasic.Target.Type

/-!
# Code of the target

Expressions and statements of lowered programs.
-/

set_option autoImplicit false

namespace StructuredBasic.Target

inductive Literal where
  | int (value : Int64)
  | float (value : Float)
  | decimal (text : String)
  | bool (value : Bool)
  | string (value : String)
  | char (value : Char)
  | date (text : String)

/-- Operators between two operands. -/
inductive BinaryOp where
  | add | subtract | multiply | divide | integerDivide | modulus | shiftLeft | shiftRight | equal
  | notEqual | less | lessEqual | greater | greaterEqual | identityEqual | identityNotEqual
  | bitAnd | bitOr | bitXor | logicalAnd | logicalOr
deriving DecidableEq

instance : Named BinaryOp where
  all := [.add, .subtract, .multiply, .divide, .integerDivide, .modulus, .shiftLeft, .shiftRight,
    .equal, .notEqual, .less, .lessEqual, .greater, .greaterEqual, .identityEqual,
    .identityNotEqual, .bitAnd, .bitOr, .bitXor, .logicalAnd, .logicalOr]
  name
    | .add => "Add"
    | .subtract => "Subtract"
    | .multiply => "Multiply"
    | .divide => "Divide"
    | .integerDivide => "IntegerDivide"
    | .modulus => "Modulus"
    | .shiftLeft => "ShiftLeft"
    | .shiftRight => "ShiftRight"
    | .equal => "Equal"
    | .notEqual => "NotEqual"
    | .less => "Less"
    | .lessEqual => "LessEqual"
    | .greater => "Greater"
    | .greaterEqual => "GreaterEqual"
    | .identityEqual => "IdentityEqual"
    | .identityNotEqual => "IdentityNotEqual"
    | .bitAnd => "BitAnd"
    | .bitOr => "BitOr"
    | .bitXor => "BitXor"
    | .logicalAnd => "LogicalAnd"
    | .logicalOr => "LogicalOr"

/-- The sign of an operator. -/
def BinaryOp.text : BinaryOp → String
  | .add => "+"
  | .subtract => "-"
  | .multiply => "*"
  | .divide => "/"
  | .integerDivide => "/"
  | .modulus => "%"
  | .shiftLeft => "<<"
  | .shiftRight => ">>"
  | .equal => "=="
  | .notEqual => "!="
  | .less => "<"
  | .lessEqual => "<="
  | .greater => ">"
  | .greaterEqual => ">="
  | .identityEqual => "=="
  | .identityNotEqual => "!="
  | .bitAnd => "&"
  | .bitOr => "|"
  | .bitXor => "^"
  | .logicalAnd => "&&"
  | .logicalOr => "||"

/-- Operators in front of one operand. -/
inductive UnaryOp where
  | plus | negate | not
deriving DecidableEq

instance : Named UnaryOp where
  all := [.plus, .negate, .not]
  name
    | .plus => "Plus"
    | .negate => "Negate"
    | .not => "Not"

/-- The sign of an operator. -/
def UnaryOp.text : UnaryOp → String
  | .plus => "+"
  | .negate => "-"
  | .not => "!"

/-- Kinds of casts: a conversion, a change of view, or a test that may give nothing. -/
inductive CastKind where
  | convert | direct | attempt
deriving DecidableEq

instance : Named CastKind where
  all := [.convert, .direct, .attempt]
  name
    | .convert => "Convert"
    | .direct => "Direct"
    | .attempt => "Try"

inductive Expr where
  | literal (value : Literal)
  | ident (name : String)
  | typeRef (type : Ty)
  | field (target : Expr) (name : String)
  | invoke (target : Option Expr) (method : String) (args : List Expr)
  | delegateInvoke (target : Expr) (args : List Expr)
  | index (target : Expr) (indices : List Expr)
  | arrayCreate (element : Ty) (lengths : List Expr) (initializer : Option (List Expr))
  | objectCreate (type : Ty) (args : List Expr)
  | cast (kind : CastKind) (type : Ty) (operand : Expr)
  | binary (op : BinaryOp) (left right : Expr)
  | unary (op : UnaryOp) (operand : Expr)
  | typeOf (type : Ty)
  | typeIs (operand : Expr) (type : Ty)
  | defaultOf (type : Ty)
  | self
  | base
  | null
  | methodRef (target : Option Expr) (method : String)

namespace Expr

def int (value : Int64) : Expr := .literal (.int value)

def bool (value : Bool) : Expr := .literal (.bool value)

/-- A call of a method of a type. -/
def staticCall (type method : String) (args : List Expr) : Expr :=
  .invoke (some (.typeRef (.named type))) method args

/-- The value of an integer literal. -/
def int? : Expr → Option Int64
  | .literal (.int value) => some value
  | _ => none

end Expr

/-- Statements. The vocabulary is small: loops are one kind of iteration that tests before each
pass, and jumps name labels. -/
inductive Stmt where
  | assign (target value : Expr)
  | declare (name : String) (type : Ty) (init : Option Expr)
  | conditional (condition : Expr) (thenBody elseBody : List Stmt)
  | iteration (init : Option Stmt) (test : Expr) (increment : Option Stmt) (body : List Stmt)
  | goto (target : String)
  | label (name : String)
  | expression (value : Expr)
  | returns (value : Option Expr)
  | breaks
  | comment (text : String)

end StructuredBasic.Target
