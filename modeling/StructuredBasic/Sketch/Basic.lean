import StructuredBasic.Syntax.Builder

/-!
# Sketches

A sketch builds a tree from the inside out without source text. Every node gets a line of its own,
so the line of a span tells which node it belongs to.
-/

set_option autoImplicit false

namespace StructuredBasic

open Syntax

/-- A tree under construction: the nodes so far and the last line that one of them got. -/
structure Draft where
  forest : Forest
  line : Nat

/-- Construction of part of a tree. What was built before a refusal stays. -/
abbrev Sketch := ExceptT BuildError (StateM Draft)

namespace Sketch

/-- The span of the next node, on a line of its own. -/
def nextSpan : Sketch Span := do
  modify fun draft => { draft with line := draft.line + 1 }
  return .startingAt ⟨(← get).line, 1⟩

/-- Adds a node with comments attached to it. -/
def attach (kind : Kind) (span : Span) (payload : Payload) (comments : List Nat) : Sketch Nat := do
  let draft ← get
  match draft.forest.alloc kind span payload comments with
  | .ok (id, forest) =>
    set { draft with forest := forest }
    return id
  | .error fault => throw fault

def node (kind : Kind) (payload : Payload) : Sketch Nat := do
  attach kind (← nextSpan) payload []

/-- A statement or a declaration with one comment. -/
def commented (kind : Kind) (payload : Payload) (text : String) : Sketch Nat := do
  let comment ← attach .comment (← nextSpan) (.comment ⟨text, false⟩) []
  attach kind (← nextSpan) payload [comment]

/-- A list with one separator between elements. -/
def list (kind : Kind) (elements : List Nat) : Sketch Nat := do
  let span ← nextSpan
  let line := (← get).line
  let separators := (List.range (elements.length - 1)).map fun i => (⟨line, i + 1⟩ : Location)
  attach kind span (.collection ⟨elements.map some, separators, none⟩) []

/-- A list, or nothing for no elements. -/
def optionalList (kind : Kind) (elements : List Nat) : Sketch (Option Nat) :=
  if elements.isEmpty then return none else some <$> list kind elements

/-! ## Names and types -/

def simpleName (text : String) : Sketch Nat :=
  node .simpleName (.name (.simple text none false))

def variableName (text : String) : Sketch Nat := do
  let name ← simpleName text
  node .variableName (.name (.declared name none))

def intrinsic (type : Intrinsic) : Sketch Nat :=
  node .intrinsicType (.type (.intrinsic type))

def namedType (text : String) : Sketch Nat := do
  let name ← simpleName text
  node .namedType (.type (.named name))

/-! ## Expressions -/

def name (text : String) : Sketch Nat := do
  let name ← simpleName text
  node .simpleNameExpression (.expr (.simpleName name))

def int (value : Int64) : Sketch Nat :=
  node .integerLiteralExpression (.expr (.literal (.integer value .decimal none)))

def string (text : String) : Sketch Nat :=
  node .stringLiteralExpression (.expr (.literal (.string text)))

def boolean (value : Bool) : Sketch Nat :=
  node .booleanLiteralExpression (.expr (.literal (.boolean value)))

def binary (op : Operator) (left right : Nat) : Sketch Nat := do
  let place : Location := ⟨(← get).line, 2⟩
  node .binaryOperatorExpression (.expr (.binary op place left right))

def unary (op : Operator) (operand : Nat) : Sketch Nat :=
  node .unaryOperatorExpression (.expr (.unary op operand))

def parenthesized (operand : Nat) : Sketch Nat :=
  node .parentheticalExpression (.expr (.parenthetical operand))

/-- `qualifier.name`. Without a qualifier the subject of a `With` is meant. -/
def member (qualifier : Option Nat) (text : String) : Sketch Nat := do
  let name ← simpleName text
  let dot : Location := ⟨(← get).line, 1⟩
  node .qualifiedExpression (.expr (.qualified qualifier dot name))

def argument (expression : Nat) : Sketch Nat :=
  node .argument (.argument ⟨none, expression⟩)

/-- Positional arguments. -/
def arguments (expressions : List Nat) : Sketch (Option Nat) := do
  optionalList .argumentCollection (← expressions.mapM argument)

/-- `target(arguments)`, a call or an element of an array. -/
def call (target : Nat) (args : List Nat) : Sketch Nat := do
  let args ← arguments args
  node .callOrIndexExpression (.expr (.callOrIndex target args none))

/-- A variable name with bounds. -/
def arrayName (text : String) (bounds : List Nat) : Sketch Nat := do
  let name ← simpleName text
  let rank := bounds.length
  let bounds ← arguments bounds
  let type ← node .arrayType (.type (.array none rank bounds))
  node .variableName (.name (.declared name (some type)))

end Sketch

end StructuredBasic
