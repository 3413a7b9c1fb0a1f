import StructuredBasic.Decimal.Layout
import StructuredBasic.Syntax.Forest
import StructuredBasic.Text.Markup

/-!
# Dumping a tree

A node becomes an element named after its kind, with its position and its own values as attributes
and its children as child elements.
-/

set_option autoImplicit false

namespace StructuredBasic.Syntax

/-- Whether positions are written, and the spaces for each level of nesting. -/
structure DumpOptions where
  positions : Bool
  indent : Nat

/-! ## The values of a node -/

/-- The valid ends of a span. -/
def placeFacts (s : Span) : List (String × String) :=
  pair "startLine" "startCol" (some s.start) ++ pair "endLine" "endCol" s.finish
where
  pair (line column : String) : Option Location → List (String × String)
    | some l =>
      if l.isValid then [(line, toString l.line), (column, toString l.column)] else []
    | none => []

/-- An attribute that is there only when a flag is set. -/
def flagged (name : String) (on : Bool) : List (String × String) :=
  if on then [(name, "true")] else []

/-- An attribute that is there only when it has a value. -/
def valued (name : String) (value : Option String) : List (String × String) :=
  match value with
  | some text => [(name, text)]
  | none => []

def Literal.text : Literal → String
  | .string text => text
  | .date text => text
  | .decimal text => text
  | .character value => String.singleton value
  | .integer value _ _ => toString value.toInt
  | .float value _ => Decimal.plain.text value
  | .boolean value => if value then "true" else "false"

def Name.facts : Name → List (String × String)
  | .simple text suffix escaped =>
    ("name", text) :: valued "typeCharacter" (suffix.map TypeSuffix.text) ++
      flagged "escaped" escaped
  | .special which => [("name", Named.name which)]
  | _ => []

def TypeName.facts : TypeName → List (String × String)
  | .intrinsic type => [("type", Named.name type)]
  | .array _ rank _ => [("rank", toString rank)]
  | _ => []

def Expr.facts : Expr → List (String × String)
  | .literal value => [("value", value.text)]
  | .intrinsicCast target _ => [("type", Named.name target)]
  | .unary op _ => [("operator", Named.name op)]
  | .binary op _ _ _ => [("operator", Named.name op)]
  | _ => []

def LoopCondition.facts (condition : Option LoopCondition) : List (String × String) :=
  valued "test" (condition.map fun c => if c.isWhile then "While" else "Until")

def Stmt.facts : Stmt → List (String × String)
  | .labelReference name isLineNumber =>
    ("label", name) :: flagged "isLineNumber" isLineNumber
  | .exit block => [("block", Named.name block)]
  | .next block => [("block", Named.name block)]
  | .endBlock block => [("block", Named.name block)]
  | .resume form label => ("kind", Named.name form) :: valued "label" label
  | .onError form label => ("kind", Named.name form) :: valued "label" label
  | .reDim preserve _ => flagged "preserve" preserve
  | .compoundAssignment op _ _ => [("operator", Named.name op)]
  | .loopEnd condition => LoopCondition.facts condition
  | .doBlock condition _ _ => LoopCondition.facts condition
  | _ => []

def Decl.facts : Decl → List (String × String)
  | .endBlock block => [("block", Named.name block)]
  | .directive line => [("option", line.text)]
  | .method _ _ operator _ _ _ => valued "operator" (operator.map Named.name)
  | .external _ _ charset library entryName =>
    [("charset", Named.name charset), ("lib", library)] ++ valued "alias" entryName
  | _ => []

def Payload.facts : Payload → List (String × String)
  | .name value => value.facts
  | .type value => value.facts
  | .modifier value => [("modifier", Named.name value)]
  | .comment value => flagged "isRem" value.isRem
  | .expr value => value.facts
  | .stmt value => value.facts
  | .decl value => value.facts
  | .caseClause (.comparison op _) => valued "operator" (op.map Named.name)
  | .declarator value => flagged "isNew" value.isNew
  | _ => []

/-- Only comments have text of their own. -/
def Payload.text? : Payload → Option String
  | .comment value => some value.text
  | _ => none

/-! ## Elements -/

namespace Forest

variable (f : Forest)

/-- The element of a node and of all nodes below it. -/
def element (positions : Bool) (id : Nat) : Text.Element :=
  let own := ((f.payload? id).map Payload.facts).getD []
  let place := if positions then placeFacts (f.span id) else []
  .mk (f.kind id).text (place ++ own) ((f.payload? id).bind Payload.text?)
    ((f.children id).attach.map fun ⟨c, _⟩ => element positions c)
termination_by id
decreasing_by exact lt_of_mem_children (by assumption)

/-- Whether every line of a dump is indented by less than 2^63 spaces, the most that a text holds. -/
def canDump (options : DumpOptions) (id : Nat) : Bool :=
  decide ((f.element options.positions id).height * options.indent < 9223372036854775808)

def dump (options : DumpOptions) (id : Nat) : String :=
  (f.element options.positions id).render options.indent 0

end Forest

end StructuredBasic.Syntax
