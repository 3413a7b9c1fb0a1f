/-!
# Source positions

A location is a 1-based line and column, `0:0` standing for "unknown". A span starts at a
location and may know the first location beyond the construct.
-/

set_option autoImplicit false

namespace StructuredBasic

/-! ## Locations -/

structure Location where
  line : Nat
  column : Nat
deriving DecidableEq

namespace Location

/-- The position of text whose place is not known. -/
def unknown : Location := ⟨0, 0⟩

/-- A valid location points into real text: neither part is zero. -/
def isValid (l : Location) : Bool := l.line != 0 && l.column != 0

/-- Reading order: by line, then by column. -/
instance : LT Location where
  lt a b := a.line < b.line ∨ a.line = b.line ∧ a.column < b.column

instance : LE Location where
  le a b := a.line < b.line ∨ a.line = b.line ∧ a.column ≤ b.column

instance (a b : Location) : Decidable (a < b) :=
  inferInstanceAs (Decidable (a.line < b.line ∨ a.line = b.line ∧ a.column < b.column))

instance (a b : Location) : Decidable (a ≤ b) :=
  inferInstanceAs (Decidable (a.line < b.line ∨ a.line = b.line ∧ a.column ≤ b.column))

/-- The one of two locations that comes last. -/
def later (a b : Location) : Location := if b < a then a else b

def text (l : Location) : String := toString l.line ++ ":" ++ toString l.column

end Location

/-! ## Spans -/

structure Span where
  start : Location
  finish : Option Location
deriving DecidableEq

/-- The two ends of a span that would finish before it starts. -/
structure SpanError where
  start : Location
  finish : Location
deriving DecidableEq

def SpanError.message (e : SpanError) : String :=
  "span finish " ++ e.finish.text ++ " precedes start " ++ e.start.text

namespace Span

/-- The span of a construct whose place is not known. -/
def unknown : Span := ⟨.unknown, none⟩

/-- A span with a start and no known finish. -/
def startingAt (start : Location) : Span := ⟨start, none⟩

/-- The span from `start` up to `finish`, refused when both are valid and in the wrong order. -/
def between (start finish : Location) : Except SpanError Span :=
  if start.isValid && finish.isValid && decide (finish < start) then
    .error ⟨start, finish⟩
  else
    .ok ⟨start, some finish⟩

def isValid (s : Span) : Bool := s.start.isValid

/-- Membership. An absent or invalid finish leaves the span open to the end of the text. -/
def contains (s : Span) (l : Location) : Bool :=
  match s.finish with
  | some finish =>
    if finish.isValid then decide (s.start ≤ l) && decide (l < finish) else decide (s.start ≤ l)
  | none => decide (s.start ≤ l)

/-- The start of a merged span: the earlier valid one. -/
def mergeStart (a b : Location) : Location :=
  if b.isValid && (!a.isValid || decide (b < a)) then b else a

/-- The finish of a merged span: the later of those that are known. -/
def mergeFinish : Option Location → Option Location → Option Location
  | some a, some b => some (a.later b)
  | some a, none => some a
  | none, b => b

/-- The span that covers both operands. -/
def merge (a b : Span) : Span :=
  ⟨mergeStart a.start b.start, mergeFinish a.finish b.finish⟩

def text (s : Span) : String :=
  match s.finish with
  | some finish => s.start.text ++ "-" ++ finish.text
  | none => s.start.text

end Span

end StructuredBasic
