import StructuredBasic.Syntax.Forest

/-!
# Parsed files

A tree together with what the parser had to say about it.
-/

set_option autoImplicit false

namespace StructuredBasic.Syntax

/-- How bad a diagnostic is. Errors stand in the way of lowering. -/
inductive Severity where
  | error | warning
deriving DecidableEq

instance : Named Severity where
  all := [.error, .warning]
  name
    | .error => "Error"
    | .warning => "Warning"

def Severity.text : Severity → String
  | .error => "error"
  | .warning => "warning"

structure Diagnostic where
  severity : Severity
  message : String
  span : Span

def Diagnostic.text (d : Diagnostic) : String :=
  d.span.text ++ ": " ++ d.severity.text ++ ": " ++ d.message

structure ParsedFile where
  name : String
  tree : Tree
  diagnostics : List Diagnostic

def ParsedFile.errorCount (p : ParsedFile) : Nat :=
  (p.diagnostics.filter fun d => d.severity == .error).length

end StructuredBasic.Syntax
