import StructuredBasic.Lowering.Error
import StructuredBasic.Target.Code

/-!
# Loops

Every loop becomes one iteration, which tests before each pass. A loop that tests after its body
carries a latch: a truth value that starts as true and is computed anew at the end of each pass.
-/

set_option autoImplicit false

namespace StructuredBasic.Lowering

open Target

/-- A loop that tests before each pass. -/
def preTestLoop (test : Expr) (body : List Stmt) : Stmt := .iteration none test none body

/-- A loop that only a jump ends. -/
def endlessLoop (body : List Stmt) : Stmt := preTestLoop (.bool true) body

/-- A loop that tests after each pass. -/
def postTestLoop (latch : String) (test : Expr) (body : List Stmt) : Stmt :=
  .iteration (some (.declare latch (.primitive .bool) (some (.bool true)))) (.ident latch) none
    (body ++ [.assign (.ident latch) test])

/-- A loop that counts `control` from `lower` up to `upper`. -/
def countedLoop (control lower upper step : Expr) (body : List Stmt) : Stmt :=
  .iteration (some (.assign control lower)) (.binary .lessEqual control upper)
    (some (.assign control (.binary .add control step))) body

/-- A loop over the elements of a collection, each cast to the type of the control variable. -/
def elementLoop (enumerator : String) (control collection : Expr) (type : Ty) (body : List Stmt) :
    Stmt :=
  .iteration
    (some (.declare enumerator (.named "System.Collections.IEnumerator")
      (some (.invoke (some collection) "GetEnumerator" []))))
    (.invoke (some (.ident enumerator)) "MoveNext" []) none
    (.assign control (.cast .convert type (.field (.ident enumerator) "Current")) :: body)

/-- The test of a `While` or, negated, of an `Until`. -/
def loopTest (isWhile : Bool) (test : Expr) : Expr :=
  if isWhile then test else .unary .not test

end StructuredBasic.Lowering
