/-!
# Fresh names

Locals made up by the lowering must not meet the names of the source, which does not tell upper
from lower case. The names in use are kept in lower case; a new one is its base, or the base with
the least number that makes it new.
-/

set_option autoImplicit false

namespace StructuredBasic.Lowering

/-- The `k`-th candidate for a name: the base itself, then the base followed by 1, 2, … -/
def candidate (base : String) : Nat → String
  | 0 => base
  | k + 1 => base ++ toString (k + 1)

/-- Whether a name is in use, whatever its case. -/
def isTaken (taken : List String) (name : String) : Bool := taken.contains name.toLower

/-- The first free candidate from the `k`-th on. Among `tries + 1` candidates one is free as soon
as `tries` names are in use, because candidates differ from one another. -/
def firstFree (taken : List String) (base : String) (k : Nat) : Nat → String
  | 0 => candidate base k
  | tries + 1 =>
    if isTaken taken (candidate base k) then firstFree taken base (k + 1) tries
    else candidate base k

/-- A name that is not in use, and the names in use with it. -/
def fresh (taken : List String) (base : String) : String × List String :=
  let name := firstFree taken base 0 taken.length
  (name, name.toLower :: taken)

end StructuredBasic.Lowering
