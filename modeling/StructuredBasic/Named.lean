/-!
# Closed vocabularies

A vocabulary is a finite type whose members are known by name: operators, block keywords, node
kinds. The name is what a request spells and what a serialized program carries.
-/

set_option autoImplicit false

namespace StructuredBasic

/-- A finite type listed in full, each member with its name. -/
class Named (α : Type) where
  all : List α
  name : α → String

/-- The member called `text`, if there is one. -/
def Named.find? (α : Type) [Named α] (text : String) : Option α :=
  (Named.all : List α).find? fun member => Named.name member == text

end StructuredBasic
