import StructuredBasic.Sketch.Code

/-!
# Sketches of declarations and files
-/

set_option autoImplicit false

namespace StructuredBasic.Sketch

open Syntax

/-- A declaration without attributes and modifiers. -/
def bareHeader : Header := ⟨none, none⟩

def endDeclaration (block : Block) : Sketch Nat :=
  node .endBlockDeclaration (.decl (.endBlock block))

/-- A routine without parameters. -/
def method (kind : Kind) (text : String) (resultType : Option Nat) (statements : List Nat)
    (block : Block) : Sketch Nat := do
  let name ← simpleName text
  let statements ← body statements
  let tail ← endDeclaration block
  let signature := { Signature.ofName name with resultType := resultType }
  node kind (.decl (.method bareHeader signature none none statements (some tail)))

def sub (text : String) (statements : List Nat) : Sketch Nat :=
  method .subDeclaration text none statements .subroutine

def function (text : String) (result : Option Intrinsic) (statements : List Nat) : Sketch Nat := do
  let resultType ← result.mapM intrinsic
  method .functionDeclaration text resultType statements .function

/-- A property with a getter. -/
def property (text : String) (result : Intrinsic) (getter : List Nat) : Sketch Nat := do
  let name ← simpleName text
  let resultType ← intrinsic result
  let statements ← body getter
  let tail ← endDeclaration .getter
  let accessor ←
    node .getAccessorDeclaration (.decl (.accessor bareHeader none statements (some tail)))
  let accessors ← list .declarationCollection [accessor]
  let tail ← endDeclaration .property
  let signature := { Signature.ofName name with resultType := some resultType }
  node .propertyDeclaration
    (.decl (.property bareHeader signature none (some accessors) (some tail)))

def moduleBlock (text : String) (members : List Nat) : Sketch Nat := do
  let name ← simpleName text
  let declarations ← optionalList .declarationCollection members
  let tail ← endDeclaration .moduleType
  node .moduleDeclaration
    (.decl (.typeBlock bareHeader name none declarations (some tail)))

def directive (value : Directive) : Sketch Nat :=
  node .optionDeclaration (.decl (.directive value))

/-! ## Finished trees -/

/-- The tree under a node that nothing has adopted. -/
def finishAt (root : Nat) : Sketch Tree := do
  match (← get).forest.finish root with
  | .ok tree => return tree
  | .error fault => throw fault

/-- The tree of a file with the given declarations. -/
def finish (declarations : List Nat) : Sketch Tree := do
  let declarations ← optionalList .declarationCollection declarations
  let root ← node .file (.file ⟨declarations⟩)
  finishAt root

/-- The start of every sketch. -/
def blank : Draft := ⟨Forest.empty, 0⟩

end StructuredBasic.Sketch
