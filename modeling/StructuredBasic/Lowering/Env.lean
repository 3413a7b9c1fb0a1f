import StructuredBasic.Lowering.Error
import StructuredBasic.Target.Program

/-!
# What lowering depends on

The settings of a pass and the surroundings of a node: the directives in effect, and the subjects
of the `With` blocks around it.
-/

set_option autoImplicit false

namespace StructuredBasic.Lowering

open Syntax

/-- What the caller decides. -/
structure Settings where
  /-- The name of the type around a file that is not a single type. -/
  className : String
  nameSpace : Option String
  compare : Target.CompareMode
  base : Nat
  emitComments : Bool
deriving DecidableEq

def Settings.standard : Settings where
  className := "Module1"
  nameSpace := none
  compare := .binary
  base := 0
  emitComments := true

/-- The surroundings of a node. -/
structure Env where
  forest : Forest
  compare : Target.CompareMode
  base : Nat
  emitComments : Bool
  /-- Lowered subjects of the `With` blocks around the node, innermost first. -/
  subjects : List Target.Expr

namespace Env

variable (env : Env)

def unsupported {α : Type} (id : Nat) : Result α :=
  .error (Lowering.unsupported env.forest id)

/-- The identifier of a name-like node. -/
def nameText (id : Nat) : Result String :=
  match env.forest.nameText? id with
  | some text => .ok text
  | none => env.unsupported id

/-- The texts of the comments attached to a node, if comments are kept. -/
def comments (id : Nat) : List String :=
  if env.emitComments then
    (env.forest.comments id).filterMap fun comment =>
      match env.forest.payload? comment with
      | some (.comment value) => some value.text
      | _ => none
  else []

/-- The surroundings of the statements of a `With` block. -/
def within (subject : Target.Expr) : Env := { env with subjects := subject :: env.subjects }

/-- The modifiers of a list of modifiers. -/
def modifiers (collection : Option Nat) : List Modifier :=
  (env.forest.elements collection).filterMap fun id =>
    match env.forest.payload? id with
    | some (.modifier value) => some value
    | _ => none

end Env

/-- The visibility that modifiers state. `Public` goes before everything else, and `Protected`
together with `Friend` is a visibility of its own. -/
def visibility (modifiers : List Modifier) (otherwise : Target.Visibility) : Target.Visibility :=
  if modifiers.contains .publicAccess then .publicAccess
  else if modifiers.contains .protectedAccess then
    if modifiers.contains .friendAccess then .protectedInternal else .protectedAccess
  else if modifiers.contains .friendAccess then .internalAccess
  else if modifiers.contains .privateAccess then .privateAccess
  else otherwise

end StructuredBasic.Lowering
