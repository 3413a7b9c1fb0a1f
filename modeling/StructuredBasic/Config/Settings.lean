import StructuredBasic.Config.Document
import StructuredBasic.Lowering.Env

/-!
# Settings from a configuration document

A document has two sections, `output` and `lowering`. Every key is optional and no other key is
known. A section may also be given as an array of its values in the order of their keys.
-/

set_option autoImplicit false

namespace StructuredBasic.Config

open Lowering (Settings)

inductive ConfigError where
  /-- A file that cannot be read. -/
  | unreadable (path : String)
  /-- Text that is no document, or a document with other keys or values than it may have. -/
  | invalid
  /-- A lower bound of arrays other than 0 and 1. -/
  | invalidBase (base : Nat)
deriving DecidableEq

def ConfigError.message : ConfigError → String
  | .unreadable path => "cannot read " ++ path
  | .invalid => "invalid configuration"
  | .invalidBase base => "option-base must be 0 or 1, found " ++ toString base

/-! ## Values of keys -/

def asString : Value → Option String
  | .string text => some text
  | _ => none

def asBool : Value → Option Bool
  | .boolean value => some value
  | _ => none

/-- A number of eight bits. -/
def asByte : Value → Option Nat
  | .integer value => if 0 ≤ value ∧ value < 256 then some value.toNat else none
  | _ => none

def compareMode? : String → Option Target.CompareMode
  | "binary" => some .binary
  | "text" => some .text
  | _ => none

/-- Whether a value holds nothing. -/
def isEmptyValue : Value → Bool
  | .array elements => elements.isEmpty
  | .table _ entries => entries.isEmpty
  | _ => false

/-- A way of comparing: its name, or a table with the name as its only key and nothing in it. -/
def asCompare : Value → Option Target.CompareMode
  | .string text => compareMode? text
  | .table _ [(key, inner)] => if isEmptyValue inner then compareMode? key else none
  | _ => none

/-! ## Sections -/

/-- The entries of a section with the given keys. -/
def section? (keys : List String) : Value → Option Entries
  | .table _ entries => if entries.all fun (key, _) => keys.contains key then some entries else none
  | .array elements => some (keys.zip elements)
  | .tables elements => some (keys.zip (elements.map (Value.table .header)))
  | _ => none

/-- The value of a key, or what holds without it. -/
def field {α : Type} (entries : Entries) (key : String) (decode : Value → Option α)
    (otherwise : α) : Option α :=
  match entries.find? key with
  | some value => decode value
  | none => some otherwise

/-- Settings with the values of the `output` section. -/
def withOutput (settings : Settings) (value : Value) : Option Settings := do
  let entries ← section? ["class-name", "namespace"] value
  let className ← field entries "class-name" asString settings.className
  let nameSpace ← field entries "namespace" (fun v => (asString v).map some) settings.nameSpace
  return { settings with className := className, nameSpace := nameSpace }

/-- Settings with the values of the `lowering` section. -/
def withLowering (settings : Settings) (value : Value) : Option Settings := do
  let entries ← section? ["option-compare", "option-base", "emit-comments"] value
  let compare ← field entries "option-compare" asCompare settings.compare
  let base ← field entries "option-base" asByte settings.base
  let emitComments ← field entries "emit-comments" asBool settings.emitComments
  return { settings with compare := compare, base := base, emitComments := emitComments }

/-- The settings of a document. -/
def settings? (entries : Entries) : Option Settings := do
  let entries ← section? ["output", "lowering"] (.table .header entries)
  let settings ← field entries "output" (withOutput Settings.standard) Settings.standard
  field entries "lowering" (withLowering settings) settings

/-- Reads settings from the text of a document. -/
def readSettings (source : String) : Except ConfigError Settings :=
  match (parse source).bind settings? with
  | none => .error .invalid
  | some settings =>
    if settings.base ≤ 1 then .ok settings else .error (.invalidBase settings.base)

end StructuredBasic.Config
