import StructuredBasic.Config.Settings
import StructuredBasic.Lowering.File
import StructuredBasic.Syntax.Diagnostic
import StructuredBasic.Target.Encode
import StructuredBasic.Target.Print

/-!
# From a parsed file to a written program

A file with parse errors is not lowered. Reading the configuration, lowering and writing may fail,
in this order; the failure says which of them it was and why.
-/

set_option autoImplicit false

namespace StructuredBasic

open Config (ConfigError)
open Lowering (LowerError Settings)
open Syntax (ParsedFile)

/-- Why a parsed file has no program. -/
inductive TranspileError where
  | parseErrors (file : String) (count : Nat)
  | lowering (reason : LowerError)

def TranspileError.message : TranspileError → String
  | .parseErrors file count =>
    file ++ " has " ++ toString count ++ " parse error(s); refusing to lower"
  | .lowering reason => reason.message

/-- Lowers a file that has no parse errors. -/
def transpile (file : ParsedFile) (settings : Settings) : Except TranspileError Target.Program :=
  if file.errorCount = 0 then
    match Lowering.lowerFile file.tree settings with
    | .ok program => .ok program
    | .error reason => .error (.lowering reason)
  else .error (.parseErrors file.name file.errorCount)

/-- How a program is written. -/
inductive Format where
  | json
  | pretty
deriving DecidableEq

def render (program : Target.Program) : Format → String
  | .json => program.json
  | .pretty => program.text

/-! ## Files -/

/-- A configuration file: none asked for, one that cannot be read, or its text. -/
inductive ConfigFile where
  | absent
  | missing (path : String)
  | contents (path source : String)

/-- A place for output: a file that can be written, or one that cannot. -/
inductive Destination where
  | writable (path : String)
  | unwritable (path : String)

/-- The step that failed, with its reason. -/
inductive Failure where
  | configuration (path : String) (reason : ConfigError)
  | lowering (file : String) (reason : TranspileError)
  | output (path : String)

def Failure.message : Failure → String
  | .configuration path _ => "failed to load configuration " ++ path
  | .lowering file _ => "failed to lower " ++ file
  | .output path => "failed to write " ++ path

/-- The reason behind a failure. -/
def Failure.reason : Failure → String
  | .configuration _ reason => reason.message
  | .lowering _ reason => reason.message
  | .output _ => "cannot write output"

/-- The settings that a configuration file asks for. -/
def ConfigFile.settings : ConfigFile → Except Failure Settings
  | .absent => .ok Settings.standard
  | .missing path => .error (.configuration path (.unreadable path))
  | .contents path source =>
    match Config.readSettings source with
    | .ok settings => .ok settings
    | .error reason => .error (.configuration path reason)

/-- The text to write for a parsed file, when every step succeeds. -/
def transpileTo (file : ParsedFile) (config : ConfigFile) (format : Format)
    (destination : Destination) : Except Failure String := do
  let settings ← config.settings
  match transpile file settings with
  | .error reason => throw (.lowering file.name reason)
  | .ok program =>
    match destination with
    | .writable _ => return render program format
    | .unwritable path => throw (.output path)

end StructuredBasic
