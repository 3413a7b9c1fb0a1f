import StructuredBasic.Lowering.Members

/-!
# Lowering a file

The declarations of a file are taken in order. A directive holds for what follows it. A file whose
only declaration besides directives is a class, a module or a structure becomes that type; the
declarations of any other file become members of a module that is named by the settings.
-/

set_option autoImplicit false

namespace StructuredBasic.Lowering

open Syntax

/-- Options after one more directive. -/
def applyDirective (options : Target.SourceOptions) : Directive → Target.SourceOptions
  | .explicit on => { options with explicit := some on }
  | .strict on => { options with strict := some on }
  | .compareText => { options with compare := .text }
  | .compareBinary => { options with compare := .binary }
  | .base lower => { options with base := lower }

/-- The options of a file before its first directive. -/
def Settings.options (settings : Settings) : Target.SourceOptions where
  explicit := none
  strict := none
  compare := settings.compare
  base := settings.base

/-- The surroundings of a declaration of a file. -/
def Env.atTop (forest : Forest) (settings : Settings) (options : Target.SourceOptions) : Env where
  forest := forest
  compare := options.compare
  base := options.base
  emitComments := settings.emitComments
  subjects := []

/-- Declarations that add no member to the file. -/
def isDirective : Option Decl → Bool
  | some (.directive _) => true
  | some (.imports _) => true
  | some .empty => true
  | some (.endBlock _) => true
  | _ => false

/-- The one type that a file consists of. -/
def soleType? (forest : Forest) (declarations : List Nat) : Option Nat :=
  match declarations.filter fun id => !isDirective (forest.decl? id) with
  | [id] => if (typeKind? (forest.kind id)).isSome then some id else none
  | _ => none

/-- The import that a clause asks for. -/
def Env.lowerImport (env : Env) (clause : Nat) : Result Target.Import :=
  match env.forest.payload? clause with
  | some (.importClause (.name target)) => return ⟨none, ← env.qualifiedText target⟩
  | some (.importClause (.renamed short target)) => do
    let short ← env.nameText short
    return ⟨some short, ← env.qualifiedText target⟩
  | _ => env.unsupported clause

/-- What the declarations seen so far have given. -/
structure FileState where
  options : Target.SourceOptions
  imports : List Target.Import
  /-- The type that the file consists of. -/
  type : Option Target.TypeDecl
  /-- Members of the module around the declarations. -/
  members : List Target.Member

/-- Takes in one declaration. -/
def lowerDeclaration (forest : Forest) (settings : Settings) (sole : Option Nat)
    (state : FileState) (id : Nat) : Result FileState :=
  let env := Env.atTop forest settings state.options
  match forest.decl? id with
  | some (.directive directive) =>
    .ok { state with options := applyDirective state.options directive }
  | some (.imports clauses) => do
    let imports ← (forest.elements (some clauses)).mapM env.lowerImport
    return { state with imports := imports.foldl Target.insertNew state.imports }
  | some .empty => .ok state
  | some (.endBlock _) => .ok state
  | _ =>
    if sole = some id then do
      let type ← env.lowerTypeBlock id
      return { state with type := some type }
    else do
      let members ← env.lowerMembers id settings.className true
      return { state with members := state.members ++ members }

/-- The module around the declarations of a file. -/
def wrapper (settings : Settings) (members : List Target.Member) : Target.TypeDecl :=
  { Target.TypeDecl.ofName settings.className .moduleType with members := members }

/-- The program of the declarations of a file. -/
def lowerDeclarations (forest : Forest) (settings : Settings) (declarations : List Nat) :
    Result Target.Program := do
  let start : FileState := ⟨settings.options, [], none, []⟩
  let sole := soleType? forest declarations
  let state ← declarations.foldlM (lowerDeclaration forest settings sole) start
  return {
    nameSpace := settings.nameSpace
    imports := state.imports
    options := state.options
    type := state.type.getD (wrapper settings state.members) }

/-- The first node that holds unparsed text. -/
def badNode? (forest : Forest) : Option Nat :=
  forest.ids.find? fun id => (forest.kind id).isBad

/-- Lowers a file, which must be free of unparsed text. -/
def lowerFile (tree : Tree) (settings : Settings) : Result Target.Program :=
  match badNode? tree.toForest with
  | some id => .error (.badNode (tree.span id))
  | none =>
    match tree.payload? tree.root with
    | some (.file file) =>
      lowerDeclarations tree.toForest settings (tree.elements file.declarations)
    | _ => .error (.malformed (.rootNotFile (tree.kind tree.root)))

end StructuredBasic.Lowering
