import StructuredBasic.Lowering.Methods

/-!
# Lowering the members of types

One declaration may bring several members: a list of fields brings one for each name. Types nest,
and a nested type has a smaller number than the type around it.
-/

set_option autoImplicit false

namespace StructuredBasic.Lowering

open Syntax

/-- The kind of type that a declaration makes. -/
def typeKind? : Kind → Option Target.TypeKind
  | .classDeclaration => some .classType
  | .moduleDeclaration => some .moduleType
  | .structureDeclaration => some .structType
  | _ => none

namespace Env

variable (env : Env)

/-! ## Fields -/

/-- The field of a declared variable, which has no comments yet. A constant needs a value. -/
def lowerField (modifiers : List Modifier) (inModule : Bool) (declarator : Nat)
    (v : DeclaredVariable) : Result Target.Field :=
  if modifiers.contains .constant && v.init.isNone then env.unsupported declarator
  else .ok {
    name := v.name
    type := v.type
    visibility := visibility modifiers .privateAccess
    isStatic := inModule || modifiers.contains .shared
    isConst := modifiers.contains .constant
    isReadonly := modifiers.contains .readOnly
    init := v.init
    comments := [] }

/-- The comments of a list of fields stand on its first field. -/
def commentFirst (comments : List String) : List Target.Field → List Target.Field
  | [] => []
  | field :: fields => { field with comments := comments } :: fields

def lowerFields (id : Nat) (header : Header) (declarators : Nat) (inModule : Bool) :
    Result (List Target.Field) := do
  let modifiers := env.modifiers header.modifiers
  let lists ← (env.forest.elements (some declarators)).mapM fun declarator => do
    let declared ← env.declaredVariables declarator
    declared.mapM (env.lowerField modifiers inModule declarator)
  return commentFirst (env.comments id) lists.flatten

/-! ## Enumerations -/

/-- The member of an enumeration that a declaration makes, if it makes one. -/
def lowerEnumMember (id : Nat) : Result (Option Target.EnumMember) :=
  match env.forest.decl? id with
  | some (.enumValue _ name value) => do
    let value ← match value with
      | some value => some <$> env.lowerExpr value
      | none => pure none
    let name ← env.nameText name
    return some ⟨name, value⟩
  | some .empty => .ok none
  | some (.endBlock _) => .ok none
  | _ => env.unsupported id

def lowerEnum (header : Header) (name : Nat) (underlying members : Option Nat) :
    Result Target.Enumeration := do
  let modifiers := env.modifiers header.modifiers
  let name ← env.nameText name
  let underlying ← env.lowerOptionalType underlying
  let members ← (env.forest.elements members).mapM env.lowerEnumMember
  return ⟨name, visibility modifiers .publicAccess, underlying, members.filterMap fun member => member⟩

/-! ## Types -/

/-- What one declaration adds to a type. -/
inductive Addition where
  | bases (types : List Target.Ty)
  | members (members : List Target.Member)

/-- The base types among additions. -/
def baseTypes : List Addition → List Target.Ty
  | [] => []
  | .bases types :: rest => types ++ baseTypes rest
  | .members _ :: rest => baseTypes rest

/-- The members among additions. -/
def memberList : List Addition → List Target.Member
  | [] => []
  | .bases _ :: rest => memberList rest
  | .members members :: rest => members ++ memberList rest

set_option linter.unusedVariables false in
mutual

/-- A class, a module or a structure with its members. -/
def lowerTypeBlock (id : Nat) : Result Target.TypeDecl :=
  match typeKind? (env.forest.kind id), h : env.forest.decl? id with
  | some kind, some (.typeBlock header name typeParameters declarations _) => do
    let name ← env.nameText name
    let typeParameters ← env.typeParameters typeParameters
    let additions ← (env.forest.elements declarations).attach.mapM fun ⟨member, hm⟩ =>
      match env.forest.decl? member with
      | some (.typeList types) =>
        return .bases (← (env.forest.elements (some types)).mapM env.lowerType)
      | _ => return .members (← lowerMembers member name (kind = .moduleType))
    return {
      name := name
      kind := kind
      visibility := visibility (env.modifiers header.modifiers) .publicAccess
      typeParameters := typeParameters
      baseTypes := baseTypes additions
      members := memberList additions
      comments := env.comments id }
  | _, _ => env.unsupported id
termination_by 2 * id
decreasing_by
  cases declarations with
  | none => simp [Forest.elements] at hm
  | some c =>
    have hc := Forest.lt_of_decl h (c := c) (by simp [Decl.slots, Slot.members, Slot.opt])
    have hlt := Forest.lt_of_mem_elements hm
    omega

/-- The members that one declaration brings to the type `owner`. -/
def lowerMembers (id : Nat) (owner : String) (inModule : Bool) : Result (List Target.Member) :=
  match env.forest.decl? id with
  | some .empty => .ok []
  | some (.endBlock _) => .ok []
  | some (.variableList header declarators) =>
    return (← env.lowerFields id header declarators inModule).map Target.Member.field
  | some (.method header signature _ _ statements _) =>
    return [.method (← env.lowerMethod id header signature statements owner inModule)]
  | some (.external header signature charset library entryName) =>
    return [.method (← env.lowerExternal id header signature ⟨library, entryName, Named.name charset⟩)]
  | some (.property header signature _ accessors _) =>
    return [.property (← env.lowerProperty id header signature accessors inModule)]
  | some (.enumBlock header name underlying members _) =>
    return [.enumeration (← env.lowerEnum header name underlying members)]
  | some (.typeBlock ..) => return [.type (← lowerTypeBlock id)]
  | _ => env.unsupported id
termination_by 2 * id + 1

end

end Env

end StructuredBasic.Lowering
