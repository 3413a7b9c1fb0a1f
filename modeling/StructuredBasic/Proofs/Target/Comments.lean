import StructuredBasic.Target.Program

/-!
# Programs and their comments

`Program.uncommented` takes the comments out of a program: the comment statements at every depth,
and the comments of types and members. `Program.commentTexts` lists them.
-/

set_option autoImplicit false

namespace StructuredBasic.Target

/-! ## Code without its comments -/

namespace Stmt

mutual

/-- The statement without the comments inside it; nothing is left of a comment. -/
def uncommented : Stmt → Option Stmt
  | .comment _ => none
  | .conditional condition thenBody elseBody =>
    some (.conditional condition (uncommentedAll thenBody) (uncommentedAll elseBody))
  | .iteration init test increment body =>
    some (.iteration (uncommentedOptional init) test (uncommentedOptional increment)
      (uncommentedAll body))
  | stmt => some stmt

def uncommentedOptional : Option Stmt → Option Stmt
  | none => none
  | some stmt => uncommented stmt

def uncommentedAll : List Stmt → List Stmt
  | [] => []
  | stmt :: rest => (uncommented stmt).toList ++ uncommentedAll rest

end

/-- Statements that are no comments and hold no other statements. -/
def isSimple : Stmt → Bool
  | .comment _ | .conditional .. | .iteration .. => false
  | _ => true

theorem uncommented_of_isSimple {stmt : Stmt} (h : stmt.isSimple = true) :
    uncommented stmt = some stmt := by
  cases stmt <;> first
    | rfl
    | cases h

theorem uncommentedAll_append (a b : List Stmt) :
    uncommentedAll (a ++ b) = uncommentedAll a ++ uncommentedAll b := by
  induction a with
  | nil => rfl
  | cons stmt a ih => rw [List.cons_append, uncommentedAll, uncommentedAll, ih, List.append_assoc]

theorem uncommentedAll_flatten (lists : List (List Stmt)) :
    uncommentedAll lists.flatten = (lists.map uncommentedAll).flatten := by
  induction lists with
  | nil => rfl
  | cons list lists ih =>
    rw [List.flatten_cons, uncommentedAll_append, ih, List.map_cons, List.flatten_cons]

theorem uncommentedAll_of_isSimple {stmts : List Stmt} (h : ∀ stmt ∈ stmts, isSimple stmt = true) :
    uncommentedAll stmts = stmts := by
  induction stmts with
  | nil => rfl
  | cons stmt stmts ih =>
    obtain ⟨hstmt, hstmts⟩ := List.forall_mem_cons.1 h
    rw [uncommentedAll, uncommented_of_isSimple hstmt, ih hstmts]
    rfl

theorem uncommentedAll_comments (texts : List String) :
    uncommentedAll (texts.map Stmt.comment) = [] := by
  induction texts with
  | nil => rfl
  | cons text texts ih => rw [List.map_cons, uncommentedAll, ih]; rfl

end Stmt

/-! ## Programs without their comments -/

def Field.uncommented (field : Field) : Field := { field with comments := [] }

def Method.uncommented (method : Method) : Method :=
  { method with body := Stmt.uncommentedAll method.body, comments := [] }

def Property.uncommented (property : Property) : Property :=
  { property with
    getter := property.getter.map Stmt.uncommentedAll
    setter := property.setter.map Stmt.uncommentedAll
    comments := [] }

mutual

def Member.uncommented : Member → Member
  | .field value => .field value.uncommented
  | .method value => .method value.uncommented
  | .property value => .property value.uncommented
  | .type ⟨name, kind, visibility, typeParameters, baseTypes, members, _⟩ =>
    .type ⟨name, kind, visibility, typeParameters, baseTypes, Member.uncommentedAll members, []⟩
  | .enumeration value => .enumeration value

def Member.uncommentedAll : List Member → List Member
  | [] => []
  | member :: rest => Member.uncommented member :: Member.uncommentedAll rest

end

theorem Member.uncommentedAll_eq_map (members : List Member) :
    Member.uncommentedAll members = members.map Member.uncommented := by
  induction members with
  | nil => rfl
  | cons member members ih => rw [Member.uncommentedAll, ih, List.map_cons]

def TypeDecl.uncommented (type : TypeDecl) : TypeDecl :=
  { type with members := type.members.map Member.uncommented, comments := [] }

def Program.uncommented (program : Program) : Program :=
  { program with type := TypeDecl.uncommented program.type }

theorem Member.uncommented_type (type : TypeDecl) :
    Member.uncommented (.type type) = .type (TypeDecl.uncommented type) := by
  rw [Member.uncommented, Member.uncommentedAll_eq_map, TypeDecl.uncommented]

/-! ## The comments of code -/

namespace Stmt

mutual

/-- The texts of the comments in a statement, in the order of its text. -/
def commentTexts : Stmt → List String
  | .comment text => [text]
  | .conditional _ thenBody elseBody => commentTextsAll thenBody ++ commentTextsAll elseBody
  | .iteration init _ increment body =>
    commentTextsOptional init ++ commentTextsOptional increment ++ commentTextsAll body
  | _ => []

def commentTextsOptional : Option Stmt → List String
  | none => []
  | some stmt => commentTexts stmt

def commentTextsAll : List Stmt → List String
  | [] => []
  | stmt :: rest => commentTexts stmt ++ commentTextsAll rest

end

theorem commentTextsAll_append (a b : List Stmt) :
    commentTextsAll (a ++ b) = commentTextsAll a ++ commentTextsAll b := by
  induction a with
  | nil => rfl
  | cons stmt a ih => rw [List.cons_append, commentTextsAll, commentTextsAll, ih, List.append_assoc]

theorem commentTextsAll_of_isSimple {stmts : List Stmt}
    (h : ∀ stmt ∈ stmts, isSimple stmt = true) : commentTextsAll stmts = [] := by
  induction stmts with
  | nil => rfl
  | cons stmt stmts ih =>
    obtain ⟨hstmt, hstmts⟩ := List.forall_mem_cons.1 h
    rw [commentTextsAll, ih hstmts, List.append_nil]
    cases stmt <;> first
      | rfl
      | cases hstmt

theorem commentTextsAll_comments (texts : List String) :
    commentTextsAll (texts.map Stmt.comment) = texts := by
  induction texts with
  | nil => rfl
  | cons text texts ih => rw [List.map_cons, commentTextsAll, ih]; rfl

end Stmt

/-! ## The comments of programs -/

def Method.commentTexts (method : Method) : List String :=
  method.comments ++ Stmt.commentTextsAll method.body

def Property.commentTexts (property : Property) : List String :=
  property.comments ++ property.getter.elim [] Stmt.commentTextsAll ++
    property.setter.elim [] Stmt.commentTextsAll

mutual

def Member.commentTexts : Member → List String
  | .field value => value.comments
  | .method value => value.commentTexts
  | .property value => value.commentTexts
  | .type ⟨_, _, _, _, _, members, comments⟩ => comments ++ Member.commentTextsAll members
  | .enumeration _ => []

def Member.commentTextsAll : List Member → List String
  | [] => []
  | member :: rest => Member.commentTexts member ++ Member.commentTextsAll rest

end

theorem Member.commentTextsAll_eq_flatMap (members : List Member) :
    Member.commentTextsAll members = members.flatMap Member.commentTexts := by
  induction members with
  | nil => rfl
  | cons member members ih => rw [Member.commentTextsAll, ih, List.flatMap_cons]

def TypeDecl.commentTexts (type : TypeDecl) : List String :=
  type.comments ++ type.members.flatMap Member.commentTexts

/-- The texts of all comments of a program: comment statements at every depth, and the comments of
types and members. -/
def Program.commentTexts (program : Program) : List String := TypeDecl.commentTexts program.type

theorem Member.commentTexts_type (type : TypeDecl) :
    Member.commentTexts (.type type) = TypeDecl.commentTexts type := by
  rw [Member.commentTexts, Member.commentTextsAll_eq_flatMap, TypeDecl.commentTexts]

end StructuredBasic.Target
