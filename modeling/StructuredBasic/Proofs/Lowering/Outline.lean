import StructuredBasic.Proofs.Forest.Accepted
import StructuredBasic.Proofs.Lowering.Independence
import StructuredBasic.Proofs.Lowering.Locals

/-!
# The members of a lowered file

An `Outline` is what a member is, its name and, for a type, the outlines of its members.
`declaredMembers` reads off the source what each declaration declares, and `Target.Member.outline`
what there is in a program. The two agree member by member, in however deep a type
(`outline_lowerFile`): none is lost, doubled or moved.
-/

set_option autoImplicit false

namespace StructuredBasic

/-- A member by what it is and its name, which is missing where the source has no text for it. -/
inductive Outline where
  | field (name : Option String)
  | method (kind : Target.MethodKind) (name : Option String)
  | property (name : Option String)
  | enumeration (name : Option String) (members : List (Option String))
  | type (name : Option String) (members : List Outline)

namespace Target

mutual

def Member.outline : Member → Outline
  | .field value => .field (some value.name)
  | .method value => .method value.kind (some value.name)
  | .property value => .property (some value.name)
  | .enumeration value => .enumeration (some value.name) (value.members.map fun m => some m.name)
  | .type ⟨name, _, _, _, _, members, _⟩ => .type (some name) (Member.outlines members)

def Member.outlines : List Member → List Outline
  | [] => []
  | member :: rest => Member.outline member :: Member.outlines rest

end

theorem Member.outlines_eq_map (members : List Member) :
    Member.outlines members = members.map Member.outline := by
  induction members with
  | nil => rfl
  | cons member members ih => rw [Member.outlines, ih, List.map_cons]

def TypeDecl.outline (type : TypeDecl) : Outline :=
  .type (some type.name) (type.members.map Member.outline)

theorem Member.outline_type (type : TypeDecl) :
    Member.outline (.type type) = TypeDecl.outline type := by
  rw [Member.outline, Member.outlines_eq_map, TypeDecl.outline]

end Target

namespace Lowering

open Syntax

/-! ## What declarations declare -/

/-- The fields of a declarator, one for each of its names. -/
def declaredFields (f : Forest) (declarator : Nat) : List Outline :=
  match f.declarator? declarator with
  | some d => (f.elements (some d.names)).map fun declared => .field (f.nameText? declared)
  | none => []

/-- The names that a line of an enumeration adds to it. -/
def declaredValues (f : Forest) (id : Nat) : List (Option String) :=
  match f.decl? id with
  | some (.enumValue _ name _) => [f.nameText? name]
  | _ => []

/-- A method has its own name, a constructor that of the type around it. -/
def declaredMethod (f : Forest) (owner : Option String) (id name : Nat) : Outline :=
  match f.kind id with
  | .constructorDeclaration => .method .constructor owner
  | _ => .method .normal (f.nameText? name)

set_option linter.unusedVariables false in
/-- The members that a declaration declares inside the type `owner`. -/
def declaredMembers (f : Forest) (owner : Option String) (id : Nat) : List Outline :=
  match h : f.decl? id with
  | some (.variableList _ declarators) =>
    (f.elements (some declarators)).flatMap (declaredFields f)
  | some (.method _ signature _ _ _ _) => [declaredMethod f owner id signature.name]
  | some (.external _ signature _ _ _) => [.method .normal (f.nameText? signature.name)]
  | some (.property _ signature _ _ _) => [.property (f.nameText? signature.name)]
  | some (.enumBlock _ name _ members _) =>
    [.enumeration (f.nameText? name) ((f.elements members).flatMap (declaredValues f))]
  | some (.typeBlock _ name _ declarations _) =>
    [.type (f.nameText? name) ((f.elements declarations).attach.flatMap fun ⟨member, _⟩ =>
      declaredMembers f (f.nameText? name) member)]
  | _ => []
termination_by id
decreasing_by exact lt_of_mem_members h ‹_›

/-- What a file declares: the one type block that it consists of, or else the module around its
declarations. -/
def declaredType (f : Forest) (className : String) (declarations : List Nat) : List Outline :=
  match soleBlock? f declarations with
  | some (id, _) => declaredMembers f none id
  | none => [.type (some className) (declarations.flatMap (declaredMembers f (some className)))]

section Declared

variable {f : Forest} {owner : Option String} {id : Nat}

theorem declared_of_decl {decl : Decl} :
    f.decl? id = some decl → declaredMembers f owner id = match decl with
      | .variableList _ declarators =>
        (f.elements (some declarators)).flatMap (declaredFields f)
      | .method _ signature _ _ _ _ => [declaredMethod f owner id signature.name]
      | .external _ signature _ _ _ => [.method .normal (f.nameText? signature.name)]
      | .property _ signature _ _ _ => [.property (f.nameText? signature.name)]
      | .enumBlock _ name _ members _ =>
        [.enumeration (f.nameText? name) ((f.elements members).flatMap (declaredValues f))]
      | .typeBlock _ name _ declarations _ =>
        [.type (f.nameText? name)
          ((f.elements declarations).flatMap (declaredMembers f (f.nameText? name)))]
      | _ => [] := by
  intro h
  rw [declaredMembers]
  split
  case h_6 hdecl =>
    cases h.symm.trans hdecl
    rw [List.flatMap_subtype fun _ _ => rfl, List.unattach_attach]
  case h_7 => cases decl <;> grind
  all_goals next hdecl => cases h.symm.trans hdecl; rfl

theorem declared_of_aside (h : Aside f id) : declaredMembers f owner id = [] := by
  cases h with
  | directive hdecl => rw [declared_of_decl hdecl]
  | imports hdecl => rw [declared_of_decl hdecl]
  | empty hdecl => rw [declared_of_decl hdecl]
  | endBlock hdecl => rw [declared_of_decl hdecl]

end Declared

/-! ## What lowering makes of them -/

section Members

variable {env : Env} {id : Nat} {owner : Option String}

theorem fields_declared {declarator : Nat} {vs : List DeclaredVariable}
    (h : env.declaredVariables declarator = .ok vs) :
    (vs.map fun v => Outline.field (some v.name)) = declaredFields env.forest declarator := by
  unfold Env.declaredVariables at h
  unfold declaredFields
  cases hd : env.forest.declarator? declarator with
  | none =>
    rw [hd] at h
    exact absurd h unsupported_ne_ok
  | some d =>
    rw [hd] at h
    refine Result.mapM_ok (R := fun ids vs => (vs.map fun v => Outline.field (some v.name)) =
      ids.map fun declared => .field (env.forest.nameText? declared)) rfl ?_ _ h
    intro declared rest v vs hv hrest
    rw [List.map_cons, List.map_cons, hrest, nameText_ok (declaredVariable_ok hv).1]

theorem lowerField_name {modifiers : List Modifier} {inModule : Bool} {declarator : Nat}
    {v : DeclaredVariable} {field : Target.Field}
    (h : env.lowerField modifiers inModule declarator v = .ok field) : field.name = v.name := by
  unfold Env.lowerField at h
  split at h
  · exact absurd h unsupported_ne_ok
  · cases h
    rfl

/-- The comments of a list of fields leave the names alone. -/
theorem commentFirst_outline (comments : List String) (fields : List Target.Field) :
    ((Env.commentFirst comments fields).map fun field => Outline.field (some field.name)) =
      fields.map fun field => .field (some field.name) := by
  cases fields <;> rfl

theorem lowerFields_outline {header : Header} {declarators : Nat} {inModule : Bool}
    {fields : List Target.Field}
    (h : env.lowerFields id header declarators inModule = .ok fields) :
    (fields.map fun field => Outline.field (some field.name)) =
      (env.forest.elements (some declarators)).flatMap (declaredFields env.forest) := by
  simp only [Env.lowerFields, Result.bind_ok, Result.pure_ok] at h
  obtain ⟨lists, hlists, rfl⟩ := h
  rw [commentFirst_outline]
  -- declarator by declarator, and name by name inside each
  refine Result.mapM_ok (R := fun ids lists =>
    (lists.flatten.map fun field => Outline.field (some field.name)) =
      ids.flatMap (declaredFields env.forest)) rfl ?_ _ hlists
  intro declarator rest fields lists hfields hrest
  obtain ⟨vs, hvs, hfields⟩ := Result.bind_ok.1 hfields
  have hnames : (fields.map fun field => Outline.field (some field.name)) =
      vs.map fun v => .field (some v.name) := by
    refine Result.mapM_ok (R := fun vs fields =>
      (fields.map fun field => Outline.field (some field.name)) =
        vs.map fun v => .field (some v.name)) rfl ?_ _ hfields
    intro v vs field fields hfield hrest
    rw [List.map_cons, List.map_cons, hrest, lowerField_name hfield]
  rw [List.flatten_cons, List.map_append, hrest, hnames, fields_declared hvs, List.flatMap_cons]

theorem lowerEnumMember_values {member : Option Target.EnumMember}
    (h : env.lowerEnumMember id = .ok member) :
    (member.toList.map fun m => some m.name) = declaredValues env.forest id := by
  unfold Env.lowerEnumMember at h
  unfold declaredValues
  split at h
  · next hdecl =>
    split at h
    all_goals
      simp only [Result.bind_ok, Result.pure_ok] at h
      obtain ⟨_, _, name, hname, rfl⟩ := h
      rw [hdecl]
      exact congrArg (fun name => [name]) (nameText_ok hname).symm
  · next hdecl =>
    cases h
    rw [hdecl]
    rfl
  · next hdecl =>
    cases h
    rw [hdecl]
    rfl
  · exact absurd h unsupported_ne_ok

theorem lowerEnum_outline {header : Header} {name : Nat} {underlying members : Option Nat}
    {enumeration : Target.Enumeration}
    (h : env.lowerEnum header name underlying members = .ok enumeration) :
    env.forest.nameText? name = some enumeration.name ∧
      (enumeration.members.map fun m => some m.name) =
        (env.forest.elements members).flatMap (declaredValues env.forest) := by
  simp only [Env.lowerEnum, Result.bind_ok, Result.pure_ok] at h
  obtain ⟨text, hname, underlying, _, found, hfound, rfl⟩ := h
  refine ⟨nameText_ok hname, ?_⟩
  refine Result.mapM_ok (R := fun ids (found : List (Option Target.EnumMember)) =>
    ((found.filterMap fun member => member).map fun m => some m.name) =
      ids.flatMap (declaredValues env.forest)) rfl ?_ _ hfound
  intro id rest member members hmember hrest
  rw [List.flatMap_cons, ← lowerEnumMember_values hmember, ← hrest]
  cases member <;> rfl

theorem lowerMethod_outline {header : Header} {signature : Signature} {statements : Option Nat}
    {owner : String} {inModule : Bool} {method : Target.Method}
    (h : env.lowerMethod id header signature statements owner inModule = .ok method) :
    Outline.method method.kind (some method.name) =
      declaredMethod env.forest (some owner) id signature.name := by
  simp only [Env.lowerMethod, Result.bind_ok, Result.pure_ok] at h
  obtain ⟨name, hname, ⟨kind, methodName, returnType⟩, hform, _, _, _, _, _, _, rfl⟩ := h
  unfold Env.methodForm at hform
  unfold declaredMethod
  split at hform
  · next hkind =>
    cases hform
    rw [hkind, nameText_ok hname]
  · next hkind =>
    simp only [Result.bind_ok, Result.pure_ok] at hform
    obtain ⟨_, _, hform⟩ := hform
    cases hform
    rw [hkind, nameText_ok hname]
  · next hkind =>
    cases hform
    rw [hkind]
  · exact absurd hform unsupported_ne_ok

theorem lowerExternal_outline {header : Header} {signature : Signature} {entry : Target.Entry}
    {method : Target.Method} (h : env.lowerExternal id header signature entry = .ok method) :
    method.kind = .normal ∧ env.forest.nameText? signature.name = some method.name := by
  unfold Env.lowerExternal at h
  dsimp only at h
  split at h
  all_goals
    simp only [Result.bind_ok, Result.pure_ok] at h
    obtain ⟨_, _, name, hname, _, _, rfl⟩ := h
    exact ⟨rfl, nameText_ok hname⟩

theorem lowerProperty_outline {header : Header} {signature : Signature} {accessors : Option Nat}
    {inModule : Bool} {property : Target.Property}
    (h : env.lowerProperty id header signature accessors inModule = .ok property) :
    env.forest.nameText? signature.name = some property.name := by
  simp only [Env.lowerProperty, Result.bind_ok] at h
  obtain ⟨name, hname, _, _, _, _, h⟩ := h
  refine (nameText_ok hname).trans (congrArg some ?_)
  refine (Result.foldlM_ok (P := fun _ (p : Target.Property) => name = p.name) ?_ _ rfl h)
  rintro _ _ p q rfl hadd
  exact (addAccessor_ok hadd).1.symm

end Members

/-! ## Types -/

mutual

theorem LowersType.outline {env : Env} {id : Nat} {type : Target.TypeDecl}
    (h : LowersType env id type) (owner : Option String) :
    [Target.TypeDecl.outline type] = declaredMembers env.forest owner id := by
  match h with
  | .block _ hdecl hname _ ha =>
    rw [declared_of_decl hdecl]
    dsimp only
    rw [nameText_ok hname, ← ha.outline]
    rfl

theorem LowersAdditions.outline {env : Env} {owner : String} {inModule : Bool} {ids : List Nat}
    {additions : List Env.Addition} (h : LowersAdditions env owner inModule ids additions) :
    (Env.memberList additions).map Target.Member.outline =
      ids.flatMap (declaredMembers env.forest (some owner)) := by
  match h with
  | .nil => rfl
  | .bases hdecl _ hs =>
    rw [List.flatMap_cons, declared_of_decl hdecl, ← hs.outline]
    rfl
  | .members hm hs =>
    rw [List.flatMap_cons, ← hm.outline, ← hs.outline, ← List.map_append]
    rfl

theorem LowersMembers.outline {env : Env} {owner : String} {inModule : Bool} {id : Nat}
    {members : List Target.Member} (h : LowersMembers env owner inModule id members) :
    members.map Target.Member.outline = declaredMembers env.forest (some owner) id := by
  match h with
  | .empty hdecl => rw [declared_of_decl hdecl]; rfl
  | .endBlock hdecl => rw [declared_of_decl hdecl]; rfl
  | .fields hdecl hs =>
    rw [declared_of_decl hdecl, List.map_map]
    exact lowerFields_outline hs
  | .method hdecl hs =>
    rw [declared_of_decl hdecl, List.map_singleton, Target.Member.outline, lowerMethod_outline hs]
  | .external hdecl hs =>
    obtain ⟨hkind, hname⟩ := lowerExternal_outline hs
    rw [declared_of_decl hdecl, List.map_singleton, Target.Member.outline, hkind, ← hname]
  | .property hdecl hs =>
    rw [declared_of_decl hdecl, List.map_singleton, Target.Member.outline,
      ← lowerProperty_outline hs]
  | .enumeration hdecl hs =>
    obtain ⟨hname, hvalues⟩ := lowerEnum_outline hs
    rw [declared_of_decl hdecl, List.map_singleton, Target.Member.outline, ← hname, hvalues]
  | .type ht =>
    rw [List.map_singleton, Target.Member.outline_type]
    exact ht.outline (some owner)

end

/-! ## Files -/

section Files

variable {forest : Forest} {settings : Settings} {declarations : List Nat}

/-- What stands aside declares nothing. -/
theorem declared_contents (owner : Option String) (ids : List (Nat × Nat)) :
    (contents forest ids).flatMap (fun d => declaredMembers forest owner d.1) =
      ids.flatMap fun d => declaredMembers forest owner d.1 := by
  induction ids with
  | nil => rfl
  | cons d ids ih =>
    rw [contents, List.filter_cons, List.flatMap_cons, ← ih]
    by_cases hd : Aside forest d.1
    · rw [declared_of_aside hd, if_neg (by simpa using hd), List.nil_append]
      rfl
    · rw [if_pos (by simpa using hd)]
      rfl

theorem flatMap_zipIdx_fst {α β : Type} (l : List α) (g : α → List β) :
    l.zipIdx.flatMap (fun d => g d.1) = l.flatMap g := by
  rw [← List.flatMap_map, List.zipIdx_map_fst]

theorem outline_lowerApart {type : Target.TypeDecl}
    (h : lowerApart forest settings declarations = .ok type) :
    [Target.TypeDecl.outline type] = declaredType forest settings.className declarations := by
  unfold lowerApart at h
  unfold declaredType
  cases hsole : soleBlock? forest declarations with
  | some d =>
    rw [hsole] at h
    exact (lowersType_of_lowerTypeBlock (fun _ _ _ _ _ => lowersMembers_of_lowerMembers) h).outline
      none
  | none =>
    rw [hsole] at h
    simp only [Result.bind_ok, Result.pure_ok] at h
    obtain ⟨parts, hparts, rfl⟩ := h
    have hmembers : parts.flatten.map Target.Member.outline =
        (contents forest declarations.zipIdx).flatMap
          fun d => declaredMembers forest (some settings.className) d.1 := by
      refine Result.mapM_ok (R := fun ids parts => parts.flatten.map Target.Member.outline =
        ids.flatMap fun d => declaredMembers forest (some settings.className) d.1) rfl ?_ _ hparts
      intro d ids members parts hd hrest
      have hmembers : members.map Target.Member.outline =
          declaredMembers forest (some settings.className) d.1 :=
        (lowersMembers_of_lowerMembers hd).outline
      rw [List.flatten_cons, List.map_append, hrest, hmembers, List.flatMap_cons]
    dsimp only
    rw [← flatMap_zipIdx_fst, ← declared_contents, ← hmembers]
    rfl

end Files

/-- The members of a lowered program are those that the source declares, in the same order and
inside the same types. -/
theorem outline_lowerFile {tree : Tree} {settings : Settings} {program : Target.Program}
    (h : lowerFile tree settings = .ok program) :
    ∃ file, tree.payload? tree.root = some (.file file) ∧
      [Target.TypeDecl.outline program.type] =
        declaredType tree.toForest settings.className (tree.elements file.declarations) := by
  unfold lowerFile at h
  split at h
  · cases h
  · split at h
    · next file hfile =>
      exact ⟨file, hfile, outline_lowerApart (apart_of_lowerDeclarations h).2⟩
    · cases h

/-- A class with a list of two fields, a constructor and a structure that has an enumeration. -/
def classFile : List Call :=
  let span := Span.startingAt ⟨1, 1⟩
  [.alloc .simpleName span (.name (.simple "Outer" none false)),
    .alloc .simpleName span (.name (.simple "a" none false)),
    .alloc .variableName span (.name (.declared 1 none)),
    .alloc .simpleName span (.name (.simple "b" none false)),
    .alloc .variableName span (.name (.declared 3 none)),
    .collection .variableNameCollection span [some 2, some 4] [⟨1, 1⟩],
    .alloc .variableDeclarator span (.declarator ⟨5, none, false, none, none⟩),
    .collection .variableDeclaratorCollection span [some 6] [],
    .alloc .variableListDeclaration span (.decl (.variableList ⟨none, none⟩ 7)),
    .alloc .simpleName span (.name (.simple "New" none false)),
    .alloc .constructorDeclaration span
      (.decl (.method ⟨none, none⟩ (.ofName 9) none none none none)),
    .alloc .simpleName span (.name (.simple "Inner" none false)),
    .alloc .simpleName span (.name (.simple "Color" none false)),
    .alloc .simpleName span (.name (.simple "Red" none false)),
    .alloc .enumValueDeclaration span (.decl (.enumValue ⟨none, none⟩ 13 none)),
    .collection .declarationCollection span [some 14] [],
    .alloc .enumDeclaration span (.decl (.enumBlock ⟨none, none⟩ 12 none (some 15) none)),
    .collection .declarationCollection span [some 16] [],
    .alloc .structureDeclaration span
      (.decl (.typeBlock ⟨none, none⟩ 11 none (some 17) none)),
    .collection .declarationCollection span [some 8, some 10, some 18] [],
    .alloc .classDeclaration span (.decl (.typeBlock ⟨none, none⟩ 0 none (some 19) none)),
    .collection .declarationCollection span [some 20] [],
    .alloc .file span (.file ⟨some 21⟩)]

def classTree : Tree := .ofCalls classFile 22

theorem class_accepted : (Forest.empty.after classFile).size = classFile.length := by
  decide +kernel

theorem classTree_settled :
    classTree = { Forest.settled classFile class_accepted with root := 22 } :=
  Tree.ofCalls_eq_settled 22 class_accepted

def classOutline : Outline :=
  .type (some "Outer")
    [.field (some "a"), .field (some "b"), .method .constructor (some "Outer"),
      .type (some "Inner") [.enumeration (some "Color") [some "Red"]]]

theorem class_in_outline : classTree.Finished ∧
    ∃ program, lowerFile classTree .standard = .ok program ∧
      Target.TypeDecl.outline program.type = classOutline := by
  refine ⟨Tree.finished_of_last class_accepted rfl, ?_⟩
  have hlowers : (lowerFile classTree .standard).toOption.isSome = true := by
    rw [classTree_settled]
    decide +kernel
  cases hresult : lowerFile classTree .standard with
  | error e =>
    rw [hresult] at hlowers
    cases hlowers
  | ok program =>
    obtain ⟨file, hfile, houtline⟩ := outline_lowerFile hresult
    have hroot : classTree.payload? classTree.root = some (.file ⟨some 21⟩) := by
      rw [classTree_settled]
      rfl
    have helements : classTree.elements (some 21) = [20] := by
      rw [classTree_settled]
      rfl
    have hdeclared : declaredType classTree.toForest Settings.standard.className [20] =
        [classOutline] := by
      rw [classTree_settled]
      with_unfolding_all rfl
    cases hfile.symm.trans hroot
    rw [helements, hdeclared] at houtline
    exact ⟨program, rfl, List.singleton_inj.1 houtline⟩

end Lowering

end StructuredBasic
