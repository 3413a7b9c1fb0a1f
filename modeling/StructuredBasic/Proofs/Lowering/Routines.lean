import StructuredBasic.Proofs.Lowering.Declarations

/-!
# Bodies of a lowered program

`Env.Enters` says as what routine lowering takes up a method or an accessor. Every member of a
lowered program, in however deep a type, is a type or comes from a declaration (`member_origin`).
So every body is the lowering of a routine entered so (`body_entered`), hence of a routine of the
source (`body_origin`). Methods of a library have no statements.
-/

set_option autoImplicit false

namespace StructuredBasic.Target

/-- The bodies of a member: of a method, of the accessors of a property, and those of the members
of a type. -/
inductive Member.HasBody : Member → List Stmt → Prop
  | method (m : Method) : HasBody (.method m) m.body
  | getter {p : Property} {body : List Stmt} (h : p.getter = some body) :
      HasBody (.property p) body
  | setter {p : Property} {body : List Stmt} (h : p.setter = some body) :
      HasBody (.property p) body
  | nested {type : TypeDecl} {member : Member} {body : List Stmt} (hm : member ∈ type.members)
      (h : HasBody member body) : HasBody (.type type) body

/-- The members of a member, however deep, with the member itself. -/
inductive Member.Holds : Member → Member → Prop
  | self (member : Member) : Holds member member
  | nested {type : TypeDecl} {member inner : Member} (hm : member ∈ type.members)
      (h : Holds member inner) : Holds (.type type) inner

/-- A body is that of a method or a property, in however deep a type. -/
theorem Member.HasBody.holds {member : Member} {body : List Stmt} (h : member.HasBody body) :
    ∃ inner, member.Holds inner ∧ (∀ type, inner ≠ .type type) ∧ inner.HasBody body := by
  induction h with
  | method m => exact ⟨_, .self _, fun _ => nofun, .method m⟩
  | getter h => exact ⟨_, .self _, fun _ => nofun, .getter h⟩
  | setter h => exact ⟨_, .self _, fun _ => nofun, .setter h⟩
  | nested hm _ ih =>
    obtain ⟨inner, hinner, hmember, hbody⟩ := ih
    exact ⟨inner, .nested hm hinner, hmember, hbody⟩

/-- The bodies of a program. -/
def Program.HasBody (program : Program) (body : List Stmt) : Prop :=
  Member.HasBody (.type program.type) body

/-- The body of a method that is found by its name is a body of the program. -/
theorem Program.hasBody_of_method? {program : Program} {name : String} {m : Method}
    (h : program.type.method? name = some m) : m.name = name ∧ program.HasBody m.body := by
  obtain ⟨member, hmember, hfound⟩ := List.exists_of_findSome?_eq_some h
  split at hfound
  · next value =>
    split at hfound <;> cases hfound
    next hname => exact ⟨hname, .nested hmember (.method m)⟩
  · cases hfound

end StructuredBasic.Target

namespace StructuredBasic.Lowering

open Syntax

/-- The declarations that hold statements of their own. -/
inductive HoldsStatements (f : Forest) (id : Nat) : Option Nat → Prop
  | method {header signature operator implements statements tail}
      (h : f.decl? id = some (.method header signature operator implements statements tail)) :
      HoldsStatements f id statements
  | accessor {header parameters statements tail}
      (h : f.decl? id = some (.accessor header parameters statements tail)) :
      HoldsStatements f id statements

/-- The result of an accessor of a property of the given type. -/
def accessorType (kind : Kind) (type : Target.Ty) : Target.Ty :=
  match kind with
  | .getAccessorDeclaration => type
  | _ => .void

theorem accessorType_get {kind : Kind} {type : Target.Ty} (h : kind = .getAccessorDeclaration) :
    accessorType kind type = type := by
  rw [h]
  rfl

theorem accessorType_set {kind : Kind} {type : Target.Ty}
    (h : kind = .getAccessorDeclaration → False) : accessorType kind type = .void := by
  unfold accessorType
  split
  · exact absurd rfl h
  · rfl

/-- Lowering takes up the statements of `node` as the body of the routine. A method is given its
name and the result of its form, an accessor the name of its property and, if it is a getter, the
type of its property. -/
inductive Env.Enters (env : Env) (node : Nat) : Routine → Option Nat → Prop
  | method {header signature operator implements statements tail owner name kind methodName
        returnType}
      (h : env.forest.decl? node =
        some (.method header signature operator implements statements tail))
      (hn : env.nameText signature.name = .ok name)
      (hf : env.methodForm node name owner signature = .ok (kind, methodName, returnType)) :
      Enters env node ⟨name, (env.routineShadow node name returnType).1, returnType⟩ statements
  | accessor {property header signature implements accessors tail name type front parameters
        statements last}
      (h : env.forest.decl? property =
        some (.property header signature implements accessors tail))
      (hn : env.nameText signature.name = .ok name)
      (ht : env.variableType signature.name signature.resultType = .ok type)
      (hm : node ∈ env.forest.elements accessors)
      (ha : env.forest.decl? node = some (.accessor front parameters statements last)) :
      Enters env node
        ⟨name, (env.routineShadow node name (accessorType (env.forest.kind node) type)).1,
          accessorType (env.forest.kind node) type⟩ statements

theorem Env.Enters.holds {env : Env} {node : Nat} {routine : Routine} {statements : Option Nat}
    (h : env.Enters node routine statements) : HoldsStatements env.forest node statements := by
  cases h with
  | method h => exact .method h
  | accessor _ _ _ _ ha => exact .accessor ha

/-- A body with the routine that it is the lowering of. -/
structure RoutineBody (forest : Forest) (settings : Settings) (body : List Target.Stmt) where
  options : Target.SourceOptions
  node : Nat
  name : String
  returnType : Target.Ty
  statements : Option Nat
  holds : HoldsStatements forest node statements
  lowered : (Env.atTop forest settings options).lowerRoutine node name returnType statements =
    .ok body

/-- What surrounds the routine. -/
def RoutineBody.env {forest : Forest} {settings : Settings} {body : List Target.Stmt}
    (r : RoutineBody forest settings body) : Env := Env.atTop forest settings r.options

/-- The routine as its statements see it. -/
def RoutineBody.routine {forest : Forest} {settings : Settings} {body : List Target.Stmt}
    (r : RoutineBody forest settings body) : Routine :=
  ⟨r.name, (r.env.routineShadow r.node r.name r.returnType).1, r.returnType⟩

/-- The body of a routine whose result local and names in use are known. -/
theorem lowerRoutine_of_shadow {env : Env} {node : Nat} {name : String} {returnType : Target.Ty}
    {statements : Option Nat} {shadow : Option String} {taken : List String}
    (h : env.routineShadow node name returnType = (shadow, taken)) :
    env.lowerRoutine node name returnType statements = do
      let (body, _) ← (env.lowerBody ⟨name, shadow, returnType⟩ statements).run ⟨taken, []⟩
      return Env.withShadow shadow returnType body := by
  rw [Env.lowerRoutine, h]

/-- The body of a routine is the lowering of its statements, inside what keeps its result. -/
theorem lowerRoutine_ok {env : Env} {node : Nat} {name : String} {returnType : Target.Ty}
    {statements : Option Nat} {body : List Target.Stmt}
    (h : env.lowerRoutine node name returnType statements = .ok body) :
    ∃ out state, env.lowerBody ⟨name, (env.routineShadow node name returnType).1, returnType⟩
        statements ⟨(env.routineShadow node name returnType).2, []⟩ = .ok (out, state) ∧
      body = Env.withShadow (env.routineShadow node name returnType).1 returnType out := by
  simp only [Env.lowerRoutine, Result.bind_ok, Result.pure_ok] at h
  obtain ⟨⟨out, state⟩, hrun, rfl⟩ := h
  exact ⟨out, state, hrun, rfl⟩

/-- A body without statements, or the body of a routine. -/
def HasOrigin (forest : Forest) (settings : Settings) (body : List Target.Stmt) : Prop :=
  body = [] ∨ Nonempty (RoutineBody forest settings body)

/-- A body without statements, or the body of a routine that lowering has entered. -/
inductive Entered (forest : Forest) (settings : Settings) : List Target.Stmt → Prop
  | empty : Entered forest settings []
  | routine {options node routine statements body}
      (h : (Env.atTop forest settings options).Enters node routine statements)
      (hl : (Env.atTop forest settings options).lowerRoutine node routine.name routine.returnType
        statements = .ok body) : Entered forest settings body

theorem Entered.hasOrigin {forest : Forest} {settings : Settings} {body : List Target.Stmt}
    (h : Entered forest settings body) : HasOrigin forest settings body := by
  cases h with
  | empty => exact Or.inl rfl
  | routine h hl => exact Or.inr ⟨⟨_, _, _, _, _, h.holds, hl⟩⟩

section Members

variable {forest : Forest} {settings : Settings} {options : Target.SourceOptions} {id : Nat}
  {body : List Target.Stmt}

theorem entered_of_lowerMethod {header : Header} {signature : Signature}
    {operator : Option Operator} {implements statements tail : Option Nat} {owner : String}
    {inModule : Bool} {method : Target.Method}
    (hdecl : forest.decl? id =
      some (.method header signature operator implements statements tail))
    (h : (Env.atTop forest settings options).lowerMethod id header signature statements owner
      inModule = .ok method) : Entered forest settings method.body := by
  simp only [Env.lowerMethod, Result.bind_ok, Result.pure_ok] at h
  obtain ⟨name, hname, ⟨_, _, returnType⟩, hform, _, _, body, hbody, _, _, rfl⟩ := h
  exact .routine (.method hdecl hname hform) hbody

theorem entered_of_lowerExternal {header : Header} {signature : Signature} {entry : Target.Entry}
    {method : Target.Method}
    (h : (Env.atTop forest settings options).lowerExternal id header signature entry =
      .ok method) : Entered forest settings method.body := by
  unfold Env.lowerExternal at h
  split at h <;> simp only [Result.bind_ok, Result.pure_ok] at h
  · obtain ⟨_, _, _, _, _, _, rfl⟩ := h
    exact .empty
  · obtain ⟨_, _, _, _, _, _, rfl⟩ := h
    exact .empty

/-- The accessors that a property has so far were entered as such. -/
def AccessorsEntered (forest : Forest) (settings : Settings) (p : Target.Property) : Prop :=
  ∀ body, Target.Member.HasBody (.property p) body → Entered forest settings body

/-- An accessor keeps the name, the type and the parameters of its property. -/
theorem addAccessor_ok {env : Env} {p q : Target.Property} (h : env.addAccessor p id = .ok q) :
    q.name = p.name ∧ q.type = p.type ∧ q.parameters = p.parameters := by
  unfold Env.addAccessor at h
  split at h
  · split at h
    · simp only [Result.bind_ok, Result.pure_ok] at h
      obtain ⟨_, _, rfl⟩ := h
      exact ⟨rfl, rfl, rfl⟩
    · simp only [Result.bind_ok, Result.pure_ok] at h
      obtain ⟨_, _, _, _, rfl⟩ := h
      exact ⟨rfl, rfl, rfl⟩
  · cases h; exact ⟨rfl, rfl, rfl⟩
  · cases h; exact ⟨rfl, rfl, rfl⟩
  · exact absurd h unsupported_ne_ok

theorem entered_of_addAccessor {property : Nat} {header : Header} {signature : Signature}
    {implements accessors tail : Option Nat} {p q : Target.Property}
    (hdecl : forest.decl? property = some (.property header signature implements accessors tail))
    (hname : (Env.atTop forest settings options).nameText signature.name = .ok p.name)
    (htype : (Env.atTop forest settings options).variableType signature.name
      signature.resultType = .ok p.type)
    (hmem : id ∈ forest.elements accessors) (hp : AccessorsEntered forest settings p)
    (h : (Env.atTop forest settings options).addAccessor p id = .ok q) :
    AccessorsEntered forest settings q := by
  unfold Env.addAccessor at h
  split at h
  · next haccessor =>
    have henters := Env.Enters.accessor hdecl hname htype hmem haccessor
    split at h
    · next hk =>
      rw [accessorType_get hk] at henters
      simp only [Result.bind_ok, Result.pure_ok] at h
      obtain ⟨lowered, hlowered, rfl⟩ := h
      intro body hbody
      cases hbody with
      | getter h => cases h; exact .routine henters hlowered
      | setter h => exact hp body (.setter h)
    · next hk =>
      rw [accessorType_set hk] at henters
      simp only [Result.bind_ok, Result.pure_ok] at h
      obtain ⟨_, _, lowered, hlowered, rfl⟩ := h
      intro body hbody
      cases hbody with
      | getter h => exact hp body (.getter h)
      | setter h => cases h; exact .routine henters hlowered
  · cases h; exact hp
  · cases h; exact hp
  · exact absurd h unsupported_ne_ok

theorem entered_of_lowerProperty {header : Header} {signature : Signature}
    {implements accessors tail : Option Nat} {inModule : Bool} {p : Target.Property}
    (hdecl : forest.decl? id = some (.property header signature implements accessors tail))
    (h : (Env.atTop forest settings options).lowerProperty id header signature accessors inModule =
      .ok p) : AccessorsEntered forest settings p := by
  simp only [Env.lowerProperty, Result.bind_ok] at h
  obtain ⟨name, hname, type, htype, _, _, h⟩ := h
  -- the accessors still to come are accessors of this property, and it keeps its name and type
  refine (Result.foldlM_ok (P := fun ids q => (∀ x ∈ ids, x ∈ forest.elements accessors) ∧
    q.name = name ∧ q.type = type ∧ AccessorsEntered forest settings q) ?_ _ ?_ h).2.2.2
  · rintro x xs p q ⟨hids, rfl, rfl, hp⟩ hadd
    obtain ⟨h1, h2, -⟩ := addAccessor_ok hadd
    refine ⟨fun y hy => hids y (List.mem_cons_of_mem _ hy), h1, h2, ?_⟩
    exact entered_of_addAccessor hdecl hname htype (hids x List.mem_cons_self) hp hadd
  · refine ⟨fun x hx => hx, rfl, rfl, ?_⟩
    intro body hbody
    cases hbody with
    | getter h => cases h
    | setter h => cases h

/-- The bodies among the members that a declaration brings come from routines that were entered. -/
theorem LowersMembers.entered {owner : String} {inModule : Bool} {members : List Target.Member}
    (h : LowersMembers (Env.atTop forest settings options) owner inModule id members)
    {member : Target.Member} (hm : member ∈ members) (hmember : ∀ type, member ≠ .type type)
    (hbody : member.HasBody body) : Entered forest settings body := by
  cases h with
  | empty | endBlock => cases hm
  | fields =>
    obtain ⟨field, _, rfl⟩ := List.mem_map.1 hm
    cases hbody
  | method hdecl hs =>
    cases List.mem_singleton.1 hm
    cases hbody with
    | method => exact entered_of_lowerMethod hdecl hs
  | external _ hs =>
    cases List.mem_singleton.1 hm
    cases hbody with
    | method => exact entered_of_lowerExternal hs
  | property hdecl hs =>
    cases List.mem_singleton.1 hm
    exact entered_of_lowerProperty hdecl hs body hbody
  | enumeration =>
    cases List.mem_singleton.1 hm
    cases hbody
  | type =>
    cases List.mem_singleton.1 hm
    exact absurd rfl (hmember _)

end Members

/-! ## Members of a program -/

/-- The member is a type, or among the members that a declaration brings. -/
def MemberOrigin (forest : Forest) (settings : Settings) (member : Target.Member) : Prop :=
  (∃ type, member = .type type) ∨ ∃ options owner inModule id members,
    LowersMembers (Env.atTop forest settings options) owner inModule id members ∧
      member ∈ members

theorem holds_of_not_type {member inner : Target.Member} (h : member.Holds inner)
    (hmember : ∀ type, member ≠ .type type) : inner = member := by
  cases h with
  | self => rfl
  | nested => exact absurd rfl (hmember _)

mutual

theorem LowersType.holds {forest : Forest} {settings : Settings} {options : Target.SourceOptions}
    {id : Nat} {type : Target.TypeDecl}
    (h : LowersType (Env.atTop forest settings options) id type) {inner : Target.Member}
    (hi : Target.Member.Holds (.type type) inner) : MemberOrigin forest settings inner := by
  match h with
  | .block _ _ _ _ ha =>
    have hadded : ∀ member ∈ Env.memberList _, ∀ inner, member.Holds inner →
        MemberOrigin forest settings inner := fun _ hm _ hi => ha.holds hm hi
    cases hi with
    | self => exact Or.inl ⟨_, rfl⟩
    | nested hm hi => exact hadded _ hm _ hi

theorem LowersAdditions.holds {forest : Forest} {settings : Settings}
    {options : Target.SourceOptions} {owner : String} {inModule : Bool} {ids : List Nat}
    {additions : List Env.Addition}
    (h : LowersAdditions (Env.atTop forest settings options) owner inModule ids additions)
    {member : Target.Member} (hm : member ∈ Env.memberList additions) {inner : Target.Member}
    (hi : member.Holds inner) : MemberOrigin forest settings inner := by
  match h with
  | .nil => cases hm
  | .bases _ _ hs => exact hs.holds hm hi
  | .members h hs =>
    rcases List.mem_append.1 hm with hm | hm
    · exact h.holds hm hi
    · exact hs.holds hm hi

theorem LowersMembers.holds {forest : Forest} {settings : Settings}
    {options : Target.SourceOptions} {owner : String} {inModule : Bool} {id : Nat}
    {members : List Target.Member}
    (h : LowersMembers (Env.atTop forest settings options) owner inModule id members)
    {member : Target.Member} (hm : member ∈ members) {inner : Target.Member}
    (hi : member.Holds inner) : MemberOrigin forest settings inner := by
  have leaf : (∀ type, member ≠ .type type) → MemberOrigin forest settings inner := by
    intro hmember
    rw [holds_of_not_type hi hmember]
    exact Or.inr ⟨_, _, _, _, _, h, hm⟩
  match h with
  | .empty _ => cases hm
  | .endBlock _ => cases hm
  | .fields _ _ =>
    obtain ⟨field, _, rfl⟩ := List.mem_map.1 hm
    exact leaf fun _ => nofun
  | .method _ _ =>
    cases List.mem_singleton.1 hm
    exact leaf fun _ => nofun
  | .external _ _ =>
    cases List.mem_singleton.1 hm
    exact leaf fun _ => nofun
  | .property _ _ =>
    cases List.mem_singleton.1 hm
    exact leaf fun _ => nofun
  | .enumeration _ _ =>
    cases List.mem_singleton.1 hm
    exact leaf fun _ => nofun
  | .type ht =>
    cases List.mem_singleton.1 hm
    exact ht.holds hi

end

/-- All members of what a file has given so far have an origin. -/
structure FileState.MembersOriginate (forest : Forest) (settings : Settings)
    (state : FileState) : Prop where
  type : ∀ type, state.type = some type → ∀ inner, Target.Member.Holds (.type type) inner →
    MemberOrigin forest settings inner
  members : ∀ member ∈ state.members, ∀ inner, member.Holds inner →
    MemberOrigin forest settings inner

section Files

variable {forest : Forest} {settings : Settings}

theorem LowersTop.originate {id : Nat} {state next : FileState}
    (h : LowersTop forest settings id state next) (hs : state.MembersOriginate forest settings) :
    next.MembersOriginate forest settings := by
  cases h with
  | directive => exact ⟨hs.type, hs.members⟩
  | imports => exact ⟨hs.type, hs.members⟩
  | empty => exact hs
  | endBlock => exact hs
  | type ht =>
    refine ⟨?_, hs.members⟩
    rintro type ⟨⟩ inner hi
    exact ht.holds hi
  | members hm =>
    refine ⟨hs.type, fun member hmember inner hi => ?_⟩
    rcases List.mem_append.1 hmember with hmember | hmember
    · exact hs.members member hmember inner hi
    · exact hm.holds hmember hi

theorem LowersFile.originate {ids : List Nat} {state last : FileState}
    (h : LowersFile forest settings ids state last)
    (hs : state.MembersOriginate forest settings) : last.MembersOriginate forest settings := by
  induction h with
  | nil => exact hs
  | cons h _ ih => exact ih (h.originate hs)

/-- Every member of a lowered program, in however deep a type, is a type or one of those that a
declaration brings. -/
theorem member_origin {tree : Tree} {program : Target.Program}
    (h : lowerFile tree settings = .ok program) {inner : Target.Member}
    (hi : Target.Member.Holds (.type program.type) inner) :
    MemberOrigin tree.toForest settings inner := by
  obtain ⟨file, state, _, hfile, htype⟩ := lowersFile_of_lowerFile h
  have hall := hfile.originate ⟨fun _ h => (nomatch h), List.forall_mem_nil _⟩
  rw [htype] at hi
  cases hstate : state.type with
  | some type =>
    rw [hstate] at hi
    exact hall.type type hstate inner hi
  | none =>
    rw [hstate] at hi
    cases hi with
    | self => exact Or.inl ⟨_, rfl⟩
    | nested hm hi => exact hall.members _ hm _ hi

/-- Every body of a lowered program has no statements or is the lowering of a routine as lowering
enters it. -/
theorem body_entered {tree : Tree} {program : Target.Program}
    (h : lowerFile tree settings = .ok program) {body : List Target.Stmt}
    (hb : program.HasBody body) : Entered tree.toForest settings body := by
  obtain ⟨inner, hi, hmember, hbody⟩ := Target.Member.HasBody.holds hb
  rcases member_origin h hi with ⟨type, htype⟩ | ⟨_, _, _, _, _, hm, hmem⟩
  · exact absurd htype (hmember type)
  · exact hm.entered hmem hmember hbody

theorem body_origin {tree : Tree} {program : Target.Program}
    (h : lowerFile tree settings = .ok program) {body : List Target.Stmt}
    (hb : program.HasBody body) : HasOrigin tree.toForest settings body :=
  (body_entered h hb).hasOrigin

end Files

end StructuredBasic.Lowering
