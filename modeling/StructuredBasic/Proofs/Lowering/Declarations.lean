import StructuredBasic.Lowering.File
import StructuredBasic.Proofs.Lowering.Derivation

/-!
# Derivations for declarations

`LowersType` says what becomes of a class, a module or a structure, `LowersAdditions` of the
declarations inside it and `LowersMembers` of one of them. A file that lowers has a derivation for
each of its declarations (`lowersFile_of_lowerFile`).
-/

set_option autoImplicit false

namespace StructuredBasic.Lowering

open Syntax

/-! ## Successful traversals -/

namespace Result

variable {α β : Type}

theorem pure_ok {a b : α} : (pure a : Result α) = .ok b ↔ b = a := by
  simp only [pure, Except.pure, Except.ok.injEq, eq_comm]

theorem map_ok {x : Result α} {g : α → β} {b : β} :
    (g <$> x) = .ok b ↔ ∃ a, x = .ok a ∧ b = g a := by
  cases x with
  | error e => simp [Functor.map, Except.map]
  | ok a => simp [Functor.map, Except.map, eq_comm]

theorem mapM_ok {g : α → Result β} {R : List α → List β → Prop} (hnil : R [] [])
    (hcons : ∀ x xs b bs, g x = .ok b → R xs bs → R (x :: xs) (b :: bs)) (l : List α)
    {out : List β} (h : l.mapM g = .ok out) : R l out := by
  induction l generalizing out with
  | nil =>
    rw [List.mapM_nil, pure_ok] at h
    rw [h]
    exact hnil
  | cons x l ih =>
    rw [List.mapM_cons, bind_ok] at h
    obtain ⟨b, hb, h⟩ := h
    rw [bind_ok] at h
    obtain ⟨bs, hbs, h⟩ := h
    rw [pure_ok] at h
    rw [h]
    exact hcons x l b bs hb (ih hbs)

theorem exists_of_mapM_ok {g : α → Result β} {l : List α} {out : List β}
    (h : l.mapM g = .ok out) : ∀ x ∈ l, ∃ b ∈ out, g x = .ok b := by
  refine mapM_ok (R := fun l out => ∀ x ∈ l, ∃ b ∈ out, g x = .ok b) ?_ ?_ l h
  · intro x hx; cases hx
  · intro x xs b bs hb ih y hy
    rcases List.mem_cons.1 hy with rfl | hy
    · exact ⟨b, List.mem_cons_self, hb⟩
    · obtain ⟨c, hc, hgc⟩ := ih y hy
      exact ⟨c, List.mem_cons_of_mem _ hc, hgc⟩

theorem forall_mapM_ok {g : α → Result β} {Q : β → Prop} {l : List α} {out : List β}
    (hg : ∀ x ∈ l, ∀ b, g x = .ok b → Q b) (h : l.mapM g = .ok out) : ∀ b ∈ out, Q b := by
  refine mapM_ok (R := fun l out => (∀ x ∈ l, ∀ b, g x = .ok b → Q b) → ∀ b ∈ out, Q b)
    ?_ ?_ l h hg
  · intro _ b hb; cases hb
  · intro x xs b bs hb ih hg
    refine List.forall_mem_cons.2 ⟨hg x List.mem_cons_self b hb, ih fun y hy => ?_⟩
    exact hg y (List.mem_cons_of_mem _ hy)

/-- A property that every step of a fold keeps, and that may use the steps still to come. -/
theorem foldlM_ok {g : β → α → Result β} {P : List α → β → Prop}
    (hstep : ∀ x xs b c, P (x :: xs) b → g b x = .ok c → P xs c) (l : List α) {b out : β}
    (hb : P l b) (h : l.foldlM g b = .ok out) : P [] out := by
  induction l generalizing b with
  | nil =>
    rw [List.foldlM_nil, pure_ok] at h
    rw [h]
    exact hb
  | cons x l ih =>
    rw [List.foldlM_cons, bind_ok] at h
    obtain ⟨c, hc, h⟩ := h
    exact ih (hstep x l b c hb hc) h

end Result

/-! ## Modifiers -/

/-- The modifiers that are more than marks of a parameter. -/
def memberModifiers (modifiers : List Modifier) : List Modifier :=
  modifiers.filter fun modifier => !modifier.isForParameter

section Modifiers

variable {modifiers : List Modifier}

theorem contains_memberModifiers {modifier : Modifier} (h : modifier.isForParameter = false) :
    (memberModifiers modifiers).contains modifier = modifiers.contains modifier := by
  rw [Bool.eq_iff_iff, List.contains_iff_mem, List.contains_iff_mem, memberModifiers,
    List.mem_filter, h]
  exact and_iff_left rfl

/-- Marks of a parameter state no visibility. -/
theorem visibility_memberModifiers (otherwise : Target.Visibility) :
    visibility (memberModifiers modifiers) otherwise = visibility modifiers otherwise := by
  unfold visibility
  rw [contains_memberModifiers rfl, contains_memberModifiers rfl, contains_memberModifiers rfl,
    contains_memberModifiers rfl]

/-- A field is the same with and without the marks of a parameter. -/
theorem lowerField_memberModifiers (env : Env) (inModule : Bool) (declarator : Nat)
    (v : DeclaredVariable) :
    env.lowerField (memberModifiers modifiers) inModule declarator v =
      env.lowerField modifiers inModule declarator v := by
  unfold Env.lowerField
  rw [visibility_memberModifiers, contains_memberModifiers rfl, contains_memberModifiers rfl,
    contains_memberModifiers rfl]

end Modifiers

/-! ## Declared variables -/

/-- How a variable of a declarator starts: with the value written, with a new object, or as the
bounds on its name say. -/
inductive StartsAs (env : Env) (d : Declarator) (declared : Nat) (type : Target.Ty) :
    Option Target.Expr → Prop
  | value {initializer e} (h : d.initializer = some initializer)
      (he : env.initialValue initializer type = .ok e) : StartsAs env d declared type (some e)
  | object {args} (h : d.initializer = none) (hnew : d.isNew = true)
      (ha : env.lowerArguments d.arguments = .ok args) :
      StartsAs env d declared type (some (.objectCreate type args))
  | array {init} (h : d.initializer = none) (hnew : d.isNew = false)
      (ha : env.allocation declared type = .ok init) : StartsAs env d declared type init

theorem declaredVariable_ok {env : Env} {d : Declarator} {declared : Nat} {v : DeclaredVariable}
    (h : env.declaredVariable d declared = .ok v) : env.nameText declared = .ok v.name ∧
      env.variableType declared d.type = .ok v.type ∧ StartsAs env d declared v.type v.init := by
  simp only [Env.declaredVariable, Result.bind_ok] at h
  obtain ⟨name, hname, type, htype, h⟩ := h
  cases hinit : d.initializer with
  | some initializer =>
    simp only [hinit, Result.bind_ok, Result.map_ok, Result.pure_ok] at h
    obtain ⟨_, ⟨e, he, rfl⟩, rfl⟩ := h
    exact ⟨hname, htype, .value hinit he⟩
  | none =>
    simp only [hinit] at h
    split at h
    · next hnew =>
      simp only [Result.bind_ok, Result.pure_ok] at h
      obtain ⟨args, hargs, _, rfl, rfl⟩ := h
      exact ⟨hname, htype, .object hinit hnew hargs⟩
    · next hnew =>
      simp only [Result.bind_ok, Result.pure_ok] at h
      obtain ⟨init, ha, rfl⟩ := h
      exact ⟨hname, htype, .array hinit (Bool.eq_false_iff.2 hnew) ha⟩

/-! ## Types and their members -/

theorem lt_of_mem_members {f : Forest} {id x n : Nat} {header : Header}
    {parameters declarations tail : Option Nat}
    (h : f.decl? id = some (.typeBlock header n parameters declarations tail))
    (hx : x ∈ f.elements declarations) : x < id := by
  cases declarations with
  | none => cases hx
  | some c =>
    have h1 : c < id := Forest.lt_of_decl h (by simp [Decl.slots, Slot.members, Slot.opt])
    have h2 : x < c := Forest.lt_of_mem_elements hx
    omega

mutual

/-- What becomes of a class, a module or a structure. -/
inductive LowersType (env : Env) : Nat → Target.TypeDecl → Prop
  | block {id kind header n parameters declarations tail name typeParameters additions}
      (hk : typeKind? (env.forest.kind id) = some kind)
      (h : env.forest.decl? id = some (.typeBlock header n parameters declarations tail))
      (hn : env.nameText n = .ok name) (hp : env.typeParameters parameters = .ok typeParameters)
      (ha : LowersAdditions env name (kind = .moduleType) (env.forest.elements declarations)
        additions) :
      LowersType env id {
        name := name
        kind := kind
        visibility := visibility (env.modifiers header.modifiers) .publicAccess
        typeParameters := typeParameters
        baseTypes := Env.baseTypes additions
        members := Env.memberList additions
        comments := env.comments id }

/-- What the declarations of a type add to it. -/
inductive LowersAdditions (env : Env) : String → Bool → List Nat → List Env.Addition → Prop
  | nil {owner inModule} : LowersAdditions env owner inModule [] []
  | bases {owner inModule id ids types lowered additions}
      (h : env.forest.decl? id = some (.typeList types))
      (ht : (env.forest.elements (some types)).mapM env.lowerType = .ok lowered)
      (hs : LowersAdditions env owner inModule ids additions) :
      LowersAdditions env owner inModule (id :: ids) (.bases lowered :: additions)
  | members {owner inModule id ids members additions}
      (h : LowersMembers env owner inModule id members)
      (hs : LowersAdditions env owner inModule ids additions) :
      LowersAdditions env owner inModule (id :: ids) (.members members :: additions)

/-- The members that one declaration brings. -/
inductive LowersMembers (env : Env) : String → Bool → Nat → List Target.Member → Prop
  | empty {owner inModule id} (h : env.forest.decl? id = some .empty) :
      LowersMembers env owner inModule id []
  | endBlock {owner inModule id block} (h : env.forest.decl? id = some (.endBlock block)) :
      LowersMembers env owner inModule id []
  | fields {owner inModule id header declarators fields}
      (h : env.forest.decl? id = some (.variableList header declarators))
      (hs : env.lowerFields id header declarators inModule = .ok fields) :
      LowersMembers env owner inModule id (fields.map Target.Member.field)
  | method {owner inModule id header signature operator implements statements tail method}
      (h : env.forest.decl? id =
        some (.method header signature operator implements statements tail))
      (hs : env.lowerMethod id header signature statements owner inModule = .ok method) :
      LowersMembers env owner inModule id [.method method]
  | external {owner inModule id header signature charset library entryName method}
      (h : env.forest.decl? id = some (.external header signature charset library entryName))
      (hs : env.lowerExternal id header signature ⟨library, entryName, Named.name charset⟩ =
        .ok method) :
      LowersMembers env owner inModule id [.method method]
  | property {owner inModule id header signature implements accessors tail property}
      (h : env.forest.decl? id = some (.property header signature implements accessors tail))
      (hs : env.lowerProperty id header signature accessors inModule = .ok property) :
      LowersMembers env owner inModule id [.property property]
  | enumeration {owner inModule id header name underlying members tail enumeration}
      (h : env.forest.decl? id = some (.enumBlock header name underlying members tail))
      (hs : env.lowerEnum header name underlying members = .ok enumeration) :
      LowersMembers env owner inModule id [.enumeration enumeration]
  | type {owner inModule id type} (h : LowersType env id type) :
      LowersMembers env owner inModule id [.type type]

end

section Members

variable {env : Env} {id : Nat}

theorem lowersType_of_lowerTypeBlock {type : Target.TypeDecl}
    (ih : ∀ x < id, ∀ owner inModule members, env.lowerMembers x owner inModule = .ok members →
      LowersMembers env owner inModule x members)
    (h : env.lowerTypeBlock id = .ok type) : LowersType env id type := by
  rw [Env.lowerTypeBlock] at h
  split at h
  · next kind header n parameters declarations tail hk hdecl =>
    simp only [Result.bind_ok, Result.pure_ok] at h
    obtain ⟨name, hn, typeParameters, hp, additions, ha, rfl⟩ := h
    refine .block hk hdecl hn hp ?_
    have hall := Result.mapM_ok (R := fun ids additions =>
      LowersAdditions env name (kind = .moduleType) (ids.map Subtype.val) additions) .nil
      (fun x ids addition additions hx hs => ?_) _ ha
    · rw [List.attach_map_subtype_val] at hall
      exact hall
    · split at hx
      · next types htypes =>
        simp only [Result.bind_ok, Result.pure_ok] at hx
        obtain ⟨lowered, hl, rfl⟩ := hx
        exact .bases htypes hl hs
      · simp only [Result.bind_ok, Result.pure_ok] at hx
        obtain ⟨members, hmembers, rfl⟩ := hx
        refine .members (ih x.1 ?_ _ _ _ hmembers) hs
        exact lt_of_mem_members hdecl x.2
  · exact absurd h unsupported_ne_ok

theorem lowersMembers_of_lowerMembers {owner : String} {inModule : Bool}
    {members : List Target.Member} (h : env.lowerMembers id owner inModule = .ok members) :
    LowersMembers env owner inModule id members := by
  induction id using Nat.strongRecOn generalizing owner inModule members with
  | ind id ih =>
    rw [Env.lowerMembers] at h
    split at h
    case h_1 hdecl => cases h; exact .empty hdecl
    case h_2 hdecl => cases h; exact .endBlock hdecl
    case h_3 hdecl =>
      simp only [Result.bind_ok, Result.pure_ok] at h
      obtain ⟨fields, hs, rfl⟩ := h
      exact .fields hdecl hs
    case h_4 hdecl =>
      simp only [Result.bind_ok, Result.pure_ok] at h
      obtain ⟨method, hs, rfl⟩ := h
      exact .method hdecl hs
    case h_5 hdecl =>
      simp only [Result.bind_ok, Result.pure_ok] at h
      obtain ⟨method, hs, rfl⟩ := h
      exact .external hdecl hs
    case h_6 hdecl =>
      simp only [Result.bind_ok, Result.pure_ok] at h
      obtain ⟨property, hs, rfl⟩ := h
      exact .property hdecl hs
    case h_7 hdecl =>
      simp only [Result.bind_ok, Result.pure_ok] at h
      obtain ⟨enumeration, hs, rfl⟩ := h
      exact .enumeration hdecl hs
    case h_8 hdecl =>
      simp only [Result.bind_ok, Result.pure_ok] at h
      obtain ⟨type, hs, rfl⟩ := h
      exact .type (lowersType_of_lowerTypeBlock (fun x hx _ _ _ => ih x hx) hs)
    case h_9 => exact absurd h unsupported_ne_ok

end Members

/-! ## Files -/

/-- What one declaration of a file does. -/
inductive LowersTop (forest : Forest) (settings : Settings) (id : Nat) :
    FileState → FileState → Prop
  | directive {state directive} (h : forest.decl? id = some (.directive directive)) :
      LowersTop forest settings id state
        { state with options := applyDirective state.options directive }
  | imports {state clauses imports} (h : forest.decl? id = some (.imports clauses))
      (hi : (forest.elements (some clauses)).mapM
        (Env.atTop forest settings state.options).lowerImport = .ok imports) :
      LowersTop forest settings id state
        { state with imports := imports.foldl Target.insertNew state.imports }
  | empty {state} (h : forest.decl? id = some .empty) : LowersTop forest settings id state state
  | endBlock {state block} (h : forest.decl? id = some (.endBlock block)) :
      LowersTop forest settings id state state
  | type {state type} (h : LowersType (Env.atTop forest settings state.options) id type) :
      LowersTop forest settings id state { state with type := some type }
  | members {state members}
      (h : LowersMembers (Env.atTop forest settings state.options) settings.className true id
        members) :
      LowersTop forest settings id state { state with members := state.members ++ members }

/-- What the declarations of a file do in turn. -/
inductive LowersFile (forest : Forest) (settings : Settings) :
    List Nat → FileState → FileState → Prop
  | nil {state} : LowersFile forest settings [] state state
  | cons {id ids state next last} (h : LowersTop forest settings id state next)
      (hs : LowersFile forest settings ids next last) :
      LowersFile forest settings (id :: ids) state last

section Files

variable {forest : Forest} {settings : Settings}

theorem lowersTop_of_lowerDeclaration {sole : Option Nat} {id : Nat} {state next : FileState}
    (h : lowerDeclaration forest settings sole state id = .ok next) :
    LowersTop forest settings id state next := by
  unfold lowerDeclaration at h
  dsimp only at h
  split at h
  case h_1 hdecl => cases h; exact .directive hdecl
  case h_2 hdecl =>
    simp only [Result.bind_ok, Result.pure_ok] at h
    obtain ⟨imports, hi, rfl⟩ := h
    exact .imports hdecl hi
  case h_3 hdecl => cases h; exact .empty hdecl
  case h_4 hdecl => cases h; exact .endBlock hdecl
  case h_5 =>
    split at h
    · simp only [Result.bind_ok, Result.pure_ok] at h
      obtain ⟨type, ht, rfl⟩ := h
      exact .type (lowersType_of_lowerTypeBlock (fun x _ _ _ _ => lowersMembers_of_lowerMembers) ht)
    · simp only [Result.bind_ok, Result.pure_ok] at h
      obtain ⟨members, hm, rfl⟩ := h
      exact .members (lowersMembers_of_lowerMembers hm)

theorem lowersFile_of_foldlM {sole : Option Nat} {ids : List Nat} {state last : FileState}
    (h : ids.foldlM (lowerDeclaration forest settings sole) state = .ok last) :
    LowersFile forest settings ids state last := by
  induction ids generalizing state with
  | nil =>
    rw [List.foldlM_nil, Result.pure_ok] at h
    rw [h]
    exact .nil
  | cons id ids ih =>
    rw [List.foldlM_cons, Result.bind_ok] at h
    obtain ⟨next, hnext, h⟩ := h
    exact .cons (lowersTop_of_lowerDeclaration hnext) (ih h)

theorem badNode?_eq_none (h : badNode? forest = none) :
    ∀ id < forest.size, forest.kind id ≠ .syntaxError := by
  intro id hid heq
  have hgood := List.find?_eq_none.1 h id (List.mem_range.2 hid)
  rw [heq] at hgood
  exact hgood rfl

theorem badNode?_of_lowerFile {tree : Tree} {program : Target.Program}
    (h : lowerFile tree settings = .ok program) : badNode? tree.toForest = none := by
  unfold lowerFile at h
  split at h
  · cases h
  · assumption

/-- A file that lowers has a derivation for its declarations, and its type is either the one that
it consists of or the module around its members. -/
theorem lowersFile_of_lowerFile {tree : Tree} {program : Target.Program}
    (h : lowerFile tree settings = .ok program) : ∃ file state,
      tree.payload? tree.root = some (.file file) ∧
      LowersFile tree.toForest settings (tree.elements file.declarations)
        ⟨settings.options, [], none, []⟩ state ∧
      program.type = state.type.getD (wrapper settings state.members) := by
  unfold lowerFile at h
  split at h
  · cases h
  · split at h
    · next file hfile =>
      rw [lowerDeclarations, Result.bind_ok] at h
      obtain ⟨state, hstate, h⟩ := h
      rw [Result.pure_ok] at h
      exact ⟨file, state, hfile, lowersFile_of_foldlM hstate, by rw [h]⟩
    · cases h

/-- A file whose only declaration is a method is the module around that method. -/
theorem lowerFile_of_method {tree : Tree} {file : File} {id : Nat} {header : Header}
    {signature : Signature} {operator : Option Operator} {implements statements tail : Option Nat}
    {method : Target.Method} (hbad : badNode? tree.toForest = none)
    (hroot : tree.payload? tree.root = some (.file file))
    (hone : tree.elements file.declarations = [id])
    (hdecl : tree.decl? id =
      some (.method header signature operator implements statements tail))
    (hsole : soleType? tree.toForest [id] = none)
    (hmethod : (Env.atTop tree.toForest settings settings.options).lowerMethod id header signature
      statements settings.className true = .ok method) :
    lowerFile tree settings = .ok {
      nameSpace := settings.nameSpace
      imports := []
      options := settings.options
      type := wrapper settings [.method method] } := by
  have hmembers : (Env.atTop tree.toForest settings settings.options).lowerMembers id
      settings.className true = .ok [.method method] := by
    unfold Env.lowerMembers
    simp only [Env.atTop, hdecl]
    exact Result.bind_ok.2 ⟨method, hmethod, rfl⟩
  rw [lowerFile, hbad, hroot]
  simp only [lowerDeclarations, hone, hsole, List.foldlM, lowerDeclaration, hdecl, reduceCtorEq,
    if_false, hmembers]
  rfl

end Files

end StructuredBasic.Lowering
