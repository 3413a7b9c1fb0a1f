import StructuredBasic.Proofs.Forest.Accepted
import StructuredBasic.Proofs.Lowering.Enclosing
import StructuredBasic.Proofs.Lowering.Independence

/-!
# Why a file is refused

Lowering comes to the statements of a file by way of its declarations, each of which is a routine
that it enters, holds such routines, or holds expressions only. So the errors of a walk up the tree
that finds nothing never occur, and a file is malformed only for its root or for a cause in one of
its declarations (`enclosing_routine_agrees`).
-/

set_option autoImplicit false

namespace StructuredBasic.Lowering

open Syntax

/-! ## Methods and properties -/

section Methods

variable {env : Env} {root id : Nat}

/-- The statements of a routine that lowering enters are housed by it. -/
theorem explained_lowerRoutine (hf : env.forest.Shaped) (hat : At env root id) {name : String}
    {type : Target.Ty} {statements : Option Nat}
    (h : env.Enters id ⟨name, (env.routineShadow id name type).1, type⟩ statements) :
    (env.lowerRoutine id name type statements).Fails (Explained env root) := by
  have hbelow : HousedBelow env root id statements := by
    intro c hc
    obtain ⟨hchild, _⟩ := (h.holds.list hf).1 c hc
    obtain ⟨d, hd⟩ := (h.holds.list hf).2.2
    have hc : At env root c := by
      refine hat.child hchild ?_
      rintro ⟨_, expression, tail, hstmt⟩
      have hp := Forest.payload?_of_decl? hd
      rw [Forest.payload?_of_stmt? hstmt] at hp
      cases hp
    have hlt := Forest.lt_of_mem_children hchild
    refine ⟨hlt, hc, fun x hx => ⟨id, type, ?_⟩⟩
    have hle := Forest.le_of_mem_descendants hx
    exact enclosing_of_enters hat.linked hf h (Forest.mem_descendants_of_child hchild hx)
      (by omega) rfl
  have hbody : ∀ routine : Routine,
      (env.lowerBody routine statements).Fails (Explained env root) :=
    fun routine => explained_lowerBody (fun x _ => accounted routine root x) hbelow
  unfold Env.lowerRoutine
  exact Result.Fails.bind (hbody _ _) fun _ => Result.fails_ok

theorem explained_lowerParameters {parameters : Option Nat}
    (hat : ∀ c, parameters = some c → At env root c) :
    (env.lowerParameters parameters).Fails (Explained env root) := by
  refine Result.fails_mapM fun parameter hmem => ?_
  have hparameter := At.elements hat parameter hmem
  unfold Env.lowerParameter
  split
  · next p hp =>
    have hdefault : (env.defaultValue parameter p.initializer).Fails (Explained env root) := by
      unfold Env.defaultValue
      split
      · exact Result.fails_ok
      · next initializer hinit =>
        have hat : At env root initializer := hparameter.slot hp rfl fun _ => by
          simp [Payload.slots, Parameter.slots, hinit, Slot.opt]
        split
        · next expression hexpression =>
          have hvalue : At env root expression :=
            hat.initializer hexpression (by simp [Initializer.slots, Slot.expr, Slot.one])
          exact hvalue.lowerExpr.bind fun _ => Result.fails_ok
        · exact hparameter.unsupported
    have part : ∀ {x : Nat}, x ∈ p.slots.map Slot.id → x < env.forest.size :=
      fun hx => (hparameter.slot hp rfl fun _ => hx).present
    have hname : p.name < env.forest.size := part (by simp [Parameter.slots, Slot.one])
    have htype : ∀ c, p.type = some c → c < env.forest.size :=
      fun c hc => part (by simp [Parameter.slots, hc, Slot.opt])
    refine hdefault.bind fun _ => ?_
    refine (blames_nameText hname).explained.bind fun _ => ?_
    exact (blames_variableType p.name htype).explained.bind fun _ => Result.fails_ok
  · exact hparameter.unsupported

theorem explained_typeParameters {parameters : Option Nat}
    (hat : ∀ c, parameters = some c → At env root c) :
    (env.typeParameters parameters).Fails (Explained env root) := by
  refine Result.fails_mapM fun parameter hmem => ?_
  have hparameter := At.elements hat parameter hmem
  split
  · next p hp =>
    have hname : At env root p.name := hparameter.slot hp rfl fun _ => by
      simp [Payload.slots, TypeParameter.slots, Slot.one]
    exact (blames_nameText hname.present).explained
  · exact hparameter.unsupported

/-- What a declaration says of itself stands below it. -/
structure SignatureAt (env : Env) (root : Nat) (signature : Signature) : Prop where
  name : At env root signature.name
  typeParameters : ∀ c, signature.typeParameters = some c → At env root c
  parameters : ∀ c, signature.parameters = some c → At env root c
  resultType : ∀ c, signature.resultType = some c → At env root c

theorem At.signature (hat : At env root id) {d : Decl} (hd : env.forest.decl? id = some d)
    {signature : Signature} (h : ∀ x ∈ signature.slots, x ∈ d.slots) :
    SignatureAt env root signature := by
  have part : ∀ {x : Nat}, x ∈ signature.slots.map Slot.id → At env root x := by
    intro x hx
    obtain ⟨slot, hslot, rfl⟩ := List.mem_map.1 hx
    exact hat.decl hd (List.mem_map_of_mem (h slot hslot))
  refine ⟨part ?_, fun c hc => part ?_, fun c hc => part ?_, fun c hc => part ?_⟩
  · simp [Signature.slots, Slot.one]
  all_goals simp [Signature.slots, hc, Slot.opt]

theorem SignatureAt.nameText {signature : Signature} (h : SignatureAt env root signature) :
    (env.nameText signature.name).Fails (Explained env root) :=
  (blames_nameText h.name.present).explained

theorem SignatureAt.variableType {signature : Signature} (h : SignatureAt env root signature) :
    (env.variableType signature.name signature.resultType).Fails (Explained env root) :=
  (blames_variableType _ fun c hc => (h.resultType c hc).present).explained

theorem explained_methodForm (hat : At env root id) {signature : Signature}
    (hs : SignatureAt env root signature) (name owner : String) :
    (env.methodForm id name owner signature).Fails (Explained env root) := by
  unfold Env.methodForm
  split
  · exact Result.fails_ok
  · exact hs.variableType.bind fun _ => Result.fails_ok
  · exact Result.fails_ok
  · exact hat.unsupported

theorem explained_lowerMethod (hf : env.forest.Shaped) (hat : At env root id) {header : Header}
    {signature : Signature} {operator : Option Operator} {implements statements tail : Option Nat}
    (hdecl : env.forest.decl? id =
      some (.method header signature operator implements statements tail))
    (owner : String) (inModule : Bool) :
    (env.lowerMethod id header signature statements owner inModule).Fails
      (Explained env root) := by
  have hs : SignatureAt env root signature :=
    hat.signature hdecl fun x hx => by simp [Decl.slots, hx]
  have hparameters := explained_lowerParameters hs.parameters
  unfold Env.lowerMethod
  refine hs.nameText.bind_ok fun name hname => ?_
  refine (explained_methodForm hat hs name owner).bind_ok fun form hform => ?_
  obtain ⟨kind, methodName, returnType⟩ := form
  refine hparameters.bind fun _ => ?_
  refine (explained_lowerRoutine hf hat (.method hdecl hname hform)).bind fun _ => ?_
  exact (explained_typeParameters hs.typeParameters).bind fun _ => Result.fails_ok

theorem explained_lowerExternal (hat : At env root id) {header : Header} {signature : Signature}
    {charset : Charset} {library : String} {entryName : Option String}
    (hdecl : env.forest.decl? id = some (.external header signature charset library entryName))
    (entry : Target.Entry) :
    (env.lowerExternal id header signature entry).Fails (Explained env root) := by
  have hs : SignatureAt env root signature :=
    hat.signature hdecl fun x hx => by simp [Decl.slots, hx]
  have hparameters := explained_lowerParameters hs.parameters
  unfold Env.lowerExternal
  split
  · refine hs.variableType.bind fun _ => hs.nameText.bind fun _ => ?_
    exact hparameters.bind fun _ => Result.fails_ok
  · refine Result.fails_ok.bind fun _ => hs.nameText.bind fun _ => ?_
    exact hparameters.bind fun _ => Result.fails_ok

theorem blames_setterParameter (parameters : Option Nat) :
    (env.setterParameter? parameters).Fails (Blames env.forest) := by
  unfold Env.setterParameter?
  split
  · next p hp =>
    obtain ⟨first, _, hp⟩ := Option.bind_eq_some_iff.1 hp
    have hname : p.name < env.forest.size :=
      child_lt_size (Forest.mem_children_of_slot hp fun _ => by
        simp [Payload.slots, Parameter.slots, Slot.one])
    exact (blames_nameText hname).bind fun _ => Result.fails_ok
  · exact Result.fails_ok

theorem explained_addAccessor (hf : env.forest.Shaped) {property : Nat} {header : Header}
    {signature : Signature} {implements accessors tail : Option Nat} {name : String}
    {type : Target.Ty}
    (hdecl : env.forest.decl? property =
      some (.property header signature implements accessors tail))
    (hname : env.nameText signature.name = .ok name)
    (htype : env.variableType signature.name signature.resultType = .ok type)
    (hmem : id ∈ env.forest.elements accessors) (hat : At env root id) {p : Target.Property}
    (hp : p.name = name ∧ p.type = type) :
    (env.addAccessor p id).Fails (Explained env root) := by
  obtain ⟨rfl, rfl⟩ := hp
  unfold Env.addAccessor
  split
  · next haccessor =>
    have henters := Env.Enters.accessor hdecl hname htype hmem haccessor
    split
    · next hk =>
      rw [accessorType_get hk] at henters
      exact (explained_lowerRoutine hf hat henters).bind fun _ => Result.fails_ok
    · next hk =>
      rw [accessorType_set hk] at henters
      refine (blames_setterParameter _).explained.bind fun _ => ?_
      exact (explained_lowerRoutine hf hat henters).bind fun _ => Result.fails_ok
  · exact Result.fails_ok
  · exact Result.fails_ok
  · exact hat.unsupported

theorem explained_lowerProperty (hf : env.forest.Shaped) (hat : At env root id) {header : Header}
    {signature : Signature} {implements accessors tail : Option Nat}
    (hdecl : env.forest.decl? id = some (.property header signature implements accessors tail))
    (inModule : Bool) :
    (env.lowerProperty id header signature accessors inModule).Fails (Explained env root) := by
  have hs : SignatureAt env root signature :=
    hat.signature hdecl fun x hx => by simp [Decl.slots, hx]
  have hparameters := explained_lowerParameters hs.parameters
  have haccessors : ∀ c, accessors = some c → At env root c := fun c hc =>
    hat.decl hdecl (by simp [Decl.slots, Slot.members, hc, Slot.opt])
  unfold Env.lowerProperty
  refine hs.nameText.bind_ok fun name hname => ?_
  refine hs.variableType.bind_ok fun type htype => ?_
  refine hparameters.bind fun parameters => ?_
  refine Result.fails_foldlM (I := fun p => p.name = name ∧ p.type = type) ?_ ⟨rfl, rfl⟩
  intro x hx p hp
  refine ⟨explained_addAccessor hf hdecl hname htype hx (At.elements haccessors x hx) hp, ?_⟩
  intro q hq
  obtain ⟨h1, h2, -⟩ := addAccessor_ok hq
  exact ⟨h1.trans hp.1, h2.trans hp.2⟩

end Methods

/-! ## Types -/

section Types

variable {env : Env} {root id : Nat}

theorem explained_lowerFields (hat : At env root id) {header : Header} {declarators : Nat}
    (hdecl : env.forest.decl? id = some (.variableList header declarators)) (inModule : Bool) :
    (env.lowerFields id header declarators inModule).Fails (Explained env root) := by
  have hdeclarators : At env root declarators :=
    hat.decl hdecl (by simp [Decl.slots, Slot.one])
  unfold Env.lowerFields
  refine (Result.fails_mapM fun declarator hmem => ?_).bind fun _ => Result.fails_ok
  refine (hdeclarators.element hmem).declaredVariables.bind fun _ => ?_
  refine Result.fails_mapM fun v _ => ?_
  unfold Env.lowerField
  split
  · exact (hdeclarators.element hmem).unsupported
  · exact Result.fails_ok

theorem explained_lowerEnum (hat : At env root id) {header : Header} {name : Nat}
    {underlying members tail : Option Nat}
    (hdecl : env.forest.decl? id = some (.enumBlock header name underlying members tail)) :
    (env.lowerEnum header name underlying members).Fails (Explained env root) := by
  have hmembers : ∀ c, members = some c → At env root c := fun c hc =>
    hat.decl hdecl (by simp [Decl.slots, Slot.members, hc, Slot.opt])
  unfold Env.lowerEnum
  have hname : At env root name := hat.decl hdecl (by simp [Decl.slots, Slot.one])
  refine (blames_nameText hname.present).explained.bind fun _ => ?_
  have hunderlying : (env.lowerOptionalType underlying).Fails (Blames env.forest) := by
    unfold Env.lowerOptionalType
    split
    · next type =>
      have htype : At env root type := hat.decl hdecl (by simp [Decl.slots, Slot.opt])
      exact (blames_lowerType htype.present).bind fun _ => Result.fails_ok
    · exact Result.fails_ok
  refine hunderlying.explained.bind fun _ => ?_
  refine (Result.fails_mapM fun member hmem => ?_).bind fun _ => Result.fails_ok
  unfold Env.lowerEnumMember
  split
  · next label value hmember =>
    have part : ∀ {x : Nat}, x ∈ (Decl.enumValue _ label value).slots.map Slot.id → At env root x :=
      (At.elements hmembers member hmem).decl hmember
    have hlabel : At env root label := part (by simp [Decl.slots, Slot.one])
    have hname : ∀ value : Option Target.Expr, Result.Fails (do
        let name ← env.nameText label
        return some (⟨name, value⟩ : Target.EnumMember)) (Explained env root) :=
      fun _ => (blames_nameText hlabel.present).explained.bind fun _ => Result.fails_ok
    split
    · next value =>
      have hvalue : At env root value := part (by simp [Decl.slots, Slot.opt])
      exact hvalue.lowerExpr.map.bind hname
    · exact Result.fails_ok.bind hname
  · exact Result.fails_ok
  · exact Result.fails_ok
  · exact (At.elements hmembers member hmem).unsupported

theorem explained_lowerMembers_of_type (hf : env.forest.Shaped) (hat : At env root id)
    (htype : (env.lowerTypeBlock id).Fails (Explained env root)) (owner : String)
    (inModule : Bool) : (env.lowerMembers id owner inModule).Fails (Explained env root) := by
  rw [Env.lowerMembers]
  split
  · exact Result.fails_ok
  · exact Result.fails_ok
  · next hdecl => exact (explained_lowerFields hat hdecl inModule).bind fun _ => Result.fails_ok
  · next hdecl =>
    exact (explained_lowerMethod hf hat hdecl owner inModule).bind fun _ => Result.fails_ok
  · next hdecl => exact (explained_lowerExternal hat hdecl _).bind fun _ => Result.fails_ok
  · next hdecl =>
    exact (explained_lowerProperty hf hat hdecl inModule).bind fun _ => Result.fails_ok
  · next hdecl => exact (explained_lowerEnum hat hdecl).bind fun _ => Result.fails_ok
  · exact htype.bind fun _ => Result.fails_ok
  · exact hat.unsupported

theorem explained_lowerTypeBlock (hf : env.forest.Shaped) (hat : At env root id) :
    (env.lowerTypeBlock id).Fails (Explained env root) := by
  induction id using Nat.strongRecOn with
  | ind id ih =>
    rw [Env.lowerTypeBlock]
    split
    · next kind header n parameters declarations tail _ hdecl =>
      have hdeclarations : ∀ c, declarations = some c → At env root c := fun c hc =>
        hat.decl hdecl (by simp [Decl.slots, Slot.members, hc, Slot.opt])
      have hname : At env root n := hat.decl hdecl (by simp [Decl.slots, Slot.one])
      have hparameters : ∀ c, parameters = some c → At env root c := fun c hc =>
        hat.decl hdecl (by simp [Decl.slots, hc, Slot.opt])
      refine (blames_nameText hname.present).explained.bind fun name => ?_
      refine (explained_typeParameters hparameters).bind fun _ => ?_
      refine (Result.fails_mapM ?_).bind fun _ => Result.fails_ok
      rintro ⟨member, hmem⟩ _
      have hmember := At.elements hdeclarations member hmem
      dsimp only
      split
      · next types hinherits =>
        have hlist : At env root types := hmember.decl hinherits (by simp [Decl.slots, Slot.one])
        refine (Result.fails_mapM fun type htype => ?_).bind fun _ => Result.fails_ok
        exact (blames_lowerType (hlist.element htype).present).explained
      · have htype := ih member (lt_of_mem_members hdecl hmem) hmember
        exact (explained_lowerMembers_of_type hf hmember htype name _).bind fun _ =>
          Result.fails_ok
    · exact hat.unsupported

theorem explained_lowerMembers (hf : env.forest.Shaped) (hat : At env root id) (owner : String)
    (inModule : Bool) : (env.lowerMembers id owner inModule).Fails (Explained env root) :=
  explained_lowerMembers_of_type hf hat (explained_lowerTypeBlock hf hat) owner inModule

end Types

/-! ## Files -/

section Files

variable {forest : Forest} {settings : Settings} {sole : Option Nat}

theorem outsideWith_of_root {f : Forest} (hl : f.Linked) {root : Nat}
    (h : f.parent? root = none) : OutsideWith f root := by
  intro w c hw hmem
  rcases hl.mem_ancestors_of_mem_descendants hmem with rfl | hmem
  · rw [(hl.mem_children_iff w root).1 hw.mem_children] at h
    cases h
  · rw [Forest.ancestors_of_root h] at hmem
    cases hmem

theorem At.lowerImport {env : Env} {root clause : Nat} (hat : At env root clause) :
    (env.lowerImport clause).Fails (Explained env root) := by
  have part : ∀ {c : ImportClause} {x : Nat},
      env.forest.payload? clause = some (.importClause c) → x ∈ c.slots.map Slot.id →
      x < env.forest.size := fun hp hx => (hat.slot hp rfl fun _ => hx).present
  unfold Env.lowerImport
  split
  · next target hp =>
    have htarget : target < env.forest.size := part hp (by simp [ImportClause.slots, Slot.one])
    exact (blames_qualifiedText htarget).explained.bind fun _ => Result.fails_ok
  · next short target hp =>
    have hshort : short < env.forest.size := part hp (by simp [ImportClause.slots, Slot.one])
    have htarget : target < env.forest.size := part hp (by simp [ImportClause.slots, Slot.one])
    refine (blames_nameText hshort).explained.bind fun _ => ?_
    exact (blames_qualifiedText htarget).explained.bind fun _ => Result.fails_ok
  · exact hat.unsupported

theorem explained_lowerDeclaration (hl : forest.Linked) (hf : forest.Shaped) {id : Nat}
    (hid : id < forest.size) (ho : OutsideWith forest id) (state : FileState) :
    (lowerDeclaration forest settings sole state id).Fails
      (Explained (Env.atTop forest settings state.options) id) := by
  have hat : At (Env.atTop forest settings state.options) id id :=
    ⟨hl, hid, Forest.mem_descendants_self forest id, fun _ => ho⟩
  unfold lowerDeclaration
  dsimp only
  split
  · exact Result.fails_ok
  · next clauses hdecl =>
    have hclauses : At (Env.atTop forest settings state.options) id clauses :=
      hat.decl hdecl (by simp [Decl.slots, Slot.one])
    refine (Result.fails_mapM fun clause hmem => ?_).bind fun _ => Result.fails_ok
    exact (hclauses.element hmem).lowerImport
  · exact Result.fails_ok
  · exact Result.fails_ok
  · split
    · exact (explained_lowerTypeBlock hf hat).bind fun _ => Result.fails_ok
    · exact (explained_lowerMembers hf hat _ true).bind fun _ => Result.fails_ok

/-- One of the declarations of a file holds a cause, under the options that the directives in front
of it have set. -/
def HasCause (forest : Forest) (settings : Settings) (declarations : List Nat)
    (reason : Malformed) : Prop :=
  ∃ place top, declarations[place]? = some top ∧
    ∃ id ∈ forest.descendants top, Cause (envAt forest settings declarations place) id reason

/-- A pass over declarations, behind those that are done, ends at the first that fails. -/
theorem hasCause_of_foldlM (hl : forest.Linked) (hf : forest.Shaped) (done : List Nat)
    {ids : List Nat} (hids : ∀ id ∈ ids, id < forest.size ∧ OutsideWith forest id)
    {state : FileState}
    (hoptions : state.options = optionsAfter forest settings done) {reason : Malformed}
    (h : ids.foldlM (lowerDeclaration forest settings sole) state = .error (.malformed reason)) :
    HasCause forest settings (done ++ ids) reason := by
  induction ids generalizing done state with
  | nil => cases h
  | cons id ids ih =>
    obtain ⟨⟨hid, ho⟩, hids⟩ := List.forall_mem_cons.1 hids
    rw [List.foldlM_cons] at h
    cases hnext : lowerDeclaration forest settings sole state id with
    | error e =>
      rw [hnext] at h
      cases h
      obtain ⟨x, hx, hcause⟩ := (explained_lowerDeclaration hl hf hid ho state _ hnext).cause
      refine ⟨done.length, id, by simp, x, hx, ?_⟩
      rw [envAt_length, ← hoptions]
      exact hcause
    | ok next =>
      rw [hnext] at h
      have hnextOptions : next.options = optionsAfter forest settings (done ++ [id]) := by
        rw [optionsAfter_concat, ← hoptions]
        exact (lowerDeclaration_ok hnext).1
      have hrest := ih (done ++ [id]) hids hnextOptions h
      rw [List.append_assoc] at hrest
      exact hrest

/-- The declarations of a file stand outside of every `With` block. -/
theorem declarations_outside {tree : Tree} (hfinished : tree.Finished) {file : File}
    (hfile : tree.payload? tree.root = some (.file file)) :
    ∀ id ∈ tree.elements file.declarations, id < tree.size ∧ OutsideWith tree.toForest id := by
  have hl := hfinished.built.linked
  let env := Env.atTop tree.toForest .standard Settings.standard.options
  have hroot : At env tree.root tree.root :=
    ⟨hl, lt_size_of_payload hfile, Forest.mem_descendants_self _ _,
      fun _ => outsideWith_of_root hl hfinished.parent_root⟩
  have hlist : ∀ c, file.declarations = some c → At env tree.root c := fun c hc =>
    hroot.slot hfile rfl fun _ => by simp [Payload.slots, File.slots, hc, Slot.opt]
  intro id hid
  have hat := At.elements hlist id hid
  exact ⟨hat.present, hat.outside rfl⟩

/-- A malformed file has a root that is no file, or a cause in one of its declarations. -/
theorem hasCause_of_lowerFile {tree : Tree} (hfinished : tree.Finished) {reason : Malformed}
    (h : lowerFile tree settings = .error (.malformed reason)) :
    (tree.kind tree.root ≠ .file ∧ reason = .rootNotFile (tree.kind tree.root)) ∨
      ∃ file, tree.payload? tree.root = some (.file file) ∧
        HasCause tree.toForest settings (tree.elements file.declarations) reason := by
  have hl := hfinished.built.linked
  have hf := hfinished.built.shaped
  unfold lowerFile at h
  split at h
  · cases h
  · split at h
    · next file hfile =>
      right
      refine ⟨file, hfile, ?_⟩
      have htop := declarations_outside hfinished hfile
      have hpass : ∀ sole, Result.Fails ((tree.elements file.declarations).foldlM
          (lowerDeclaration tree.toForest settings sole) ⟨settings.options, [], none, []⟩)
          (fun e => e = .malformed reason →
            HasCause tree.toForest settings (tree.elements file.declarations) reason) := by
        rintro sole e he rfl
        exact hasCause_of_foldlM hl hf [] htop rfl he
      unfold lowerDeclarations at h
      exact ((hpass _).bind fun _ => Result.fails_ok) _ h rfl
    · next hnot =>
      left
      cases h
      refine ⟨fun hk => ?_, rfl⟩
      have hgood : tree.kind tree.root ≠ .syntaxError := by
        rw [hk]
        decide
      obtain ⟨n, hn, _, hfamily⟩ := hf.exists_node hgood
      rw [hk] at hfamily
      cases hp : n.payload with
      | file file => exact hnot file (by rw [Forest.payload?, hn, Option.map_some, hp])
      | _ =>
        rw [hp] at hfamily
        cases hfamily

/-- The two ways to know the routine of a statement agree. Lowering passes down to the statements of
a method or an accessor a routine that it has entered, and from everywhere below the node the walk
up the tree finds this node, with the result type that was passed down. So the walk never comes to
nothing, and a tree is malformed only for its root, or for a cause in one of its declarations: a
member access without a qualifier outside of `With`, an array bound without a length in 64 bits,
a `Do` loop with two conditions, or a `ReDim` with too many bounds. -/
theorem enclosing_routine_agrees {tree : Tree} (hfinished : tree.Finished) (settings : Settings) :
    (∀ program body, lowerFile tree settings = .ok program → program.HasBody body →
      Entered tree.toForest settings body) ∧
    (∀ options node routine statements,
      (Env.atTop tree.toForest settings options).Enters node routine statements →
      ∀ id ∈ tree.descendants node, id ≠ node → ∀ env : Env, env.forest = tree.toForest →
        env.enclosingRoutine? id = some node ∧ env.exitType id = .ok routine.returnType) ∧
    (∀ reason, lowerFile tree settings = .error (.malformed reason) →
      (tree.kind tree.root ≠ .file ∧ reason = .rootNotFile (tree.kind tree.root)) ∨
      ∃ file, tree.payload? tree.root = some (.file file) ∧
        HasCause tree.toForest settings (tree.elements file.declarations) reason) ∧
    ∀ reason, lowerFile tree settings = .error (.malformed reason) →
      (∀ span, reason ≠ .returnOutsideRoutine span ∧ reason ≠ .exitOutsideRoutine span) ∧
        reason ≠ .getterOutsideProperty := by
  have hl := hfinished.built.linked
  have hf := hfinished.built.shaped
  refine ⟨fun program body h hb => body_entered h hb, ?_, ?_, ?_⟩
  · intro options node routine statements henters id hid hne env henv
    exact enclosing_of_enters hl hf henters hid hne henv
  · exact fun reason h => hasCause_of_lowerFile hfinished h
  · intro reason h
    rcases hasCause_of_lowerFile hfinished h with ⟨_, rfl⟩ | ⟨_, _, _, _, _, _, _, hcause⟩
    · exact ⟨fun _ => ⟨nofun, nofun⟩, nofun⟩
    · cases hcause <;> exact ⟨fun _ => ⟨nofun, nofun⟩, nofun⟩

end Files

/-- An `Exit Property` in a getter, in front of a `Do` loop with a condition at both ends. -/
def getterFile : List Call :=
  let span := Span.startingAt ⟨1, 1⟩
  [.alloc .simpleName span (.name (.simple "Total" (some .integer) false)),
    .alloc .exitStatement span (.stmt (.exit .property)),
    .alloc .booleanLiteralExpression span (.expr (.literal (.boolean true))),
    .alloc .booleanLiteralExpression span (.expr (.literal (.boolean false))),
    .alloc .loopStatement span (.stmt (.loopEnd (some ⟨false, 3⟩))),
    .alloc .doBlockStatement span (.stmt (.doBlock (some ⟨true, 2⟩) none (some 4))),
    .collection .statementCollection span [some 1, some 5] [],
    .alloc .getAccessorDeclaration span (.decl (.accessor ⟨none, none⟩ none (some 6) none)),
    .collection .declarationCollection span [some 7] [],
    .alloc .propertyDeclaration span
      (.decl (.property ⟨none, none⟩ (.ofName 0) none (some 8) none)),
    .collection .declarationCollection span [some 9] [],
    .alloc .file span (.file ⟨some 10⟩)]

theorem getter_accepted : (Forest.empty.after getterFile).size = getterFile.length := by
  decide +kernel

def getterEnv : Env :=
  Env.atTop (Tree.ofCalls getterFile 11).toForest .standard Settings.standard.options

theorem getter_enclosed : (Tree.ofCalls getterFile 11).Finished ∧
    (∃ routine, getterEnv.Enters 7 routine (some 6) ∧
      getterEnv.enclosingRoutine? 1 = some 7 ∧
      getterEnv.exitType 1 = .ok routine.returnType ∧
      routine.returnType = .primitive .int) ∧
    lowerFile (.ofCalls getterFile 11) .standard =
      .error (.malformed (.conditionAtBothEnds (Span.startingAt ⟨1, 1⟩))) ∧
    HasCause (Tree.ofCalls getterFile 11).toForest .standard [9]
      (.conditionAtBothEnds (Span.startingAt ⟨1, 1⟩)) := by
  have hfinished : (Tree.ofCalls getterFile 11).Finished :=
    Tree.finished_of_last getter_accepted rfl
  have hlowers : lowerFile (.ofCalls getterFile 11) .standard =
      .error (.malformed (.conditionAtBothEnds (Span.startingAt ⟨1, 1⟩))) := by
    rw [Tree.ofCalls_eq_settled 11 getter_accepted]
    with_unfolding_all rfl
  have hdecls : getterEnv.forest.decl? 9 =
        some (.property ⟨none, none⟩ (.ofName 0) none (some 8) none) ∧
      getterEnv.forest.decl? 7 = some (.accessor ⟨none, none⟩ none (some 6) none) ∧
      7 ∈ getterEnv.forest.elements (some 8) := by
    rw [getterEnv, Tree.ofCalls_eq_settled 11 getter_accepted]
    exact ⟨rfl, rfl, List.mem_cons_self⟩
  have hname : getterEnv.nameText 0 = .ok "Total" := by
    rw [getterEnv, Tree.ofCalls_eq_settled 11 getter_accepted]
    decide +kernel
  have htype : getterEnv.variableType 0 none = .ok (.primitive .int) := by
    rw [getterEnv, Tree.ofCalls_eq_settled 11 getter_accepted]
    rfl
  have hkind : getterEnv.forest.kind 7 = .getAccessorDeclaration := by
    rw [getterEnv, Tree.ofCalls_eq_settled 11 getter_accepted]
    rfl
  obtain ⟨hproperty, haccessor, hmem⟩ := hdecls
  have henters := Env.Enters.accessor hproperty hname htype hmem haccessor
  have hbelow : 1 ∈ (Tree.ofCalls getterFile 11).descendants 7 := by
    rw [Tree.ofCalls_eq_settled 11 getter_accepted]
    decide +kernel
  have hroot : (Tree.ofCalls getterFile 11).payload? 11 = some (.file ⟨some 10⟩) := by
    rw [Tree.ofCalls_eq_settled 11 getter_accepted]
    rfl
  have helements : (Tree.ofCalls getterFile 11).elements (some 10) = [9] := by
    rw [Tree.ofCalls_eq_settled 11 getter_accepted]
    rfl
  obtain ⟨_, hagrees, hcauses, _⟩ := enclosing_routine_agrees hfinished .standard
  obtain ⟨hroutine, hexit⟩ :=
    hagrees _ 7 _ _ henters 1 hbelow (by decide) getterEnv rfl
  refine ⟨hfinished, ⟨_, henters, hroutine, hexit, by rw [hkind]; rfl⟩, hlowers, ?_⟩
  rcases hcauses _ hlowers with ⟨_, h⟩ | ⟨file, hfile, h⟩
  · cases h
  · cases hroot.symm.trans hfile
    rw [helements] at h
    exact h

end StructuredBasic.Lowering
