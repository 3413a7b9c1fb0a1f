import StructuredBasic.Proofs.Forest.Gather
import StructuredBasic.Proofs.Lowering.Declarations

/-!
# Nothing is skipped

Some kinds of statements and declarations have no lowering (`Kind.hasNoLowering`). A file that
lowers holds none of them, however deep (`lowered_file_supported`): each list of statements or
declarations is visited whole, and what is not visited is inert.
-/

set_option autoImplicit false

namespace StructuredBasic.Syntax

/-! ## Kinds without a lowering -/

/-- Kinds of statements and declarations that have no lowering. -/
def Kind.hasNoLowering : Kind → Bool
  | .resumeStatement | .continueStatement | .errorStatement | .onErrorStatement |
    .addHandlerStatement | .removeHandlerStatement | .syncLockBlockStatement |
    .usingBlockStatement | .tryBlockStatement | .catchBlockStatement | .finallyBlockStatement |
    .attributeDeclaration | .namespaceDeclaration | .interfaceDeclaration |
    .delegateSubDeclaration | .delegateFunctionDeclaration | .eventDeclaration |
    .operatorDeclaration => true
  | _ => false

/-- The node itself where its kind has no lowering. -/
def Forest.unlowered (f : Forest) (id : Nat) : List Nat :=
  if (f.kind id).hasNoLowering then [id] else []

theorem Forest.unlowered_eq_nil {f : Forest} {id : Nat} :
    f.unlowered id = [] ↔ (f.kind id).hasNoLowering = false := by
  unfold unlowered
  cases (f.kind id).hasNoLowering <;> simp

theorem Forest.sparse_unlowered (f : Forest) : f.Sparse f.unlowered := by
  constructor
  · intro d hd
    rw [unlowered_eq_nil]
    cases hk : f.kind d <;> rw [hk] at hd <;> first
      | rfl
      | cases hd
  · intro d hd
    rw [unlowered_eq_nil, hd]
    rfl
  · intro d hd
    rw [unlowered_eq_nil, hd]
    rfl

/-- Nothing at or below the node lacks a lowering. -/
def Forest.Supported (f : Forest) (id : Nat) : Prop := f.gather f.unlowered id = []

/-- Statements whose kind may have no lowering. -/
def Stmt.mayLackLowering : Stmt → Bool
  | .resume .. | .next _ | .raise _ | .onError .. | .handler .. | .guarded .. | .usingBlock .. |
    .tryBlock .. | .catchBlock .. | .body _ => true
  | _ => false

theorem Stmt.hasNoLowering_of_describes {s : Stmt} {kind : Kind} (hd : s.describes kind = true)
    (hs : s.mayLackLowering = false) : kind.hasNoLowering = false := by
  have hall : s.kinds.all (fun k => !k.hasNoLowering) = true := by
    cases s <;> first
      | rfl
      | cases hs
  simpa using Stmt.of_kinds hd hall

/-- Declarations whose kind may have no lowering. -/
def Decl.mayLackLowering : Decl → Bool
  | .attributes _ | .namespaceBlock .. | .typeBlock .. | .delegate .. | .event .. | .method .. =>
    true
  | _ => false

theorem Decl.hasNoLowering_of_describes {d : Decl} {kind : Kind} (hd : d.describes kind = true)
    (hs : d.mayLackLowering = false) : kind.hasNoLowering = false := by
  have hall : d.kinds.all (fun k => !k.hasNoLowering) = true := by
    cases d <;> first
      | rfl
      | cases hs
  simpa using Decl.of_kinds hd hall

namespace Forest

variable {f : Forest}

theorem supported_iff {id : Nat} :
    f.Supported id ↔ ∀ d ∈ f.descendants id, (f.kind d).hasNoLowering = false := by
  simp only [Supported, gather, List.flatMap_eq_nil_iff, unlowered_eq_nil]

theorem supported_all {ids : List Nat} (h : ∀ x ∈ ids, f.Supported x) :
    ids.flatMap (f.gather f.unlowered) = [] :=
  List.flatMap_eq_nil_iff.2 h

theorem Shaped.supported_stmt (hf : Shaped f) {id : Nat} {s : Stmt} (h : f.stmt? id = some s)
    (hk : (f.kind id).hasNoLowering = false)
    (hlists : ∀ list ∈ s.lists, ∀ x ∈ f.elements list, f.Supported x)
    (hlast : ∀ x, s.last? = some x → f.Supported x) : f.Supported id := by
  have h1 : (s.lists.flatMap f.elements).flatMap (f.gather f.unlowered) = [] := by
    refine supported_all fun x hx => ?_
    obtain ⟨list, hl, hx⟩ := List.mem_flatMap.1 hx
    exact hlists list hl x hx
  have h2 : s.last?.toList.flatMap (f.gather f.unlowered) = [] := by
    refine supported_all fun x hx => hlast x ?_
    simpa using hx
  rw [Supported, hf.gather_stmt f.sparse_unlowered h, h1, h2, unlowered_eq_nil.2 hk]
  rfl

theorem Shaped.supported_decl (hf : Shaped f) {id : Nat} {d : Decl} (h : f.decl? id = some d)
    (hk : (f.kind id).hasNoLowering = false)
    (hlist : ∀ x ∈ f.elements d.list?, f.Supported x) : f.Supported id := by
  rw [Supported, hf.gather_decl f.sparse_unlowered h, supported_all hlist, unlowered_eq_nil.2 hk]
  rfl

end Forest

end StructuredBasic.Syntax

namespace StructuredBasic.Lowering

open Syntax

/-! ## Statements -/

section Statements

variable {routine : Routine} {env : Env} {id : Nat} {s t : BodyState}

theorem LowersPlain.stmt {out : List Target.Stmt} (h : LowersPlain routine env id s out t) :
    ∃ stmt, env.forest.stmt? id = some stmt ∧ stmt.mayLackLowering = false ∧ stmt.lists = [] ∧
      stmt.last? = none := by
  cases h <;> (refine ⟨_, by assumption, ?_, ?_, ?_⟩ <;> rfl)

/-- The node is a statement of a form that lowers, and its one list holds all its statements. -/
def HasList (f : Forest) (id : Nat) (statements : Option Nat) : Prop :=
  ∃ stmt, f.stmt? id = some stmt ∧ stmt.mayLackLowering = false ∧ stmt.lists = [statements] ∧
    stmt.last? = none

theorem HasList.below {f : Forest} {node : Nat} {statements : Option Nat}
    (h : HasList f id statements) (hid : id ∈ f.descendants node) :
    ∀ x ∈ f.elements statements, x ∈ f.descendants node := by
  obtain ⟨stmt, hstmt, _, hlists, _⟩ := h
  exact Forest.elements_below hid hstmt (by simp [hlists])

theorem HasList.gather {f : Forest} (hf : f.Shaped) {α : Type} {g : Nat → List α}
    (hg : f.Sparse g) {statements : Option Nat} (h : HasList f id statements) :
    f.gather g id = g id ++ (f.elements statements).flatMap (f.gather g) := by
  obtain ⟨stmt, hstmt, _, hlists, hlast⟩ := h
  rw [hf.gather_stmt hg hstmt, hlists, hlast]
  simp

theorem LoopHead.hasList {test : Target.Expr} {statements : Option Nat}
    (h : LoopHead env id test statements) : HasList env.forest id statements := by
  cases h with
  | doBlock h => exact ⟨_, h, rfl, rfl, rfl⟩
  | endless h => exact ⟨_, h, rfl, rfl, rfl⟩
  | whileBlock h => exact ⟨_, h, rfl, rfl, rfl⟩

theorem CountedHead.hasList {declared : List Target.Stmt} {control lower upper step : Target.Expr}
    {statements : Option Nat}
    (h : CountedHead env id declared control lower upper step statements) :
    HasList env.forest id statements := by
  cases h with
  | forBlock h => exact ⟨_, h, rfl, rfl, rfl⟩

theorem ElementHead.hasList {declared : List Target.Stmt} {control collection : Target.Expr}
    {type : Target.Ty} {statements : Option Nat}
    (h : ElementHead env id declared control collection type statements) :
    HasList env.forest id statements := by
  cases h with
  | forEachBlock h => exact ⟨_, h, rfl, rfl, rfl⟩

theorem Arm.hasList {value : Option Target.Expr} {test : Target.Expr} {statements : Option Nat}
    (h : Arm env id value test statements) : HasList env.forest id statements := by
  cases h with
  | elseIf h => exact ⟨_, h, rfl, rfl, rfl⟩
  | case h => exact ⟨_, h, rfl, rfl, rfl⟩

theorem HasList.supported {f : Forest} (hf : f.Shaped) {statements : Option Nat}
    (h : HasList f id statements) (hb : ∀ x ∈ f.elements statements, f.Supported x) :
    f.Supported id := by
  obtain ⟨stmt, hstmt, hs, hlists, hlast⟩ := h
  have hk := Stmt.hasNoLowering_of_describes (hf.describes_stmt hstmt) hs
  refine hf.supported_stmt hstmt hk ?_ ?_
  · rw [hlists]
    intro list hl
    rw [List.mem_singleton.1 hl]
    exact hb
  · intro x hx
    rw [hlast] at hx
    cases hx

/-- The last block of a statement that lowers is an `Else` or a `Case Else`. -/
theorem Stmt.slot_of_last {stmt : Stmt} {x : Nat} (hs : stmt.mayLackLowering = false)
    (hx : stmt.last? = some x) : ∃ field k, k.hasNoLowering = false ∧
      ⟨field, x, .kind k⟩ ∈ stmt.slots := by
  cases stmt <;> cases hx
  case tryBlock => cases hs
  case ifBlock => exact ⟨"else_block", .elseBlockStatement, rfl, by simp [Stmt.slots, Slot.opt]⟩
  case selectBlock =>
    exact ⟨"case_else", .caseElseBlockStatement, rfl, by simp [Stmt.slots, Slot.opt]⟩

theorem hasNoLowering_of_last {f : Forest} (hf : f.Shaped) {stmt : Stmt}
    (h : f.stmt? id = some stmt) (hs : stmt.mayLackLowering = false) (x : Nat)
    (hx : stmt.last? = some x) : (f.kind x).hasNoLowering = false := by
  obtain ⟨n, hn, hp⟩ := Option.map_eq_some_iff.1 (Forest.payload?_of_stmt? h)
  obtain ⟨field, k, hk, hslot⟩ := Stmt.slot_of_last hs hx
  have hadmits := hf.slots id n hn ⟨field, x, .kind k⟩ (by rw [hp]; exact hslot)
  simp only [Expect.admits, Kind.isBad, Bool.or_eq_true, beq_iff_eq] at hadmits
  rcases hadmits with hbad | hkind
  · rw [hbad]; rfl
  · rw [← hkind]; exact hk

end Statements

mutual

theorem Lowers.supported {routine : Routine} {env : Env} {id : Nat} {s t : BodyState}
    {out : List Target.Stmt} (h : Lowers routine env id s out t) (hf : env.forest.Shaped) :
    env.forest.Supported id := by
  match h with
  | .plain h =>
    obtain ⟨stmt, hstmt, hs, hlists, hlast⟩ := h.stmt
    have hk := Stmt.hasNoLowering_of_describes (hf.describes_stmt hstmt) hs
    exact hf.supported_stmt hstmt hk (by simp [hlists]) (by simp [hlast])
  | .preTest h hb => exact h.hasList.supported hf (hb.supported hf)
  | .postTest h ht hb hc =>
    have hlist : HasList env.forest id _ := ⟨_, h, rfl, rfl, rfl⟩
    exact hlist.supported hf (hb.supported hf)
  | .counted h hb => exact h.hasList.supported hf (hb.supported hf)
  | .element h hb => exact h.hasList.supported hf (hb.supported hf)
  | @Lowers.within _ _ _ _ _ _ _ _ subject _ h hk hs hb =>
    have hf' : (env.within subject).forest.Shaped := hf
    have hbody := hb.supported hf'
    exact hf.supported_stmt h (by rw [hk]; rfl) (List.forall_mem_singleton.2 hbody)
      (by simp [Stmt.last?])
  | .ifBlock h hc hthen helseIfs helse =>
    have hthen := hthen.supported hf
    have helseIfs := helseIfs.supported hf
    have helse := helse.supported hf (hasNoLowering_of_last hf h rfl)
    have hk := Stmt.hasNoLowering_of_describes (hf.describes_stmt h) rfl
    refine hf.supported_stmt h hk ?_ helse
    rintro list (_ | ⟨_, _ | ⟨_, hl⟩⟩)
    · exact hthen
    · exact helseIfs
    · cases hl
  | .lineIf h hc hthen helse =>
    have hthen := hthen.supported hf
    have helse := helse.supported hf
    have hk := Stmt.hasNoLowering_of_describes (hf.describes_stmt h) rfl
    refine hf.supported_stmt h hk ?_ (by simp [Stmt.last?])
    rintro list (_ | ⟨_, _ | ⟨_, hl⟩⟩)
    · exact hthen
    · exact helse
    · cases hl
  | .select h hs hcases helse =>
    have hcases := hcases.supported hf
    have helse := helse.supported hf (hasNoLowering_of_last hf h rfl)
    have hk := Stmt.hasNoLowering_of_describes (hf.describes_stmt h) rfl
    refine hf.supported_stmt h hk ?_ helse
    intro list hl
    rw [List.mem_singleton.1 hl]
    exact hcases

theorem LowersAll.supported {routine : Routine} {env : Env} {ids : List Nat} {s t : BodyState}
    {out : List Target.Stmt} (h : LowersAll routine env ids s out t) (hf : env.forest.Shaped) :
    ∀ x ∈ ids, env.forest.Supported x := by
  match h with
  | .nil => intro x hx; cases hx
  | .cons h hs =>
    have hhead := h.supported hf
    have htail := hs.supported hf
    exact List.forall_mem_cons.2 ⟨hhead, htail⟩

theorem LowersBranches.supported {routine : Routine} {env : Env} {value : Option Target.Expr}
    {ids : List Nat} {s t : BodyState} {branches : List Branch}
    (h : LowersBranches routine env value ids s branches t) (hf : env.forest.Shaped) :
    ∀ x ∈ ids, env.forest.Supported x := by
  match h with
  | .nil => intro x hx; cases hx
  | .cons h hb hs =>
    have hhead := h.hasList.supported hf (hb.supported hf)
    have htail := hs.supported hf
    exact List.forall_mem_cons.2 ⟨hhead, htail⟩

theorem LowersElse.supported {routine : Routine} {env : Env} {block : Option Nat}
    {s t : BodyState} {out : List Target.Stmt} (h : LowersElse routine env block s out t)
    (hf : env.forest.Shaped)
    (hk : ∀ x, block = some x → (env.forest.kind x).hasNoLowering = false) :
    ∀ x, block = some x → env.forest.Supported x := by
  match h with
  | .none => intro x hx; cases hx
  | .some h hb =>
    have hbody := hb.supported hf
    have hblock := hf.supported_stmt h (hk _ rfl) (List.forall_mem_singleton.2 hbody)
      (by simp [Stmt.last?])
    intro x hx
    cases hx
    exact hblock

end

end StructuredBasic.Lowering

namespace StructuredBasic.Lowering

open Syntax

/-! ## Declarations -/

section Declarations

variable {env : Env} {id : Nat}

/-- A declaration of a form that lowers and without statements or members of its own. -/
theorem supported_leaf {f : Forest} (hf : f.Shaped) {d : Decl} (h : f.decl? id = some d)
    (hd : d.mayLackLowering = false) (hl : d.list? = none) : f.Supported id := by
  refine hf.supported_decl h (Decl.hasNoLowering_of_describes (hf.describes_decl h) hd) ?_
  rw [hl]
  intro x hx
  cases hx

theorem supported_of_lowerRoutine (hf : env.forest.Shaped) {name : String} {type : Target.Ty}
    {statements : Option Nat} {body : List Target.Stmt}
    (h : env.lowerRoutine id name type statements = .ok body) :
    ∀ x ∈ env.forest.elements statements, env.forest.Supported x := by
  simp only [Env.lowerRoutine, Result.bind_ok, StateT.run] at h
  obtain ⟨⟨out, t⟩, hbody, _⟩ := h
  exact (lowersAll_of_lowerBody hbody).supported hf

theorem hasNoLowering_of_methodForm {name owner : String} {signature : Signature}
    {form : Target.MethodKind × String × Target.Ty}
    (h : env.methodForm id name owner signature = .ok form) :
    (env.forest.kind id).hasNoLowering = false := by
  unfold Env.methodForm at h
  split at h
  case h_1 hk => rw [hk]; rfl
  case h_2 hk => rw [hk]; rfl
  case h_3 hk => rw [hk]; rfl
  case h_4 => exact absurd h unsupported_ne_ok

theorem supported_of_addAccessor (hf : env.forest.Shaped) {property next : Target.Property}
    (h : env.addAccessor property id = .ok next) : env.forest.Supported id := by
  unfold Env.addAccessor at h
  split at h
  case h_1 hdecl =>
    refine hf.supported_decl hdecl
      (Decl.hasNoLowering_of_describes (hf.describes_decl hdecl) rfl) ?_
    split at h
    · simp only [Result.bind_ok] at h
      obtain ⟨body, hbody, _⟩ := h
      exact supported_of_lowerRoutine hf hbody
    · simp only [Result.bind_ok] at h
      obtain ⟨_, _, body, hbody, _⟩ := h
      exact supported_of_lowerRoutine hf hbody
  case h_2 hdecl => exact supported_leaf hf hdecl rfl rfl
  case h_3 hdecl => exact supported_leaf hf hdecl rfl rfl
  case h_4 => exact absurd h unsupported_ne_ok

theorem supported_of_lowerEnumMember (hf : env.forest.Shaped) {member : Option Target.EnumMember}
    (h : env.lowerEnumMember id = .ok member) : env.forest.Supported id := by
  unfold Env.lowerEnumMember at h
  split at h
  case h_1 hdecl => exact supported_leaf hf hdecl rfl rfl
  case h_2 hdecl => exact supported_leaf hf hdecl rfl rfl
  case h_3 hdecl => exact supported_leaf hf hdecl rfl rfl
  case h_4 => exact absurd h unsupported_ne_ok

theorem supported_of_lowerProperty (hf : env.forest.Shaped) {header : Header}
    {signature : Signature} {accessors : Option Nat} {inModule : Bool} {property : Target.Property}
    (h : env.lowerProperty id header signature accessors inModule = .ok property) :
    ∀ x ∈ env.forest.elements accessors, env.forest.Supported x := by
  simp only [Env.lowerProperty, Result.bind_ok] at h
  obtain ⟨_, _, _, _, _, _, h⟩ := h
  intro x hx
  -- the accessors still to come: either `x` is among them or it has lowered
  have hdone := Result.foldlM_ok (P := fun rest _ => x ∈ rest ∨ env.forest.Supported x)
    (fun y rest _ next hy hnext => ?_) _ (Or.inl hx) h
  · exact hdone.resolve_left List.not_mem_nil
  · rcases hy with hy | hy
    · rcases List.mem_cons.1 hy with rfl | hy
      · exact Or.inr (supported_of_addAccessor hf hnext)
      · exact Or.inl hy
    · exact Or.inr hy

theorem hasNoLowering_of_typeKind {kind : Kind} {type : Target.TypeKind}
    (h : typeKind? kind = some type) : kind.hasNoLowering = false := by
  unfold typeKind? at h
  split at h <;> first
    | rfl
    | cases h

end Declarations

mutual

theorem LowersType.supported {env : Env} {id : Nat} {type : Target.TypeDecl}
    (hf : env.forest.Shaped) (h : LowersType env id type) : env.forest.Supported id := by
  match h with
  | .block hk h hn hp ha =>
    exact hf.supported_decl h (hasNoLowering_of_typeKind hk) (ha.supported hf)

theorem LowersAdditions.supported {env : Env} {owner : String} {inModule : Bool} {ids : List Nat}
    {additions : List Env.Addition} (hf : env.forest.Shaped)
    (h : LowersAdditions env owner inModule ids additions) :
    ∀ x ∈ ids, env.forest.Supported x := by
  match h with
  | .nil => intro x hx; cases hx
  | .bases h ht hs =>
    have htail := hs.supported hf
    exact List.forall_mem_cons.2 ⟨supported_leaf hf h rfl rfl, htail⟩
  | .members h hs =>
    have hhead := h.supported hf
    have htail := hs.supported hf
    exact List.forall_mem_cons.2 ⟨hhead, htail⟩

theorem LowersMembers.supported {env : Env} {owner : String} {inModule : Bool} {id : Nat}
    {members : List Target.Member} (hf : env.forest.Shaped)
    (h : LowersMembers env owner inModule id members) : env.forest.Supported id := by
  match h with
  | .empty h => exact supported_leaf hf h rfl rfl
  | .endBlock h => exact supported_leaf hf h rfl rfl
  | .fields h hs => exact supported_leaf hf h rfl rfl
  | .method h hs =>
    simp only [Env.lowerMethod, Result.bind_ok] at hs
    obtain ⟨_, _, _, hform, _, _, _, hbody, _⟩ := hs
    exact hf.supported_decl h (hasNoLowering_of_methodForm hform)
      (supported_of_lowerRoutine hf hbody)
  | .external h hs => exact supported_leaf hf h rfl rfl
  | .property h hs =>
    refine hf.supported_decl h ?_ (supported_of_lowerProperty hf hs)
    exact Decl.hasNoLowering_of_describes (hf.describes_decl h) rfl
  | .enumeration h hs =>
    simp only [Env.lowerEnum, Result.bind_ok] at hs
    obtain ⟨_, _, _, _, members, hmembers, _⟩ := hs
    refine hf.supported_decl h (Decl.hasNoLowering_of_describes (hf.describes_decl h) rfl) ?_
    intro x hx
    obtain ⟨member, _, hmember⟩ := Result.exists_of_mapM_ok hmembers x hx
    exact supported_of_lowerEnumMember hf hmember
  | .type h => exact h.supported hf

end

theorem LowersFile.supported {forest : Forest} {settings : Settings} {ids : List Nat}
    {state last : FileState} (hf : forest.Shaped)
    (h : LowersFile forest settings ids state last) : ∀ x ∈ ids, forest.Supported x := by
  induction h with
  | nil => intro x hx; cases hx
  | cons h hs ih =>
    refine List.forall_mem_cons.2 ⟨?_, ih⟩
    cases h with
    | directive h => exact supported_leaf hf h rfl rfl
    | imports h hi => exact supported_leaf hf h rfl rfl
    | empty h => exact supported_leaf hf h rfl rfl
    | endBlock h => exact supported_leaf hf h rfl rfl
    | type h => exact h.supported hf
    | members h => exact h.supported hf

/-- A file that lowers holds no statement and no declaration without a lowering. -/
theorem lowered_file_supported {tree : Tree} {settings : Settings} {program : Target.Program}
    (hfinished : tree.Finished) (h : lowerFile tree settings = .ok program) :
    ∀ d ∈ tree.descendants tree.root, (tree.kind d).hasNoLowering = false := by
  have hf := hfinished.built.shaped
  obtain ⟨file, state, hroot, hfile, _⟩ := lowersFile_of_lowerFile h
  rw [← Forest.supported_iff]
  have hkind : (tree.kind tree.root).hasNoLowering = false := by
    obtain ⟨n, hn, hp⟩ := Option.map_eq_some_iff.1 hroot
    have hfit := (Payload.fits_of_fault? (hf.payload tree.root n hn)).1
    rw [hp] at hfit
    rw [Forest.kind, hn]
    simp only [Kind.eq_file hfit]
    rfl
  rw [Forest.Supported, hf.gather_file tree.toForest.sparse_unlowered hroot,
    Forest.supported_all (hfile.supported hf), Forest.unlowered_eq_nil.2 hkind]
  rfl

/-- A `Sub` with a loop around an empty statement. -/
def loopFile : List Call :=
  let span := Span.startingAt ⟨1, 1⟩
  [.alloc .simpleName span (.name (.simple "Main" none false)),
    .alloc .booleanLiteralExpression span (.expr (.literal (.boolean true))),
    .alloc .emptyStatement span (.stmt .empty),
    .collection .statementCollection span [some 2] [],
    .alloc .whileBlockStatement span (.stmt (.whileBlock 1 (some 3) none)),
    .collection .statementCollection span [some 4] [],
    .alloc .subDeclaration span
      (.decl (.method ⟨none, none⟩ (.ofName 0) none none (some 5) none)),
    .collection .declarationCollection span [some 6] [],
    .alloc .file span (.file ⟨some 7⟩)]

theorem loopFile_supported : (lowerFile (.ofCalls loopFile 8) .standard).isOk = true ∧
    ∀ d ∈ (Tree.ofCalls loopFile 8).descendants 8,
      ((Tree.ofCalls loopFile 8).kind d).hasNoLowering = false := by
  have hlowers : (lowerFile (.ofCalls loopFile 8) .standard).isOk = true := by decide +kernel
  obtain ⟨program, h⟩ := Result.exists_of_isOk hlowers
  have hfinished : (Tree.ofCalls loopFile 8).Finished := Tree.finished_ofCalls (by decide +kernel)
  exact ⟨hlowers, lowered_file_supported hfinished h⟩

end StructuredBasic.Lowering
