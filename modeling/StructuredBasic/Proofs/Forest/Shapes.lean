import StructuredBasic.Proofs.Forest.Walks

/-!
# Shapes of the nodes of a built forest

`Shaped f` says that every node passed the checks of its addition: its payload fits its kind, and
every child is of a kind that its place expects. Statements and declarations stand only in lists of
statements and of declarations, so below an inert node (an expression, a type, a parameter, the line
that closes a block, …) every node is inert (`Shaped.inert_of_mem_descendants`).
-/

set_option autoImplicit false

namespace StructuredBasic.Syntax

namespace Forest

/-! ## Built forests -/

/-- Every node passed the checks of its addition. -/
structure Shaped (f : Forest) : Prop where
  payload : ∀ id n, f.node? id = some n → payloadFault? n.kind n.payload = none
  slots : ∀ id n, f.node? id = some n →
    ∀ slot ∈ n.payload.slots n.kind, slot.expect.admits (f.kind slot.id) = true
  comments : ∀ id n, f.node? id = some n →
    ∀ c ∈ n.comments, (Expect.kind .comment).admits (f.kind c) = true
  commentable : ∀ id n, f.node? id = some n → n.comments = [] ∨ n.kind.isCommentable = true

variable {f : Forest}

theorem admits_of_mentionFault? {kind : Kind} {slot : Slot}
    (h : f.mentionFault? kind slot = none) : slot.expect.admits (f.kind slot.id) = true := by
  unfold mentionFault? at h
  unfold Forest.kind
  split at h
  · cases h
  · next n hn =>
    rw [hn]
    split at h
    · assumption
    · cases h

theorem Shaped.empty : Shaped Forest.empty := by
  constructor <;> intro id n hn <;> simp [node?, Forest.empty] at hn

/-- Additions change parents only, and a child keeps its kind. -/
theorem Shaped.push (hf : Shaped f) {node : Node} (h : f.Admitted node) :
    Shaped (f.push node h.unadopted h.present) := by
  have hkind : ∀ c, c < f.size → (f.push node h.unadopted h.present).kind c = f.kind c := by
    intro c hc
    rw [kind_push, if_neg (Nat.ne_of_lt hc)]
  -- an older node is what it was up to its parent, and its children are older still
  have hold : ∀ id n, (f.push node h.unadopted h.present).node? id = some n →
      (n.kind = node.kind ∧ n.payload = node.payload ∧ n.comments = node.comments) ∨
      ∃ m, f.node? id = some m ∧ n.kind = m.kind ∧ n.payload = m.payload ∧
        n.comments = m.comments := by
    intro id n hn
    rw [node?_push] at hn
    split at hn
    · cases hn
      exact Or.inl ⟨rfl, rfl, rfl⟩
    · obtain ⟨m, hm, rfl⟩ := Option.map_eq_some_iff.1 hn
      refine Or.inr ⟨m, hm, ?_⟩
      split <;> exact ⟨rfl, rfl, rfl⟩
  have holder : ∀ id m c, f.node? id = some m → c ∈ m.children → c < f.size := by
    intro id m c hm hc
    have h1 := f.child_lt id m hm c hc
    have h2 : id < f.size := (Array.getElem?_eq_some_iff.1 hm).1
    omega
  constructor
  · intro id n hn
    rcases hold id n hn with ⟨h1, h2, _⟩ | ⟨m, hm, h1, h2, _⟩
    · rw [h1, h2]; exact h.payload
    · rw [h1, h2]; exact hf.payload id m hm
  · intro id n hn slot hs
    rcases hold id n hn with ⟨h1, h2, _⟩ | ⟨m, hm, h1, h2, _⟩
    · rw [h1, h2] at hs
      rw [hkind _ (lt_size_of_mentionFault? (h.slots slot hs))]
      exact admits_of_mentionFault? (h.slots slot hs)
    · rw [h1, h2] at hs
      have hc : slot.id ∈ m.children := List.mem_append_left _ (List.mem_map.2 ⟨slot, hs, rfl⟩)
      rw [hkind _ (holder id m _ hm hc)]
      exact hf.slots id m hm slot hs
  · intro id n hn c hc
    rcases hold id n hn with ⟨_, _, h3⟩ | ⟨m, hm, _, _, h3⟩
    · rw [h3] at hc
      rw [hkind c (lt_size_of_mentionFault? (h.comments c hc))]
      exact admits_of_mentionFault? (h.comments c hc)
    · rw [h3] at hc
      rw [hkind c (holder id m c hm (List.mem_append_right _ hc))]
      exact hf.comments id m hm c hc
  · intro id n hn
    rcases hold id n hn with ⟨h1, _, h3⟩ | ⟨m, hm, h1, _, h3⟩
    · rw [h1, h3]; exact h.commentable
    · rw [h1, h3]; exact hf.commentable id m hm

/-- A forest that calls have made out of nothing. -/
def Built (f : Forest) : Prop := ∃ calls, f = Forest.empty.after calls

theorem Built.linked (h : Built f) : Linked f := by
  obtain ⟨calls, rfl⟩ := h
  exact linked_after calls

theorem Built.shaped (h : Built f) : Shaped f := by
  obtain ⟨calls, rfl⟩ := h
  exact after_induction Shaped.empty (fun _ _ h hf => hf.push h) calls

theorem toForest_of_finish {f : Forest} {root : Nat} {tree : Tree}
    (h : f.finish root = .ok tree) : tree.toForest = f := by
  unfold finish at h
  split at h
  · cases h
  · split at h
    · cases h
    · cases h
      rfl

end Forest

/-- A tree that calls have made and that was finished at one of its nodes. -/
def Tree.Finished (tree : Tree) : Prop :=
  ∃ calls root, (Forest.empty.after calls).finish root = .ok tree

theorem Tree.Finished.built {tree : Tree} (h : tree.Finished) : tree.toForest.Built := by
  obtain ⟨calls, root, h⟩ := h
  exact ⟨calls, Forest.toForest_of_finish h⟩

theorem Tree.Finished.parent_root {tree : Tree} (h : tree.Finished) :
    tree.parent? tree.root = none := by
  obtain ⟨calls, root, h⟩ := h
  unfold Forest.finish at h
  split at h
  · cases h
  · next n hn =>
    split at h
    · cases h
    · next hparent =>
      cases h
      simpa only [Forest.parent?, hn, Option.bind_some, Option.isSome_iff_ne_none, ne_eq,
        Decidable.not_not] using hparent

/-- The tree that calls make, at one of their nodes. -/
def Tree.ofCalls (calls : List Call) (root : Nat) : Tree :=
  { Forest.empty.after calls with root := root }

theorem Tree.finished_ofCalls {calls : List Call} {root : Nat}
    (h : ((Forest.empty.after calls).node? root).map Node.parent = some none) :
    (Tree.ofCalls calls root).Finished := by
  obtain ⟨n, hn, hp⟩ := Option.map_eq_some_iff.1 h
  refine ⟨calls, root, ?_⟩
  simp only [Forest.finish, hn, hp, Option.isSome_none]
  rfl

/-! ## Slots by what they expect -/

namespace Slot

theorem mem_opt {slot : Slot} {field : String} {id : Option Nat} {expect : Expect} :
    slot ∈ opt field id expect ↔ ∃ c, id = some c ∧ slot = ⟨field, c, expect⟩ := by
  cases id with
  | none => simp [opt]
  | some c => simp [opt]

theorem forall_mem_one {P : Slot → Prop} {field : String} {id : Nat} {expect : Expect} :
    (∀ slot ∈ one field id expect, P slot) ↔ P ⟨field, id, expect⟩ := by
  simp [one]

theorem forall_mem_opt {P : Slot → Prop} {field : String} {id : Option Nat} {expect : Expect} :
    (∀ slot ∈ opt field id expect, P slot) ↔ ∀ c, id = some c → P ⟨field, c, expect⟩ := by
  cases id with
  | none => simp [opt]
  | some c => simp [opt]

end Slot

/-! ## Kinds of statements and declarations -/

/-- The kinds that a statement of this form may have. -/
def Stmt.kinds : Stmt → List Kind
  | .empty => [.emptyStatement, .endStatement, .stopStatement]
  | .labelReference .. => [.gotoStatement, .goSubStatement, .labelStatement]
  | .resume .. => [.resumeStatement]
  | .exit _ => [.exitStatement]
  | .next _ => [.continueStatement]
  | .returnValue _ => [.returnStatement]
  | .raise _ => [.errorStatement]
  | .onError .. => [.onErrorStatement]
  | .raiseEvent .. => [.raiseEventStatement]
  | .handler .. => [.addHandlerStatement, .removeHandlerStatement]
  | .reDim .. => [.reDimStatement]
  | .erase _ => [.eraseStatement]
  | .call .. => [.callStatement]
  | .assignment .. => [.assignmentStatement]
  | .compoundAssignment .. => [.compoundAssignmentStatement]
  | .midAssignment .. => [.midAssignmentStatement]
  | .localDeclaration .. => [.localDeclarationStatement]
  | .endBlock _ => [.endBlockStatement]
  | .loopEnd _ => [.loopStatement]
  | .nextEnd _ => [.nextStatement]
  | .doBlock .. => [.doBlockStatement]
  | .whileBlock .. => [.whileBlockStatement]
  | .forBlock .. => [.forBlockStatement]
  | .forEachBlock .. => [.forEachBlockStatement]
  | .guarded .. => [.withBlockStatement, .syncLockBlockStatement]
  | .usingBlock .. => [.usingBlockStatement]
  | .tryBlock .. => [.tryBlockStatement]
  | .catchBlock .. => [.catchBlockStatement]
  | .body _ => [.finallyBlockStatement, .elseBlockStatement, .caseElseBlockStatement]
  | .ifBlock .. => [.ifBlockStatement]
  | .elseIfBlock .. => [.elseIfBlockStatement]
  | .lineIf .. => [.lineIfStatement]
  | .selectBlock .. => [.selectBlockStatement]
  | .caseBlock .. => [.caseBlockStatement]

/-- The kinds that a declaration of this form may have. -/
def Decl.kinds : Decl → List Kind
  | .empty => [.emptyDeclaration]
  | .endBlock _ => [.endBlockDeclaration]
  | .directive _ => [.optionDeclaration]
  | .imports _ => [.importsDeclaration]
  | .attributes _ => [.attributeDeclaration]
  | .namespaceBlock .. => [.namespaceDeclaration]
  | .typeBlock .. => [.classDeclaration, .moduleDeclaration, .structureDeclaration,
      .interfaceDeclaration]
  | .enumBlock .. => [.enumDeclaration]
  | .enumValue .. => [.enumValueDeclaration]
  | .delegate .. => [.delegateSubDeclaration, .delegateFunctionDeclaration]
  | .event .. => [.eventDeclaration]
  | .method .. => [.subDeclaration, .functionDeclaration, .constructorDeclaration,
      .operatorDeclaration]
  | .external .. => [.externalSubDeclaration, .externalFunctionDeclaration]
  | .property .. => [.propertyDeclaration]
  | .accessor .. => [.getAccessorDeclaration, .setAccessorDeclaration]
  | .variableList .. => [.variableListDeclaration]
  | .typeList _ => [.inheritsDeclaration, .implementsDeclaration]

theorem Stmt.mem_kinds {s : Stmt} {kind : Kind} (h : s.describes kind = true) :
    kind ∈ s.kinds := by
  unfold Stmt.describes at h
  split at h <;> first
    | exact List.mem_of_elem_eq_true rfl
    | cases h

theorem Decl.mem_kinds {d : Decl} {kind : Kind} (h : d.describes kind = true) :
    kind ∈ d.kinds := by
  unfold Decl.describes at h
  split at h <;> first
    | exact List.mem_of_elem_eq_true rfl
    | cases h

/-- What the kinds of a form are tested for holds of the kind that a statement has. -/
theorem Stmt.of_kinds {s : Stmt} {kind : Kind} (h : s.describes kind = true) {p : Kind → Bool}
    (hp : s.kinds.all p = true) : p kind = true :=
  List.all_eq_true.1 hp kind (Stmt.mem_kinds h)

theorem Decl.of_kinds {d : Decl} {kind : Kind} (h : d.describes kind = true) {p : Kind → Bool}
    (hp : d.kinds.all p = true) : p kind = true :=
  List.all_eq_true.1 hp kind (Decl.mem_kinds h)

/-! ## Inert nodes -/

/-- Kinds of nodes below which no statement and no declaration has a place, other than the lines
that close blocks. -/
def Kind.isInert (kind : Kind) : Bool :=
  match kind with
  | .statementCollection | .declarationCollection | .file => false
  | .endBlockStatement | .loopStatement | .nextStatement | .endBlockDeclaration => true
  | other =>
    match other.family with
    | .statement | .declaration => false
    | _ => true

/-- Whether every kind that a place accepts is inert. -/
def Expect.isInert : Expect → Bool
  | .family .statement | .family .declaration | .family .file | .family .collection => false
  | .family _ => true
  | .kind k => k.isInert

theorem Expect.isInert_of_admits {expect : Expect} {kind : Kind} (he : expect.isInert = true)
    (ha : expect.admits kind = true) : kind.isInert = true := by
  cases expect with
  | family family =>
    cases kind <;> first
      | rfl
      | (simp only [Expect.admits, Family.contains, Kind.family, Kind.isBad, Bool.or_eq_true,
          beq_iff_eq, reduceCtorEq, false_or] at ha
         subst ha
         exact absurd he (by decide))
  | kind expected =>
    simp only [Expect.admits, Kind.isBad, Bool.or_eq_true, beq_iff_eq] at ha
    rcases ha with rfl | rfl
    · rfl
    · exact he

/-- The places of an inert statement are inert: it is a line that closes a block. -/
theorem Stmt.inert_slots {s : Stmt} {kind : Kind} (hd : s.describes kind = true)
    (hk : kind.isInert = true) : ∀ slot ∈ s.slots, slot.expect.isInert = true := by
  have hother : s.kinds.all (fun k => !k.isInert) = true → False := by
    intro hall
    have hnot := Stmt.of_kinds hd hall
    rw [hk] at hnot
    cases hnot
  cases s with
  | endBlock => simp [Stmt.slots]
  | loopEnd condition =>
    cases condition with
    | none => simp [Stmt.slots, LoopCondition.slots]
    | some condition =>
      rw [Stmt.slots, LoopCondition.slots, Slot.expr, Slot.forall_mem_one]
      rfl
  | nextEnd =>
    rw [Stmt.slots, Slot.forall_mem_opt]
    exact fun _ _ => rfl
  | _ => exact (hother rfl).elim

theorem Decl.inert_slots {d : Decl} {kind : Kind} (hd : d.describes kind = true)
    (hk : kind.isInert = true) : ∀ slot ∈ d.slots, slot.expect.isInert = true := by
  have hother : d.kinds.all (fun k => !k.isInert) = true → False := by
    intro hall
    have hnot := Decl.of_kinds hd hall
    rw [hk] at hnot
    cases hnot
  cases d with
  | endBlock => simp [Decl.slots]
  | _ => exact (hother rfl).elim

theorem Kind.inert_element {kind : Kind} (hk : kind.isInert = true) :
    kind.element.isInert = true := by
  cases kind <;> first
    | rfl
    | exact absurd hk (by decide)

theorem Kind.eq_file {kind : Kind} (h : Family.contains .file kind = true) : kind = .file := by
  cases kind <;> first
    | rfl
    | exact absurd h (by decide)

theorem Expr.inert_slots (e : Expr) : ∀ slot ∈ e.slots, slot.expect.isInert = true := by
  cases e <;>
    simp +decide only [Expr.slots, Slot.expr, Slot.arguments, List.forall_mem_append,
      Slot.forall_mem_one, Slot.forall_mem_opt, List.not_mem_nil, implies_true, and_self,
      false_implies]

theorem Header.inert_slots (h : Header) : ∀ slot ∈ h.slots, slot.expect.isInert = true := by
  simp only [Header.slots, List.forall_mem_append, Slot.forall_mem_opt]
  exact ⟨fun _ _ => rfl, fun _ _ => rfl⟩

theorem Payload.fits_of_fault? {payload : Payload} {kind : Kind}
    (h : Forest.payloadFault? kind payload = none) :
    payload.family.contains kind = true ∧ payload.describes kind = true := by
  unfold Forest.payloadFault? at h
  cases hf : payload.family.contains kind with
  | false => simp [hf] at h
  | true =>
    cases hd : payload.describes kind with
    | false => simp [hf, hd] at h
    | true => exact ⟨rfl, rfl⟩

theorem Payload.inert_slots {payload : Payload} {kind : Kind}
    (h : Forest.payloadFault? kind payload = none) (hk : kind.isInert = true) :
    ∀ slot ∈ payload.slots kind, slot.expect.isInert = true := by
  obtain ⟨hfamily, hdescribes⟩ := Payload.fits_of_fault? h
  cases payload with
  | syntaxError => simp [Payload.slots]
  | collection value =>
    intro slot hs
    obtain ⟨id, _, rfl⟩ := List.mem_map.1 hs
    exact Kind.inert_element hk
  | comment value => simp [Payload.slots]
  | name value =>
    cases value <;>
      simp +decide only [Payload.slots, Name.slots, List.forall_mem_append, Slot.forall_mem_one,
        Slot.forall_mem_opt, List.not_mem_nil, implies_true, and_self, false_implies]
  | type value =>
    cases value <;>
      simp +decide only [Payload.slots, TypeName.slots, List.forall_mem_append,
        Slot.forall_mem_one, Slot.forall_mem_opt, List.not_mem_nil, implies_true, and_self,
        false_implies]
  | initializer value =>
    cases value <;>
      simp +decide only [Payload.slots, Initializer.slots, Slot.expr, Slot.forall_mem_one,
        Slot.forall_mem_opt, implies_true]
  | argument value =>
    simp only [Payload.slots, Argument.slots, Slot.expr, List.forall_mem_append,
      Slot.forall_mem_one, Slot.forall_mem_opt]
    exact ⟨fun _ _ => rfl, rfl⟩
  | expr value => exact value.inert_slots
  | stmt value => exact Stmt.inert_slots hdescribes hk
  | modifier value => simp [Payload.slots]
  | declarator value =>
    simp only [Payload.slots, Declarator.slots, Slot.arguments, List.forall_mem_append,
      Slot.forall_mem_one, Slot.forall_mem_opt]
    exact ⟨⟨⟨rfl, fun _ _ => rfl⟩, fun _ _ => rfl⟩, fun _ _ => rfl⟩
  | caseClause value =>
    cases value <;>
      simp +decide only [Payload.slots, CaseClause.slots, Slot.expr, List.forall_mem_append,
        Slot.forall_mem_one, and_self]
  | attributeUse value =>
    simp only [Payload.slots, AttributeUse.slots, Slot.arguments, List.forall_mem_append,
      Slot.forall_mem_one, Slot.forall_mem_opt]
    exact ⟨rfl, fun _ _ => rfl⟩
  | decl value => exact Decl.inert_slots hdescribes hk
  | parameter value =>
    simp only [Payload.slots, Parameter.slots, List.forall_mem_append, Slot.forall_mem_one,
      Slot.forall_mem_opt]
    exact ⟨⟨⟨Header.inert_slots _, rfl⟩, fun _ _ => rfl⟩, fun _ _ => rfl⟩
  | importClause value =>
    cases value <;>
      simp +decide only [Payload.slots, ImportClause.slots, List.forall_mem_append,
        Slot.forall_mem_one, and_self]
  | typeParameter value =>
    simp only [Payload.slots, TypeParameter.slots, List.forall_mem_append, Slot.forall_mem_one,
      Slot.forall_mem_opt]
    exact ⟨rfl, fun _ _ => rfl⟩
  | file value =>
    rw [Kind.eq_file hfamily] at hk
    cases hk

namespace Forest

variable {f : Forest}

theorem Shaped.describes_stmt (hf : Shaped f) {id : Nat} {s : Stmt} (h : f.stmt? id = some s) :
    s.describes (f.kind id) = true := by
  obtain ⟨n, hn, hp⟩ := Option.map_eq_some_iff.1 (payload?_of_stmt? h)
  have hfit := (Payload.fits_of_fault? (hf.payload id n hn)).2
  rw [hp] at hfit
  rw [Forest.kind, hn]
  exact hfit

theorem Shaped.mem_kinds_stmt (hf : Shaped f) {id : Nat} {s : Stmt} (h : f.stmt? id = some s) :
    f.kind id ∈ s.kinds :=
  Stmt.mem_kinds (hf.describes_stmt h)

theorem Shaped.describes_decl (hf : Shaped f) {id : Nat} {d : Decl} (h : f.decl? id = some d) :
    d.describes (f.kind id) = true := by
  obtain ⟨n, hn, hp⟩ := Option.map_eq_some_iff.1 (payload?_of_decl? h)
  have hfit := (Payload.fits_of_fault? (hf.payload id n hn)).2
  rw [hp] at hfit
  rw [Forest.kind, hn]
  exact hfit

theorem Shaped.mem_kinds_decl (hf : Shaped f) {id : Nat} {d : Decl} (h : f.decl? id = some d) :
    f.kind id ∈ d.kinds :=
  Decl.mem_kinds (hf.describes_decl h)

/-- A child stands in a place that expects its kind, or is a comment. -/
theorem Shaped.admits_of_mem_children (hf : Shaped f) {id c : Nat} {n : Node}
    (hn : f.node? id = some n) (hc : c ∈ f.children id) :
    (∃ slot ∈ n.payload.slots n.kind, slot.id = c ∧ slot.expect.admits (f.kind c) = true) ∨
      (c ∈ n.comments ∧ (Expect.kind .comment).admits (f.kind c) = true) := by
  unfold children at hc
  rw [hn] at hc
  rcases List.mem_append.1 hc with hc | hc
  · obtain ⟨slot, hs, rfl⟩ := List.mem_map.1 hc
    exact Or.inl ⟨slot, hs, rfl, hf.slots id n hn slot hs⟩
  · exact Or.inr ⟨hc, hf.comments id n hn c hc⟩

theorem Shaped.inert_of_child (hf : Shaped f) {id c : Nat} (hid : (f.kind id).isInert = true)
    (hc : c ∈ f.children id) : (f.kind c).isInert = true := by
  cases hn : f.node? id with
  | none =>
    unfold children at hc
    rw [hn] at hc
    cases hc
  | some n =>
    have hk : f.kind id = n.kind := by
      unfold Forest.kind
      rw [hn]
    rw [hk] at hid
    rcases hf.admits_of_mem_children hn hc with ⟨slot, hs, _, ha⟩ | ⟨_, ha⟩
    · exact Expect.isInert_of_admits (Payload.inert_slots (hf.payload id n hn) hid slot hs) ha
    · exact Expect.isInert_of_admits rfl ha

theorem Shaped.inert_of_mem_descendants (hf : Shaped f) {id d : Nat}
    (hid : (f.kind id).isInert = true) (hd : d ∈ f.descendants id) :
    (f.kind d).isInert = true :=
  descendants_induction (P := fun n => (f.kind n).isInert = true) hid
    (fun _ hp _ hc => hf.inert_of_child hp hc) d hd

end Forest

end StructuredBasic.Syntax
