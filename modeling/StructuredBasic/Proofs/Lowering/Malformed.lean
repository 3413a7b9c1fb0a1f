import StructuredBasic.Proofs.Lowering.Names

/-!
# Why a tree is malformed

`x.Fails P` says that `x` succeeds or fails with an error in `P`, with one rule for each way to
build an action. Names and types fail only for a node of the tree without a lowering (`Blames`). An
expression may also be malformed, for a cause below it (`Cause`): a member access without a
qualifier outside every `With` block, or an array bound with a length out of range. The statements
without a body that hold expressions add one cause of their own, a `ReDim` with too many bounds.
-/

set_option autoImplicit false

namespace StructuredBasic.Lowering

open Syntax

/-! ## Failing actions -/

/-- The result is a success or an error in `P`. -/
def Result.Fails {α : Type} (x : Result α) (P : LowerError → Prop) : Prop :=
  ∀ e, x = .error e → P e

/-- From every state the action succeeds or fails with an error in `P`. -/
def Lower.Fails {α : Type} (x : Lower α) (P : LowerError → Prop) : Prop :=
  ∀ s, Result.Fails (x s) P

section Rules

variable {α β : Type} {P Q : LowerError → Prop}

namespace Result

theorem fails_ok {a : α} : Fails (.ok a) P := fun _ h => nomatch h

theorem fails_error {e : LowerError} (h : P e) : Fails (.error e : Result α) P := by
  intro e' he
  cases he
  exact h

theorem Fails.mono {x : Result α} (h : x.Fails P) (hPQ : ∀ e, P e → Q e) : x.Fails Q :=
  fun e he => hPQ e (h e he)

/-- What follows a step may use what the step gave. -/
theorem Fails.bind_ok {x : Result α} {g : α → Result β} (hx : x.Fails P)
    (hg : ∀ a, x = .ok a → (g a).Fails P) : (x >>= g).Fails P := by
  cases x with
  | error e => exact fails_error (hx e rfl)
  | ok a => exact hg a rfl

theorem Fails.bind {x : Result α} {g : α → Result β} (hx : x.Fails P)
    (hg : ∀ a, (g a).Fails P) : (x >>= g).Fails P :=
  hx.bind_ok fun a _ => hg a

theorem Fails.map {x : Result α} {g : α → β} (hx : x.Fails P) : (g <$> x).Fails P := by
  cases x with
  | error e => exact fails_error (hx e rfl)
  | ok a => exact fails_ok

theorem fails_mapM {g : α → Result β} {l : List α} (h : ∀ x ∈ l, (g x).Fails P) :
    (l.mapM g).Fails P := by
  induction l with
  | nil => exact fails_ok
  | cons x l ih =>
    rw [List.mapM_cons]
    refine (h x List.mem_cons_self).bind fun b => ?_
    exact (ih fun y hy => h y (List.mem_cons_of_mem _ hy)).bind fun bs => fails_ok

/-- A fold fails as its steps do, where the steps may use what every step keeps. -/
theorem fails_foldlM {g : β → α → Result β} {I : β → Prop} {l : List α}
    (hstep : ∀ x ∈ l, ∀ b, I b → (g b x).Fails P ∧ ∀ c, g b x = .ok c → I c) {b : β} (hb : I b) :
    (l.foldlM g b).Fails P := by
  induction l generalizing b with
  | nil => exact fails_ok
  | cons x l ih =>
    rw [List.foldlM_cons]
    obtain ⟨hfails, hkeeps⟩ := hstep x List.mem_cons_self b hb
    refine hfails.bind_ok fun c hc => ?_
    exact ih (fun y hy => hstep y (List.mem_cons_of_mem _ hy)) (hkeeps c hc)

end Result

namespace Lower

theorem fails_pure {a : α} : (pure a : Lower α).Fails P := fun _ => Result.fails_ok

theorem fails_lift {x : Result α} (h : x.Fails P) : (liftM x : Lower α).Fails P := by
  intro s
  cases x with
  | error e => exact Result.fails_error (h e rfl)
  | ok a => exact Result.fails_ok

/-- What follows a step that leaves no trace may use what the step gave. -/
theorem fails_bind_lift {x : Result α} {g : α → Lower β} (hx : x.Fails P)
    (hg : ∀ a, x = .ok a → (g a).Fails P) : (liftM x >>= g : Lower β).Fails P := by
  intro s
  cases x with
  | error e => exact Result.fails_error (hx e rfl)
  | ok a => exact hg a rfl s

theorem fails_throw_bind {e : LowerError} {g : α → Lower β} (h : P e) :
    (throw e >>= g : Lower β).Fails P :=
  fun _ => Result.fails_error h

theorem Fails.bind {x : Lower α} {g : α → Lower β} (hx : x.Fails P) (hg : ∀ a, (g a).Fails P) :
    (x >>= g).Fails P :=
  fun s => Result.Fails.bind (hx s) fun a => hg a.1 a.2

theorem fails_get : (get : Lower BodyState).Fails P := fun _ => Result.fails_ok

theorem fails_set {s : BodyState} : (set s : Lower PUnit).Fails P := fun _ => Result.fails_ok

theorem fails_freshName {base : String} : (freshName base).Fails P := fun _ => Result.fails_ok

theorem fails_mapM {g : α → Lower β} {l : List α} (h : ∀ x ∈ l, (g x).Fails P) :
    (l.mapM g).Fails P := by
  induction l with
  | nil => exact fails_pure
  | cons x l ih =>
    rw [List.mapM_cons]
    refine (h x List.mem_cons_self).bind fun b => ?_
    exact (ih fun y hy => h y (List.mem_cons_of_mem _ hy)).bind fun bs => fails_pure

end Lower

end Rules

/-! ## Names and types -/

/-- The error says that one of the nodes has no lowering. -/
def Blames (f : Forest) (e : LowerError) : Prop := ∃ id < f.size, e = unsupported f id

section Names

variable {α : Type} {env : Env}

theorem child_lt_size {f : Forest} {id c : Nat} (h : c ∈ f.children id) : c < f.size :=
  Nat.lt_trans (Forest.lt_of_mem_children h) (Forest.lt_size_of_mem_children h)

theorem lt_size_of_payload {f : Forest} {id : Nat} {p : Payload} (h : f.payload? id = some p) :
    id < f.size := by
  obtain ⟨n, hn, _⟩ := Option.map_eq_some_iff.1 h
  exact (Array.getElem?_eq_some_iff.1 hn).1

theorem blames_unsupported {id : Nat} (h : id < env.forest.size) :
    (env.unsupported id : Result α).Fails (Blames env.forest) :=
  Result.fails_error ⟨id, h, rfl⟩

theorem blames_nameText {id : Nat} (h : id < env.forest.size) :
    (env.nameText id).Fails (Blames env.forest) := by
  unfold Env.nameText
  split
  · exact Result.fails_ok
  · exact blames_unsupported h

theorem blames_qualifiedText {id : Nat} (h : id < env.forest.size) :
    (env.qualifiedText id).Fails (Blames env.forest) := by
  induction id using Nat.strongRecOn with
  | ind id ih =>
    have part : ∀ {name : Name} {c : Nat}, env.forest.name? id = some name →
        c ∈ name.slots.map Slot.id → c < id := fun hname hc => Forest.lt_of_name hname hc
    rw [Env.qualifiedText]
    split
    · exact Result.fails_ok
    · exact Result.fails_ok
    · next qualifier dot name hname =>
      have hlt : qualifier < id := part hname (by simp [Name.slots, Slot.one])
      have hinner : name < id := part hname (by simp [Name.slots, Slot.one])
      refine (ih qualifier hlt (by omega)).bind fun outer => ?_
      refine (blames_nameText (by omega)).bind fun inner => ?_
      split <;> exact Result.fails_ok
    · next name _ hname =>
      have hlt : name < id := part hname (by simp [Name.slots, Slot.one])
      exact blames_nameText (by omega)
    · exact blames_unsupported h

theorem blames_lowerType {id : Nat} (h : id < env.forest.size) :
    (env.lowerType id).Fails (Blames env.forest) := by
  induction id using Nat.strongRecOn with
  | ind id ih =>
    rw [Env.lowerType]
    split
    · exact Result.fails_ok
    · next name htype =>
      have hlt : name < id := Forest.lt_of_type htype (by simp [TypeName.slots, Slot.one])
      exact (blames_qualifiedText (by omega)).bind fun _ => Result.fails_ok
    · next element rank bounds htype =>
      have hlt : element < id := Forest.lt_of_type htype (by simp [TypeName.slots, Slot.opt])
      exact (ih element hlt (by omega)).bind fun _ => Result.fails_ok
    · exact Result.fails_ok
    · next name arguments htype =>
      have hlt : name < id := Forest.lt_of_type htype (by simp [TypeName.slots, Slot.one])
      refine (blames_qualifiedText (by omega)).bind fun text => ?_
      refine (Result.fails_mapM ?_).bind fun types => Result.fails_ok
      rintro ⟨argument, hmem⟩ _
      have h1 : arguments < id := Forest.lt_of_type htype (by simp [TypeName.slots, Slot.one])
      have h2 := Forest.lt_of_mem_elements hmem
      exact ih argument (by omega) (by omega)
    · exact blames_unsupported h

/-- The name itself is only read, so nothing is asked of it. -/
theorem blames_variableType (declared : Nat) {asType : Option Nat}
    (h : ∀ c, asType = some c → c < env.forest.size) :
    (env.variableType declared asType).Fails (Blames env.forest) := by
  unfold Env.variableType
  split
  cases asType with
  | some id =>
    refine (blames_lowerType (h id rfl)).bind fun type => ?_
    split <;> exact Result.fails_ok
  | none =>
    dsimp only
    split <;> (refine Result.fails_ok.bind fun type => ?_; split <;> exact Result.fails_ok)

theorem blames_declaratorType (declarator : Nat) (name : String) :
    (env.declaratorType declarator name).Fails (Blames env.forest) := by
  unfold Env.declaratorType
  split
  · exact Result.fails_ok
  · next d hd =>
    have htype : ∀ c, d.type = some c → c < env.forest.size := by
      intro c hc
      exact child_lt_size (mem_children_of_declarator hd (by simp [Declarator.slots, hc, Slot.opt]))
    split
    · exact blames_variableType _ htype
    · exact Result.fails_ok

theorem blames_targetsArray (id target : Nat) :
    (env.targetsArray id target).Fails (Blames env.forest) := by
  unfold Env.targetsArray
  split
  · exact (blames_declaratorType _ _).bind fun _ => Result.fails_ok
  · exact Result.fails_ok

theorem blames_elementType {element : Option Nat}
    (h : ∀ c, element = some c → c < env.forest.size) :
    (env.elementType element).Fails (Blames env.forest) := by
  unfold Env.elementType
  split
  · exact blames_lowerType (h _ rfl)
  · exact Result.fails_ok

theorem blames_methodReference {id : Nat} (h : id < env.forest.size) (e : Target.Expr) :
    (env.methodReference id e).Fails (Blames env.forest) := by
  unfold Env.methodReference
  split
  · exact Result.fails_ok
  · exact Result.fails_ok
  · exact blames_unsupported h

theorem blames_controlType (id control : Nat) :
    (env.controlType id control).Fails (Blames env.forest) := by
  unfold Env.controlType
  split
  · exact blames_declaratorType _ _
  · exact Result.fails_ok

theorem blames_reDimElement (declarator : Option Nat) (name : Option String) :
    (env.reDimElement declarator name).Fails (Blames env.forest) := by
  unfold Env.reDimElement
  split
  · exact (blames_declaratorType _ _).bind fun _ => Result.fails_ok
  · exact Result.fails_ok

end Names

/-! ## Causes -/

/-- `c` is the list of statements of the `With` block `w`. -/
def IsWithList (f : Forest) (w c : Nat) : Prop :=
  f.kind w = .withBlockStatement ∧
    ∃ expression tail, f.stmt? w = some (.guarded expression (some c) tail)

/-- The node is not among the statements of a `With` block, at whatever depth. The subject of a
block is not among its statements. -/
def OutsideWith (f : Forest) (id : Nat) : Prop :=
  ∀ w c, IsWithList f w c → id ∉ f.descendants c

/-- Lists that hold the bounds of an array: of an array type, or of an operand of a `ReDim`. -/
inductive HoldsBounds (f : Forest) (c : Nat) : Prop
  | type {id element rank} (h : f.type? id = some (.array element rank (some c)))
  | reDim {id preserve arrays operand target declarator}
      (h : f.stmt? id = some (.reDim preserve arrays)) (ho : operand ∈ f.elements (some arrays))
      (he : f.expr? operand = some (.callOrIndex target (some c) declarator))

/-- The expression is a bound of an array. -/
def IsBound (f : Forest) (id : Nat) : Prop :=
  ∃ c argument name, HoldsBounds f c ∧ argument ∈ f.elements (some c) ∧
    f.argument? argument = some ⟨name, id⟩

/-- How the node `id` makes a tree malformed. -/
inductive Cause (env : Env) (id : Nat) : Malformed → Prop
  | member {dot name} (h : env.forest.expr? id = some (.qualified none dot name))
      (ho : OutsideWith env.forest id) : Cause env id (.memberOutsideWith (env.forest.span id))
  | lookup {bang name} (h : env.forest.expr? id = some (.dictionaryLookup none bang name))
      (ho : OutsideWith env.forest id) : Cause env id (.memberOutsideWith (env.forest.span id))
  | rangeLength {place left right lower upper} (hb : IsBound env.forest id)
      (h : env.forest.expr? id = some (.binary .to place left right))
      (hl : env.literalInt? left = some lower) (hu : env.literalInt? right = some upper)
      (ho : rangeLength? lower upper = none) :
      Cause env id (.boundOverflow (env.forest.span id))
  | plainLength {upper} (hb : IsBound env.forest id) (hu : env.literalInt? id = some upper)
      (ho : plainLength? upper env.base = none) :
      Cause env id (.boundOverflow (env.forest.span id))
  | bothEnds {condition statements last trailing}
      (h : env.forest.stmt? id = some (.doBlock (some condition) statements (some last)))
      (ht : env.forest.stmt? last = some (.loopEnd (some trailing))) :
      Cause env id (.conditionAtBothEnds (env.forest.span id))
  | boundCount {preserve arrays operand target arguments declarator}
      (h : env.forest.stmt? id = some (.reDim preserve arrays))
      (ho : operand ∈ env.forest.elements (some arrays))
      (he : env.forest.expr? operand = some (.callOrIndex target arguments declarator))
      (hn : Env.maxRank < (env.forest.elements arguments).length) :
      Cause env id (.tooManyBounds (env.forest.span id))

/-- The error blames one of the nodes, or it calls the tree malformed for a cause below `root`. -/
def Explained (env : Env) (root : Nat) (e : LowerError) : Prop :=
  Blames env.forest e ∨
    ∃ reason, e = .malformed reason ∧ ∃ id ∈ env.forest.descendants root, Cause env id reason

theorem Explained.cause {env : Env} {root : Nat} {reason : Malformed}
    (h : Explained env root (.malformed reason)) :
    ∃ id ∈ env.forest.descendants root, Cause env id reason := by
  rcases h with ⟨id, _, he⟩ | ⟨_, ⟨⟩, h⟩
  · unfold Lowering.unsupported at he
    split at he <;> cases he
  · exact h

theorem Cause.of_within {env : Env} {subject : Target.Expr} {id : Nat} {reason : Malformed}
    (h : Cause (env.within subject) id reason) : Cause env id reason := by
  have hliteral : (env.within subject).literalInt? = env.literalInt? := by
    with_unfolding_all rfl
  cases h with
  | member h ho => exact .member h ho
  | lookup h ho => exact .lookup h ho
  | rangeLength hb h hl hu ho => exact .rangeLength hb h (hliteral ▸ hl) (hliteral ▸ hu) ho
  | plainLength hb hu ho => exact .plainLength hb (hliteral ▸ hu) ho
  | bothEnds h ht => exact .bothEnds h ht
  | boundCount h ho he hn => exact .boundCount h ho he hn

/-! ## Places -/

/-- Whether a payload is that of a `With` or a `SyncLock` block. -/
def isGuarded : Payload → Bool
  | .stmt (.guarded ..) => true
  | _ => false

/-- The node is among the statements of the `With` block `w`, at whatever depth. -/
def Around (f : Forest) (w x : Nat) : Prop := ∃ c, IsWithList f w c ∧ x ∈ f.descendants c

/-- The two nodes are among the statements of the same blocks. -/
def SameBlocks (f : Forest) (x y : Nat) : Prop := ∀ w, Around f w x ↔ Around f w y

section Blocks

variable {f : Forest} {id w x y : Nat}

theorem outsideWith_iff : OutsideWith f x ↔ ∀ w, ¬ Around f w x :=
  ⟨fun h w ⟨c, hw, hx⟩ => h w c hw hx, fun h w c hw hx => h w ⟨c, hw, hx⟩⟩

theorem IsWithList.mem_children {c : Nat} (h : IsWithList f w c) : c ∈ f.children w := by
  obtain ⟨_, expression, tail, hstmt⟩ := h
  exact Forest.mem_children_of_stmt hstmt (by simp [Stmt.slots, Slot.statements, Slot.opt])

theorem SameBlocks.refl (f : Forest) (id : Nat) : SameBlocks f id id := fun _ => Iff.rfl

theorem SameBlocks.outside (h : SameBlocks f x y) : OutsideWith f x ↔ OutsideWith f y := by
  simp only [outsideWith_iff, h _]

/-- A child is among the statements of the same blocks, unless it is the list of one itself. -/
theorem SameBlocks.child (hl : f.Linked) (h : SameBlocks f y id) (hx : x ∈ f.children y)
    (hlist : ¬ IsWithList f y x) : SameBlocks f x id := by
  intro w
  rw [← h w]
  constructor
  · rintro ⟨c, hw, hmem⟩
    rcases hl.mem_ancestors_of_mem_descendants hmem with rfl | hmem
    · -- the list is the child itself, so the block is its parent
      have hsame : some y = some w :=
        ((hl.mem_children_iff y x).1 hx).symm.trans ((hl.mem_children_iff w x).1 hw.mem_children)
      cases hsame
      exact absurd hw hlist
    · rw [hl.ancestors_of_child hx] at hmem
      refine ⟨c, hw, ?_⟩
      rcases List.mem_cons.1 hmem with rfl | hmem
      · exact Forest.mem_descendants_self f c
      · exact hl.mem_descendants_of_mem_ancestors hmem
  · rintro ⟨c, hw, hmem⟩
    exact ⟨c, hw, Forest.mem_descendants_child hmem hx⟩

theorem OutsideWith.child (hl : f.Linked) (h : OutsideWith f id) (hx : x ∈ f.children id)
    (hlist : ¬ IsWithList f id x) : OutsideWith f x :=
  ((SameBlocks.refl f id).child hl hx hlist).outside.2 h

end Blocks

/-- Where a node stands: below `root`, and outside of `With` blocks if no subject is in effect. -/
structure At (env : Env) (root id : Nat) : Prop where
  linked : env.forest.Linked
  present : id < env.forest.size
  below : id ∈ env.forest.descendants root
  outside : env.subjects = [] → OutsideWith env.forest id

namespace At

variable {env : Env} {root id x : Nat}

theorem child (h : At env root id) (hx : x ∈ env.forest.children id)
    (hlist : ¬ IsWithList env.forest id x) : At env root x where
  linked := h.linked
  present := Nat.lt_trans (Forest.lt_of_mem_children hx) h.present
  below := Forest.mem_descendants_child h.below hx
  outside hs := (h.outside hs).child h.linked hx hlist

theorem slot (h : At env root id) {p : Payload} (hp : env.forest.payload? id = some p)
    (hg : isGuarded p = false) (hx : ∀ kind, x ∈ (p.slots kind).map Slot.id) : At env root x := by
  refine h.child (Forest.mem_children_of_slot hp hx) ?_
  rintro ⟨_, expression, tail, hstmt⟩
  rw [Forest.payload?_of_stmt? hstmt] at hp
  cases hp
  cases hg

theorem expr (h : At env root id) {e : Expr} (he : env.forest.expr? id = some e)
    (hx : x ∈ e.slots.map Slot.id) : At env root x :=
  h.slot (Forest.payload?_of_expr? he) rfl fun _ => hx

theorem stmt (h : At env root id) {s : Stmt} (hs : env.forest.stmt? id = some s)
    (hg : isGuarded (.stmt s) = false) (hx : x ∈ s.slots.map Slot.id) : At env root x :=
  h.slot (Forest.payload?_of_stmt? hs) hg fun _ => hx

theorem decl (h : At env root id) {d : Decl} (hd : env.forest.decl? id = some d)
    (hx : x ∈ d.slots.map Slot.id) : At env root x :=
  h.slot (Forest.payload?_of_decl? hd) rfl fun _ => hx

theorem initializer (h : At env root id) {i : Initializer}
    (hi : env.forest.initializer? id = some i) (hx : x ∈ i.slots.map Slot.id) : At env root x :=
  h.slot (Forest.payload?_of_initializer? hi) rfl fun _ => hx

theorem argument (h : At env root id) {a : Argument} (ha : env.forest.argument? id = some a) :
    At env root a.expression :=
  h.slot (Forest.payload?_of_argument? ha) rfl fun _ => by
    simp [Payload.slots, Argument.slots, Slot.expr, Slot.one]

theorem stored (h : At env root id) {value : Collection}
    (hc : env.forest.collection? id = some value) (hx : some x ∈ value.elements) :
    At env root x := by
  refine h.slot (Forest.payload?_of_collection? hc) rfl fun kind => ?_
  simp only [Payload.slots, List.map_map, Collection.present]
  exact List.mem_map.2 ⟨x, List.mem_filterMap.2 ⟨some x, hx, rfl⟩, rfl⟩

theorem element (h : At env root id) (hx : x ∈ env.forest.elements (some id)) :
    At env root x := by
  unfold Forest.elements at hx
  split at hx
  · next value hvalue =>
    obtain ⟨element, hmem, hsome⟩ := List.mem_filterMap.1 hx
    cases hsome
    exact h.stored hvalue hmem
  · cases hx

theorem elements {list : Option Nat} (h : ∀ c, list = some c → At env root c) :
    ∀ x ∈ env.forest.elements list, At env root x := by
  intro x hx
  cases list with
  | none => cases hx
  | some c => exact (h c rfl).element hx

end At

/-! ## Expressions -/

section Exprs

variable {α : Type} {env : Env} {root : Nat}

theorem Result.Fails.explained {x : Result α} (h : x.Fails (Blames env.forest)) :
    x.Fails (Explained env root) :=
  h.mono fun _ he => .inl he

theorem At.unsupported {id : Nat} (hat : At env root id) :
    (env.unsupported id : Result α).Fails (Explained env root) :=
  (blames_unsupported hat.present).explained

theorem explained_cause {id : Nat} (hat : At env root id) {reason : Malformed}
    (h : Cause env id reason) : Explained env root (.malformed reason) :=
  .inr ⟨reason, rfl, id, hat.below, h⟩

theorem explained_subject {id : Nat} (hat : At env root id)
    (h : OutsideWith env.forest id → Cause env id (.memberOutsideWith (env.forest.span id))) :
    (env.subject id).Fails (Explained env root) := by
  unfold Env.subject
  split
  · exact Result.fails_ok
  · next hsubjects =>
    exact Result.fails_error (explained_cause hat (h (hat.outside hsubjects)))

/-- The lowering of the expression fails only for a cause below `root`, if it stands there. -/
def ExplainedAt (env : Env) (root id : Nat) : Prop :=
  At env root id → (env.lowerExpr id).Fails (Explained env root)

theorem explained_lowerArguments {arguments : Option Nat}
    (hat : ∀ c, arguments = some c → At env root c)
    (ih : ∀ c, arguments = some c → ∀ x < c, ExplainedAt env root x) :
    (env.lowerArguments arguments).Fails (Explained env root) := by
  cases arguments with
  | none => rw [Env.lowerArguments]; exact Result.fails_ok
  | some c =>
    rw [Env.lowerArguments]
    split
    · exact Result.fails_ok
    · next value hvalue =>
      refine Result.fails_mapM fun element _ => ?_
      split
      · exact Result.fails_ok
      · next a ha _ =>
        split
        · next expression hargument =>
          have hlt : expression + 1 < c := Forest.lt_of_argument_of_mem hvalue ha hargument
          exact ih c rfl expression (by omega) (((hat c rfl).stored hvalue ha).argument hargument)
        · exact ((hat c rfl).stored hvalue ha).unsupported

theorem explained_boundLength {bound : Nat} (hbound : IsBound env.forest bound)
    (hat : At env root bound) (ih : ExplainedAt env root bound) :
    (env.boundLength bound).Fails (Explained env root) := by
  have hliteral : ∀ {length : Option Int64},
      (length = none → Cause env bound (.boundOverflow (env.forest.span bound))) →
      (env.literalLength bound length).Fails (Explained env root) := by
    intro length hcause
    unfold Env.literalLength
    split
    · exact Result.fails_ok
    · exact Result.fails_error (explained_cause hat (hcause rfl))
  rw [Env.boundLength]
  split
  · next hexpr =>
    split
    · next hl hu => exact hliteral fun ho => .rangeLength hbound hexpr hl hu ho
    · exact (ih hat).bind fun _ => Result.fails_ok
  · split
    · next hu => exact hliteral fun ho => .plainLength hbound hu ho
    · exact (ih hat).bind fun _ => Result.fails_ok

theorem explained_boundLengths {bounds : Option Nat}
    (hbounds : ∀ c, bounds = some c → HoldsBounds env.forest c)
    (hat : ∀ c, bounds = some c → At env root c)
    (ih : ∀ c, bounds = some c → ∀ x < c, ExplainedAt env root x) :
    (env.boundLengths bounds).Fails (Explained env root) := by
  cases bounds with
  | none => rw [Env.boundLengths]; exact Result.fails_ok
  | some c =>
    rw [Env.boundLengths]
    refine Result.fails_mapM ?_
    rintro ⟨a, ha⟩ _
    dsimp only
    split
    · next argument hargument =>
      have hlt := Forest.lt_of_argument_of_mem_elements ha hargument
      have hbound : IsBound env.forest argument.expression :=
        ⟨c, a, argument.name, hbounds c rfl, ha, hargument⟩
      exact explained_boundLength hbound ((At.elements hat a ha).argument hargument)
        (ih c rfl argument.expression (by omega))
    · exact (At.elements hat a ha).unsupported

theorem explained_elementType {type rank : Nat} {element bounds : Option Nat}
    (hat : At env root type)
    (harray : env.forest.type? type = some (.array element rank bounds)) :
    (env.elementType element).Fails (Explained env root) := by
  refine (blames_elementType fun c hc => ?_).explained
  have hslot : c ∈ (TypeName.array element rank bounds).slots.map Slot.id := by
    simp [TypeName.slots, hc, Slot.opt]
  exact (hat.slot (Forest.payload?_of_type? harray) rfl fun _ => hslot).present

theorem explained_bounds {type rank : Nat} {element bounds : Option Nat} (hat : At env root type)
    (harray : env.forest.type? type = some (.array element rank bounds))
    (ih : ∀ x < type, ExplainedAt env root x) :
    (env.boundLengths bounds).Fails (Explained env root) := by
  refine explained_boundLengths (fun c hc => .type (hc ▸ harray)) (fun c hc => ?_) ?_
  · refine hat.slot (Forest.payload?_of_type? harray) rfl fun _ => ?_
    simp [Payload.slots, TypeName.slots, hc, Slot.opt]
  · intro c hc x hx
    exact ih x (Nat.lt_trans hx (Forest.bounds_lt harray c hc))

theorem explained_lowerAggregate {initializer : Nat} (hat : At env root initializer)
    (ih : ∀ x < initializer, ExplainedAt env root x) :
    (env.lowerAggregate initializer).Fails (Explained env root) := by
  rw [Env.lowerAggregate]
  split
  · exact Result.fails_ok
  · next c hinitializer =>
    have hc : At env root c :=
      hat.initializer hinitializer (by simp [Initializer.slots, Slot.opt])
    refine Result.fails_mapM ?_
    rintro ⟨element, hmem⟩ _
    dsimp only
    split
    · next expression hexpression =>
      have h1 := Forest.lt_of_initializer hinitializer (c := c)
        (by simp [Initializer.slots, Slot.opt])
      have h2 := Forest.lt_of_mem_elements hmem
      have hslot : expression ∈ (Initializer.expression expression).slots.map Slot.id := by
        simp [Initializer.slots, Slot.expr, Slot.one]
      have h3 := Forest.lt_of_initializer hexpression hslot
      exact ih expression (by omega) ((hc.element hmem).initializer hexpression hslot)
    · exact (hc.element hmem).unsupported
  · exact hat.unsupported

section Cases

variable {id : Nat} {expr : Expr}

theorem explained_operand {c : Nat} (ih : ∀ x < id, ExplainedAt env root x) (hat : At env root id)
    (hexpr : env.forest.expr? id = some expr) (hc : c ∈ expr.slots.map Slot.id) :
    (env.lowerExpr c).Fails (Explained env root) :=
  ih c (Forest.lt_of_expr hexpr hc) (hat.expr hexpr hc)

theorem explained_arguments {arguments : Option Nat} (ih : ∀ x < id, ExplainedAt env root x)
    (hat : At env root id) (hexpr : env.forest.expr? id = some expr)
    (hslot : ∀ c, arguments = some c → c ∈ expr.slots.map Slot.id) :
    (env.lowerArguments arguments).Fails (Explained env root) := by
  refine explained_lowerArguments (fun c hc => hat.expr hexpr (hslot c hc)) ?_
  intro c hc x hx
  exact ih x (Nat.lt_trans hx (Forest.lt_of_expr hexpr (hslot c hc)))

theorem explained_name {c : Nat} (hat : At env root id) (hexpr : env.forest.expr? id = some expr)
    (hc : c ∈ expr.slots.map Slot.id) : (env.nameText c).Fails (Explained env root) :=
  (blames_nameText (hat.expr hexpr hc).present).explained

theorem explained_type {c : Nat} (hat : At env root id) (hexpr : env.forest.expr? id = some expr)
    (hc : c ∈ expr.slots.map Slot.id) : (env.lowerType c).Fails (Explained env root) :=
  (blames_lowerType (hat.expr hexpr hc).present).explained

theorem explainedAt_qualified {qualifier : Option Nat} {dot : Location} {name : Nat}
    (ih : ∀ x < id, ExplainedAt env root x)
    (hexpr : env.forest.expr? id = some (.qualified qualifier dot name)) :
    ExplainedAt env root id := by
  intro hat
  have hname := explained_name (c := name) hat hexpr (by simp [Expr.slots, Slot.one])
  rw [Env.lowerExpr, hexpr]
  cases qualifier with
  | none =>
    have hsubject := explained_subject hat fun ho => .member hexpr ho
    exact hsubject.bind fun _ => hname.bind fun _ => Result.fails_ok
  | some qualifier =>
    have hqualifier := explained_operand (c := qualifier) ih hat hexpr
      (by simp [Expr.slots, Slot.opt])
    exact hqualifier.bind fun _ => hname.bind fun _ => Result.fails_ok

theorem explainedAt_lookup {qualifier : Option Nat} {bang : Location} {name : Nat}
    (ih : ∀ x < id, ExplainedAt env root x)
    (hexpr : env.forest.expr? id = some (.dictionaryLookup qualifier bang name)) :
    ExplainedAt env root id := by
  intro hat
  have hname := explained_name (c := name) hat hexpr (by simp [Expr.slots, Slot.one])
  rw [Env.lowerExpr, hexpr]
  cases qualifier with
  | none =>
    have hsubject := explained_subject hat fun ho => .lookup hexpr ho
    exact hsubject.bind fun _ => hname.bind fun _ => Result.fails_ok
  | some qualifier =>
    have hqualifier := explained_operand (c := qualifier) ih hat hexpr
      (by simp [Expr.slots, Slot.opt])
    exact hqualifier.bind fun _ => hname.bind fun _ => Result.fails_ok

theorem explainedAt_call {target : Nat} {arguments known : Option Nat}
    (ih : ∀ x < id, ExplainedAt env root x)
    (hexpr : env.forest.expr? id = some (.callOrIndex target arguments known)) :
    ExplainedAt env root id := by
  intro hat
  have htarget := explained_operand (c := target) ih hat hexpr
    (by simp [Expr.slots, Slot.expr, Slot.one])
  have harguments : (env.lowerArguments arguments).Fails (Explained env root) :=
    explained_arguments ih hat hexpr (by rintro c rfl; simp [Expr.slots, Slot.arguments, Slot.opt])
  rw [Env.lowerExpr, hexpr]
  refine (blames_targetsArray _ _).explained.bind fun _ => htarget.bind fun _ => ?_
  exact harguments.bind fun _ => Result.fails_ok

theorem explainedAt_construct {type : Nat} {arguments : Option Nat}
    (ih : ∀ x < id, ExplainedAt env root x)
    (hexpr : env.forest.expr? id = some (.construct type arguments)) : ExplainedAt env root id := by
  intro hat
  have htype := explained_type (c := type) hat hexpr (by simp [Expr.slots, Slot.one])
  have harguments : (env.lowerArguments arguments).Fails (Explained env root) :=
    explained_arguments ih hat hexpr (by rintro c rfl; simp [Expr.slots, Slot.arguments, Slot.opt])
  rw [Env.lowerExpr, hexpr]
  exact htype.bind fun _ => harguments.bind fun _ => Result.fails_ok

/-- The bounds of the type come before the list of elements. -/
theorem explainedAt_constructArray {type initializer : Nat} (ih : ∀ x < id, ExplainedAt env root x)
    (hexpr : env.forest.expr? id = some (.constructArray type initializer)) :
    ExplainedAt env root id := by
  intro hat
  have htype : At env root type := hat.expr hexpr (by simp [Expr.slots, Slot.one])
  have hlt : type < id := Forest.lt_of_expr hexpr (by simp [Expr.slots, Slot.one])
  have hinit : initializer < id := Forest.lt_of_expr hexpr (by simp [Expr.slots, Slot.one])
  rw [Env.lowerExpr, hexpr]
  dsimp only
  split
  · next element rank bounds harray =>
    have hbounds := explained_bounds htype harray fun x hx => ih x (by omega)
    have helements : (env.lowerAggregate initializer).Fails (Explained env root) :=
      explained_lowerAggregate (hat.expr hexpr (by simp [Expr.slots, Slot.one]))
        fun x hx => ih x (by omega)
    refine (explained_elementType htype harray).bind fun _ => hbounds.bind fun _ => ?_
    exact helements.bind fun _ => Result.fails_ok
  · exact htype.unsupported

theorem explainedAt_unary {op : Operator} {inner : Nat} (ih : ∀ x < id, ExplainedAt env root x)
    (hexpr : env.forest.expr? id = some (.unary op inner)) : ExplainedAt env root id := by
  intro hat
  have hinner := explained_operand (c := inner) ih hat hexpr
    (by simp [Expr.slots, Slot.expr, Slot.one])
  rw [Env.lowerExpr, hexpr]
  dsimp only
  split
  · exact hinner.bind fun _ => Result.fails_ok
  · exact hat.unsupported

theorem explainedAt_binary {op : Operator} {place : Location} {left right : Nat}
    (ih : ∀ x < id, ExplainedAt env root x)
    (hexpr : env.forest.expr? id = some (.binary op place left right)) :
    ExplainedAt env root id := by
  intro hat
  have hleft := explained_operand (c := left) ih hat hexpr
    (by simp [Expr.slots, Slot.expr, Slot.one])
  have hright := explained_operand (c := right) ih hat hexpr
    (by simp [Expr.slots, Slot.expr, Slot.one])
  rw [Env.lowerExpr, hexpr]
  dsimp only
  split
  · split
    · exact hleft.bind fun _ => hright.bind fun _ => Result.fails_ok
    · exact hat.unsupported
  · refine hleft.bind fun _ => hright.bind fun _ => ?_
    split
    · exact Result.fails_ok
    · exact hat.unsupported

end Cases

theorem explainedAt (env : Env) (root id : Nat) : ExplainedAt env root id := by
  induction id using Nat.strongRecOn with
  | ind id ih =>
    intro hat
    cases hexpr : env.forest.expr? id with
    | none =>
      rw [Env.lowerExpr, hexpr]
      exact hat.unsupported
    | some expr =>
      have operand := fun c => explained_operand (c := c) ih hat hexpr
      have type := fun c => explained_type (c := c) hat hexpr
      cases expr with
      | qualified => exact explainedAt_qualified ih hexpr hat
      | dictionaryLookup => exact explainedAt_lookup ih hexpr hat
      | callOrIndex => exact explainedAt_call ih hexpr hat
      | construct => exact explainedAt_construct ih hexpr hat
      | constructArray => exact explainedAt_constructArray ih hexpr hat
      | unary => exact explainedAt_unary ih hexpr hat
      | binary => exact explainedAt_binary ih hexpr hat
      | literal | nothing =>
        rw [Env.lowerExpr, hexpr]
        exact Result.fails_ok
      | self =>
        rw [Env.lowerExpr, hexpr]
        dsimp only
        split <;> exact Result.fails_ok
      | simpleName name =>
        rw [Env.lowerExpr, hexpr]
        exact (explained_name hat hexpr (by simp [Expr.slots, Slot.one])).bind fun _ =>
          Result.fails_ok
      | typeReference stated | getType stated =>
        rw [Env.lowerExpr, hexpr]
        exact (type stated (by simp [Expr.slots, Slot.one])).bind fun _ => Result.fails_ok
      | cast inner stated =>
        rw [Env.lowerExpr, hexpr]
        refine (type stated (by simp [Expr.slots, Slot.one])).bind fun _ => ?_
        exact (operand inner (by simp [Expr.slots, Slot.expr, Slot.one])).bind fun _ =>
          Result.fails_ok
      | intrinsicCast target inner =>
        rw [Env.lowerExpr, hexpr]
        exact (operand inner (by simp [Expr.slots, Slot.expr, Slot.one])).bind fun _ =>
          Result.fails_ok
      | typeTest inner stated =>
        rw [Env.lowerExpr, hexpr]
        refine (operand inner (by simp [Expr.slots, Slot.expr, Slot.one])).bind fun _ => ?_
        exact (type stated (by simp [Expr.slots, Slot.one])).bind fun _ => Result.fails_ok
      | addressOf inner =>
        rw [Env.lowerExpr, hexpr]
        refine (operand inner (by simp [Expr.slots, Slot.expr, Slot.one])).bind fun method => ?_
        exact (blames_methodReference hat.present method).explained
      | parenthetical inner =>
        rw [Env.lowerExpr, hexpr]
        exact operand inner (by simp [Expr.slots, Slot.expr, Slot.one])
      | genericQualified =>
        rw [Env.lowerExpr, hexpr]
        exact hat.unsupported

theorem At.lowerExpr {id : Nat} (hat : At env root id) :
    (env.lowerExpr id).Fails (Explained env root) :=
  explainedAt env root id hat

theorem At.lowerArguments {arguments : Option Nat}
    (hat : ∀ c, arguments = some c → At env root c) :
    (env.lowerArguments arguments).Fails (Explained env root) :=
  explained_lowerArguments hat fun _ _ x _ => explainedAt env root x

theorem At.boundLengths {bounds : Option Nat}
    (hbounds : ∀ c, bounds = some c → HoldsBounds env.forest c)
    (hat : ∀ c, bounds = some c → At env root c) :
    (env.boundLengths bounds).Fails (Explained env root) :=
  explained_boundLengths hbounds hat fun _ _ x _ => explainedAt env root x

end Exprs

/-! ## Declared variables -/

section Variables

variable {env : Env} {root : Nat}

theorem At.initialValue {initializer : Nat} (hat : At env root initializer) (type : Target.Ty) :
    (env.initialValue initializer type).Fails (Explained env root) := by
  unfold Env.initialValue
  split
  · next hinit =>
    exact (hat.initializer hinit (by simp [Initializer.slots, Slot.expr, Slot.one])).lowerExpr
  · refine Result.Fails.bind ?_ fun _ => Result.fails_ok
    exact explained_lowerAggregate hat fun x _ => explainedAt env root x
  · exact hat.unsupported

theorem At.allocation {declared : Nat} (hat : At env root declared) (type : Target.Ty) :
    (env.allocation declared type).Fails (Explained env root) := by
  unfold Env.allocation
  split
  · next arrayType hname =>
    have harray : At env root arrayType :=
      hat.slot (Forest.payload?_of_name? hname) rfl fun _ => by
        simp [Payload.slots, Name.slots, Slot.opt]
    split
    · next bounds htype =>
      have hbounds := explained_bounds harray htype fun x _ => explainedAt env root x
      exact hbounds.bind fun _ => Result.fails_ok
    · exact Result.fails_ok
  · exact Result.fails_ok

theorem At.declarator {id x : Nat} (hat : At env root id) {d : Declarator}
    (hd : env.forest.declarator? id = some d) (hx : x ∈ d.slots.map Slot.id) : At env root x := by
  refine hat.child (mem_children_of_declarator hd hx) ?_
  rintro ⟨_, expression, tail, hstmt⟩
  simp only [Forest.declarator?, Forest.payload?_of_stmt? hstmt] at hd
  cases hd

theorem At.declaredVariables {declarator : Nat} (hat : At env root declarator) :
    (env.declaredVariables declarator).Fails (Explained env root) := by
  unfold Env.declaredVariables
  split
  · next d hd =>
    refine Result.fails_mapM fun declared hmem => ?_
    have hdeclared : At env root declared :=
      (hat.declarator hd (by simp [Declarator.slots, Slot.one])).element hmem
    have htype : ∀ c, d.type = some c → c < env.forest.size := fun c hc =>
      (hat.declarator hd (by simp [Declarator.slots, hc, Slot.opt])).present
    refine (blames_nameText hdeclared.present).explained.bind fun name => ?_
    refine (blames_variableType declared htype).explained.bind fun type => ?_
    split
    · next initializer hinit =>
      have hvalue : At env root initializer :=
        hat.declarator hd (by simp [Declarator.slots, hinit, Slot.opt])
      exact (hvalue.initialValue type).map.bind fun _ => Result.fails_ok
    · split
      · refine (At.lowerArguments ?_).bind fun _ => Result.fails_ok
        intro c hc
        exact hat.declarator hd (by simp [Declarator.slots, hc, Slot.arguments, Slot.opt])
      · exact (hdeclared.allocation type).bind fun _ => Result.fails_ok
  · exact hat.unsupported

end Variables

/-! ## Statements without a body -/

section Plain

variable {env : Env} {root : Nat} {routine : Routine}

theorem At.assignmentTarget {target : Nat} (hat : At env root target) :
    (env.assignmentTarget routine target).Fails (Explained env root) := by
  unfold Env.assignmentTarget
  split
  · split
    · exact Result.fails_ok
    · exact hat.lowerExpr
  · exact hat.lowerExpr

theorem At.lowerMid {id target start source : Nat} {length : Option Nat} (hat : At env root id)
    (hstmt : env.forest.stmt? id = some (.midAssignment target start length source)) :
    (env.lowerMid routine target start length source).Fails (Explained env root) := by
  have part : ∀ {x : Nat}, x ∈ (Stmt.midAssignment target start length source).slots.map Slot.id →
      At env root x := hat.stmt hstmt rfl
  have hsource := (part (x := source) (by simp [Stmt.slots, Slot.expr, Slot.one])).lowerExpr
  unfold Env.lowerMid
  refine (part (by simp [Stmt.slots, Slot.expr, Slot.one])).assignmentTarget.bind fun _ => ?_
  refine (part (by simp [Stmt.slots, Slot.expr, Slot.one])).lowerExpr.bind fun _ => ?_
  split
  · next given =>
    have hlength := (part (x := given) (by simp [Stmt.slots, Slot.opt])).lowerExpr
    exact hlength.bind fun _ => hsource.bind fun _ => Result.fails_ok
  · exact Result.fails_ok.bind fun _ => hsource.bind fun _ => Result.fails_ok

theorem At.lowerCompound {id target source : Nat} {op : Operator} (hat : At env root id)
    (hstmt : env.forest.stmt? id = some (.compoundAssignment op target source)) :
    (env.lowerCompound routine id op target source).Fails (Explained env root) := by
  have part : ∀ {x : Nat}, x ∈ (Stmt.compoundAssignment op target source).slots.map Slot.id →
      At env root x := hat.stmt hstmt rfl
  unfold Env.lowerCompound
  refine (part (by simp [Stmt.slots, Slot.expr, Slot.one])).assignmentTarget.bind fun _ => ?_
  refine (part (by simp [Stmt.slots, Slot.expr, Slot.one])).lowerExpr.bind fun _ => ?_
  split
  · exact Result.fails_ok
  · exact hat.unsupported

theorem At.lowerLocals {modifiers declarators : Nat} (hat : At env root declarators) :
    (env.lowerLocals modifiers declarators).Fails (Explained env root) := by
  unfold Env.lowerLocals
  refine (Result.fails_mapM fun declarator hmem => ?_).bind fun _ => Result.fails_ok
  refine (hat.element hmem).declaredVariables.bind fun _ => Result.fails_mapM fun v _ => ?_
  unfold Env.declareLocal
  split
  · exact Result.fails_ok
  · split
    · exact (hat.element hmem).unsupported
    · exact Result.fails_ok

theorem At.declareControl {declarator : Option Nat}
    (hat : ∀ c, declarator = some c → At env root c) :
    (env.declareControl declarator).Fails (Explained env root) := by
  unfold Env.declareControl
  split
  · exact (hat _ rfl).declaredVariables.bind fun _ => Result.fails_ok
  · exact Result.fails_ok

theorem At.lowerCondition {condition : LoopCondition} (hat : At env root condition.expression) :
    (env.lowerCondition condition).Fails (Explained env root) :=
  hat.lowerExpr.bind fun _ => Result.fails_ok

theorem At.lowerCaseTest {case clauses : Nat} (hat : At env root clauses)
    (hcase : At env root case) (value : Target.Expr) :
    (env.lowerCaseTest value case clauses).Fails (Explained env root) := by
  unfold Env.lowerCaseTest
  refine (Result.fails_mapM fun clause hmem => ?_).bind fun _ => ?_
  · have part : ∀ {c : CaseClause} {x : Nat}, env.forest.payload? clause = some (.caseClause c) →
        x ∈ c.slots.map Slot.id → (env.lowerExpr x).Fails (Explained env root) := by
      intro c x hp hx
      exact ((hat.element hmem).slot hp rfl fun _ => hx).lowerExpr
    unfold Env.lowerClause
    split
    · next hp =>
      exact (part hp (by simp [CaseClause.slots, Slot.expr, Slot.one])).bind fun _ =>
        Result.fails_ok
    · next hp =>
      refine (part hp (by simp [CaseClause.slots, Slot.expr, Slot.one])).bind fun _ => ?_
      exact (part hp (by simp [CaseClause.slots, Slot.expr, Slot.one])).bind fun _ =>
        Result.fails_ok
    · exact (hat.element hmem).unsupported
  · split
    · exact Result.fails_ok
    · exact hcase.unsupported

theorem At.lowerSelector {expression : Nat} (hat : At env root expression) :
    (env.lowerSelector expression).Fails (Explained env root) := by
  unfold Env.lowerSelector
  refine (Lower.fails_lift hat.lowerExpr).bind fun _ => ?_
  split
  · exact Lower.fails_pure
  · exact Lower.fails_pure
  · exact Lower.fails_freshName.bind fun _ => Lower.fails_pure

theorem At.lowerGoSub {id : Nat} (hat : At env root id) (label : String) :
    (env.lowerGoSub id label).Fails (Explained env root) := by
  unfold Env.lowerGoSub
  refine Lower.fails_get.bind fun state => ?_
  split
  · exact Lower.fails_lift hat.unsupported
  · exact Lower.fails_set.bind fun _ => Lower.fails_pure

/-! ## Arrays -/

theorem Result.length_of_mapM_ok {α β : Type} {g : α → Result β} {l : List α} {out : List β}
    (h : l.mapM g = .ok out) : out.length = l.length := by
  refine mapM_ok (R := fun (l : List α) (out : List β) => out.length = l.length) rfl ?_ l h
  intro x xs b bs _ hrest
  rw [List.length_cons, List.length_cons, hrest]

theorem length_boundLengths {bounds : Option Nat} {lengths : List Target.Expr}
    (h : env.boundLengths bounds = .ok lengths) :
    lengths.length = (env.forest.elements bounds).length := by
  cases bounds with
  | none =>
    rw [Env.boundLengths] at h
    cases h
    rfl
  | some c =>
    rw [Env.boundLengths] at h
    rw [Result.length_of_mapM_ok h, List.length_attach]

/-- A `ReDim` has one cause of its own, an operand with more bounds than a type can state. -/
theorem At.lowerReDimOperand {id arrays operand : Nat} {preserve : Bool} {declarator : Option Nat}
    (hat : At env root id) (hstmt : env.forest.stmt? id = some (.reDim preserve arrays))
    (hmem : operand ∈ env.forest.elements (some arrays)) :
    (env.lowerReDimOperand id preserve operand declarator).Fails (Explained env root) := by
  have harrays : At env root arrays := hat.stmt hstmt rfl (by simp [Stmt.slots, Slot.one])
  unfold Env.lowerReDimOperand
  split
  · next target arguments _ hexpr =>
    have part : ∀ {x : Nat}, x ∈ (Expr.callOrIndex target arguments _).slots.map Slot.id →
        At env root x := (harrays.element hmem).expr hexpr
    have htarget : At env root target := part (by simp [Expr.slots, Slot.expr, Slot.one])
    have hlengths : (env.boundLengths arguments).Fails (Explained env root) := by
      refine At.boundLengths (fun c hc => ?_) fun c hc => part ?_
      · exact .reDim hstmt hmem (hc ▸ hexpr)
      · simp [Expr.slots, hc, Slot.arguments, Slot.opt]
    refine (Lower.fails_lift (blames_reDimElement _ _).explained).bind fun _ => ?_
    refine (Lower.fails_lift htarget.lowerExpr).bind fun _ => ?_
    refine Lower.fails_bind_lift hlengths fun lengths hok => ?_
    have hrest : ∀ (array : Target.Expr) (element : Target.Ty) (lengths : List Target.Expr),
        Lower.Fails (if preserve then do
            let temp ← freshName ((env.referenceText? target).getD "array" ++ "Preserved")
            return Env.preserved temp array (.arrayCreate element lengths none)
              (.array element lengths.length)
          else return [.assign array (.arrayCreate element lengths none)])
          (Explained env root) := by
      intro array element lengths
      split
      · exact Lower.fails_freshName.bind fun _ => Lower.fails_pure
      · exact Lower.fails_pure
    by_cases hmany : Env.maxRank < lengths.length
    · simp only [hmany, if_true]
      rw [length_boundLengths hok] at hmany
      exact Lower.fails_throw_bind (explained_cause hat (.boundCount hstmt hmem hexpr hmany))
    · simp only [hmany, if_false]
      exact hrest _ _ _
  · exact Lower.fails_lift (harrays.element hmem).unsupported

theorem At.lowerReDim {id arrays : Nat} {preserve : Bool} (hat : At env root id)
    (hstmt : env.forest.stmt? id = some (.reDim preserve arrays)) :
    (env.lowerReDim id preserve arrays).Fails (Explained env root) := by
  unfold Env.lowerReDim
  refine (Lower.fails_mapM ?_).bind fun _ => Lower.fails_pure
  rintro ⟨operand, declarator⟩ hmem
  exact hat.lowerReDimOperand hstmt (List.of_mem_zip hmem).1

end Plain

end StructuredBasic.Lowering
