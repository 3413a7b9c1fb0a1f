import StructuredBasic.Proofs.Lowering.Malformed
import StructuredBasic.Proofs.Lowering.ReturnPoints

/-!
# The routine around a statement

Lowering knows the routine of a statement twice: it passes the routine down to the statements, and
where one leaves the routine it walks up the tree again. The walk finds the routine that was passed
down and its result type, from everywhere below the routine (`enclosing_of_enters`). A statement for
which the walk finds something is housed, and the lowering of a housed statement blames one of the
nodes or fails for a cause below it (`accounted`).
-/

set_option autoImplicit false

namespace StructuredBasic.Lowering

open Syntax

/-! ## Walking up -/

section Enters

variable {env : Env} {node : Nat} {routine : Routine} {statements : Option Nat}

/-- What is read off the tree does not depend on the rest of the surroundings. -/
theorem exitType_of_forest {other : Env} (h : other.forest = env.forest) :
    other.exitType = env.exitType := by
  cases env
  cases other
  cases h
  with_unfolding_all rfl

theorem kind_of_accessor {f : Forest} (hf : f.Shaped) {header : Header}
    {parameters statements tail : Option Nat}
    (h : f.decl? node = some (.accessor header parameters statements tail)) :
    f.kind node = .getAccessorDeclaration ∨ f.kind node = .setAccessorDeclaration := by
  have hk := hf.mem_kinds_decl h
  simpa only [Decl.kinds, List.mem_cons, List.not_mem_nil, or_false] using hk

/-- The property of an accessor is the nearest one around it. -/
theorem enclosing_property {f : Forest} (hl : f.Linked) (hf : f.Shaped) {property : Nat}
    {header : Header} {signature : Signature} {implements accessors tail : Option Nat}
    (h : f.decl? property = some (.property header signature implements accessors tail))
    (hm : node ∈ f.elements accessors) :
    f.enclosing? node (· == .propertyDeclaration) = some property := by
  cases accessors with
  | none => cases hm
  | some c =>
    have hc : c ∈ f.children property :=
      Forest.mem_children_of_decl h (by simp [Decl.slots, Slot.members, Slot.opt])
    have hproperty : f.kind property = .propertyDeclaration :=
      List.mem_singleton.1 (hf.mem_kinds_decl h)
    have hlist : (f.kind c == .propertyDeclaration) = false := by
      obtain ⟨n, hn, hp⟩ := Option.map_eq_some_iff.1 (Forest.payload?_of_decl? h)
      have hslot : (⟨"accessors", c, .kind .declarationCollection⟩ : Slot) ∈
          n.payload.slots n.kind := by
        rw [hp]
        simp [Payload.slots, Decl.slots, Slot.members, Slot.opt]
      have hadmits := hf.slots property n hn _ hslot
      simp only [Expect.admits, Kind.isBad, Bool.or_eq_true, beq_iff_eq] at hadmits
      rcases hadmits with hk | hk
      · rw [hk]; rfl
      · rw [← hk]; rfl
    rw [Forest.enclosing?, hl.ancestors_of_child (Forest.mem_children_of_elements hm),
      hl.ancestors_of_child hc, List.find?_cons, hlist, List.find?_cons, hproperty]
    rfl

/-- The result of a routine, read off the tree at the routine itself. -/
theorem exitType_of_enters (hl : env.forest.Linked) (hf : env.forest.Shaped)
    (h : env.Enters node routine statements) {id : Nat}
    (hid : env.enclosingRoutine? id = some node) : env.exitType id = .ok routine.returnType := by
  unfold Env.exitType
  rw [hid]
  cases h with
  | method h _ hform =>
    unfold Env.methodForm at hform
    split at hform
    · next hk =>
      cases hform
      simp only [hk, h]
    · next hk =>
      simp only [Result.bind_ok, Result.pure_ok] at hform
      obtain ⟨type, htype, heq⟩ := hform
      cases heq
      simp only [hk, h, htype]
    · next hk =>
      cases hform
      simp only [hk, h]
    · exact absurd hform unsupported_ne_ok
  | accessor h _ ht hm ha =>
    rcases kind_of_accessor hf ha with hk | hk
    · simp only [hk, enclosing_property hl hf h hm, Option.bind_some, h, ht, accessorType]
    · simp only [hk, accessorType]

theorem enclosing_of_enters (hl : env.forest.Linked) (hf : env.forest.Shaped)
    (h : env.Enters node routine statements) {id : Nat}
    (hid : id ∈ env.forest.descendants node) (hne : id ≠ node) {other : Env}
    (hother : other.forest = env.forest) :
    other.enclosingRoutine? id = some node ∧ other.exitType id = .ok routine.returnType := by
  have hroutine := enclosingRoutine_of_mem hl hf h.holds hid hne
  refine ⟨?_, ?_⟩
  · rw [Env.enclosingRoutine?, hother]
    exact hroutine
  · rw [exitType_of_forest hother]
    exact exitType_of_enters hl hf h hroutine

end Enters

/-! ## Statements of a routine -/

/-- Where a statement of a routine stands. From everywhere below it the walk up the tree finds a
routine and a result type. -/
structure Housed (env : Env) (root id : Nat) : Prop extends At env root id where
  found : ∀ x ∈ env.forest.descendants id, ∃ node type,
    env.enclosingRoutine? x = some node ∧ env.exitType x = .ok type

section Statements

variable {env : Env} {root id x : Nat} {routine : Routine}

theorem Housed.here (h : Housed env root id) : ∃ node type,
    env.enclosingRoutine? id = some node ∧ env.exitType id = .ok type :=
  h.found id (Forest.mem_descendants_self _ id)

theorem Housed.of_at (h : Housed env root id) (hx : x ∈ env.forest.children id)
    (hat : At env root x) : Housed env root x :=
  { hat with found := fun y hy => h.found y (Forest.mem_descendants_of_child hx hy) }

theorem Housed.element (h : Housed env root id) (hx : x ∈ env.forest.elements (some id)) :
    Housed env root x :=
  h.of_at (Forest.mem_children_of_elements hx) (h.toAt.element hx)

/-- A list or a block of statements, if it is there, comes before `n` and is housed. -/
def HousedBelow (env : Env) (root n : Nat) (slot : Option Nat) : Prop :=
  ∀ c, slot = some c → c < n ∧ Housed env root c

theorem HousedBelow.mono {m n : Nat} {slot : Option Nat} (h : HousedBelow env root m slot)
    (hlt : m < n) : HousedBelow env root n slot :=
  fun c hc => ⟨Nat.lt_trans (h c hc).1 hlt, (h c hc).2⟩

theorem Housed.list (h : Housed env root id) {stmt : Stmt}
    (hstmt : env.forest.stmt? id = some stmt) (hg : isGuarded (.stmt stmt) = false)
    {list : Option Nat} (hl : list ∈ stmt.lists) : HousedBelow env root id list := by
  rintro c rfl
  obtain ⟨field, hslot⟩ := Stmt.slot_of_list hl rfl
  have hc : c ∈ stmt.slots.map Slot.id := List.mem_map.2 ⟨_, hslot, rfl⟩
  have hchild := Forest.mem_children_of_stmt hstmt hc
  exact ⟨Forest.lt_of_mem_children hchild, h.of_at hchild (h.toAt.stmt hstmt hg hc)⟩

theorem Housed.last (h : Housed env root id) {stmt : Stmt}
    (hstmt : env.forest.stmt? id = some stmt) (hg : isGuarded (.stmt stmt) = false) :
    HousedBelow env root id stmt.last? := by
  intro c hc
  have hchild := Forest.mem_children_of_last hstmt hc
  refine ⟨Forest.lt_of_mem_children hchild, h.of_at hchild (h.toAt.child hchild ?_)⟩
  rintro ⟨_, expression, tail, hguarded⟩
  rw [hstmt] at hguarded
  cases hguarded
  cases hg

/-- The statements of a `With` block have a subject in effect. -/
theorem Housed.within (h : Housed env root id) (subject : Target.Expr) {expression : Nat}
    {statements tail : Option Nat}
    (hstmt : env.forest.stmt? id = some (.guarded expression statements tail)) :
    HousedBelow (env.within subject) root id statements := by
  rintro c rfl
  have hchild : c ∈ env.forest.children id :=
    Forest.mem_children_of_list hstmt (by simp [Stmt.lists])
  have hlt := Forest.lt_of_mem_children hchild
  refine ⟨hlt, ⟨h.linked, Nat.lt_trans hlt h.present, ?_, fun hs => nomatch hs⟩, ?_⟩
  · exact Forest.mem_descendants_child h.below hchild
  · intro x hx
    have hsame : (env.within subject).exitType = env.exitType := exitType_of_forest rfl
    rw [hsame]
    exact h.found x (Forest.mem_descendants_of_child hchild hx)

/-- The subject of a block and its list are two children, and no child is listed twice. -/
theorem subject_not_list {f : Forest} (hl : f.Linked) {block expression : Nat}
    {statements tail : Option Nat}
    (hstmt : f.stmt? block = some (.guarded expression statements tail)) :
    ¬ IsWithList f block expression := by
  rintro ⟨_, other, last, hother⟩
  rw [hstmt] at hother
  cases hother
  obtain ⟨n, hn, hp⟩ := Option.map_eq_some_iff.1 (Forest.payload?_of_stmt? hstmt)
  have hnodup := hl.nodup block
  rw [Forest.children, hn] at hnodup
  simp only [Node.children, hp, Payload.slots, Stmt.slots, Slot.expr, Slot.one, Slot.statements,
    Slot.opt] at hnodup
  simp at hnodup

theorem At.withSubject (h : At env root id) {expression : Nat} {statements tail : Option Nat}
    (hstmt : env.forest.stmt? id = some (.guarded expression statements tail)) :
    At env root expression := by
  have hchild : expression ∈ env.forest.children id :=
    Forest.mem_children_of_stmt hstmt (by simp [Stmt.slots, Slot.expr, Slot.one])
  exact h.child hchild (subject_not_list h.linked hstmt)

theorem Explained.of_within {subject : Target.Expr} {e : LowerError}
    (h : Explained (env.within subject) root e) : Explained env root e := by
  rcases h with h | ⟨reason, heq, x, hx, hcause⟩
  · exact .inl h
  · exact .inr ⟨reason, heq, x, hx, hcause.of_within⟩

theorem loopEnd_of_trailing {tail : Option Nat} {condition : LoopCondition}
    (h : env.trailingCondition? tail = some condition) :
    ∃ last, tail = some last ∧ env.forest.stmt? last = some (.loopEnd (some condition)) := by
  unfold Env.trailingCondition? at h
  split at h
  · next hstmt =>
    obtain ⟨last, hlast, hstmt⟩ := Option.bind_eq_some_iff.1 hstmt
    exact ⟨last, hlast, h ▸ hstmt⟩
  · cases h

theorem Housed.lowerReturn (h : Housed env root id) {expression : Option Nat}
    (hstmt : env.forest.stmt? id = some (.returnValue expression)) :
    (env.lowerReturn routine id expression).Fails (Explained env root) := by
  cases expression with
  | some expression =>
    have hat : At env root expression :=
      h.toAt.stmt hstmt rfl (by simp [Stmt.slots, Slot.opt])
    exact hat.lowerExpr.bind fun _ => Result.fails_ok
  | none =>
    obtain ⟨node, _, hnode, _⟩ := h.here
    simp only [Env.lowerReturn, Env.lowerBareReturn, hnode]
    split
    · split <;> exact Result.fails_ok
    · exact Result.fails_ok

theorem Housed.lowerExit (h : Housed env root id) (block : Block) :
    (env.lowerExit routine id block).Fails (Explained env root) := by
  obtain ⟨_, type, _, htype⟩ := h.here
  have hzero : Result.Fails (α := Target.Stmt) (do
      let type ← env.exitType id
      if type.isVoid then return .returns none else return .returns (some (zeroValue type)))
      (Explained env root) := by
    rw [htype]
    refine Result.fails_ok.bind fun type => ?_
    split <;> exact Result.fails_ok
  unfold Env.lowerExit
  split <;> first
    | exact h.toAt.unsupported
    | (split
       · exact Result.fails_ok
       · first
         | exact h.toAt.unsupported
         | exact hzero)

end Statements

/-! ## Bodies -/

/-- The failures of the lowering of the statement are explained below `root`, wherever it stands. -/
def Accounted (routine : Routine) (root id : Nat) : Prop :=
  ∀ env : Env, Housed env root id → (env.lowerStmt routine id).Fails (Explained env root)

section Bodies

variable {env : Env} {root n : Nat} {routine : Routine}

theorem explained_lowerBody (ih : ∀ x < n, Accounted routine root x) {statements : Option Nat}
    (hs : HousedBelow env root n statements) :
    (env.lowerBody routine statements).Fails (Explained env root) := by
  cases statements with
  | none => rw [Env.lowerBody]; exact Lower.fails_pure
  | some c =>
    obtain ⟨hlt, hhoused⟩ := hs c rfl
    rw [Env.lowerBody]
    refine (Lower.fails_mapM ?_).bind fun _ => Lower.fails_pure
    rintro ⟨x, hx⟩ _
    exact ih x (Nat.lt_trans (Forest.lt_of_mem_elements hx) hlt) env (hhoused.element hx)

theorem explained_lowerElseIfs (ih : ∀ x < n, Accounted routine root x) {elseIfs : Option Nat}
    (hs : HousedBelow env root n elseIfs) :
    (env.lowerElseIfs routine elseIfs).Fails (Explained env root) := by
  cases elseIfs with
  | none => rw [Env.lowerElseIfs]; exact Lower.fails_pure
  | some c =>
    obtain ⟨hlt, hhoused⟩ := hs c rfl
    rw [Env.lowerElseIfs]
    refine Lower.fails_mapM ?_
    rintro ⟨x, hx⟩ _
    have hxlt := Nat.lt_trans (Forest.lt_of_mem_elements hx) hlt
    have hx := hhoused.element hx
    dsimp only
    split
    · next condition statements hstmt =>
      have hcondition : At env root condition :=
        hx.toAt.stmt hstmt rfl (by simp [Stmt.slots, Slot.expr, Slot.one])
      refine (Lower.fails_lift hcondition.lowerExpr).bind fun _ => ?_
      have hlist : HousedBelow env root x statements :=
        hx.list hstmt rfl (by simp [Stmt.lists])
      exact (explained_lowerBody ih (hlist.mono hxlt)).bind fun _ => Lower.fails_pure
    · exact Lower.fails_lift hx.toAt.unsupported

theorem explained_lowerCases (ih : ∀ x < n, Accounted routine root x) {cases : Option Nat}
    (hs : HousedBelow env root n cases) (value : Target.Expr) :
    (env.lowerCases routine value cases).Fails (Explained env root) := by
  cases cases with
  | none => rw [Env.lowerCases]; exact Lower.fails_pure
  | some c =>
    obtain ⟨hlt, hhoused⟩ := hs c rfl
    rw [Env.lowerCases]
    refine Lower.fails_mapM ?_
    rintro ⟨x, hx⟩ _
    have hxlt := Nat.lt_trans (Forest.lt_of_mem_elements hx) hlt
    have hx := hhoused.element hx
    dsimp only
    split
    · next clauses statements hstmt =>
      have hclauses : At env root clauses :=
        hx.toAt.stmt hstmt rfl (by simp [Stmt.slots, Slot.one])
      refine (Lower.fails_lift (hclauses.lowerCaseTest hx.toAt value)).bind fun _ => ?_
      have hlist : HousedBelow env root x statements :=
        hx.list hstmt rfl (by simp [Stmt.lists])
      exact (explained_lowerBody ih (hlist.mono hxlt)).bind fun _ => Lower.fails_pure
    · exact Lower.fails_lift hx.toAt.unsupported

theorem explained_lowerElse (ih : ∀ x < n, Accounted routine root x) {block : Option Nat}
    (hs : HousedBelow env root n block) :
    (env.lowerElse routine block).Fails (Explained env root) := by
  cases block with
  | none => rw [Env.lowerElse]; exact Lower.fails_pure
  | some x =>
    obtain ⟨hlt, hhoused⟩ := hs x rfl
    rw [Env.lowerElse]
    split
    · next statements hstmt =>
      have hlist : HousedBelow env root x statements :=
        hhoused.list hstmt rfl (by simp [Stmt.lists])
      exact explained_lowerBody ih (hlist.mono hlt)
    · exact Lower.fails_lift hhoused.toAt.unsupported

/-- The statements of a `With` block see other surroundings, and the same causes. -/
theorem explained_lowerWith (ih : ∀ x < n, Accounted routine root x) {statements : Option Nat}
    {subject : Target.Expr} (hs : HousedBelow (env.within subject) root n statements) :
    ((env.within subject).lowerBody routine statements).Fails (Explained env root) :=
  fun s => (explained_lowerBody ih hs s).mono fun _ => Explained.of_within

end Bodies

section Statements

variable {env : Env} {root id : Nat} {routine : Routine} {statements tail : Option Nat}
  {stmt : Stmt}

/-- The comments go in front of what the statement became. -/
theorem explained_behind {x : Lower (List Target.Stmt)} (hx : x.Fails (Explained env root))
    (texts : List Target.Stmt) :
    Lower.Fails (do let out ← x; return texts ++ out) (Explained env root) :=
  hx.bind fun _ => Lower.fails_pure

theorem explained_ending {texts out : List Target.Stmt} :
    Lower.Fails (do
      let out ← (pure out : Lower (List Target.Stmt))
      return texts ++ out) (Explained env root) :=
  explained_behind Lower.fails_pure texts

theorem Housed.operand (h : Housed env root id) (hstmt : env.forest.stmt? id = some stmt)
    (hg : isGuarded (.stmt stmt) = false) {x : Nat} (hx : x ∈ stmt.slots.map Slot.id) :
    Lower.Fails (liftM (env.lowerExpr x)) (Explained env root) :=
  Lower.fails_lift (h.toAt.stmt hstmt hg hx).lowerExpr

theorem Housed.arguments (h : Housed env root id) (hstmt : env.forest.stmt? id = some stmt)
    (hg : isGuarded (.stmt stmt) = false) {arguments : Option Nat}
    (hslot : ∀ c, arguments = some c → c ∈ stmt.slots.map Slot.id) :
    Lower.Fails (liftM (env.lowerArguments arguments)) (Explained env root) :=
  Lower.fails_lift (At.lowerArguments fun c hc => h.toAt.stmt hstmt hg (hslot c hc))

section Blocks

variable (ih : ∀ x < id, Accounted routine root x) (h : Housed env root id)

include ih h

theorem explained_list {l : Option Nat} (hstmt : env.forest.stmt? id = some stmt)
    (hg : isGuarded (.stmt stmt) = false) (hl : l ∈ stmt.lists) :
    (env.lowerBody routine l).Fails (Explained env root) :=
  explained_lowerBody ih (h.list hstmt hg hl)

theorem explained_do {condition : Option LoopCondition}
    (hstmt : env.forest.stmt? id = some (.doBlock condition statements tail)) :
    (env.lowerStmt routine id).Fails (Explained env root) := by
  have hbody := explained_list (l := statements) ih h hstmt rfl (by simp [Stmt.lists])
  rw [Env.lowerStmt, hstmt]
  dsimp only
  split
  · next htrailing =>
    obtain ⟨last, rfl, hlast⟩ := loopEnd_of_trailing htrailing
    exact Lower.fails_throw_bind (explained_cause h.toAt (.bothEnds hstmt hlast))
  · next condition _ =>
    have hcondition : At env root condition.expression :=
      h.toAt.stmt hstmt rfl (by simp [Stmt.slots, LoopCondition.slots, Slot.expr, Slot.one])
    refine (Lower.fails_lift hcondition.lowerCondition).bind fun _ => ?_
    exact hbody.bind fun _ => explained_ending
  · next condition htrailing =>
    obtain ⟨last, rfl, hlast⟩ := loopEnd_of_trailing htrailing
    have hend : At env root last := h.toAt.stmt hstmt rfl (by simp [Stmt.slots, Slot.opt])
    have hcondition : At env root condition.expression :=
      hend.stmt hlast rfl (by simp [Stmt.slots, LoopCondition.slots, Slot.expr, Slot.one])
    refine Lower.fails_freshName.bind fun _ => hbody.bind fun _ => ?_
    exact (Lower.fails_lift hcondition.lowerCondition).bind fun _ => explained_ending
  · exact hbody.bind fun _ => explained_ending

theorem explained_for {control lower upper : Nat} {declarator step : Option Nat}
    (hstmt : env.forest.stmt? id =
      some (.forBlock control declarator lower upper step statements tail)) :
    (env.lowerStmt routine id).Fails (Explained env root) := by
  have hcontrol : (env.declareControl declarator).Fails (Explained env root) :=
    At.declareControl fun c hc => h.toAt.stmt hstmt rfl (by simp [Stmt.slots, hc, Slot.opt])
  have hbody := explained_list (l := statements) ih h hstmt rfl (by simp [Stmt.lists])
  rw [Env.lowerStmt, hstmt]
  refine (Lower.fails_lift hcontrol).bind fun _ => ?_
  refine (h.operand hstmt rfl (by simp [Stmt.slots, Slot.expr, Slot.one])).bind fun _ => ?_
  refine (h.operand hstmt rfl (by simp [Stmt.slots, Slot.expr, Slot.one])).bind fun _ => ?_
  refine (h.operand hstmt rfl (by simp [Stmt.slots, Slot.expr, Slot.one])).bind fun _ => ?_
  dsimp only
  split
  · refine (h.operand hstmt rfl (by simp [Stmt.slots, Slot.opt])).bind fun _ => ?_
    exact hbody.bind fun _ => explained_ending
  · exact Lower.fails_pure.bind fun _ => hbody.bind fun _ => explained_ending

theorem explained_forEach {control collection : Nat} {declarator : Option Nat}
    (hstmt : env.forest.stmt? id =
      some (.forEachBlock control declarator collection statements tail)) :
    (env.lowerStmt routine id).Fails (Explained env root) := by
  have hcontrol : (env.declareControl declarator).Fails (Explained env root) :=
    At.declareControl fun c hc => h.toAt.stmt hstmt rfl (by simp [Stmt.slots, hc, Slot.opt])
  have hbody := explained_list (l := statements) ih h hstmt rfl (by simp [Stmt.lists])
  rw [Env.lowerStmt, hstmt]
  refine (Lower.fails_lift hcontrol).bind fun _ => ?_
  refine (Lower.fails_lift (blames_controlType id control).explained).bind fun _ => ?_
  refine (h.operand hstmt rfl (by simp [Stmt.slots, Slot.expr, Slot.one])).bind fun _ => ?_
  refine (h.operand hstmt rfl (by simp [Stmt.slots, Slot.expr, Slot.one])).bind fun _ => ?_
  exact Lower.fails_freshName.bind fun _ => hbody.bind fun _ => explained_ending

theorem explained_guarded {expression : Nat}
    (hstmt : env.forest.stmt? id = some (.guarded expression statements tail)) :
    (env.lowerStmt routine id).Fails (Explained env root) := by
  rw [Env.lowerStmt, hstmt]
  dsimp only
  split
  · refine (Lower.fails_lift (h.toAt.withSubject hstmt).lowerExpr).bind fun subject => ?_
    exact explained_behind (explained_lowerWith ih (h.within subject hstmt)) _
  · exact explained_behind (Lower.fails_lift h.toAt.unsupported) _

theorem explained_if {condition : Nat} {elseIfs elseBlock : Option Nat}
    (hstmt : env.forest.stmt? id = some (.ifBlock condition statements elseIfs elseBlock tail)) :
    (env.lowerStmt routine id).Fails (Explained env root) := by
  have hbody := explained_list (l := statements) ih h hstmt rfl (by simp [Stmt.lists])
  have helseIfs : HousedBelow env root id elseIfs := h.list hstmt rfl (by simp [Stmt.lists])
  rw [Env.lowerStmt, hstmt]
  refine (h.operand hstmt rfl (by simp [Stmt.slots, Slot.expr, Slot.one])).bind fun _ => ?_
  refine hbody.bind fun _ => (explained_lowerElseIfs ih helseIfs).bind fun _ => ?_
  exact (explained_lowerElse ih (h.last hstmt rfl)).bind fun _ => explained_ending

theorem explained_select {expression : Nat} {cases caseElse : Option Nat}
    (hstmt : env.forest.stmt? id = some (.selectBlock expression cases caseElse tail)) :
    (env.lowerStmt routine id).Fails (Explained env root) := by
  have hexpression : At env root expression :=
    h.toAt.stmt hstmt rfl (by simp [Stmt.slots, Slot.expr, Slot.one])
  have hcases : HousedBelow env root id cases := h.list hstmt rfl (by simp [Stmt.lists])
  rw [Env.lowerStmt, hstmt]
  refine hexpression.lowerSelector.bind fun selector => ?_
  obtain ⟨declared, value⟩ := selector
  refine (explained_lowerCases ih hcases value).bind fun _ => ?_
  exact (explained_lowerElse ih (h.last hstmt rfl)).bind fun _ => explained_ending

end Blocks

/-- The statements of a routine. The `With` block is the only one whose statements see other
surroundings, which is why these stay general. -/
theorem accounted (routine : Routine) (root id : Nat) : Accounted routine root id := by
  induction id using Nat.strongRecOn with
  | ind id ih =>
    intro env h
    cases hstmt : env.forest.stmt? id with
    | none =>
      rw [Env.lowerStmt, hstmt]
      exact explained_behind (Lower.fails_lift h.toAt.unsupported) _
    | some stmt =>
      cases stmt with
      | doBlock => exact explained_do ih h hstmt
      | forBlock => exact explained_for ih h hstmt
      | forEachBlock => exact explained_forEach ih h hstmt
      | guarded => exact explained_guarded ih h hstmt
      | ifBlock => exact explained_if ih h hstmt
      | selectBlock => exact explained_select ih h hstmt
      | whileBlock condition statements tail =>
        have hbody := explained_list (l := statements) ih h hstmt rfl (by simp [Stmt.lists])
        rw [Env.lowerStmt, hstmt]
        refine (h.operand hstmt rfl (by simp [Stmt.slots, Slot.expr, Slot.one])).bind fun _ => ?_
        exact hbody.bind fun _ => explained_ending
      | lineIf condition statements elseStatements =>
        have hthen := explained_list (l := statements) ih h hstmt rfl (by simp [Stmt.lists])
        have helse := explained_list (l := elseStatements) ih h hstmt rfl (by simp [Stmt.lists])
        rw [Env.lowerStmt, hstmt]
        refine (h.operand hstmt rfl (by simp [Stmt.slots, Slot.expr, Slot.one])).bind fun _ => ?_
        exact hthen.bind fun _ => helse.bind fun _ => explained_ending
      | empty =>
        rw [Env.lowerStmt, hstmt]
        dsimp only
        split
        · exact explained_ending
        · exact explained_ending
        · exact explained_ending
        · exact explained_behind (Lower.fails_lift h.toAt.unsupported) _
      | endBlock =>
        rw [Env.lowerStmt, hstmt]
        exact explained_ending
      | labelReference =>
        rw [Env.lowerStmt, hstmt]
        dsimp only
        split
        · exact explained_ending
        · exact explained_ending
        · exact explained_behind (h.toAt.lowerGoSub _) _
      | exit block =>
        rw [Env.lowerStmt, hstmt]
        exact (Lower.fails_lift (h.lowerExit block)).bind fun _ => explained_ending
      | returnValue =>
        rw [Env.lowerStmt, hstmt]
        exact (Lower.fails_lift (h.lowerReturn hstmt)).bind fun _ => explained_ending
      | raiseEvent name arguments =>
        have hname : At env root name := h.toAt.stmt hstmt rfl (by simp [Stmt.slots, Slot.one])
        rw [Env.lowerStmt, hstmt]
        refine (Lower.fails_lift (blames_nameText hname.present).explained).bind fun _ => ?_
        refine (h.arguments hstmt rfl ?_).bind fun _ => explained_ending
        rintro c rfl
        simp [Stmt.slots, Slot.arguments, Slot.opt]
      | reDim =>
        rw [Env.lowerStmt, hstmt]
        exact explained_behind (h.toAt.lowerReDim hstmt) _
      | erase arrays =>
        have harrays : At env root arrays := h.toAt.stmt hstmt rfl (by simp [Stmt.slots, Slot.one])
        rw [Env.lowerStmt, hstmt]
        refine (Lower.fails_mapM fun array hmem => ?_).bind fun _ => explained_ending
        exact Lower.fails_lift (harrays.element hmem).lowerExpr
      | call target arguments =>
        rw [Env.lowerStmt, hstmt]
        refine (h.operand hstmt rfl (by simp [Stmt.slots, Slot.expr, Slot.one])).bind fun _ => ?_
        refine (h.arguments hstmt rfl ?_).bind fun _ => explained_ending
        rintro c rfl
        simp [Stmt.slots, Slot.arguments, Slot.opt]
      | assignment target source =>
        have htarget : At env root target :=
          h.toAt.stmt hstmt rfl (by simp [Stmt.slots, Slot.expr, Slot.one])
        rw [Env.lowerStmt, hstmt]
        refine (Lower.fails_lift htarget.assignmentTarget).bind fun _ => ?_
        refine (h.operand hstmt rfl ?_).bind fun _ => explained_ending
        simp [Stmt.slots, Slot.expr, Slot.one]
      | compoundAssignment =>
        rw [Env.lowerStmt, hstmt]
        exact explained_behind (Lower.fails_lift (h.toAt.lowerCompound hstmt)) _
      | midAssignment =>
        rw [Env.lowerStmt, hstmt]
        exact explained_behind (Lower.fails_lift (h.toAt.lowerMid hstmt)) _
      | localDeclaration modifiers declarators =>
        have hdeclarators : At env root declarators :=
          h.toAt.stmt hstmt rfl (by simp [Stmt.slots, Slot.one])
        rw [Env.lowerStmt, hstmt]
        exact explained_behind (Lower.fails_lift hdeclarators.lowerLocals) _
      | _ =>
        rw [Env.lowerStmt, hstmt]
        exact explained_behind (Lower.fails_lift h.toAt.unsupported) _

end Statements

end StructuredBasic.Lowering
