import StructuredBasic.Proofs.Forest.Preorder
import StructuredBasic.Proofs.Lowering.EmittedComments
import StructuredBasic.Proofs.Lowering.Reach
import StructuredBasic.Proofs.Machine.Departures

/-!
# What each statement brings into the code

A statement of the source brings the statements of the code that are its own: those of a plain
statement, and the declarations and assignments around the body of a loop or in front of a `Select`
(`Brings`). Up to their order these are all statements of a lowered body that hold no others
(`RoutineBody.census`), so what is to be found in lowered code is found one form of statement at a
time.
-/

set_option autoImplicit false

namespace StructuredBasic.Lowering

open Syntax
open Target.Stmt (atoms atomsOptional atomsAll atomsAll_append atomsAll_singleton atomsAll_comments)

/-! ## One statement -/

/-- The statements that `x` itself becomes, its comments and the statements inside it aside, when
the names below `node` are in use. -/
inductive Brings (routine : Routine) (f : Forest) (node x : Nat) : List Target.Stmt → Prop
  | plain {env : Env} {s t : BodyState} {out : List Target.Stmt} (hforest : env.forest = f)
      (h : LowersPlain routine env x s out t) : Brings routine f node x out
  | preTest {env : Env} {test : Target.Expr} {statements : Option Nat} (hforest : env.forest = f)
      (h : LoopHead env x test statements) : Brings routine f node x []
  | postTest {env : Env} {s : BodyState} {condition : LoopCondition}
      {statements tail : Option Nat} {test : Target.Expr} (hforest : env.forest = f)
      (hs : InUse routine env node s) (h : f.stmt? x = some (.doBlock none statements tail))
      (hc : env.lowerCondition condition = .ok test) :
      Brings routine f node x
        [.declare (fresh s.taken "latch").1 (.primitive .bool) (some (.bool true)),
          .assign (.ident (fresh s.taken "latch").1) test]
  | counted {env : Env} {declared : List Target.Stmt} {control lower upper step : Target.Expr}
      {statements : Option Nat} (hforest : env.forest = f)
      (h : CountedHead env x declared control lower upper step statements) :
      Brings routine f node x (declared ++
        [.assign control lower, .assign control (.binary .add control step)])
  | element {env : Env} {s : BodyState} {declared : List Target.Stmt}
      {control collection : Target.Expr} {type : Target.Ty} {statements : Option Nat}
      (hforest : env.forest = f) (hs : InUse routine env node s)
      (h : ElementHead env x declared control collection type statements) :
      Brings routine f node x (declared ++
        [.declare (fresh s.taken "enumerator").1 (.named "System.Collections.IEnumerator")
            (some (.invoke (some collection) "GetEnumerator" [])),
          .assign control (.cast .convert type
            (.field (.ident (fresh s.taken "enumerator").1) "Current"))])
  | within {expression : Nat} {statements tail : Option Nat}
      (h : f.stmt? x = some (.guarded expression statements tail)) : Brings routine f node x []
  | ifBlock {condition : Nat} {statements elseIfs elseBlock tail : Option Nat}
      (h : f.stmt? x = some (.ifBlock condition statements elseIfs elseBlock tail)) :
      Brings routine f node x []
  | lineIf {condition : Nat} {statements elseStatements : Option Nat}
      (h : f.stmt? x = some (.lineIf condition statements elseStatements)) :
      Brings routine f node x []
  | select {env : Env} {s t : BodyState} {expression : Nat} {cases caseElse tail : Option Nat}
      {declared : List Target.Stmt} {value : Target.Expr} (hforest : env.forest = f)
      (h : f.stmt? x = some (.selectBlock expression cases caseElse tail))
      (hs : env.lowerSelector expression s = .ok ((declared, value), t)) :
      Brings routine f node x declared

/-! ## Statements that hold no others -/

theorem atomsAll_of_isSimple {out : List Target.Stmt} (h : ∀ stmt ∈ out, stmt.isSimple = true) :
    atomsAll out = out := by
  induction out with
  | nil => rfl
  | cons stmt out ih =>
    obtain ⟨hstmt, hout⟩ := List.forall_mem_cons.1 h
    have hatoms : atoms stmt = [stmt] := by
      cases stmt <;> first
        | rfl
        | cases hstmt
    rw [atomsAll, hatoms, ih hout, List.singleton_append]

theorem atomsAll_of_isPlain {out : List Target.Stmt} (h : ∀ stmt ∈ out, stmt.isPlain = true) :
    atomsAll out = out :=
  atomsAll_of_isSimple (isSimple_of_isPlain h)

theorem atoms_postTestLoop (latch : String) (test : Target.Expr) (body : List Target.Stmt) :
    atoms (postTestLoop latch test body) =
      .declare latch (.primitive .bool) (some (.bool true)) ::
        (atomsAll body ++ [.assign (.ident latch) test]) := by
  rw [postTestLoop, atoms, atomsAll_append]
  rfl

theorem atomsAll_chain (branches : List Branch) (last : List Target.Stmt) :
    atomsAll (chain branches last) =
      branches.flatMap (fun branch => atomsAll branch.2) ++ atomsAll last := by
  induction branches with
  | nil => rfl
  | cons branch branches ih =>
    have hcons : chain (branch :: branches) last =
        [.conditional branch.1 branch.2 (chain branches last)] := rfl
    rw [hcons, atomsAll_singleton, atoms, ih, List.flatMap_cons, List.append_assoc]

/-! ## Statements that prepare others -/

/-- Declarations and evaluations: what stands in front of the statement that does the work. -/
def isPreparation : Target.Stmt → Bool
  | .declare .. | .expression _ => true
  | _ => false

section Preparations

variable {env : Env} {id : Nat} {s t : BodyState} {out : List Target.Stmt}

theorem isPreparation_lowerLocals {modifiers declarators : Nat}
    (h : env.lowerLocals modifiers declarators = .ok out) :
    ∀ stmt ∈ out, isPreparation stmt = true := by
  simp only [Env.lowerLocals, Result.bind_ok, Result.pure_ok] at h
  obtain ⟨lists, hlists, rfl⟩ := h
  rw [List.forall_mem_flatten]
  refine Result.forall_mapM_ok (fun declarator _ stmts hstmts => ?_) hlists
  rw [Result.bind_ok] at hstmts
  obtain ⟨vs, _, hstmts⟩ := hstmts
  refine Result.forall_mapM_ok (fun v _ stmt hstmt => ?_) hstmts
  obtain ⟨init, rfl⟩ := declareLocal_ok hstmt
  rfl

theorem isPreparation_declareControl {declarator : Option Nat}
    (h : env.declareControl declarator = .ok out) : ∀ stmt ∈ out, isPreparation stmt = true := by
  cases declarator with
  | none =>
    cases h
    exact fun _ h => nomatch h
  | some declarator =>
    simp only [Env.declareControl, Result.bind_ok, Result.pure_ok] at h
    obtain ⟨declared, _, rfl⟩ := h
    exact List.forall_mem_map.2 fun _ _ => rfl

theorem isPreparation_lowerSelector {expression : Nat} {value : Target.Expr}
    (h : env.lowerSelector expression s = .ok ((out, value), t)) :
    ∀ stmt ∈ out, isPreparation stmt = true := by
  obtain ⟨_, _, ⟨rfl, _⟩ | ⟨rfl, _⟩⟩ := lowerSelector_ok h
  · exact fun _ h => nomatch h
  · exact List.forall_mem_singleton.2 rfl

/-- The bounds that an operand of a `ReDim` states. -/
def operandBounds (f : Forest) (operand : Nat) : Option Nat :=
  match f.expr? operand with
  | some (.callOrIndex _ arguments _) => arguments
  | _ => none

theorem operandBounds_of_call {f : Forest} {operand target : Nat} {arguments known : Option Nat}
    (h : f.expr? operand = some (.callOrIndex target arguments known)) :
    operandBounds f operand = arguments := by
  rw [operandBounds, h]

/-- What becomes of one operand of a `ReDim`. -/
inductive ReDims (env : Env) (operand : Nat) : Bool → List Target.Stmt → Prop
  | anew {declarator name target arguments known element array lengths}
      (hx : env.forest.expr? operand = some (.callOrIndex target arguments known))
      (he : env.reDimElement declarator name = .ok element)
      (ha : env.lowerExpr target = .ok array) (hl : env.boundLengths arguments = .ok lengths) :
      ReDims env operand false [.assign array (.arrayCreate element lengths none)]
  | preserved {declarator name target arguments known element array lengths temp}
      (hx : env.forest.expr? operand = some (.callOrIndex target arguments known))
      (he : env.reDimElement declarator name = .ok element)
      (ha : env.lowerExpr target = .ok array) (hl : env.boundLengths arguments = .ok lengths) :
      ReDims env operand true (Env.preserved temp array (.arrayCreate element lengths none)
        (.array element lengths.length))

/-- The operands of a `ReDim` are lowered one by one. -/
theorem lowerReDim_ok {preserve : Bool} {arrays : Nat}
    (hstmt : env.forest.stmt? id = some (.reDim preserve arrays))
    (h : env.lowerReDim id preserve arrays s = .ok (out, t)) :
    ∃ lists, out = lists.flatten ∧
      List.Forall₂ (fun operand => ReDims env operand preserve)
        (env.forest.elements (some arrays)) lists := by
  simp only [Env.lowerReDim, Lower.bind_ok, Lower.pure_ok] at h
  obtain ⟨lists, _, hlists, rfl, rfl⟩ := h
  refine ⟨lists, rfl, ?_⟩
  rw [← map_fst_operands hstmt]
  refine Lower.mapM_ok (R := fun pairs _ lists _ => List.Forall₂
    (fun operand => ReDims env operand preserve) (pairs.map Prod.fst) lists)
    (fun _ => .nil) ?_ hlists
  rintro ⟨operand, declarator⟩ _ _ _ b _ _ _ hoperand hrest
  refine .cons ?_ hrest
  obtain ⟨target, arguments, known, element, array, lengths, hexpr, helement, harray, hlengths,
    ⟨rfl, rfl, _⟩ | ⟨rfl, _, _, rfl, _⟩⟩ := lowerReDimOperand_parts hoperand
  · exact .anew hexpr helement harray hlengths
  · exact .preserved hexpr helement harray hlengths

theorem mem_of_forall₂ {α β : Type} {R : α → β → Prop} {xs : List α} {ys : List β}
    (h : List.Forall₂ R xs ys) :
    (∀ x ∈ xs, ∃ y ∈ ys, R x y) ∧ ∀ y ∈ ys, ∃ x ∈ xs, R x y := by
  induction h with
  | nil => exact ⟨List.forall_mem_nil _, List.forall_mem_nil _⟩
  | @cons x y xs ys hxy _ ih =>
    refine ⟨List.forall_mem_cons.2 ⟨⟨y, List.mem_cons_self, hxy⟩, fun z hz => ?_⟩,
      List.forall_mem_cons.2 ⟨⟨x, List.mem_cons_self, hxy⟩, fun z hz => ?_⟩⟩
    · obtain ⟨w, hw, hzw⟩ := ih.1 z hz
      exact ⟨w, List.mem_cons_of_mem _ hw, hzw⟩
    · obtain ⟨w, hw, hwz⟩ := ih.2 z hz
      exact ⟨w, List.mem_cons_of_mem _ hw, hwz⟩

/-- The statement gives the array that an operand of a `ReDim` names. -/
def Allocates (env : Env) (operand : Nat) (stmt : Target.Stmt) : Prop :=
  ∃ target arguments known array value,
    env.forest.expr? operand = some (.callOrIndex target arguments known) ∧
      env.lowerExpr target = .ok array ∧ stmt = .assign array value

/-- The array is assigned to last, behind what copies the old one. -/
theorem ReDims.allocates {operand : Nat} {preserve : Bool} (h : ReDims env operand preserve out) :
    ∃ front stmt, out = front ++ [stmt] ∧ (∀ stmt ∈ front, isPreparation stmt = true) ∧
      Allocates env operand stmt := by
  cases h with
  | anew hx _ ha _ =>
    exact ⟨[], _, rfl, List.forall_mem_nil _, _, _, _, _, _, hx, ha, rfl⟩
  | preserved hx _ ha _ =>
    refine ⟨[_, _], _, rfl, ?_, _, _, _, _, _, hx, ha, rfl⟩
    exact List.forall_mem_cons.2 ⟨rfl, List.forall_mem_singleton.2 rfl⟩

/-- A `ReDim` prepares, and gives each of its operands an array. -/
theorem lowerReDim_allocates {preserve : Bool} {arrays : Nat}
    (hstmt : env.forest.stmt? id = some (.reDim preserve arrays))
    (h : env.lowerReDim id preserve arrays s = .ok (out, t)) :
    (∀ stmt ∈ out, isPreparation stmt = true ∨
      ∃ operand ∈ env.forest.elements (some arrays), Allocates env operand stmt) ∧
    ∀ operand ∈ env.forest.elements (some arrays), ∃ stmt ∈ out, Allocates env operand stmt := by
  obtain ⟨lists, rfl, hlists⟩ := lowerReDim_ok hstmt h
  obtain ⟨hoperands, hpieces⟩ := mem_of_forall₂ hlists
  constructor
  · rw [List.forall_mem_flatten]
    intro list hlist stmt hmem
    obtain ⟨operand, hoperand, hlowered⟩ := hpieces list hlist
    obtain ⟨front, last, rfl, hfront, hallocates⟩ := hlowered.allocates
    rcases List.mem_append.1 hmem with hmem | hmem
    · exact Or.inl (hfront stmt hmem)
    · rw [List.mem_singleton.1 hmem]
      exact Or.inr ⟨operand, hoperand, hallocates⟩
  · intro operand hoperand
    obtain ⟨list, hlist, hlowered⟩ := hoperands operand hoperand
    obtain ⟨front, last, rfl, _, hallocates⟩ := hlowered.allocates
    refine ⟨last, List.mem_flatten.2 ⟨_, hlist, ?_⟩, hallocates⟩
    exact List.mem_append_right _ (List.mem_singleton_self _)

end Preparations

/-! ## Whole statements -/

section Whole

variable {routine : Routine} {env : Env} {id : Nat} {s t : BodyState}

/-- A statement that is lowered on its own goes in front of what is below it. -/
theorem gather_whole {f : Forest} (hf : f.Shaped) {stmt : Stmt} (h : f.stmt? id = some stmt)
    (hwhole : isWhole stmt = true) : f.gather (wholeAt f) id =
      id :: ((stmt.lists.flatMap f.elements).flatMap (f.gather (wholeAt f)) ++
        stmt.last?.toList.flatMap (f.gather (wholeAt f))) := by
  rw [hf.gather_stmt (sparse_wholeAt hf) h, wholeAt_of h, hwhole, List.append_assoc]
  rfl

/-- A plain statement is lowered on its own, or closes a block and becomes nothing. -/
theorem LowersPlain.whole {out : List Target.Stmt} (h : LowersPlain routine env id s out t) :
    wholeAt env.forest id = [id] ∨ wholeAt env.forest id = [] ∧ out = [] := by
  cases h with
  | endBlock h => exact Or.inr ⟨wholeAt_of h, rfl⟩
  | empty h => exact Or.inl (wholeAt_of h)
  | stop h => exact Or.inl (wholeAt_of h)
  | halt h => exact Or.inl (wholeAt_of h)
  | label h => exact Or.inl (wholeAt_of h)
  | goto h => exact Or.inl (wholeAt_of h)
  | goSub h => exact Or.inl (wholeAt_of h)
  | exit h => exact Or.inl (wholeAt_of h)
  | returns h => exact Or.inl (wholeAt_of h)
  | raiseEvent h => exact Or.inl (wholeAt_of h)
  | reDim h => exact Or.inl (wholeAt_of h)
  | erase h => exact Or.inl (wholeAt_of h)
  | call h => exact Or.inl (wholeAt_of h)
  | assignment h => exact Or.inl (wholeAt_of h)
  | compound h => exact Or.inl (wholeAt_of h)
  | mid h => exact Or.inl (wholeAt_of h)
  | locals h => exact Or.inl (wholeAt_of h)

theorem LoopHead.whole {test : Target.Expr} {statements : Option Nat}
    (h : LoopHead env id test statements) : wholeAt env.forest id = [id] := by
  cases h with
  | doBlock h => exact wholeAt_of h
  | endless h => exact wholeAt_of h
  | whileBlock h => exact wholeAt_of h

theorem CountedHead.whole {declared : List Target.Stmt} {control lower upper step : Target.Expr}
    {statements : Option Nat}
    (h : CountedHead env id declared control lower upper step statements) :
    wholeAt env.forest id = [id] := by
  cases h with
  | forBlock h => exact wholeAt_of h

theorem ElementHead.whole {declared : List Target.Stmt} {control collection : Target.Expr}
    {type : Target.Ty} {statements : Option Nat}
    (h : ElementHead env id declared control collection type statements) :
    wholeAt env.forest id = [id] := by
  cases h with
  | forEachBlock h => exact wholeAt_of h

end Whole

theorem not_returns_of_isPreparation {out : List Target.Stmt} {value : Option Target.Expr}
    (h : ∀ stmt ∈ out, isPreparation stmt = true) : .returns value ∉ out :=
  fun hmem => nomatch h _ hmem

/-- A statement with lists of statements brings no `Return` of its own. -/
theorem Brings.plain_or_block {routine : Routine} {f : Forest} {node x : Nat}
    {piece : List Target.Stmt} (h : Brings routine f node x piece) :
    (∃ env s t, Env.forest env = f ∧ LowersPlain routine env x s piece t) ∨
      ∃ stmt, f.stmt? x = some stmt ∧ stmt.lists ≠ [] ∧ ∀ value, .returns value ∉ piece := by
  have loop : ∀ {declared rest : List Target.Stmt} {value : Option Target.Expr},
      (∀ stmt ∈ declared, isPreparation stmt = true) → .returns value ∉ rest →
      .returns value ∉ declared ++ rest :=
    fun hdeclared hrest => List.not_mem_append (not_returns_of_isPreparation hdeclared) hrest
  cases h with
  | plain hforest h => exact Or.inl ⟨_, _, _, hforest, h⟩
  | preTest hforest h =>
    obtain ⟨stmt, hstmt, _, hlists, _⟩ := h.hasList
    exact Or.inr ⟨stmt, hforest ▸ hstmt, by rw [hlists]; simp, by simp⟩
  | postTest _ _ h => exact Or.inr ⟨_, h, by simp [Stmt.lists], by simp⟩
  | counted hforest h =>
    cases h with
    | forBlock h hd =>
      exact Or.inr ⟨_, hforest ▸ h, by simp [Stmt.lists], fun value =>
        loop (isPreparation_declareControl hd) (by simp)⟩
  | element hforest _ h =>
    cases h with
    | forEachBlock h hd =>
      exact Or.inr ⟨_, hforest ▸ h, by simp [Stmt.lists], fun value =>
        loop (isPreparation_declareControl hd) (by simp)⟩
  | within h => exact Or.inr ⟨_, h, by simp [Stmt.lists], by simp⟩
  | ifBlock h => exact Or.inr ⟨_, h, by simp [Stmt.lists], by simp⟩
  | lineIf h => exact Or.inr ⟨_, h, by simp [Stmt.lists], by simp⟩
  | select _ h hs =>
    exact Or.inr ⟨_, h, by simp [Stmt.lists], fun _ =>
      not_returns_of_isPreparation (isPreparation_lowerSelector hs)⟩

/-- What a statement without lists of statements brings is its lowering. -/
theorem Brings.plain_of_lists {routine : Routine} {f : Forest} {node x : Nat}
    {piece : List Target.Stmt} (h : Brings routine f node x piece) {stmt : Stmt}
    (hstmt : f.stmt? x = some stmt) (hlists : stmt.lists = []) :
    ∃ env s t, Env.forest env = f ∧ LowersPlain routine env x s piece t := by
  rcases h.plain_or_block with hplain | ⟨other, hother, hne, _⟩
  · exact hplain
  · rw [hstmt] at hother
    cases hother
    exact absurd hlists hne

/-! ## Tallies -/

/-- Up to their order, the statements are what the statements `xs` of the source bring. -/
def Tally (routine : Routine) (f : Forest) (node : Nat) (xs : List Nat)
    (stmts : List Target.Stmt) : Prop :=
  ∃ pieces, List.Forall₂ (Brings routine f node) xs pieces ∧ stmts.Perm pieces.flatten

section Tallies

variable {routine : Routine} {f : Forest} {node x : Nat} {xs ys : List Nat}
  {a b stmts own : List Target.Stmt}

theorem Tally.nil : Tally routine f node [] [] := ⟨[], .nil, .nil⟩

theorem Tally.cons (h : Brings routine f node x own) (hs : Tally routine f node xs stmts) :
    Tally routine f node (x :: xs) (own ++ stmts) := by
  obtain ⟨pieces, hpieces, hperm⟩ := hs
  exact ⟨own :: pieces, .cons h hpieces, hperm.append_left own⟩

/-- A statement may bring nothing of its own. -/
theorem Tally.silent (h : Brings routine f node x []) (hs : Tally routine f node xs stmts) :
    Tally routine f node (x :: xs) stmts :=
  .cons h hs

theorem Tally.append (hx : Tally routine f node xs a) (hy : Tally routine f node ys b) :
    Tally routine f node (xs ++ ys) (a ++ b) := by
  obtain ⟨first, hfirst, hpermFirst⟩ := hx
  obtain ⟨second, hsecond, hpermSecond⟩ := hy
  refine ⟨first ++ second, List.rel_append hfirst hsecond, ?_⟩
  rw [List.flatten_append]
  exact hpermFirst.append hpermSecond

theorem Tally.perm (h : Tally routine f node xs a) (hperm : b.Perm a) :
    Tally routine f node xs b := by
  obtain ⟨pieces, hpieces, hsame⟩ := h
  exact ⟨pieces, hpieces, hperm.trans hsame⟩

end Tallies

mutual

theorem Lowers.tally {routine : Routine} {env : Env} {node id : Nat} {s t : BodyState}
    {out : List Target.Stmt} (h : Lowers routine env id s out t) (hf : env.forest.Shaped)
    (hs : InUse routine env node s) (hid : id ∈ env.forest.descendants node) :
    Tally routine env.forest node (env.forest.gather (wholeAt env.forest) id) (atomsAll out) := by
  have hg := sparse_wholeAt hf
  match h with
  | .plain h =>
    obtain ⟨stmt, hstmt, _, hlists, hlast⟩ := h.stmt
    rw [hf.gather_stmt hg hstmt, hlists, hlast, atomsAll_of_isSimple h.isSimple]
    rcases h.whole with hwhole | ⟨hwhole, rfl⟩
    · rw [hwhole, ← List.append_nil out]
      exact .cons (.plain rfl h) .nil
    · rw [hwhole]
      exact .nil
  | .preTest h hb =>
    have hbody := hb.tally hf hs (h.hasList.below hid)
    rw [h.hasList.gather hf hg, h.whole, atomsAll_singleton]
    exact (Tally.silent (.preTest rfl h) hbody).perm (by rw [preTestLoop, atoms]; rfl)
  | .postTest h _ hb hc =>
    have hlist : HasList env.forest id _ := ⟨_, h, rfl, rfl, rfl⟩
    have hbody := hb.tally hf (hs.grows (Grows.fresh s "latch")) (hlist.below hid)
    rw [hlist.gather hf hg, wholeAt_of h, atomsAll_singleton, atoms_postTestLoop]
    -- the latch is assigned to behind the body
    refine (Tally.cons (.postTest rfl hs h hc) hbody).perm ?_
    exact (List.perm_append_singleton _ _).cons _
  | .counted h hb =>
    have hbody := hb.tally hf hs (h.hasList.below hid)
    rw [h.hasList.gather hf hg, h.whole, atomsAll_append, atomsAll_of_isPlain h.isPlain,
      atomsAll_singleton]
    refine (Tally.cons (.counted rfl h) hbody).perm ?_
    rw [List.append_assoc]
    exact .refl _
  | .element h hb =>
    have hbody := hb.tally hf (hs.grows (Grows.fresh s "enumerator")) (h.hasList.below hid)
    rw [h.hasList.gather hf hg, h.whole, atomsAll_append, atomsAll_of_isPlain h.isPlain,
      atomsAll_singleton]
    refine (Tally.cons (.element rfl hs h) hbody).perm ?_
    rw [List.append_assoc]
    exact .refl _
  | .within h _ hsubject hb =>
    have hwithin := hs.within (Forest.mem_descendants_child hid
      (Forest.mem_children_of_stmt h (by simp [Stmt.slots, Slot.expr, Slot.one]))) hsubject
    have hbody := hb.tally hf hwithin (Forest.elements_below hid h (by simp [Stmt.lists]))
    have hgather := gather_whole hf h rfl
    simp only [Stmt.lists, Stmt.last?, List.flatMap_singleton, Option.toList_none,
      List.flatMap_nil, List.append_nil] at hgather
    rw [hgather]
    exact .silent (.within h) hbody
  | .ifBlock h _ hthen helseIfs helse =>
    have hu := hs.grows hthen.grows
    have hbody := hthen.tally hf hs (Forest.elements_below hid h (by simp [Stmt.lists]))
    have hbranches := helseIfs.tally hf hu (Forest.elements_below hid h (by simp [Stmt.lists]))
    have hlast := helse.tally hf (hu.grows helseIfs.grows) (Forest.last_below hid h)
    have hgather := gather_whole hf h rfl
    simp only [Stmt.lists, Stmt.last?, List.flatMap_cons, List.flatMap_nil, List.append_nil,
      List.flatMap_append, List.append_assoc] at hgather
    rw [hgather, atomsAll_singleton, atoms, atomsAll_chain]
    exact .silent (.ifBlock h) (hbody.append (hbranches.append hlast))
  | .lineIf h _ hthen helse =>
    have hbody := hthen.tally hf hs (Forest.elements_below hid h (by simp [Stmt.lists]))
    have hlast := helse.tally hf (hs.grows hthen.grows)
      (Forest.elements_below hid h (by simp [Stmt.lists]))
    have hgather := gather_whole hf h rfl
    simp only [Stmt.lists, Stmt.last?, List.flatMap_cons, List.flatMap_nil, List.append_nil,
      List.flatMap_append, Option.toList_none] at hgather
    rw [hgather, atomsAll_singleton, atoms]
    exact .silent (.lineIf h) (hbody.append hlast)
  | .select h hselector hcases helse =>
    have hu := hs.grows (grows_of_lowerSelector hselector)
    have hbranches := hcases.tally hf hu (Forest.elements_below hid h (by simp [Stmt.lists]))
    have hlast := helse.tally hf (hu.grows hcases.grows) (Forest.last_below hid h)
    have hgather := gather_whole hf h rfl
    simp only [Stmt.lists, Stmt.last?, List.flatMap_singleton] at hgather
    rw [hgather, atomsAll_append, atomsAll_of_isPlain (isPlain_lowerSelector hselector),
      atomsAll_chain]
    exact .cons (.select rfl h hselector) (hbranches.append hlast)

/-- What the statements below a list bring is all there is in what the list becomes. -/
theorem LowersAll.tally {routine : Routine} {env : Env} {node : Nat} {ids : List Nat}
    {s t : BodyState} {out : List Target.Stmt} (h : LowersAll routine env ids s out t)
    (hf : env.forest.Shaped) (hs : InUse routine env node s)
    (hids : ∀ id ∈ ids, id ∈ env.forest.descendants node) :
    Tally routine env.forest node (ids.flatMap (env.forest.gather (wholeAt env.forest)))
      (atomsAll out) := by
  match h with
  | .nil => exact .nil
  | .cons h hrest =>
    have hfirst := h.tally hf hs (hids _ List.mem_cons_self)
    have hrest := hrest.tally hf (hs.grows h.grows) fun id hid =>
      hids id (List.mem_cons_of_mem _ hid)
    rw [List.flatMap_cons, atomsAll_append, atomsAll_append, atomsAll_comments, List.nil_append]
    exact hfirst.append hrest

theorem LowersBranches.tally {routine : Routine} {env : Env} {value : Option Target.Expr}
    {node : Nat} {ids : List Nat} {s t : BodyState} {branches : List Branch}
    (h : LowersBranches routine env value ids s branches t) (hf : env.forest.Shaped)
    (hs : InUse routine env node s) (hids : ∀ id ∈ ids, id ∈ env.forest.descendants node) :
    Tally routine env.forest node (ids.flatMap (env.forest.gather (wholeAt env.forest)))
      (branches.flatMap fun branch => atomsAll branch.2) := by
  match h with
  | .nil => exact .nil
  | .cons harm hb hrest =>
    have hbody := hb.tally hf hs (harm.hasList.below (hids _ List.mem_cons_self))
    have hrest := hrest.tally hf (hs.grows hb.grows) fun id hid =>
      hids id (List.mem_cons_of_mem _ hid)
    rw [List.flatMap_cons, harm.hasList.gather hf (sparse_wholeAt hf), harm.wholeAt,
      List.nil_append, List.flatMap_cons]
    exact hbody.append hrest

theorem LowersElse.tally {routine : Routine} {env : Env} {block : Option Nat} {node : Nat}
    {s t : BodyState} {out : List Target.Stmt} (h : LowersElse routine env block s out t)
    (hf : env.forest.Shaped) (hs : InUse routine env node s)
    (hblock : ∀ y, block = some y → y ∈ env.forest.descendants node) :
    Tally routine env.forest node
      (block.toList.flatMap (env.forest.gather (wholeAt env.forest))) (atomsAll out) := by
  match h with
  | .none => exact .nil
  | .some h hb =>
    have hbody := hb.tally hf hs
      (Forest.elements_below (hblock _ rfl) h (by simp [Stmt.lists]))
    have hgather := hf.gather_stmt (sparse_wholeAt hf) h
    simp only [wholeAt_of h, Stmt.lists, Stmt.last?, isWhole, Bool.false_eq_true, if_false,
      List.flatMap_singleton, Option.toList_none, List.flatMap_nil, List.nil_append,
      List.append_nil] at hgather
    rw [Option.toList_some, List.flatMap_singleton, hgather]
    exact hbody

end

/-! ## Routines -/

/-- The statements below a node that are lowered on their own, in the order of the walk. -/
def wholesBelow (f : Forest) (node : Nat) : List Nat :=
  (f.descendants node).filter fun x => (f.stmt? x).any isWhole

theorem mem_wholesBelow {f : Forest} {node x : Nat} : x ∈ wholesBelow f node ↔
    x ∈ f.descendants node ∧ ∃ stmt, f.stmt? x = some stmt ∧ isWhole stmt = true := by
  rw [wholesBelow, List.mem_filter, Option.any_eq_true]

theorem gather_wholeAt (f : Forest) (node : Nat) :
    f.gather (wholeAt f) node = wholesBelow f node := by
  rw [Forest.gather, wholesBelow]
  induction f.descendants node with
  | nil => rfl
  | cons x xs ih =>
    rw [List.flatMap_cons, ih, List.filter_cons, wholeAt]
    cases f.stmt? x with
    | none => rfl
    | some stmt => cases h : isWhole stmt <;> simp [h]

/-- Related lists are related element by element, so that one is the image of the other where its
elements differ. -/
theorem exists_map_of_forall₂ {α β : Type} [DecidableEq α] [Inhabited β] {R : α → β → Prop}
    {xs : List α} {ys : List β} (h : List.Forall₂ R xs ys) (hnodup : xs.Nodup) :
    ∃ g : α → β, ys = xs.map g ∧ ∀ x ∈ xs, R x (g x) := by
  induction h with
  | nil => exact ⟨fun _ => default, rfl, fun _ hx => nomatch hx⟩
  | @cons x y xs ys hxy _ ih =>
    obtain ⟨hx, hxs⟩ := List.nodup_cons.1 hnodup
    obtain ⟨g, rfl, hg⟩ := ih hxs
    have hother : ∀ z ∈ xs, Function.update g x y z = g z := by
      intro z hz
      refine Function.update_of_ne ?_ y g
      rintro rfl
      exact hx hz
    refine ⟨Function.update g x y, ?_, List.forall_mem_cons.2 ⟨?_, fun z hz => ?_⟩⟩
    · rw [List.map_cons, Function.update_self, List.map_congr_left hother]
    · rw [Function.update_self]
      exact hxy
    · rw [hother z hz]
      exact hg z hz

section Routines

variable {forest : Forest} {settings : Settings} {body : List Target.Stmt}

/-- The body of a routine is framed lowered code, whose statements that hold no others are, up to
their order, the pieces of the statements of the source. -/
structure Census (r : RoutineBody forest settings body) (out : List Target.Stmt)
    (piece : Nat → List Target.Stmt) : Prop where
  lowered : ∃ state, r.env.lowerBody r.routine r.statements
    ⟨(r.env.routineShadow r.node r.name r.returnType).2, []⟩ = .ok (out, state)
  framed : body = Env.withShadow r.routine.shadow r.returnType out
  complete : (atomsAll out).Perm ((wholesBelow forest r.node).flatMap piece)
  brings : ∀ x ∈ wholesBelow forest r.node, Brings r.routine forest r.node x (piece x)

theorem RoutineBody.census (r : RoutineBody forest settings body) (hl : forest.Linked)
    (hf : forest.Shaped) : ∃ out piece, Census r out piece := by
  obtain ⟨out, state, hout, hbody⟩ := lowerRoutine_ok r.lowered
  have htally := (lowersAll_of_lowerBody hout).tally hf
    (inUse_routine r.env rfl r.node r.name r.returnType) r.holds.below
  have hgather : (forest.elements r.statements).flatMap (forest.gather (wholeAt forest)) =
      wholesBelow forest r.node := by
    rw [← r.gather_node hf (sparse_wholeAt hf) (r.wholeAt_node hf), gather_wholeAt]
  obtain ⟨pieces, hpieces, hperm⟩ : Tally r.routine forest r.node (wholesBelow forest r.node)
      (atomsAll out) := hgather ▸ htally
  have hnodup : (wholesBelow forest r.node).Nodup := (hl.nodup_descendants r.node).filter _
  obtain ⟨piece, rfl, hbrings⟩ := exists_map_of_forall₂ hpieces hnodup
  exact ⟨out, piece, ⟨state, hout⟩, hbody, hperm, hbrings⟩

theorem mem_atoms_withShadow {shadow : Option String} {returnType : Target.Ty}
    {out : List Target.Stmt} {stmt : Target.Stmt} :
    stmt ∈ atomsAll (Env.withShadow shadow returnType out) ↔ (∃ name, shadow = some name ∧
        (stmt = .declare name returnType (some (zeroValue returnType)) ∨
          stmt = .returns (some (.ident name)))) ∨ stmt ∈ atomsAll out := by
  cases shadow with
  | none => simp [Env.withShadow]
  | some name =>
    rw [Env.withShadow, atomsAll_append, atomsAll_singleton, atomsAll]
    simp only [atoms, List.mem_append, List.mem_singleton, Option.some.injEq, exists_eq_left']
    tauto

/-- A statement of the body that holds no others is part of its frame or of a piece. -/
theorem Census.mem_atoms {r : RoutineBody forest settings body} {out : List Target.Stmt}
    {piece : Nat → List Target.Stmt} (h : Census r out piece) {stmt : Target.Stmt} :
    stmt ∈ atomsAll body ↔ (∃ shadow, r.routine.shadow = some shadow ∧
        (stmt = .declare shadow r.returnType (some (zeroValue r.returnType)) ∨
          stmt = .returns (some (.ident shadow)))) ∨
      ∃ x ∈ wholesBelow forest r.node, stmt ∈ piece x := by
  have hout : stmt ∈ atomsAll out ↔ ∃ x ∈ wholesBelow forest r.node, stmt ∈ piece x := by
    rw [h.complete.mem_iff, List.mem_flatMap]
  have hbody := congrArg (fun b => stmt ∈ atomsAll b) h.framed
  rw [← hout, iff_of_eq hbody]
  exact mem_atoms_withShadow

end Routines

end StructuredBasic.Lowering
