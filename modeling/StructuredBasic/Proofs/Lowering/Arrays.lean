import StructuredBasic.Proofs.Forest.Accepted
import StructuredBasic.Proofs.Lowering.Applications
import StructuredBasic.Proofs.Lowering.Ranks

/-!
# Shapes of arrays

An array is created without initial values for a variable whose name has bounds, and for every
operand of a `ReDim`. It gets one length for each bound that is there, while its rank counts the
empty positions among the bounds too. So an array keeps its shape exactly if its bounds have a
position and no empty one (`shapes_kept_iff`).
-/

set_option autoImplicit false

namespace StructuredBasic.Target

/-- The number of dimensions, none if the type is no array. -/
def Ty.rank : Ty → Nat
  | .array _ rank => rank
  | _ => 0

/-- The lengths of an array that is created without initial values. -/
def Expr.newLengths? : Expr → Option (List Expr)
  | .arrayCreate _ lengths none => some lengths
  | _ => none

/-- An array that is created without initial values: the rank of the variable that is declared with
it, if there is one, and the number of its lengths. -/
structure Creation where
  rank : Option Nat
  lengths : Nat

/-- The array that a value of a variable creates. -/
def Creation.ofInit? (type : Ty) (init : Option Expr) : Option Creation :=
  (init.bind Expr.newLengths?).map fun lengths => ⟨some type.rank, lengths.length⟩

def Stmt.creation? : Stmt → Option Creation
  | .declare _ type init => Creation.ofInit? type init
  | .assign _ value => value.newLengths?.map fun lengths => ⟨none, lengths.length⟩
  | _ => none

def Field.creation? (field : Field) : Option Creation := Creation.ofInit? field.type field.init

def Program.HasField (program : Program) (field : Field) : Prop :=
  Member.Holds (.type program.type) (.field field)

end StructuredBasic.Target

namespace StructuredBasic.Lowering

open Syntax
open Target (Ty Creation)
open Target.Stmt (atomsAll)

/-! ## Specification -/

/-- The rank of an array type counts the positions of its bounds. -/
def RanksAgree (f : Forest) : Prop :=
  ∀ id element rank c, f.type? id = some (.array element rank (some c)) →
    rank = (positions f (some c)).length

/-- Whether an array type at this node has the rank of its bounds. -/
def agreesAt (f : Forest) (id : Nat) : Bool :=
  match f.type? id with
  | some (.array _ rank (some c)) => rank == (positions f (some c)).length
  | _ => true

theorem ranksAgree_iff {f : Forest} : RanksAgree f ↔ ∀ id < f.size, agreesAt f id = true := by
  constructor
  · intro h id _
    unfold agreesAt
    split
    · next htype => exact beq_iff_eq.2 (h _ _ _ _ htype)
    · rfl
  · intro h id element rank c htype
    have hagrees := h id (lt_size_of_payload (Forest.payload?_of_type? htype))
    rw [agreesAt, htype] at hagrees
    exact beq_iff_eq.1 hagrees

instance {f : Forest} : Decidable (RanksAgree f) := decidable_of_iff _ ranksAgree_iff.symm

/-- The bounds have a position, and no position is empty. -/
def Complete (f : Forest) (bounds : Option Nat) : Prop :=
  positions f bounds ≠ [] ∧ none ∉ positions f bounds

/-- The array has as many lengths as the bounds have positions, at least one, and a variable that is
declared with it has that rank. -/
structure KeepsShape (f : Forest) (bounds : Option Nat) (c : Creation) : Prop where
  positions : c.lengths = (positions f bounds).length
  positive : 1 ≤ c.lengths
  rank : ∀ rank, c.rank = some rank → rank = c.lengths

/-- The array has a length for each bound that is there, and so it keeps the shape of the bounds
exactly if they are complete. -/
structure CreatesFor (f : Forest) (bounds : Option Nat) (c : Creation) : Prop where
  lengths : c.lengths = (f.elements bounds).length
  kept : KeepsShape f bounds c ↔ Complete f bounds

/-- The bounds on a declared name. -/
def statedBounds? (f : Forest) (declared : Nat) : Option Nat :=
  match boundsType? f declared with
  | some (.array _ _ bounds) => bounds
  | _ => none

/-- The bounds of the array that a declared name is given: those on the name, unless the declarator
has an initial value or makes a new object. -/
def allocatedBounds? (f : Forest) (d : Declarator) (declared : Nat) : Option Nat :=
  if d.initializer.isSome || d.isNew then none else statedBounds? f declared

/-- The names of a declarator, each with it. -/
def namesOf (f : Forest) (declarator : Nat) : List (Declarator × Nat) :=
  match f.declarator? declarator with
  | some d => (f.elements (some d.names)).map fun declared => (d, declared)
  | none => []

def declaredNames (f : Forest) (declarators : Nat) : List (Declarator × Nat) :=
  (f.elements (some declarators)).flatMap (namesOf f)

/-- The bounds of the arrays that a statement creates, in order. -/
def boundsAt (f : Forest) (x : Nat) : List (Option Nat) :=
  match f.stmt? x with
  | some (.localDeclaration _ declarators) =>
    (declaredNames f declarators).filterMap fun name =>
      (allocatedBounds? f name.1 name.2).map some
  | some (.reDim _ arrays) => (f.elements (some arrays)).map (operandBounds f)
  | _ => []

/-- The bounds of the arrays that the statements below a node create. -/
def boundsBelow (f : Forest) (node : Nat) : List (Option Nat) :=
  (f.descendants node).flatMap (boundsAt f)

/-- A name is declared with the rank of its bounds, and with a new array exactly if it has bounds
that are not left out and no other value. -/
structure DeclaredAs (f : Forest) (name : Declarator × Nat) (type : Ty)
    (init : Option Target.Expr) : Prop where
  rank : ∀ element rank bounds,
    boundsType? f name.2 = some (.array element rank bounds) → type.rank = rank
  created : Option.Rel (CreatesFor f) ((allocatedBounds? f name.1 name.2).map some)
    (Creation.ofInit? type init)

/-! ## Counting bounds -/

section Counts

variable {f : Forest} {bounds : Option Nat} {c : Creation}

theorem elements_eq_positions (f : Forest) (bounds : Option Nat) :
    f.elements bounds = (positions f bounds).filterMap id := by
  unfold Forest.elements positions
  cases bounds.bind f.collection? <;> rfl

theorem length_filterMap_id {α : Type} (xs : List (Option α)) :
    (xs.filterMap id).length = xs.length ↔ none ∉ xs := by
  rw [List.filterMap_length_eq_length]
  constructor
  · intro h hnone
    exact absurd (h _ hnone) Bool.false_ne_true
  · intro h x hx
    exact Option.isSome_iff_ne_none.2 fun hnone => h (hnone ▸ hx)

/-- An array with a length for each bound that is there, whose rank is that of the bounds or of
itself, keeps the shape exactly if no position is empty. -/
theorem CreatesFor.of_length (hl : c.lengths = (f.elements bounds).length)
    (hr : ∀ rank, c.rank = some rank → rank = (positions f bounds).length ∨ rank = c.lengths) :
    CreatesFor f bounds c := by
  refine ⟨hl, ?_⟩
  have hfull : c.lengths = (positions f bounds).length ↔ none ∉ positions f bounds := by
    rw [hl, elements_eq_positions]
    exact length_filterMap_id _
  have hpos : positions f bounds ≠ [] ↔ 1 ≤ (positions f bounds).length :=
    List.length_pos_iff.symm
  constructor
  · intro h
    exact ⟨hpos.2 (h.positions ▸ h.positive), hfull.1 h.positions⟩
  · rintro ⟨hne, hnone⟩
    have hlength := hfull.2 hnone
    refine ⟨hlength, hlength ▸ hpos.1 hne, fun rank hrank => ?_⟩
    rcases hr rank hrank with h | h
    · rw [h, hlength]
    · exact h

end Counts

/-! ## Values that create no array -/

section Values

variable {env : Env} {id : Nat} {e : Target.Expr}

theorem newLengths_invocation {callee : Target.Expr} {args : List Target.Expr} :
    (invocation callee args).newLengths? = none := by
  unfold invocation
  split
  · rfl
  · rfl
  · split <;> rfl
  · rfl

theorem newLengths_binaryOperation {mode : Target.CompareMode} {op : Operator}
    {left right : Target.Expr} (h : binaryOperation? mode op left right = some e) :
    e.newLengths? = none := by
  unfold binaryOperation? at h
  split at h <;> cases h <;> rfl

theorem newLengths_zeroValue (type : Ty) : (zeroValue type).newLengths? = none := by
  unfold zeroValue
  split
  · rfl
  · split <;> rfl
  · rfl

theorem newLengths_methodReference {callee : Target.Expr}
    (h : env.methodReference id callee = .ok e) : e.newLengths? = none := by
  unfold Env.methodReference at h
  split at h
  · cases h
    rfl
  · cases h
    rfl
  · exact absurd h unsupported_ne_ok

/-- An array in an expression has initial values. -/
theorem newLengths_lowerExpr (he : env.lowerExpr id = .ok e) : e.newLengths? = none := by
  induction id using Nat.strongRecOn generalizing e with
  | ind id ih =>
    cases lowersExpr_of_ok he with
    | call => exact newLengths_invocation
    | addressOf _ _ hm => exact newLengths_methodReference hm
    | parenthetical _ ho => exact ih _ ho.lt ho.lowered
    | binary _ _ _ _ hvalue => exact newLengths_binaryOperation hvalue
    | _ => rfl

end Values

/-! ## Declared names -/

section Names

variable {env : Env}

theorem statedBounds?_eq_some {f : Forest} {declared c : Nat}
    (h : statedBounds? f declared = some c) : ∃ arrayType element rank,
      f.type? arrayType = some (.array element rank (some c)) ∧
        boundsType? f declared = some (.array element rank (some c)) := by
  unfold statedBounds? at h
  split at h
  · next element rank bounds htype =>
    subst h
    have harray := htype
    unfold boundsType? at harray
    split at harray
    · obtain ⟨arrayType, _, harray⟩ := Option.bind_eq_some_iff.1 harray
      exact ⟨arrayType, element, rank, harray, htype⟩
    · cases harray
  · cases h

/-- Bounds on a name allocate an array of that many lengths. -/
theorem allocation_ok {declared : Nat} {type : Ty} {init : Option Target.Expr}
    (h : env.allocation declared type = .ok init) :
    (statedBounds? env.forest declared = none ∧ init = none) ∨
      ∃ c lengths, statedBounds? env.forest declared = some c ∧
        env.boundLengths (some c) = .ok lengths ∧
        init = some (.arrayCreate (type.element?.getD .object) lengths none) := by
  unfold Env.allocation at h
  split at h
  · next arrayType hname =>
    have hon : boundsType? env.forest declared = env.forest.type? arrayType := by
      rw [boundsType?, hname]
      rfl
    rw [statedBounds?, hon]
    split at h
    · next c harray =>
      simp only [Result.bind_ok, Result.pure_ok] at h
      obtain ⟨lengths, hlengths, rfl⟩ := h
      rw [harray]
      exact Or.inr ⟨c, lengths, rfl, hlengths, rfl⟩
    · next hother =>
      cases h
      refine Or.inl ⟨?_, rfl⟩
      split
      · next bounds harray =>
        cases bounds with
        | none => rfl
        | some c => exact absurd harray (hother _ _ _)
      · rfl
  · next hother =>
    cases h
    have hon : boundsType? env.forest declared = none := by
      unfold boundsType?
      split
      · next name arrayType hname =>
        cases arrayType with
        | none => rfl
        | some arrayType => exact absurd hname (hother _ _)
      · rfl
    rw [statedBounds?, hon]
    exact Or.inl ⟨rfl, rfl⟩

theorem declaredVariable_declaredAs (hb : RanksAgree env.forest) {d : Declarator} {declared : Nat}
    {v : DeclaredVariable} (h : env.declaredVariable d declared = .ok v) :
    DeclaredAs env.forest (d, declared) v.type v.init := by
  obtain ⟨_, htype, hstarts⟩ := declaredVariable_ok h
  have hrank : ∀ element rank bounds,
      boundsType? env.forest declared = some (.array element rank bounds) →
        v.type.rank = rank := by
    intro element rank bounds hbounds
    obtain ⟨plain, _, hplain⟩ := variableType_ok htype
    rw [hplain, hbounds]
    rfl
  refine ⟨hrank, ?_⟩
  generalize v.init = init at hstarts ⊢
  cases hstarts with
  | @value _ value hinit hvalue =>
    have hnone : value.newLengths? = none := by
      unfold Env.initialValue at hvalue
      split at hvalue
      · exact newLengths_lowerExpr hvalue
      · obtain ⟨_, _, hvalue⟩ := Result.bind_ok.1 hvalue
        cases hvalue
        rfl
      · exact absurd hvalue unsupported_ne_ok
    simp only [allocatedBounds?, hinit, Option.isSome_some, Bool.true_or, if_true,
      Creation.ofInit?, Option.bind_some, hnone, Option.map_none]
    exact .none
  | object hinit hnew =>
    simp only [allocatedBounds?, hnew, Bool.or_true, if_true]
    exact .none
  | array hinit hnew hallocation =>
    have hbounds :
        allocatedBounds? env.forest d declared = statedBounds? env.forest declared := by
      simp only [allocatedBounds?, hinit, hnew, Option.isSome_none, Bool.or_false,
        Bool.false_eq_true, if_false]
    rw [hbounds]
    rcases allocation_ok hallocation with ⟨hnone, rfl⟩ | ⟨c, lengths, hsome, hlengths, rfl⟩
    · rw [hnone]
      exact .none
    · rw [hsome]
      refine .some (CreatesFor.of_length (length_boundLengths hlengths) ?_)
      rintro _ ⟨⟩
      obtain ⟨arrayType, element, rank, harray, hon⟩ := statedBounds?_eq_some hsome
      rw [hrank element rank (some c) hon]
      exact Or.inl (hb arrayType element rank c harray)

theorem declaredVariables_declaredAs (hb : RanksAgree env.forest) {declarator : Nat}
    {vs : List DeclaredVariable} (h : env.declaredVariables declarator = .ok vs) :
    List.Forall₂ (fun name v => DeclaredAs env.forest name v.type v.init)
      (namesOf env.forest declarator) vs := by
  unfold Env.declaredVariables at h
  split at h
  · next d hd =>
    rw [namesOf, hd]
    refine Result.mapM_ok (R := fun names vs => List.Forall₂ (fun name v =>
      DeclaredAs env.forest name v.type v.init) (names.map fun declared => (d, declared)) vs) .nil
      (fun _ _ _ _ hv hrest => ?_) _ h
    exact .cons (declaredVariable_declaredAs hb hv) hrest
  · exact absurd h unsupported_ne_ok

end Names

/-! ## Statements -/

section Statements

variable {routine : Routine} {env : Env} {f : Forest} {id node x : Nat} {s t : BodyState}
  {out piece : List Target.Stmt}

/-- The statement declares a name of a declarator with a value. -/
def DeclaresName (f : Forest) (name : Declarator × Nat) (stmt : Target.Stmt) : Prop :=
  ∃ text type init, stmt = .declare text type (some init) ∧ DeclaredAs f name type (some init)

theorem declaresName_of_declareLocal {isConst : Bool} {declarator : Nat} {v : DeclaredVariable}
    {name : Declarator × Nat} (hname : DeclaredAs f name v.type v.init) {stmt : Target.Stmt}
    (h : env.declareLocal isConst declarator v = .ok stmt) : DeclaresName f name stmt := by
  unfold Env.declareLocal at h
  split at h
  · next init hinit =>
    cases h
    rw [hinit] at hname
    exact ⟨_, _, init, rfl, hname⟩
  · next hinit =>
    split at h
    · exact absurd h unsupported_ne_ok
    · cases h
      rw [hinit] at hname
      -- the zero of a type is no new array, as little as no value is
      refine ⟨_, _, _, rfl, hname.rank, ?_⟩
      have hcreated := hname.created
      rwa [Creation.ofInit?, Option.bind_some, newLengths_zeroValue]

/-- A list of locals declares its names one by one. -/
theorem lowerLocals_declares (hb : RanksAgree env.forest) {modifiers declarators : Nat}
    (h : env.lowerLocals modifiers declarators = .ok out) :
    List.Forall₂ (DeclaresName env.forest) (declaredNames env.forest declarators) out := by
  simp only [Env.lowerLocals, Result.bind_ok, Result.pure_ok] at h
  obtain ⟨lists, hlists, rfl⟩ := h
  refine Result.mapM_ok (R := fun declarators lists => List.Forall₂ (DeclaresName env.forest)
    (declarators.flatMap (namesOf env.forest)) lists.flatten) .nil
    (fun declarator _ stmts _ hstmts hrest => ?_) _ hlists
  obtain ⟨vs, hvs, hstmts⟩ := Result.bind_ok.1 hstmts
  rw [List.flatMap_cons, List.flatten_cons]
  refine List.rel_append (Result.mapM_ok (R := fun vs stmts => ∀ names, List.Forall₂ (fun name v =>
    DeclaredAs env.forest name v.type v.init) names vs →
    List.Forall₂ (DeclaresName env.forest) names stmts) ?_ ?_ _ hstmts _
    (declaredVariables_declaredAs hb hvs)) hrest
  · rintro _ ⟨⟩
    exact .nil
  · rintro v vs stmt stmts hstmt hrest _ (_ | ⟨hname, hnames⟩)
    exact .cons (declaresName_of_declareLocal hname hstmt) (hrest _ hnames)

/-- The arrays that a statement creates are those of its bounds. -/
def CreatesAt (f : Forest) (x : Nat) (stmts : List Target.Stmt) : Prop :=
  List.Forall₂ (CreatesFor f) (boundsAt f x) (stmts.filterMap Target.Stmt.creation?)

theorem CreatesAt.silent (hx : boundsAt f x = []) (h : ∀ stmt ∈ piece, stmt.creation? = none) :
    CreatesAt f x piece := by
  rw [CreatesAt, hx, List.filterMap_eq_nil_iff.2 h]
  exact .nil

theorem ReDims.creates {operand : Nat} {preserve : Bool} (h : ReDims env operand preserve out) :
    List.Forall₂ (CreatesFor env.forest) [operandBounds env.forest operand]
      (out.filterMap Target.Stmt.creation?) := by
  cases h with
  | anew hx _ _ hl =>
    refine .cons (CreatesFor.of_length ?_ fun _ h => nomatch h) .nil
    rw [operandBounds_of_call hx]
    exact length_boundLengths hl
  | preserved hx _ _ hl =>
    refine .cons (CreatesFor.of_length ?_ ?_) .nil
    · rw [operandBounds_of_call hx]
      exact length_boundLengths hl
    · rintro _ ⟨⟩
      exact Or.inr rfl

theorem creates_of_reDims {operands : List Nat} {preserve : Bool} {lists : List (List Target.Stmt)}
    (h : List.Forall₂ (fun operand => ReDims env operand preserve) operands lists) :
    List.Forall₂ (CreatesFor env.forest) (operands.map (operandBounds env.forest))
      (lists.flatten.filterMap Target.Stmt.creation?) := by
  induction h with
  | nil => exact .nil
  | cons hoperand _ ih =>
    rw [List.map_cons, List.flatten_cons, List.filterMap_append, ← List.singleton_append]
    exact List.rel_append hoperand.creates ih

theorem creation_assign {place value : Target.Expr} (h : value.newLengths? = none) :
    (Target.Stmt.assign place value).creation? = none := by
  rw [Target.Stmt.creation?, h]
  rfl

theorem LowersPlain.creates (h : LowersPlain routine env id s out t) (hb : RanksAgree env.forest) :
    CreatesAt env.forest id out := by
  have bounds : ∀ {stmt : Stmt}, env.forest.stmt? id = some stmt →
      boundsAt env.forest id = match stmt with
        | .localDeclaration _ declarators =>
          (declaredNames env.forest declarators).filterMap fun name =>
            (allocatedBounds? env.forest name.1 name.2).map some
        | .reDim _ arrays => (env.forest.elements (some arrays)).map (operandBounds env.forest)
        | _ => [] := by
    intro stmt hstmt
    rw [boundsAt, hstmt]
    cases stmt <;> rfl
  cases h with
  | empty h | endBlock h => exact .silent (bounds h) (List.forall_mem_nil _)
  | stop h | halt h | label h | goto h | raiseEvent h | call h =>
    exact .silent (bounds h) (List.forall_mem_singleton.2 rfl)
  | goSub h =>
    exact .silent (bounds h) (List.forall_mem_cons.2 ⟨rfl, List.forall_mem_singleton.2 rfl⟩)
  | exit h hs =>
    refine .silent (bounds h) (List.forall_mem_singleton.2 ?_)
    rcases lowerExit_ok hs with rfl | rfl | ⟨_, rfl⟩ <;> rfl
  | returns h hs =>
    refine .silent (bounds h) (List.forall_mem_singleton.2 ?_)
    rcases lowerReturn_ok hs with ⟨_, rfl⟩ | ⟨_, rfl⟩ <;> rfl
  | erase h => exact .silent (bounds h) (List.forall_mem_map.2 fun _ _ => rfl)
  | assignment h _ hv =>
    exact .silent (bounds h)
      (List.forall_mem_singleton.2 (creation_assign (newLengths_lowerExpr hv)))
  | compound h hs =>
    obtain ⟨_, _, _, _, _, hvalue, rfl⟩ := lowerCompound_ok hs
    exact .silent (bounds h)
      (List.forall_mem_singleton.2 (creation_assign (newLengths_binaryOperation hvalue)))
  | mid h hs =>
    obtain ⟨_, _, _, _, _, _, _, _, rfl⟩ := lowerMid_ok hs
    exact .silent (bounds h) (List.forall_mem_singleton.2 rfl)
  | reDim h hs =>
    obtain ⟨lists, rfl, hlists⟩ := lowerReDim_ok h hs
    rw [CreatesAt, bounds h]
    exact creates_of_reDims hlists
  | locals h hs =>
    rw [CreatesAt, bounds h]
    refine List.rel_filterMap (R := DeclaresName env.forest) ?_ (lowerLocals_declares hb hs)
    rintro name _ ⟨_, _, _, rfl, hname⟩
    exact hname.created

theorem boundsAt_of_lists {stmt : Stmt} (h : f.stmt? x = some stmt) (hlists : stmt.lists ≠ []) :
    boundsAt f x = [] := by
  rw [boundsAt, h]
  cases stmt <;> first
    | rfl
    | exact absurd rfl hlists

theorem HasList.boundsAt {statements : Option Nat} (h : HasList f x statements) :
    boundsAt f x = [] := by
  obtain ⟨stmt, hstmt, _, hlists, _⟩ := h
  exact boundsAt_of_lists hstmt (by simp [hlists])

theorem creation_declareControl {declarator : Option Nat}
    (h : env.declareControl declarator = .ok out) : ∀ stmt ∈ out, stmt.creation? = none := by
  cases declarator with
  | none =>
    cases h
    exact List.forall_mem_nil _
  | some declarator =>
    simp only [Env.declareControl, Result.bind_ok, Result.pure_ok] at h
    obtain ⟨vs, _, rfl⟩ := h
    exact List.forall_mem_map.2 fun _ _ => rfl

/-- Only a list of locals and a `ReDim` create arrays without initial values. -/
theorem Brings.creates (h : Brings routine f node x piece) (hb : RanksAgree f) :
    CreatesAt f x piece := by
  cases h with
  | plain hforest h =>
    subst hforest
    exact h.creates hb
  | preTest hforest h => exact .silent (hforest ▸ h.hasList).boundsAt (List.forall_mem_nil _)
  | postTest _ _ h hc =>
    refine .silent (boundsAt_of_lists h (by simp [Stmt.lists]))
      (List.forall_mem_cons.2 ⟨rfl, List.forall_mem_singleton.2 (creation_assign ?_)⟩)
    simp only [Env.lowerCondition, Result.bind_ok, Result.pure_ok] at hc
    obtain ⟨_, hvalue, rfl⟩ := hc
    unfold loopTest
    split
    · exact newLengths_lowerExpr hvalue
    · rfl
  | counted hforest h =>
    refine .silent (hforest ▸ h.hasList).boundsAt ?_
    cases h with
    | forBlock _ hd _ hl =>
      exact List.forall_mem_append.2 ⟨creation_declareControl hd, List.forall_mem_cons.2
        ⟨creation_assign (newLengths_lowerExpr hl), List.forall_mem_singleton.2 rfl⟩⟩
  | element hforest _ h =>
    refine .silent (hforest ▸ h.hasList).boundsAt ?_
    cases h with
    | forEachBlock _ hd =>
      exact List.forall_mem_append.2 ⟨creation_declareControl hd, List.forall_mem_cons.2
        ⟨rfl, List.forall_mem_singleton.2 rfl⟩⟩
  | within h => exact .silent (boundsAt_of_lists h (by simp [Stmt.lists])) (List.forall_mem_nil _)
  | ifBlock h => exact .silent (boundsAt_of_lists h (by simp [Stmt.lists])) (List.forall_mem_nil _)
  | lineIf h => exact .silent (boundsAt_of_lists h (by simp [Stmt.lists])) (List.forall_mem_nil _)
  | select _ h hs =>
    refine .silent (boundsAt_of_lists h (by simp [Stmt.lists])) ?_
    obtain ⟨lowered, hlowered, ⟨rfl, _⟩ | ⟨rfl, _⟩⟩ := lowerSelector_ok hs
    · exact List.forall_mem_nil _
    · refine List.forall_mem_singleton.2 ?_
      rw [Target.Stmt.creation?, Creation.ofInit?, Option.bind_some, newLengths_lowerExpr hlowered]
      rfl

theorem Brings.locals (h : Brings routine f node x piece) (hb : RanksAgree f)
    {modifiers declarators : Nat}
    (hstmt : f.stmt? x = some (.localDeclaration modifiers declarators)) :
    List.Forall₂ (DeclaresName f) (declaredNames f declarators) piece := by
  obtain ⟨env, s, t, rfl, hplain⟩ := h.plain_of_lists hstmt rfl
  have hs : env.lowerLocals modifiers declarators = .ok piece := by
    cases hplain with
    | locals h hs =>
      rw [hstmt] at h
      cases h
      exact hs
    | _ => simp_all
  exact lowerLocals_declares hb hs

end Statements

/-! ## Bodies -/

section Bodies

variable {forest : Forest} {settings : Settings} {body out : List Target.Stmt}

theorem creates_flatMap {f : Forest} {piece : Nat → List Target.Stmt} {xs : List Nat}
    (h : ∀ x ∈ xs, CreatesAt f x (piece x)) : List.Forall₂ (CreatesFor f)
      (xs.flatMap (boundsAt f)) ((xs.flatMap piece).filterMap Target.Stmt.creation?) := by
  induction xs with
  | nil => exact .nil
  | cons x xs ih =>
    obtain ⟨hx, hxs⟩ := List.forall_mem_cons.1 h
    rw [List.flatMap_cons, List.flatMap_cons, List.filterMap_append]
    exact List.rel_append hx (ih hxs)

/-- Only statements that are lowered on their own create arrays. -/
theorem boundsBelow_eq (f : Forest) (node : Nat) :
    boundsBelow f node = (wholesBelow f node).flatMap (boundsAt f) := by
  rw [boundsBelow, wholesBelow]
  induction f.descendants node with
  | nil => rfl
  | cons x xs ih =>
    rw [List.flatMap_cons, List.filter_cons, ih]
    split
    · rw [List.flatMap_cons]
    · next hother =>
      have hempty : boundsAt f x = [] := by
        unfold boundsAt
        split
        · next h => exact absurd (by rw [h]; rfl) hother
        · next h => exact absurd (by rw [h]; rfl) hother
        · rfl
      rw [hempty, List.nil_append]

/-- The local that keeps the result of a routine starts with a zero. -/
theorem creations_withShadow (shadow : Option String) (returnType : Ty) :
    (atomsAll (Env.withShadow shadow returnType out)).filterMap Target.Stmt.creation? =
      (atomsAll out).filterMap Target.Stmt.creation? := by
  cases shadow with
  | none => rfl
  | some name =>
    have hzero : (Target.Stmt.declare name returnType (some (zeroValue returnType))).creation? =
        none := by
      rw [Target.Stmt.creation?, Creation.ofInit?, Option.bind_some, newLengths_zeroValue]
      rfl
    rw [Env.withShadow, Target.Stmt.atomsAll_append, List.filterMap_append]
    simp only [Target.Stmt.atomsAll, Target.Stmt.atoms, List.singleton_append, List.append_nil]
    rw [List.filterMap_cons_none hzero, List.filterMap_cons_none rfl, List.filterMap_nil,
      List.append_nil]

/-- What lowering makes of the arrays of a routine. -/
structure BodyShapes (r : RoutineBody forest settings body) : Prop where
  /-- Every list of locals declares its names one by one. -/
  locals : ∀ x ∈ forest.descendants r.node, ∀ modifiers declarators,
    forest.stmt? x = some (.localDeclaration modifiers declarators) →
      ∃ stmts, (∀ stmt ∈ stmts, stmt ∈ atomsAll body) ∧
        List.Forall₂ (DeclaresName forest) (declaredNames forest declarators) stmts
  /-- The arrays that the body creates without initial values are, up to their order, those of the
  bounds below the routine. -/
  creations : ∃ creations,
    List.Forall₂ (CreatesFor forest) (boundsBelow forest r.node) creations ∧
      creations.Perm ((atomsAll body).filterMap Target.Stmt.creation?)

theorem RoutineBody.shapes (r : RoutineBody forest settings body) (hl : forest.Linked)
    (hf : forest.Shaped) (hb : RanksAgree forest) : BodyShapes r := by
  obtain ⟨out, piece, hcensus⟩ := r.census hl hf
  constructor
  · intro x hx modifiers declarators hstmt
    have hwhole : x ∈ wholesBelow forest r.node := mem_wholesBelow.2 ⟨hx, _, hstmt, rfl⟩
    refine ⟨piece x, fun stmt hmem => hcensus.mem_atoms.2 (Or.inr ⟨x, hwhole, hmem⟩), ?_⟩
    exact (hcensus.brings x hwhole).locals hb hstmt
  · refine ⟨((wholesBelow forest r.node).flatMap piece).filterMap Target.Stmt.creation?, ?_, ?_⟩
    · rw [boundsBelow_eq]
      exact creates_flatMap fun x hx => (hcensus.brings x hx).creates hb
    · have hbody := congrArg (fun b => (atomsAll b).filterMap Target.Stmt.creation?) hcensus.framed
      rw [creations_withShadow] at hbody
      rw [hbody]
      exact (hcensus.complete.filterMap _).symm

end Bodies

/-! ## Fields -/

/-- The field is the variable of a name in a list of fields. -/
structure FieldOf (forest : Forest) (settings : Settings) (field : Target.Field)
    (name : Declarator × Nat) : Prop where
  listed : ∃ id header declarators,
    forest.decl? id = some (.variableList header declarators) ∧
      name ∈ declaredNames forest declarators
  lowered : ∃ options, (Env.atTop forest settings options).declaredVariable name.1 name.2 =
    .ok ⟨field.name, field.type, field.init⟩

section Fields

variable {forest : Forest} {settings : Settings}

/-- The comments of a list of fields change no more of its first field. -/
theorem mem_commentFirst {comments : List String} {fields : List Target.Field}
    {field : Target.Field} (h : field ∈ Env.commentFirst comments fields) :
    ∃ plain ∈ fields, field = { plain with comments := field.comments } := by
  cases fields with
  | nil => cases h
  | cons first rest =>
    rcases List.mem_cons.1 h with rfl | h
    · exact ⟨first, List.mem_cons_self, rfl⟩
    · exact ⟨field, List.mem_cons_of_mem _ h, rfl⟩

theorem fieldOf_of_lowerFields {options : Target.SourceOptions} {id declarators : Nat}
    {header : Header} {inModule : Bool} {fields : List Target.Field}
    (hdecl : forest.decl? id = some (.variableList header declarators))
    (h : (Env.atTop forest settings options).lowerFields id header declarators inModule =
      .ok fields) : ∀ field ∈ fields, ∃ name, FieldOf forest settings field name := by
  simp only [Env.lowerFields, Result.bind_ok, Result.pure_ok] at h
  obtain ⟨lists, hlists, rfl⟩ := h
  have hplain : ∀ field ∈ lists.flatten, ∃ name ∈ declaredNames forest declarators,
      (Env.atTop forest settings options).declaredVariable name.1 name.2 =
        .ok ⟨field.name, field.type, field.init⟩ := by
    rw [List.forall_mem_flatten]
    refine Result.forall_mapM_ok (fun declarator hmem fields hfields => ?_) hlists
    obtain ⟨vs, hvs, hfields⟩ := Result.bind_ok.1 hfields
    refine Result.forall_mapM_ok (fun v hv field hfield => ?_) hfields
    unfold Env.declaredVariables at hvs
    split at hvs
    · next d hd =>
      refine Result.forall_mapM_ok (Q := fun v => v.name = field.name ∧ v.type = field.type ∧
        v.init = field.init → ∃ name ∈ declaredNames forest declarators,
          (Env.atTop forest settings options).declaredVariable name.1 name.2 =
            .ok ⟨field.name, field.type, field.init⟩) ?_ hvs v hv ?_
      · rintro declared hdeclared ⟨_, _, _⟩ hlowered ⟨rfl, rfl, rfl⟩
        refine ⟨(d, declared), List.mem_flatMap.2 ⟨declarator, hmem, ?_⟩, hlowered⟩
        have hd' : forest.declarator? declarator = some d := hd
        rw [namesOf, hd']
        exact List.mem_map.2 ⟨declared, hdeclared, rfl⟩
      · unfold Env.lowerField at hfield
        split at hfield
        · exact absurd hfield unsupported_ne_ok
        · cases hfield
          exact ⟨rfl, rfl, rfl⟩
    · exact absurd hvs unsupported_ne_ok
  intro field hfield
  obtain ⟨plain, hmem, hsame⟩ := mem_commentFirst hfield
  obtain ⟨name, hname, hlowered⟩ := hplain plain hmem
  rw [hsame]
  exact ⟨name, ⟨id, header, declarators, hdecl, hname⟩, options, hlowered⟩

theorem field_origin {tree : Tree} {program : Target.Program}
    (h : lowerFile tree settings = .ok program) {field : Target.Field}
    (hi : program.HasField field) : ∃ name, FieldOf tree.toForest settings field name := by
  rcases member_origin h hi with ⟨_, htype⟩ | ⟨options, owner, inModule, id, members, hm, hmem⟩
  · cases htype
  · cases hm with
    | empty | endBlock => cases hmem
    | fields hdecl hs =>
      obtain ⟨field, hfield, hsame⟩ := List.mem_map.1 hmem
      cases hsame
      exact fieldOf_of_lowerFields hdecl hs field hfield
    | method | external | property | enumeration | type => cases List.mem_singleton.1 hmem

end Fields

/-! ## Programs -/

section Programs

variable {settings : Settings}

/-- A field is declared with the rank of its bounds. A body declares its locals so too, and creates
the arrays of its bounds and no others without initial values. An array keeps the shape of its
bounds exactly if they are complete, and every array type has a dimension exactly if each
`ReDim Preserve` states a bound for each of its arrays. -/
theorem shapes_kept_iff {tree : Tree} {program : Target.Program} (ht : tree.Finished)
    (hb : RanksAgree tree.toForest) (h : lowerFile tree settings = .ok program) :
    (∀ field, program.HasField field →
      (∃ name, FieldOf tree.toForest settings field name) ∧
      ∀ name, FieldOf tree.toForest settings field name →
        DeclaredAs tree.toForest name field.type field.init) ∧
    (∀ body, program.HasBody body → HasOrigin tree.toForest settings body ∧
      ∀ r : RoutineBody tree.toForest settings body, BodyShapes r) ∧
    (program.Ranked ↔ ∀ body, program.HasBody body →
      ∀ r : RoutineBody tree.toForest settings body,
        ∀ x ∈ tree.descendants r.node, StatesBounds tree.toForest x) := by
  refine ⟨fun field hfield => ⟨field_origin h hfield, ?_⟩, fun body hbody => ⟨body_origin h hbody,
    fun r => r.shapes ht.built.linked ht.built.shaped hb⟩, program_ranked_iff ht h⟩
  intro name hname
  obtain ⟨options, hlowered⟩ := hname.lowered
  refine declaredVariable_declaredAs ?_ hlowered
  exact hb

end Programs

/-! ## A measured array and one without lengths -/

/-- A `Sub Main` with `Dim a(3) As Integer` and `Dim b(,) As Integer`, whose bounds are there and
both empty. -/
def gridFile : List Call :=
  let span := Span.startingAt ⟨1, 1⟩
  [.alloc .simpleName span (.name (.simple "a" none false)),
    .alloc .integerLiteralExpression span (.expr (.literal (.integer 3 .decimal none))),
    .alloc .argument span (.argument ⟨none, 1⟩),
    .collection .argumentCollection span [some 2] [],
    .alloc .arrayType span (.type (.array none 1 (some 3))),
    .alloc .variableName span (.name (.declared 0 (some 4))),
    .collection .variableNameCollection span [some 5] [],
    .alloc .intrinsicType span (.type (.intrinsic .integer)),
    .alloc .variableDeclarator span (.declarator ⟨6, some 7, false, none, none⟩),
    .collection .variableDeclaratorCollection span [some 8] [],
    .alloc .modifier span (.modifier .dim),
    .collection .modifierCollection span [some 10] [],
    .alloc .localDeclarationStatement span (.stmt (.localDeclaration 11 9)),
    .alloc .simpleName span (.name (.simple "b" none false)),
    .collection .argumentCollection span [none, none] [⟨1, 1⟩],
    .alloc .arrayType span (.type (.array none 2 (some 14))),
    .alloc .variableName span (.name (.declared 13 (some 15))),
    .collection .variableNameCollection span [some 16] [],
    .alloc .intrinsicType span (.type (.intrinsic .integer)),
    .alloc .variableDeclarator span (.declarator ⟨17, some 18, false, none, none⟩),
    .collection .variableDeclaratorCollection span [some 19] [],
    .alloc .modifier span (.modifier .dim),
    .collection .modifierCollection span [some 21] [],
    .alloc .localDeclarationStatement span (.stmt (.localDeclaration 22 20)),
    .collection .statementCollection span [some 12, some 23] [],
    .alloc .simpleName span (.name (.simple "Main" none false)),
    .alloc .subDeclaration span
      (.decl (.method ⟨none, none⟩ (.ofName 25) none none (some 24) none)),
    .collection .declarationCollection span [some 26] [],
    .alloc .file span (.file ⟨some 27⟩)]

def gridTree : Tree := .ofCalls gridFile 28

theorem grid_accepted : (Forest.empty.after gridFile).size = gridFile.length := by
  decide +kernel

theorem gridTree_settled :
    gridTree = { Forest.settled gridFile grid_accepted with root := 28 } :=
  Tree.ofCalls_eq_settled 28 grid_accepted

def gridBody : List Target.Stmt :=
  [.declare "a" (.array (.primitive .int) 1)
      (some (.arrayCreate (.primitive .int) [.int 4] none)),
    .declare "b" (.array (.primitive .int) 2) (some (.arrayCreate (.primitive .int) [] none))]

def gridMethod : Target.Method where
  name := "Main"
  kind := .normal
  visibility := .publicAccess
  isStatic := true
  typeParameters := []
  parameters := []
  returnType := .void
  body := gridBody
  entry := none
  comments := []

def gridProgram : Target.Program where
  nameSpace := none
  imports := []
  options := Settings.standard.options
  type := wrapper .standard [.method gridMethod]

def gridMain : RoutineBody gridTree.toForest .standard gridBody where
  options := Settings.standard.options
  node := 26
  name := "Main"
  returnType := .void
  statements := some 24
  holds := .method (by rw [gridTree_settled]; rfl)
  lowered := by rw [gridTree_settled]; with_unfolding_all rfl

theorem grid_ranks_agree : RanksAgree gridTree.toForest := by
  rw [gridTree_settled]
  decide +kernel

theorem grid_lowers : gridTree.Finished ∧ lowerFile gridTree .standard = .ok gridProgram ∧
    gridProgram.HasBody gridBody := by
  refine ⟨Tree.finished_of_last grid_accepted rfl, ?_, .nested List.mem_cons_self (.method _)⟩
  rw [gridTree_settled]
  with_unfolding_all rfl

theorem measured_array_kept : gridTree.Finished ∧ RanksAgree gridTree.toForest ∧
    lowerFile gridTree .standard = .ok gridProgram ∧ gridProgram.HasBody gridBody ∧
    ∃ c ∈ (atomsAll gridBody).filterMap Target.Stmt.creation?,
      KeepsShape gridTree.toForest (some 3) c := by
  obtain ⟨hfinished, hlowers, hbody⟩ := grid_lowers
  refine ⟨hfinished, grid_ranks_agree, hlowers, hbody, ?_⟩
  obtain ⟨-, hbodies, -⟩ := shapes_kept_iff hfinished grid_ranks_agree hlowers
  obtain ⟨creations, hcreations, hperm⟩ := ((hbodies gridBody hbody).2 gridMain).creations
  have hbounds : some 3 ∈ boundsBelow gridTree.toForest 26 := by
    rw [gridTree_settled]
    decide +kernel
  obtain ⟨c, hc, hcreates⟩ := (mem_of_forall₂ hcreations).1 (some 3) hbounds
  have hpositions : positions gridTree.toForest (some 3) = [some 2] := by
    rw [gridTree_settled]
    decide +kernel
  refine ⟨c, hperm.mem_iff.1 hc, hcreates.kept.2 ⟨?_, ?_⟩⟩
  · rw [hpositions]
    exact List.cons_ne_nil _ _
  · rw [hpositions]
    decide

/-- Of the second array both bounds are left out, yet it is created, with two dimensions and not a
single length. -/
theorem omitted_bounds_allocated : gridTree.Finished ∧ RanksAgree gridTree.toForest ∧
    lowerFile gridTree .standard = .ok gridProgram ∧ gridProgram.HasBody gridBody ∧
    positions gridTree.toForest (some 14) = [none, none] ∧
    some 14 ∈ boundsBelow gridTree.toForest gridMain.node ∧
    .declare "b" (.array (.primitive .int) 2)
      (some (.arrayCreate (.primitive .int) [] none)) ∈ gridBody := by
  obtain ⟨hfinished, hlowers, hbody⟩ := grid_lowers
  have hpositions : positions gridTree.toForest (some 14) = [none, none] := by
    rw [gridTree_settled]
    decide +kernel
  have hbounds : some 14 ∈ boundsBelow gridTree.toForest 26 := by
    rw [gridTree_settled]
    decide +kernel
  exact ⟨hfinished, grid_ranks_agree, hlowers, hbody, hpositions, hbounds,
    List.mem_cons_of_mem _ List.mem_cons_self⟩

end StructuredBasic.Lowering
