import StructuredBasic.Proofs.Forest.Accepted
import StructuredBasic.Proofs.Lowering.Census
import StructuredBasic.Proofs.Lowering.Enclosing

/-!
# How a routine hands over its result

A routine with a result that assigns to its own name keeps the result in a local, and each way of
leaving the routine that states no value hands the local over: the assignments, the exits and the
end of the body agree on it, wherever they stand (`result_kept_in_local`). Without such a local an
`Exit` hands over the zero of the result, but a bare `Return` hands over nothing
(`returns_carry_values_iff`).
-/

set_option autoImplicit false

namespace StructuredBasic.Lowering

open Syntax Machine
open Target.Stmt (atomsAll)

/-! ## Specification -/

/-- A routine that lowering has taken up with the name and the result that the source gives it. -/
structure EnteredRoutine (forest : Forest) (settings : Settings) (body : List Target.Stmt) extends
    RoutineBody forest settings body where
  enters : toRoutineBody.env.Enters node toRoutineBody.routine statements

/-- The statement is an assignment, a compound assignment or a `Mid` assignment to `target`. -/
inductive Writes (f : Forest) (x target : Nat) : Prop
  | assignment {source : Nat} (h : f.stmt? x = some (.assignment target source))
  | compound {op : Operator} {source : Nat}
      (h : f.stmt? x = some (.compoundAssignment op target source))
  | mid {start source : Nat} {length : Option Nat}
      (h : f.stmt? x = some (.midAssignment target start length source))

/-- The expression is a simple name that differs from `name` at most in case. -/
def SpelledAs (f : Forest) (name : String) (id : Nat) : Prop :=
  ∃ simple text, f.expr? id = some (.simpleName simple) ∧ f.nameText? simple = some text ∧
    text.toLower = name.toLower

/-- Blocks whose `Exit` leaves the routine. -/
def isRoutineBlock : Block → Bool
  | .subroutine | .function | .property => true
  | _ => false

/-- The statement is an `Exit` from the routine. -/
def IsExit (f : Forest) (x : Nat) : Prop :=
  ∃ block, f.stmt? x = some (.exit block) ∧ isRoutineBlock block = true

/-- The statement is a bare `Return` that does not go back to a `GoSub`. -/
def IsBareReturn (env : Env) (x : Nat) : Prop :=
  env.forest.stmt? x = some (.returnValue none) ∧ env.returnTarget? x = none

/-- The statement is a `Return` with this value, as lowered somewhere in the file. -/
def ReturnsValue (f : Forest) (x : Nat) (value : Target.Expr) : Prop :=
  ∃ (env : Env) (expression : Nat), env.forest = f ∧
    f.stmt? x = some (.returnValue (some expression)) ∧ env.lowerExpr expression = .ok value

/-- What an `Exit` hands over: the local that holds the result, else the zero of the result. -/
def Routine.exitValue (routine : Routine) : Target.Expr :=
  routine.shadow.elim (zeroValue routine.returnType) Target.Expr.ident

/-- The statement leaves the routine, and what it hands over. -/
inductive Leaves (routine : Routine) (env : Env) (x : Nat) : Option Target.Expr → Prop
  | explicit {value : Target.Expr} (h : ReturnsValue env.forest x value) :
      Leaves routine env x (some value)
  | exit (h : IsExit env.forest x) : Leaves routine env x (some routine.exitValue)
  | bare (h : IsBareReturn env x) : Leaves routine env x (routine.shadow.map Target.Expr.ident)

/-! ## The local that holds the result -/

section Shadow

variable {env : Env} {routine : Routine} {node x target : Nat} {name : String}

theorem isNamed_iff : env.isNamed target name = true ↔ SpelledAs env.forest name target := by
  unfold Env.isNamed SpelledAs
  split
  · next simple hexpr =>
    simp only [hexpr, Option.some.injEq, Expr.simpleName.injEq]
    cases htext : env.forest.nameText? simple with
    | none =>
      simp only [Bool.false_eq_true, false_iff]
      rintro ⟨_, _, rfl, h, _⟩
      rw [htext] at h
      cases h
    | some text =>
      simp only [sameName, beq_iff_eq]
      constructor
      · exact fun h => ⟨simple, text, rfl, htext, h⟩
      · rintro ⟨_, _, rfl, h, hsame⟩
        rw [htext] at h
        cases h
        exact hsame
  · next hexpr =>
    simp only [Bool.false_eq_true, false_iff]
    rintro ⟨simple, _, h, _⟩
    exact hexpr simple h

theorem assignedNode?_eq_some : env.assignedNode? x = some target ↔ Writes env.forest x target := by
  unfold Env.assignedNode?
  constructor
  · intro h
    split at h
    · next hstmt => cases h; exact .assignment hstmt
    · next hstmt => cases h; exact .compound hstmt
    · next hstmt => cases h; exact .mid hstmt
    · cases h
  · intro h
    cases h with
    | assignment h => rw [h]
    | compound h => rw [h]
    | mid h => rw [h]

theorem assignsName_iff : env.assignsName node name = true ↔
    ∃ x ∈ env.forest.descendants node, ∃ target, Writes env.forest x target ∧
      SpelledAs env.forest name target := by
  simp only [Env.assignsName, List.any_eq_true, Option.any_eq_true, assignedNode?_eq_some,
    isNamed_iff]

/-- An assignment to the name of the routine writes the local that holds the result. -/
theorem assignmentTarget_eq {shadow : String} (hshadow : routine.shadow = some shadow)
    (hname : SpelledAs env.forest routine.name target) :
    env.assignmentTarget routine target = .ok (.ident shadow) := by
  simp only [Env.assignmentTarget, hshadow, isNamed_iff.2 hname, if_true]

theorem simple_of_spelled (hid : target ∈ env.forest.descendants node)
    (hname : SpelledAs env.forest name target) : ∃ d ∈ env.forest.descendants node,
      ∃ text suffix escaped, env.forest.name? d = some (.simple text suffix escaped) ∧
        text.toLower = name.toLower := by
  obtain ⟨simple, text, hexpr, htext, hsame⟩ := hname
  obtain ⟨d, hd, suffix, escaped, hsimple⟩ := simple_of_nameText htext
  have hchild := Forest.mem_descendants_child hid
    (Forest.mem_children_of_expr hexpr (c := simple) (by simp [Expr.slots, Slot.one]))
  exact ⟨d, Forest.mem_descendants_trans hchild hd, text, suffix, escaped, hsimple, hsame⟩

theorem Writes.mem_descendants (h : Writes env.forest x target)
    (hx : x ∈ env.forest.descendants node) : target ∈ env.forest.descendants node := by
  refine Forest.mem_descendants_child hx ?_
  cases h with
  | assignment h => exact Forest.mem_children_of_stmt h (by simp [Stmt.slots, Slot.expr, Slot.one])
  | compound h => exact Forest.mem_children_of_stmt h (by simp [Stmt.slots, Slot.expr, Slot.one])
  | mid h => exact Forest.mem_children_of_stmt h (by simp [Stmt.slots, Slot.expr, Slot.one])

end Shadow

/-! ## Leaving the routine -/

section Leaving

variable {routine : Routine} {env : Env} {x : Nat}

theorem returnTarget_of_forest {other : Env} (h : other.forest = env.forest) :
    other.returnTarget? = env.returnTarget? := by
  cases env
  cases other
  cases h
  rfl

theorem lowerExit_routine {block : Block} (hblock : isRoutineBlock block = true)
    (htype : env.exitType x = .ok routine.returnType)
    (hresult : routine.returnType.isVoid = false) :
    env.lowerExit routine x block = .ok (.returns (some routine.exitValue)) := by
  have hsame : env.lowerExit routine x block = env.lowerExit routine x .function := by
    cases block <;> first
      | rfl
      | cases hblock
  rw [hsame, Env.lowerExit, Routine.exitValue, htype]
  cases routine.shadow with
  | some shadow => rfl
  | none => exact if_neg (by rw [hresult]; exact Bool.false_ne_true)

/-- Inside a routine, a bare `Return` goes back to a `GoSub` or hands over the local. -/
theorem lowerBareReturn_inside {node : Nat} (hnode : env.enclosingRoutine? x = some node) :
    env.lowerBareReturn routine x = .ok (match env.returnTarget? x with
      | some point => .goto point
      | none => .returns (routine.shadow.map Target.Expr.ident)) := by
  simp only [Env.lowerBareReturn, Env.returnTarget?, hnode]
  cases env.precedingLabel? node x with
  | none => rfl
  | some label =>
    by_cases htarget : env.isGoSubTarget node label = true
    · simp only [if_pos htarget]
    · simp only [if_neg htarget]

theorem lowerBareReturn_eq {stmt : Target.Stmt} (h : env.lowerBareReturn routine x = .ok stmt) :
    stmt = match env.returnTarget? x with
      | some point => .goto point
      | none => .returns (routine.shadow.map Target.Expr.ident) := by
  cases hnode : env.enclosingRoutine? x with
  | none => simp only [Env.lowerBareReturn, hnode, reduceCtorEq] at h
  | some node =>
    rw [lowerBareReturn_inside hnode] at h
    exact (Except.ok.inj h).symm

/-- Statements that may leave the routine. -/
def Stmt.mayLeave : Stmt → Bool
  | .exit _ | .returnValue _ => true
  | _ => false

theorem Leaves.mayLeave {value : Option Target.Expr} {stmt : Stmt} (h : Leaves routine env x value)
    (hstmt : env.forest.stmt? x = some stmt) : Stmt.mayLeave stmt = true := by
  cases h with
  | explicit h =>
    obtain ⟨_, _, _, h, _⟩ := h
    cases hstmt.symm.trans h
    rfl
  | exit h =>
    obtain ⟨_, h, _⟩ := h
    cases hstmt.symm.trans h
    rfl
  | bare h =>
    cases hstmt.symm.trans h.1
    rfl

theorem Leaves.of_exit {value : Option Target.Expr} {block : Block}
    (h : Leaves routine env x value) (hstmt : env.forest.stmt? x = some (.exit block)) :
    isRoutineBlock block = true := by
  cases h with
  | explicit h =>
    obtain ⟨_, _, _, h, _⟩ := h
    cases hstmt.symm.trans h
  | exit h =>
    obtain ⟨_, h, hblock⟩ := h
    cases hstmt.symm.trans h
    exact hblock
  | bare h => cases hstmt.symm.trans h.1

theorem Leaves.of_bare {value : Option Target.Expr} (h : Leaves routine env x value)
    (hstmt : env.forest.stmt? x = some (.returnValue none)) : env.returnTarget? x = none := by
  cases h with
  | explicit h =>
    obtain ⟨_, _, _, h, _⟩ := h
    cases hstmt.symm.trans h
  | exit h =>
    obtain ⟨_, h, _⟩ := h
    cases hstmt.symm.trans h
  | bare h => exact h.2

/-- Either the piece of a plain statement is one `Return`, of what the statement hands over, or
there is no `Return` in it. -/
theorem LowersPlain.leaves {s t : BodyState} {out : List Target.Stmt}
    (h : LowersPlain routine env x s out t) (htype : env.exitType x = .ok routine.returnType)
    (hresult : routine.returnType.isVoid = false) :
    (∃ value, Leaves routine env x value ∧ out = [.returns value]) ∨
      (∀ value, ¬ Leaves routine env x value) ∧ ∀ value, .returns value ∉ out := by
  -- all but an `Exit` and a `Return` stay in the routine
  have stays : ∀ {stmt : Stmt}, env.forest.stmt? x = some stmt → Stmt.mayLeave stmt = false →
      (∀ value, .returns value ∉ out) →
      (∃ value, Leaves routine env x value ∧ out = [.returns value]) ∨
        (∀ value, ¬ Leaves routine env x value) ∧ ∀ value, .returns value ∉ out := by
    intro stmt hstmt hstays hout
    refine Or.inr ⟨fun value h => ?_, hout⟩
    rw [h.mayLeave hstmt] at hstays
    cases hstays
  cases h with
  | empty h => exact stays h rfl (by simp)
  | stop h => exact stays h rfl (by simp)
  | halt h => exact stays h rfl (by simp)
  | endBlock h => exact stays h rfl (by simp)
  | label h => exact stays h rfl (by simp)
  | goto h => exact stays h rfl (by simp)
  | goSub h => exact stays h rfl (by simp)
  | @exit block _ h hs =>
    cases hblock : isRoutineBlock block with
    | true =>
      refine Or.inl ⟨_, .exit ⟨block, h, hblock⟩, ?_⟩
      rw [lowerExit_routine hblock htype hresult] at hs
      cases hs
      rfl
    | false =>
      -- an `Exit` from anything else is refused
      have hloop : isLoopBlock block = true := by
        cases block <;> first
          | rfl
          | exact absurd hs unsupported_ne_ok
          | cases hblock
      obtain ⟨rfl, _⟩ := lowerExit_loop hloop hs
      refine Or.inr ⟨fun value hleaves => ?_, by simp⟩
      rw [hleaves.of_exit h] at hblock
      cases hblock
  | @returns expression _ h hs =>
    cases expression with
    | some expression =>
      simp only [Env.lowerReturn, Result.bind_ok, Result.pure_ok] at hs
      obtain ⟨value, hvalue, rfl⟩ := hs
      exact Or.inl ⟨_, .explicit ⟨env, expression, rfl, h, hvalue⟩, rfl⟩
    | none =>
      have hbare := lowerBareReturn_eq hs
      cases htarget : env.returnTarget? x with
      | none =>
        rw [htarget] at hbare
        exact Or.inl ⟨_, .bare ⟨h, htarget⟩, by rw [hbare]⟩
      | some point =>
        rw [htarget] at hbare
        subst hbare
        refine Or.inr ⟨fun value hleaves => ?_, by simp⟩
        rw [hleaves.of_bare h] at htarget
        cases htarget
  | raiseEvent h => exact stays h rfl (by simp)
  | reDim h hs =>
    refine stays h rfl fun value hmem => ?_
    rcases (lowerReDim_allocates h hs).1 _ hmem with hprepares | ⟨_, _, _, _, _, _, _, _, _, heq⟩
    · cases hprepares
    · cases heq
  | erase h => exact stays h rfl (by simp)
  | call h => exact stays h rfl (by simp)
  | assignment h => exact stays h rfl (by simp)
  | compound h hs =>
    obtain ⟨_, _, _, _, _, _, rfl⟩ := lowerCompound_ok hs
    exact stays h rfl (by simp)
  | mid h hs =>
    obtain ⟨_, _, _, _, _, _, _, _, rfl⟩ := lowerMid_ok hs
    exact stays h rfl (by simp)
  | locals h hs =>
    exact stays h rfl fun _ => not_returns_of_isPreparation (isPreparation_lowerLocals hs)

theorem Leaves.of_forest {other : Env} {value : Option Target.Expr}
    (h : Leaves routine env x value) (hforest : other.forest = env.forest) :
    Leaves routine other x value := by
  cases h with
  | explicit h => exact .explicit (hforest ▸ h)
  | exit h => exact .exit (hforest ▸ h)
  | bare h =>
    refine .bare ⟨hforest ▸ h.1, ?_⟩
    rw [returnTarget_of_forest hforest]
    exact h.2

theorem Leaves.eq_of_exit {value : Option Target.Expr} (h : Leaves routine env x value)
    (hexit : IsExit env.forest x) : value = some routine.exitValue := by
  obtain ⟨block, hstmt, _⟩ := hexit
  cases h with
  | explicit h =>
    obtain ⟨_, _, _, h, _⟩ := h
    cases hstmt.symm.trans h
  | exit => rfl
  | bare h => cases hstmt.symm.trans h.1

theorem Leaves.eq_of_bare {value : Option Target.Expr} (h : Leaves routine env x value)
    (hbare : IsBareReturn env x) : value = routine.shadow.map Target.Expr.ident := by
  cases h with
  | explicit h =>
    obtain ⟨_, _, _, h, _⟩ := h
    cases hbare.1.symm.trans h
  | exit h =>
    obtain ⟨_, h, _⟩ := h
    cases hbare.1.symm.trans h
  | bare => rfl

/-- An `Exit` and a bare `Return` hand over the same where there is a local for the result. -/
theorem exitValue_eq_iff : some routine.exitValue = routine.shadow.map Target.Expr.ident ↔
    routine.shadow.isSome = true := by
  cases hshadow : routine.shadow with
  | none => simp
  | some shadow => simp [Routine.exitValue, hshadow]

/-- With a local for the result, a statement that leaves hands it over or has a value of its own. -/
theorem Leaves.of_shadow {value : Option Target.Expr} {shadow : String}
    (h : Leaves routine env x value) (hshadow : routine.shadow = some shadow) :
    value = some (.ident shadow) ∨ ∃ e, ReturnsValue env.forest x e ∧ value = some e := by
  cases h with
  | explicit h => exact Or.inr ⟨_, h, rfl⟩
  | exit h =>
    rw [Routine.exitValue, hshadow]
    exact Or.inl rfl
  | bare h =>
    rw [hshadow]
    exact Or.inl rfl

/-- Without a value, only a bare `Return` leaves, and only where no local keeps the result. -/
theorem Leaves.of_none {value : Option Target.Expr} (h : Leaves routine env x value)
    (hvalue : value.isSome = false) : routine.shadow = none ∧ IsBareReturn env x := by
  cases h with
  | explicit h => cases hvalue
  | exit h => cases hvalue
  | bare h => exact ⟨by simpa using hvalue, h⟩

end Leaving

/-! ## Pieces -/

section Pieces

variable {routine : Routine} {f : Forest} {node x : Nat} {piece : List Target.Stmt}

theorem mayLeave_of_lists {stmt : Stmt} (h : stmt.lists ≠ []) : Stmt.mayLeave stmt = false := by
  cases stmt <;> first
    | rfl
    | exact absurd rfl h

/-- The piece of a statement that leaves the routine is the one `Return` of what it hands over. The
pieces of other statements hold no `Return`. -/
theorem Brings.leaves (h : Brings routine f node x piece) {base : Env} (hbase : base.forest = f)
    (htype : base.exitType x = .ok routine.returnType)
    (hresult : routine.returnType.isVoid = false) :
    (∃ value, Leaves routine base x value ∧ piece = [.returns value]) ∨
      (∀ value, ¬ Leaves routine base x value) ∧ ∀ value, .returns value ∉ piece := by
  subst hbase
  rcases h.plain_or_block with ⟨env, s, t, hforest, hplain⟩ | ⟨stmt, hstmt, hlists, hpiece⟩
  · rw [← exitType_of_forest hforest] at htype
    rcases hplain.leaves htype hresult with ⟨value, hleaves, hpiece⟩ | ⟨hstays, hpiece⟩
    · exact Or.inl ⟨value, hleaves.of_forest hforest.symm, hpiece⟩
    · exact Or.inr ⟨fun value hleaves => hstays value (hleaves.of_forest hforest), hpiece⟩
  · refine Or.inr ⟨fun value hleaves => ?_, hpiece⟩
    have hmay := hleaves.mayLeave hstmt
    rw [mayLeave_of_lists hlists] at hmay
    cases hmay

/-- What an assignment, a compound assignment or a `Mid` assignment writes to. -/
def Stmt.writeTarget? : Stmt → Option Nat
  | .assignment target _ => some target
  | .compoundAssignment _ target _ => some target
  | .midAssignment target _ _ _ => some target
  | _ => none

theorem Writes.target {stmt : Stmt} {target : Nat} (h : Writes f x target)
    (hstmt : f.stmt? x = some stmt) : Stmt.writeTarget? stmt = some target := by
  cases h with
  | assignment h => cases hstmt.symm.trans h; rfl
  | compound h => cases hstmt.symm.trans h; rfl
  | mid h => cases hstmt.symm.trans h; rfl

/-- The piece of an assignment is one assignment, to the place that the target stands for. -/
theorem Brings.writes (h : Brings routine f node x piece) {target : Nat}
    (hwrites : Writes f x target) : ∃ env place value, Env.forest env = f ∧
      env.assignmentTarget routine target = .ok place ∧ piece = [.assign place value] := by
  have hcases := h.plain_or_block
  clear h
  rcases hcases with ⟨env, s, t, rfl, hplain⟩ | ⟨stmt, hstmt, hlists, _⟩
  · cases hplain with
    | assignment h hp hv =>
      cases hwrites.target h
      exact ⟨_, _, _, rfl, hp, rfl⟩
    | compound h hs =>
      cases hwrites.target h
      obtain ⟨place, _, _, hplace, _, _, rfl⟩ := lowerCompound_ok hs
      exact ⟨_, place, _, rfl, hplace, rfl⟩
    | mid h hs =>
      cases hwrites.target h
      obtain ⟨place, _, _, _, hplace, _, _, _, rfl⟩ := lowerMid_ok hs
      exact ⟨_, place, _, rfl, hplace, rfl⟩
    | _ => cases hwrites.target (by assumption)
  · cases hwrites with
    | assignment h => cases hstmt.symm.trans h; exact absurd rfl hlists
    | compound h => cases hstmt.symm.trans h; exact absurd rfl hlists
    | mid h => cases hstmt.symm.trans h; exact absurd rfl hlists

end Pieces

/-! ## Routines -/

section Routines

variable {forest : Forest} {settings : Settings} {body : List Target.Stmt} {x : Nat}

theorem RoutineBody.ne_node (r : RoutineBody forest settings body) (hf : forest.Shaped)
    {stmt : Stmt} (hstmt : forest.stmt? x = some stmt) : x ≠ r.node := by
  rintro rfl
  obtain ⟨_, _, d, hd⟩ := r.holds.list hf
  cases (Forest.payload?_of_stmt? hstmt).symm.trans (Forest.payload?_of_decl? hd)

/-- The result type that a statement below a routine finds is the one of the routine. -/
theorem EnteredRoutine.exitType (r : EnteredRoutine forest settings body) (hl : forest.Linked)
    (hf : forest.Shaped) {stmt : Stmt} (hx : x ∈ forest.descendants r.node)
    (hstmt : forest.stmt? x = some stmt) : r.env.exitType x = .ok r.routine.returnType :=
  (enclosing_of_enters hl hf r.enters hx (r.ne_node hf hstmt) rfl).2

/-- A routine with a result that assigns to its name has a local of its own for the result. -/
theorem RoutineBody.shadow_of_writes (r : RoutineBody forest settings body)
    (hresult : r.returnType.isVoid = false) {target : Nat} (hx : x ∈ forest.descendants r.node)
    (hwrites : Writes forest x target) (hname : SpelledAs forest r.name target) :
    ∃ shadow, r.routine.shadow = some shadow ∧ shadow.toLower ∉ r.env.namesUnder r.node := by
  have hassigns : r.env.assignsName r.node r.name = true :=
    assignsName_iff.2 ⟨x, hx, target, hwrites, hname⟩
  refine ⟨(fresh (r.env.namesUnder r.node) (r.name ++ "Result")).1, ?_, fresh_not_taken _ _⟩
  simp only [RoutineBody.routine, Env.routineShadow, hresult, hassigns, Bool.not_false,
    Bool.and_self, if_true]

/-- A local of its own for the result means that the routine assigns to its name, which the local
differs from. -/
theorem RoutineBody.spelled_of_shadow (r : RoutineBody forest settings body) {shadow : String}
    (hshadow : r.routine.shadow = some shadow) : shadow.toLower ≠ r.name.toLower ∧
      ∃ target ∈ forest.descendants r.node, SpelledAs forest r.name target := by
  simp only [RoutineBody.routine, Env.routineShadow] at hshadow
  split at hshadow
  · next hassigns =>
    cases hshadow
    obtain ⟨x, hx, target, hwrites, hname⟩ := assignsName_iff.1 (Bool.and_eq_true_iff.1 hassigns).2
    have htarget := hwrites.mem_descendants hx
    obtain ⟨d, hd, text, suffix, escaped, hsimple, hsame⟩ := simple_of_spelled htarget hname
    refine ⟨fun h => ?_, target, htarget, hname⟩
    refine fresh_not_taken (r.env.namesUnder r.node) (r.name ++ "Result") ?_
    rw [h, ← hsame]
    exact mem_namesUnder hd hsimple
  · cases hshadow

theorem Leaves.isWhole {routine : Routine} {env : Env} {value : Option Target.Expr} {node : Nat}
    (h : Leaves routine env x value) (hx : x ∈ env.forest.descendants node) :
    x ∈ wholesBelow env.forest node := by
  refine mem_wholesBelow.2 ⟨hx, ?_⟩
  cases h with
  | explicit h =>
    obtain ⟨_, _, _, h, _⟩ := h
    exact ⟨_, h, rfl⟩
  | exit h =>
    obtain ⟨_, h, _⟩ := h
    exact ⟨_, h, rfl⟩
  | bare h => exact ⟨_, h.1, rfl⟩

theorem Writes.isWhole {f : Forest} {node target : Nat} (h : Writes f x target)
    (hx : x ∈ f.descendants node) : x ∈ wholesBelow f node := by
  refine mem_wholesBelow.2 ⟨hx, ?_⟩
  cases h with
  | assignment h => exact ⟨_, h, rfl⟩
  | compound h => exact ⟨_, h, rfl⟩
  | mid h => exact ⟨_, h, rfl⟩

/-- An assignment to the name of the routine becomes an assignment to the local for the result. -/
theorem Census.assigns {r : RoutineBody forest settings body} {out : List Target.Stmt}
    {piece : Nat → List Target.Stmt} (hcensus : Census r out piece) {shadow : String}
    (hshadow : r.routine.shadow = some shadow) {target : Nat} (hx : x ∈ forest.descendants r.node)
    (hwrites : Writes forest x target) (hname : SpelledAs forest r.name target) :
    ∃ value, piece x = [.assign (.ident shadow) value] := by
  obtain ⟨env, place, value, rfl, hplace, hpiece⟩ :=
    (hcensus.brings x (hwrites.isWhole hx)).writes hwrites
  cases (assignmentTarget_eq hshadow hname).symm.trans hplace
  exact ⟨value, hpiece⟩

section Returns

variable {out : List Target.Stmt} {piece : Nat → List Target.Stmt}
  (r : EnteredRoutine forest settings body) (hl : forest.Linked) (hf : forest.Shaped)
  (hresult : r.returnType.isVoid = false) (hcensus : Census r.toRoutineBody out piece)

include hl hf hresult hcensus

/-- The pieces of a routine with a result, as `Return`s. -/
theorem EnteredRoutine.leaves (hx : x ∈ wholesBelow forest r.node) :
    (∃ value, Leaves r.routine r.env x value ∧ piece x = [.returns value]) ∨
      (∀ value, ¬ Leaves r.routine r.env x value) ∧ ∀ value, .returns value ∉ piece x := by
  obtain ⟨hbelow, stmt, hstmt, _⟩ := mem_wholesBelow.1 hx
  exact (hcensus.brings x hx).leaves rfl (r.exitType hl hf hbelow hstmt) hresult

/-- The piece of a statement that leaves the routine is one `Return`. -/
theorem EnteredRoutine.piece_of_leaves (hx : x ∈ forest.descendants r.node)
    {value : Option Target.Expr} (hvalue : Leaves r.routine r.env x value) :
    ∃ other, Leaves r.routine r.env x other ∧ piece x = [.returns other] := by
  rcases r.leaves hl hf hresult hcensus (hvalue.isWhole hx) with hleaves | ⟨hno, _⟩
  · exact hleaves
  · exact absurd hvalue (hno value)

/-- A `Return` in the body of a routine with a result is the last statement of its frame, or stands
for a statement that leaves the routine. -/
theorem EnteredRoutine.origin_of_return {value : Option Target.Expr}
    (hmem : .returns value ∈ atomsAll body) :
    (∃ shadow, r.routine.shadow = some shadow ∧ value = some (.ident shadow)) ∨
      ∃ x ∈ forest.descendants r.node,
        Leaves r.routine r.env x value ∧ piece x = [.returns value] := by
  rcases hcensus.mem_atoms.1 hmem with ⟨shadow, hshadow, hdeclare | hreturn⟩ | ⟨x, hx, hpiece⟩
  · cases hdeclare
  · exact Or.inl ⟨shadow, hshadow, Target.Stmt.returns.inj hreturn⟩
  · refine Or.inr ⟨x, (mem_wholesBelow.1 hx).1, ?_⟩
    rcases r.leaves hl hf hresult hcensus hx with ⟨other, hother, heq⟩ | ⟨_, hno⟩
    · rw [heq, List.mem_singleton, Target.Stmt.returns.injEq] at hpiece
      subst hpiece
      exact ⟨hother, heq⟩
    · exact absurd hpiece (hno value)

end Returns

/-- The routine keeps its result in the local `shadow`. Every assignment to its name writes the
local, and every way of leaving that states no value hands it over: what a run that leaves so gives
is what the local holds when it leaves. A run leaves in no other way but by a `Return` with a value
of its own. -/
structure KeepsResult (r : EnteredRoutine forest settings body) (shadow : String)
    (out : List Target.Stmt) (piece : Nat → List Target.Stmt) : Prop where
  census : Census r.toRoutineBody out piece
  fresh : shadow.toLower ∉ r.env.namesUnder r.node
  framed : body = (.declare shadow r.returnType (some (zeroValue r.returnType)) :: out) ++
    [.returns (some (.ident shadow))]
  assigns : ∀ x ∈ forest.descendants r.node, ∀ target, Writes forest x target →
    SpelledAs forest r.name target → ∃ value, piece x = [.assign (.ident shadow) value]
  exits : ∀ x ∈ forest.descendants r.node, IsExit forest x ∨ IsBareReturn r.env x →
    piece x = [.returns (some (.ident shadow))]
  falls_off : ∀ limit s t, s.steps ≤ limit →
    (Run.block limit (actions limit
      (.declare shadow r.returnType (some (zeroValue r.returnType)) :: out))).run s =
      (.ok .normal, t) → Departs limit (some (.ident shadow)) (.list body body) s t
  hands_over : ∀ limit s t, s.steps ≤ limit →
    Departs limit (some (.ident shadow)) (.list body body) s t →
    ∃ v, t.locals.get? shadow = some v ∧ (runWithin limit body).run s = (.ok (some v), t)
  leaves : ∀ limit s t v, s.steps ≤ limit → (runWithin limit body).run s = (.ok v, t) →
    ∃ value, Departs limit value (.list body body) s t ∧ (value = some (.ident shadow) ∨
      ∃ x ∈ forest.descendants r.node, ∃ e, ReturnsValue forest x e ∧ value = some e ∧
        piece x = [.returns (some e)])

theorem result_kept_in_local {tree : Tree} (hfinished : tree.Finished)
    (r : EnteredRoutine tree.toForest settings body) (hresult : r.returnType.isVoid = false)
    {target : Nat} (hx : x ∈ tree.descendants r.node) (hwrites : Writes tree.toForest x target)
    (hname : SpelledAs tree.toForest r.name target) :
    ∃ shadow out piece, KeepsResult r shadow out piece := by
  have hl := hfinished.built.linked
  have hf := hfinished.built.shaped
  obtain ⟨shadow, hshadow, hfresh⟩ := r.shadow_of_writes hresult hx hwrites hname
  obtain ⟨out, piece, hcensus⟩ := r.census hl hf
  have hframed : body = (.declare shadow r.returnType (some (zeroValue r.returnType)) :: out) ++
      [.returns (some (.ident shadow))] := by
    have hframe := hcensus.framed
    rwa [hshadow] at hframe
  refine ⟨shadow, out, piece, hcensus, hfresh, hframed, ?_, ?_, ?_, ?_, ?_⟩
  · exact fun y hy target hwrites hname => hcensus.assigns hshadow hy hwrites hname
  · intro y hy hkind
    rcases hkind with hexit | hbare
    · obtain ⟨value, hvalue, hpiece⟩ :=
        r.piece_of_leaves hl hf hresult hcensus hy (.exit hexit)
      rw [hpiece, hvalue.eq_of_exit hexit, Routine.exitValue, hshadow]
      rfl
    · obtain ⟨value, hvalue, hpiece⟩ :=
        r.piece_of_leaves hl hf hresult hcensus hy (.bare hbare)
      rw [hpiece, hvalue.eq_of_bare hbare, hshadow]
      rfl
  · intro limit s t hs h
    rw [hframed]
    exact departs_of_normal hs h _
  · intro limit s t hs h
    rw [hframed, List.cons_append] at h ⊢
    exact h.hands_over hs
  · intro limit s t v hs h
    obtain ⟨value, hdeparts⟩ : ∃ value, Departs limit value (.list body body) s t := by
      rw [hframed] at h ⊢
      exact departs_of_run hs h
    refine ⟨value, hdeparts, ?_⟩
    -- the `Return` that the run comes to stands in the body, so a statement of the source gave it
    have hmem : Target.Stmt.returns value ∈ atomsAll body :=
      (List.mem_append.1 hdeparts.mem_atoms).elim id id
    rcases r.origin_of_return hl hf hresult hcensus hmem with
      ⟨other, hother, hvalue⟩ | ⟨y, hy, hleaves, hpiece⟩
    · cases hother.symm.trans hshadow
      exact Or.inl hvalue
    · rcases hleaves.of_shadow hshadow with hvalue | ⟨e, hreturns, rfl⟩
      · exact Or.inl hvalue
      · exact Or.inr ⟨y, hy, e, hreturns, rfl, hpiece⟩

end Routines

/-- A `Function Total%` that assigns `True` to `total` and leaves by an `Exit Function`. -/
def totalFile : List Call :=
  let span := Span.startingAt ⟨1, 1⟩
  [.alloc .simpleName span (.name (.simple "Total" (some .integer) false)),
    .alloc .simpleName span (.name (.simple "total" none false)),
    .alloc .simpleNameExpression span (.expr (.simpleName 1)),
    .alloc .booleanLiteralExpression span (.expr (.literal (.boolean true))),
    .alloc .assignmentStatement span (.stmt (.assignment 2 3)),
    .alloc .exitStatement span (.stmt (.exit .function)),
    .collection .statementCollection span [some 4, some 5] [],
    .alloc .functionDeclaration span
      (.decl (.method ⟨none, none⟩ (.ofName 0) none none (some 6) none)),
    .collection .declarationCollection span [some 7] [],
    .alloc .file span (.file ⟨some 8⟩)]

theorem total_accepted : (Forest.empty.after totalFile).size = totalFile.length := by
  decide +kernel

theorem totalTree_settled : Tree.ofCalls totalFile 9 =
    { Forest.settled totalFile total_accepted with root := 9 } :=
  Tree.ofCalls_eq_settled 9 total_accepted

def totalCode : List Target.Stmt :=
  [.declare "TotalResult" (.primitive .int) (some (.int 0)),
    .assign (.ident "TotalResult") (.bool true),
    .returns (some (.ident "TotalResult")),
    .returns (some (.ident "TotalResult"))]

def totalEnv : Env :=
  .atTop (Tree.ofCalls totalFile 9).toForest .standard Settings.standard.options

theorem total_writes : Writes (Tree.ofCalls totalFile 9).toForest 4 2 := by
  rw [totalTree_settled]
  exact .assignment rfl

theorem total_spelled : SpelledAs (Tree.ofCalls totalFile 9).toForest "Total" 2 := by
  refine ⟨1, "total", by rw [totalTree_settled]; rfl, by decide +kernel, ?_⟩
  rw [← String.toList_inj, toList_toLower, toList_toLower]
  decide

theorem totalEnv_shadow : totalEnv.routineShadow 7 "Total" (.primitive .int) =
    (some "TotalResult", ["totalresult", "total", "total"]) := by
  have hassigns : totalEnv.assignsName 7 "Total" = true :=
    assignsName_iff.2 ⟨4, by decide +kernel, 2, total_writes, total_spelled⟩
  have hnames : totalEnv.namesUnder 7 = ["total", "total"] := by decide +kernel
  have hfresh : fresh ["total", "total"] ("Total" ++ "Result") =
      ("TotalResult", ["totalresult", "total", "total"]) := by
    decide +kernel
  rw [Env.routineShadow, hassigns, hnames, hfresh]
  rfl

theorem totalStatements_lower (s : BodyState) :
    totalEnv.lowerBody ⟨"Total", some "TotalResult", .primitive .int⟩ (some 6) s =
      .ok ([.assign (.ident "TotalResult") (.bool true),
        .returns (some (.ident "TotalResult"))], s) := by
  have helements : totalEnv.forest.elements (some 6) = [4, 5] := by
    rw [totalEnv, totalTree_settled]
    rfl
  have hassign : totalEnv.lowerStmt ⟨"Total", some "TotalResult", .primitive .int⟩ 4 =
      pure [.assign (.ident "TotalResult") (.bool true)] := by
    funext s
    have hstmt : totalEnv.forest.stmt? 4 = some (.assignment 2 3) := by
      rw [totalEnv, totalTree_settled]
      rfl
    rw [lowerStmt_assignment hstmt, assignmentTarget_eq rfl total_spelled, totalEnv,
      totalTree_settled]
    with_unfolding_all rfl
  have hexit : totalEnv.lowerStmt ⟨"Total", some "TotalResult", .primitive .int⟩ 5 =
      pure [.returns (some (.ident "TotalResult"))] := by
    rw [totalEnv, totalTree_settled]
    with_unfolding_all rfl
  rw [lowerBody_some, helements]
  simp only [List.mapM_cons, List.mapM_nil, hassign, hexit, pure_bind]
  rfl

def totalBody : RoutineBody (Tree.ofCalls totalFile 9).toForest .standard totalCode where
  options := Settings.standard.options
  node := 7
  name := "Total"
  returnType := .primitive .int
  statements := some 6
  holds := .method rfl
  lowered := by
    rw [← totalEnv, lowerRoutine_of_shadow totalEnv_shadow, StateT.run, totalStatements_lower]
    rfl

theorem totalBody_enters :
    totalBody.env.Enters totalBody.node totalBody.routine totalBody.statements :=
  .method rfl (by decide +kernel)
    (show Env.methodForm _ 7 _ "" _ = .ok (.normal, "Total", _) from rfl)

def totalRoutine : EnteredRoutine (Tree.ofCalls totalFile 9).toForest .standard totalCode :=
  ⟨totalBody, totalBody_enters⟩

theorem total_kept : (Tree.ofCalls totalFile 9).Finished ∧
    (∃ out piece, KeepsResult totalRoutine "TotalResult" out piece ∧
      (∃ value, piece 4 = [.assign (.ident "TotalResult") value]) ∧
      piece 5 = [.returns (some (.ident "TotalResult"))]) ∧
    ((runWithin 10 totalCode).run .initial).1 = .ok (some (.bool true)) := by
  have hfinished : (Tree.ofCalls totalFile 9).Finished := Tree.finished_of_last total_accepted rfl
  obtain ⟨shadow, out, piece, hkeeps⟩ :=
    result_kept_in_local hfinished totalRoutine rfl (x := 4) (by decide +kernel) total_writes
      total_spelled
  obtain ⟨rfl, -⟩ := Target.Stmt.declare.inj (List.cons.inj hkeeps.framed).1
  have hexit : IsExit (Tree.ofCalls totalFile 9).toForest 5 := by
    rw [totalTree_settled]
    exact ⟨.function, rfl, rfl⟩
  refine ⟨hfinished, ⟨out, piece, hkeeps, ?_, ?_⟩, rfl⟩
  · exact hkeeps.assigns 4 (by decide +kernel) 2 total_writes total_spelled
  · exact hkeeps.exits 5 (by decide +kernel) (Or.inl hexit)

/-! ## Values of `Return`s -/

section Values

variable {forest : Forest} {settings : Settings} {body : List Target.Stmt} {routine : Routine}
  {env : Env} {x : Nat}

/-- Each `Return` in the body of a routine with a result has a value exactly if the routine keeps
its result in a local, or no bare `Return` leaves it. -/
theorem EnteredRoutine.values_iff (r : EnteredRoutine forest settings body) (hl : forest.Linked)
    (hf : forest.Shaped) (hresult : r.returnType.isVoid = false) :
    (∀ value, .returns value ∈ atomsAll body → value.isSome = true) ↔
      r.routine.shadow.isSome = true ∨
        ∀ x ∈ forest.descendants r.node, ¬ IsBareReturn r.env x := by
  obtain ⟨out, piece, hcensus⟩ := r.census hl hf
  constructor
  · intro hvalues
    rw [or_iff_not_imp_left]
    intro hshadow x hx hbare
    have hleaves : Leaves r.routine r.env x (r.routine.shadow.map Target.Expr.ident) := .bare hbare
    obtain ⟨value, hvalue, hpiece⟩ := r.piece_of_leaves hl hf hresult hcensus hx hleaves
    have hmem : Target.Stmt.returns value ∈ atomsAll body := by
      refine hcensus.mem_atoms.2 (Or.inr ⟨x, hleaves.isWhole hx, ?_⟩)
      rw [hpiece]
      exact List.mem_singleton_self _
    have hsome := hvalues value hmem
    rw [hvalue.eq_of_bare hbare, Option.isSome_map] at hsome
    exact hshadow hsome
  · intro hkind value hmem
    rcases r.origin_of_return hl hf hresult hcensus hmem with
      ⟨shadow, _, rfl⟩ | ⟨x, hx, hleaves, _⟩
    · rfl
    · rw [← Bool.not_eq_false]
      intro hnone
      obtain ⟨hshadow, hbare⟩ := hleaves.of_none hnone
      rcases hkind with hsome | hnobare
      · rw [hshadow] at hsome
        cases hsome
      · exact hnobare x hx hbare

theorem returns_carry_values_iff {tree : Tree} (hfinished : tree.Finished)
    (r : EnteredRoutine tree.toForest settings body) (hresult : r.returnType.isVoid = false) :
    (∃ out piece, Census r.toRoutineBody out piece ∧ ∀ x ∈ wholesBelow tree.toForest r.node,
      (∃ value, Leaves r.routine r.env x value ∧ piece x = [.returns value]) ∨
        (∀ value, ¬ Leaves r.routine r.env x value) ∧ ∀ value, .returns value ∉ piece x) ∧
    ((∀ value, .returns value ∈ atomsAll body → value.isSome = true) ↔
      r.routine.shadow.isSome = true ∨ ∀ x ∈ tree.descendants r.node, ¬ IsBareReturn r.env x) ∧
    ∀ x ∈ tree.descendants r.node, x ≠ r.node → r.env.returnTarget? x = none →
      ∀ block, isRoutineBlock block = true →
        (r.env.lowerExit r.routine x block = r.env.lowerBareReturn r.routine x ↔
          r.routine.shadow.isSome = true) := by
  have hl := hfinished.built.linked
  have hf := hfinished.built.shaped
  refine ⟨?_, r.values_iff hl hf hresult, ?_⟩
  · obtain ⟨out, piece, hcensus⟩ := r.census hl hf
    exact ⟨out, piece, hcensus, fun x hx => r.leaves hl hf hresult hcensus hx⟩
  · intro x hx hne hreturn block hblock
    obtain ⟨hroutine, htype⟩ := enclosing_of_enters hl hf r.enters hx hne rfl
    rw [lowerExit_routine hblock htype hresult, lowerBareReturn_inside hroutine, hreturn,
      Except.ok.injEq, Target.Stmt.returns.injEq]
    exact exitValue_eq_iff

end Values

/-- A `Function Bare%` of one statement. -/
def bareFile (kind : Kind) (stmt : Stmt) : List Call :=
  let span := Span.startingAt ⟨1, 1⟩
  [.alloc .simpleName span (.name (.simple "Bare" (some .integer) false)),
    .alloc kind span (.stmt stmt),
    .collection .statementCollection span [some 1] [],
    .alloc .functionDeclaration span
      (.decl (.method ⟨none, none⟩ (.ofName 0) none none (some 2) none)),
    .collection .declarationCollection span [some 3] [],
    .alloc .file span (.file ⟨some 4⟩)]

/-- `Function Bare%: Exit Function`. -/
def zeroTree : Tree := .ofCalls (bareFile .exitStatement (.exit .function)) 5

def zeroBody : RoutineBody zeroTree.toForest .standard [.returns (some (.int 0))] where
  options := Settings.standard.options
  node := 3
  name := "Bare"
  returnType := .primitive .int
  statements := some 2
  holds := .method rfl
  lowered := by with_unfolding_all rfl

theorem zeroBody_enters :
    zeroBody.env.Enters zeroBody.node zeroBody.routine zeroBody.statements :=
  .method rfl (by decide +kernel)
    (show Env.methodForm _ 3 _ "" _ = .ok (.normal, "Bare", _) from rfl)

def zeroRoutine : EnteredRoutine zeroTree.toForest .standard [.returns (some (.int 0))] :=
  ⟨zeroBody, zeroBody_enters⟩

/-- An `Exit` returns a zero, where a bare `Return` would return nothing. -/
theorem exit_carries_zero : zeroTree.Finished ∧ zeroRoutine.routine.shadow = none ∧
    (∀ value, .returns value ∈ atomsAll [.returns (some (.int 0))] → value.isSome = true) ∧
    zeroRoutine.env.lowerExit zeroRoutine.routine 1 .function ≠
      zeroRoutine.env.lowerBareReturn zeroRoutine.routine 1 := by
  have hfinished : zeroTree.Finished := Tree.finished_ofCalls (by decide +kernel)
  have hshadow : zeroRoutine.routine.shadow = none := by decide +kernel
  have hstmt : zeroTree.stmt? 1 = some (.exit .function) := by
    set_option maxRecDepth 2000 in rfl
  obtain ⟨-, hvalues, hsame⟩ := returns_carry_values_iff hfinished zeroRoutine rfl
  refine ⟨hfinished, hshadow, hvalues.2 (Or.inr ?_), ?_⟩
  · intro x hx hbare
    have hwhole : x ∈ wholesBelow zeroTree.toForest zeroRoutine.node :=
      mem_wholesBelow.2 ⟨hx, _, hbare.1, rfl⟩
    have hwholes : wholesBelow zeroTree.toForest zeroRoutine.node = [1] := by decide +kernel
    rw [hwholes, List.mem_singleton] at hwhole
    rw [hwhole] at hbare
    cases hstmt.symm.trans hbare.1
  · intro h
    have hsome := (hsame 1 (by decide +kernel) (by decide) (by decide +kernel) .function rfl).1 h
    rw [hshadow] at hsome
    cases hsome

/-- `Function Bare%: Return`. -/
def bareTree : Tree := .ofCalls (bareFile .returnStatement (.returnValue none)) 5

def bareBody : RoutineBody bareTree.toForest .standard [.returns none] where
  options := Settings.standard.options
  node := 3
  name := "Bare"
  returnType := .primitive .int
  statements := some 2
  holds := .method rfl
  lowered := by with_unfolding_all rfl

theorem bareBody_enters :
    bareBody.env.Enters bareBody.node bareBody.routine bareBody.statements :=
  .method rfl (by decide +kernel)
    (show Env.methodForm _ 3 _ "" _ = .ok (.normal, "Bare", _) from rfl)

def bareRoutine : EnteredRoutine bareTree.toForest .standard [.returns none] :=
  ⟨bareBody, bareBody_enters⟩

/-- A bare `Return` from a routine with a result returns nothing, where an `Exit` at its place
returns a zero. -/
theorem bare_return_without_value : bareTree.Finished ∧ bareRoutine.returnType.isVoid = false ∧
    (¬ ∀ value, .returns value ∈ atomsAll [.returns none] → value.isSome = true) ∧
    bareRoutine.env.lowerBareReturn bareRoutine.routine 1 = .ok (.returns none) ∧
    bareRoutine.env.lowerExit bareRoutine.routine 1 .function =
      .ok (.returns (some (.int 0))) := by
  refine ⟨Tree.finished_ofCalls (by decide +kernel), rfl, fun h => ?_, by with_unfolding_all rfl,
    by with_unfolding_all rfl⟩
  cases h none (List.mem_singleton_self _)

end StructuredBasic.Lowering
