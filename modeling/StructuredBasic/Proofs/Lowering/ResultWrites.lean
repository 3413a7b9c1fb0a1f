import StructuredBasic.Proofs.Forest.Accepted
import StructuredBasic.Proofs.Lowering.Results

/-!
# Writing the name of a routine

A routine that keeps its result in a local writes the local where an assignment, a compound
assignment or a `Mid` assignment names the routine. Other targets are lowered as they stand: where
the control variable of a `For` or a `For Each`, an array of a `ReDim` or an `Erase`, or a name
under parentheses is the name of the routine, the code writes that name, and it writes it nowhere
else (`own_name_written_iff`).
-/

set_option autoImplicit false

namespace StructuredBasic.Lowering

open Syntax
open Target.Stmt (atomsAll)

/-! ## Specification -/

/-- The expression is a simple name of this text, under any number of parentheses. -/
inductive Names (f : Forest) : Nat → String → Prop
  | simple {id simple : Nat} {text : String} (h : f.expr? id = some (.simpleName simple))
      (htext : f.nameText? simple = some text) : Names f id text
  | parenthetical {id operand : Nat} {text : String}
      (h : f.expr? id = some (.parenthetical operand)) (hoperand : Names f operand text) :
      Names f id text

/-- Whether a statement of this form writes to `target` without being an assignment. -/
def Stmt.Overwrites (f : Forest) (target : Nat) : Stmt → Prop
  | .forBlock control .. => target = control
  | .forEachBlock control .. => target = control
  | .reDim _ arrays => ∃ operand ∈ f.elements (some arrays), ∃ arguments known,
      f.expr? operand = some (.callOrIndex target arguments known)
  | .erase arrays => target ∈ f.elements (some arrays)
  | _ => False

/-- The statement writes to `target` without being an assignment. -/
def Overwrites (f : Forest) (x target : Nat) : Prop :=
  ∃ stmt, f.stmt? x = some stmt ∧ Stmt.Overwrites f target stmt

/-- The statement writes to `name`, other than by an assignment that names it directly. -/
def Bypasses (f : Forest) (name : String) (x : Nat) : Prop :=
  ∃ target text, Names f target text ∧ text.toLower = name.toLower ∧
    (Overwrites f x target ∨ Writes f x target ∧ ¬ SpelledAs f name target)

/-! ## Names among the expressions -/

section Names

variable {env : Env} {id : Nat} {v : String}

theorem invocation_ne_ident {callee : Target.Expr} {args : List Target.Expr} :
    invocation callee args ≠ .ident v := by
  unfold invocation
  split
  · exact nofun
  · exact nofun
  · split <;> exact nofun
  · exact nofun

theorem binaryOperation_ne_ident {mode : Target.CompareMode} {op : Operator}
    {left right : Target.Expr} : binaryOperation? mode op left right ≠ some (.ident v) := by
  unfold binaryOperation?
  split <;> exact nofun

theorem methodReference_ne_ident {callee : Target.Expr} :
    env.methodReference id callee ≠ .ok (.ident v) := by
  unfold Env.methodReference
  split
  · exact nofun
  · exact nofun
  · exact unsupported_ne_ok

/-- Only a simple name is lowered to a name, and parentheses are left out. -/
theorem names_of_lowerExpr (h : env.lowerExpr id = .ok (.ident v)) : Names env.forest id v := by
  induction id using Nat.strongRecOn with
  | ind id ih =>
    generalize hident : Target.Expr.ident v = e at h
    cases lowersExpr_of_ok h with
    | simpleName hexpr hn =>
      cases hident
      exact .simple hexpr (nameText_ok hn)
    | parenthetical hexpr ho =>
      subst hident
      exact .parenthetical hexpr (ih _ ho.lt ho.lowered)
    | call => exact absurd hident.symm invocation_ne_ident
    | addressOf _ _ hm => exact absurd (hident ▸ hm) methodReference_ne_ident
    | binary _ _ _ _ hvalue => exact absurd (hident ▸ hvalue) binaryOperation_ne_ident
    | _ => cases hident

theorem Names.lowerExpr (h : Names env.forest id v) : env.lowerExpr id = .ok (.ident v) := by
  induction h with
  | simple h htext =>
    rw [Env.lowerExpr]
    split
    case h_4 name hexpr =>
      cases h.symm.trans hexpr
      rw [Env.nameText, htext]
      rfl
    all_goals grind
  | parenthetical h _ ih =>
    rw [Env.lowerExpr]
    split
    case h_18 operand hexpr =>
      cases h.symm.trans hexpr
      exact ih
    all_goals grind

end Names

/-! ## Pieces -/

section Pieces

variable {routine : Routine} {env : Env} {f : Forest} {node x target : Nat}
  {piece : List Target.Stmt} {place value : Target.Expr}

theorem Overwrites.of_stmt {stmt : Stmt} (h : Overwrites f x target)
    (hstmt : f.stmt? x = some stmt) : Stmt.Overwrites f target stmt := by
  obtain ⟨_, hsame, hover⟩ := h
  cases hstmt.symm.trans hsame
  exact hover

theorem Overwrites.isWhole (h : Overwrites f x target) (hx : x ∈ f.descendants node) :
    x ∈ wholesBelow f node := by
  obtain ⟨stmt, hstmt, hover⟩ := h
  refine mem_wholesBelow.2 ⟨hx, stmt, hstmt, ?_⟩
  cases stmt <;> first
    | rfl
    | exact hover.elim

theorem not_assign_of_isPreparation {out : List Target.Stmt}
    (h : ∀ stmt ∈ out, isPreparation stmt = true) : .assign place value ∉ out :=
  fun hmem => nomatch h _ hmem

/-- A plain statement writes the places that the source states. -/
theorem LowersPlain.places {s t : BodyState} (h : LowersPlain routine env x s piece t)
    (hmem : .assign place value ∈ piece) :
    (∃ target, Writes env.forest x target ∧ env.assignmentTarget routine target = .ok place) ∨
      ∃ target, Overwrites env.forest x target ∧ env.lowerExpr target = .ok place := by
  cases h with
  | assignment h hp hv =>
    cases List.mem_singleton.1 hmem
    exact Or.inl ⟨_, .assignment h, hp⟩
  | compound h hs =>
    obtain ⟨_, _, _, hplace, _, _, rfl⟩ := lowerCompound_ok hs
    cases List.mem_singleton.1 hmem
    exact Or.inl ⟨_, .compound h, hplace⟩
  | mid h hs =>
    obtain ⟨_, _, _, _, hplace, _, _, _, rfl⟩ := lowerMid_ok hs
    cases List.mem_singleton.1 hmem
    exact Or.inl ⟨_, .mid h, hplace⟩
  | reDim h hs =>
    rcases (lowerReDim_allocates h hs).1 _ hmem with hprepares | ⟨operand, hoperand, hallocates⟩
    · cases hprepares
    · obtain ⟨target, arguments, known, _, _, hexpr, harray, heq⟩ := hallocates
      cases heq
      exact Or.inr ⟨target, ⟨_, h, operand, hoperand, arguments, known, hexpr⟩, harray⟩
  | @erase arrays _ h ht =>
    obtain ⟨array, harray, heq⟩ := List.mem_map.1 hmem
    cases heq
    have hlowered : ∀ array ∈ _, ∃ target ∈ env.forest.elements (some arrays),
        env.lowerExpr target = .ok array :=
      Result.forall_mapM_ok (fun target htarget _ h => ⟨target, htarget, h⟩) ht
    obtain ⟨target, htarget, hplace⟩ := hlowered place harray
    exact Or.inr ⟨target, ⟨_, h, htarget⟩, hplace⟩
  | locals h hs => exact absurd hmem (not_assign_of_isPreparation (isPreparation_lowerLocals hs))
  | exit h hs =>
    rcases lowerExit_ok hs with rfl | rfl | ⟨_, rfl⟩ <;> simp at hmem
  | returns h hs =>
    rcases lowerReturn_ok hs with ⟨_, rfl⟩ | ⟨_, rfl⟩ <;> simp at hmem
  | _ => simp at hmem

/-- A statement writes the places that the source states, and the locals that lowering makes up. -/
theorem Brings.places (h : Brings routine f node x piece) (hmem : .assign place value ∈ piece) :
    ∃ env : Env, env.forest = f ∧
      ((∃ target, Writes f x target ∧ env.assignmentTarget routine target = .ok place) ∨
        (∃ target, Overwrites f x target ∧ env.lowerExpr target = .ok place) ∨
        ∃ s base, InUse routine env node s ∧ place = .ident (fresh s.taken base).1) := by
  cases h with
  | @plain env _ _ _ hforest h =>
    subst hforest
    exact ⟨env, rfl, (h.places hmem).imp_right Or.inl⟩
  | @postTest env s _ _ _ _ hforest hs h hc =>
    obtain ⟨rfl, _⟩ : place = .ident (fresh s.taken "latch").1 ∧ _ := by simpa using hmem
    exact ⟨env, hforest, Or.inr (Or.inr ⟨s, "latch", hs, rfl⟩)⟩
  | @counted env _ control _ _ _ _ hforest h =>
    subst hforest
    cases h with
    | forBlock h hd hc =>
      -- what declares the control variable assigns to nothing
      have hrest := (List.mem_append.1 hmem).resolve_left
        (not_assign_of_isPreparation (isPreparation_declareControl hd))
      have hplace : place = control := by
        simp only [List.mem_cons, List.not_mem_nil, or_false, Target.Stmt.assign.injEq] at hrest
        exact hrest.elim And.left And.left
      rw [hplace]
      exact ⟨env, rfl, Or.inr (Or.inl ⟨_, ⟨_, h, rfl⟩, hc⟩)⟩
  | @element env _ _ control _ _ _ hforest hs h =>
    subst hforest
    cases h with
    | forEachBlock h hd ht hc =>
      have hrest := (List.mem_append.1 hmem).resolve_left
        (not_assign_of_isPreparation (isPreparation_declareControl hd))
      obtain ⟨rfl, _⟩ : place = control ∧ _ := by simpa using hrest
      exact ⟨env, rfl, Or.inr (Or.inl ⟨_, ⟨_, h, rfl⟩, hc⟩)⟩
  | select _ _ hs =>
    exact absurd hmem (not_assign_of_isPreparation (isPreparation_lowerSelector hs))
  | _ => simp at hmem

/-- Where a statement writes other than by an assignment, its target is lowered as it stands. -/
theorem Brings.overwrites (h : Brings routine f node x piece) (hover : Overwrites f x target) :
    ∃ env place value, Env.forest env = f ∧ env.lowerExpr target = .ok place ∧
      .assign place value ∈ piece := by
  cases h with
  | @plain env _ _ _ hforest h =>
    subst hforest
    cases h with
    | reDim h hs =>
      obtain ⟨operand, hoperand, _, _, hexpr⟩ := hover.of_stmt h
      obtain ⟨_, hmem, _, _, _, place, value, hexpr', hplace, rfl⟩ :=
        (lowerReDim_allocates h hs).2 operand hoperand
      cases hexpr.symm.trans hexpr'
      exact ⟨env, place, value, rfl, hplace, hmem⟩
    | erase h ht =>
      obtain ⟨place, hmem, hplace⟩ := Result.exists_of_mapM_ok ht target (hover.of_stmt h)
      exact ⟨env, place, .null, rfl, hplace, List.mem_map_of_mem hmem⟩
    | _ => cases hover.of_stmt (by assumption)
  | @counted env _ control lower _ _ _ hforest h =>
    subst hforest
    cases h with
    | forBlock h hd hc =>
      cases hover.of_stmt h
      exact ⟨env, control, lower, rfl, hc, List.mem_append_right _ List.mem_cons_self⟩
  | @element env _ _ control _ _ _ hforest hs h =>
    subst hforest
    cases h with
    | forEachBlock h hd ht hc =>
      cases hover.of_stmt h
      exact ⟨env, control, _, rfl, hc, List.mem_append_right _
        (List.mem_cons_of_mem _ List.mem_cons_self)⟩
  | preTest hforest h =>
    subst hforest
    cases h with
    | doBlock h => cases hover.of_stmt h
    | endless h => cases hover.of_stmt h
    | whileBlock h => cases hover.of_stmt h
  | _ => cases hover.of_stmt (by assumption)

/-- A name that is made up is none of the names in use. -/
theorem fresh_ne_of_spelled {s : BodyState} {name base : String} (hs : InUse routine env node s)
    (htarget : target ∈ env.forest.descendants node) (hname : SpelledAs env.forest name target) :
    (fresh s.taken base).1.toLower ≠ name.toLower := by
  obtain ⟨d, hd, text, suffix, escaped, hsimple, hsame⟩ := simple_of_spelled htarget hname
  intro h
  refine fresh_not_taken s.taken base ?_
  rw [h, ← hsame]
  exact hs.spells.names d hd text suffix escaped hsimple

/-- An assignment to anything but the name of the routine writes its target as it stands. -/
theorem assignmentTarget_other (hname : ¬ SpelledAs env.forest routine.name target) :
    env.assignmentTarget routine target = env.lowerExpr target := by
  unfold Env.assignmentTarget
  split
  · exact if_neg fun h => hname (isNamed_iff.1 h)
  · rfl

/-- A statement writes the name of a routine that keeps its result in a local exactly if it bypasses
the local. -/
theorem Brings.writes_name_iff (h : Brings routine f node x piece) {shadow : String}
    (hshadow : routine.shadow = some shadow) (hne : shadow.toLower ≠ routine.name.toLower)
    {spelled : Nat} (hspelled : spelled ∈ f.descendants node)
    (hname : SpelledAs f routine.name spelled) :
    (∃ v value, .assign (.ident v) value ∈ piece ∧ v.toLower = routine.name.toLower) ↔
      Bypasses f routine.name x := by
  constructor
  · rintro ⟨v, value, hmem, hv⟩
    obtain ⟨env, rfl, ⟨target, hwrites, hplace⟩ | ⟨target, hover, hplace⟩ | ⟨s, base, hs, hmade⟩⟩ :=
      h.places hmem
    · -- an assignment that names the routine directly writes the local
      by_cases hdirect : SpelledAs env.forest routine.name target
      · cases (assignmentTarget_eq hshadow hdirect).symm.trans hplace
        exact absurd hv hne
      · rw [assignmentTarget_other hdirect] at hplace
        exact ⟨target, v, names_of_lowerExpr hplace, hv, Or.inr ⟨hwrites, hdirect⟩⟩
    · exact ⟨target, v, names_of_lowerExpr hplace, hv, Or.inl hover⟩
    · cases hmade
      exact absurd hv (fresh_ne_of_spelled hs hspelled hname)
  · rintro ⟨target, text, hnames, htext, hover | ⟨hwrites, hdirect⟩⟩
    · obtain ⟨env, place, value, rfl, hplace, hmem⟩ := h.overwrites hover
      cases hnames.lowerExpr.symm.trans hplace
      exact ⟨text, value, hmem, htext⟩
    · obtain ⟨env, place, value, rfl, hplace, rfl⟩ := h.writes hwrites
      rw [assignmentTarget_other hdirect] at hplace
      cases hnames.lowerExpr.symm.trans hplace
      exact ⟨text, value, List.mem_singleton_self _, htext⟩

end Pieces

/-! ## Routines -/

section Routines

variable {settings : Settings} {body : List Target.Stmt}

theorem Bypasses.isWhole {f : Forest} {name : String} {node x : Nat} (h : Bypasses f name x)
    (hx : x ∈ f.descendants node) : x ∈ wholesBelow f node := by
  obtain ⟨_, _, _, _, hover | ⟨hwrites, _⟩⟩ := h
  · exact hover.isWhole hx
  · exact hwrites.isWhole hx

theorem own_name_written_iff {tree : Tree} (hfinished : tree.Finished)
    (r : RoutineBody tree.toForest settings body) {shadow : String}
    (hshadow : r.routine.shadow = some shadow) : ∃ out piece, Census r out piece ∧
      (∀ x ∈ tree.descendants r.node, ∀ target, Writes tree.toForest x target →
        SpelledAs tree.toForest r.name target →
        ∃ value, piece x = [.assign (.ident shadow) value]) ∧
      (∀ x ∈ wholesBelow tree.toForest r.node,
        (∃ v value, .assign (.ident v) value ∈ piece x ∧ v.toLower = r.name.toLower) ↔
          Bypasses tree.toForest r.name x) ∧
      ((∃ v value, .assign (.ident v) value ∈ atomsAll body ∧ v.toLower = r.name.toLower) ↔
        ∃ x ∈ tree.descendants r.node, Bypasses tree.toForest r.name x) := by
  obtain ⟨out, piece, hcensus⟩ := r.census hfinished.built.linked hfinished.built.shaped
  obtain ⟨hne, spelled, hspelled, hname⟩ := r.spelled_of_shadow hshadow
  have hpieces : ∀ x ∈ wholesBelow tree.toForest r.node,
      (∃ v value, .assign (.ident v) value ∈ piece x ∧ v.toLower = r.name.toLower) ↔
        Bypasses tree.toForest r.name x :=
    fun x hx => (hcensus.brings x hx).writes_name_iff hshadow hne hspelled hname
  refine ⟨out, piece, hcensus, ?_, hpieces, ?_, ?_⟩
  · exact fun x hx target hwrites hname => hcensus.assigns hshadow hx hwrites hname
  · rintro ⟨v, value, hmem, hv⟩
    rcases hcensus.mem_atoms.1 hmem with ⟨_, _, hdeclare | hreturn⟩ | ⟨x, hx, hpiece⟩
    · cases hdeclare
    · cases hreturn
    · exact ⟨x, (mem_wholesBelow.1 hx).1, (hpieces x hx).1 ⟨v, value, hpiece, hv⟩⟩
  · rintro ⟨x, hx, hbypasses⟩
    have hwhole := hbypasses.isWhole hx
    obtain ⟨v, value, hpiece, hv⟩ := (hpieces x hwhole).2 hbypasses
    exact ⟨v, value, hcensus.mem_atoms.2 (Or.inr ⟨x, hwhole, hpiece⟩), hv⟩

end Routines

/-- A `Function F%` that assigns 0 to `F` and then counts `F` from 1 to 3. -/
def controlFile : List Call :=
  let span := Span.startingAt ⟨1, 1⟩
  [.alloc .simpleName span (.name (.simple "F" (some .integer) false)),
    .alloc .simpleName span (.name (.simple "F" none false)),
    .alloc .simpleNameExpression span (.expr (.simpleName 1)),
    .alloc .integerLiteralExpression span (.expr (.literal (.integer 0 .decimal none))),
    .alloc .assignmentStatement span (.stmt (.assignment 2 3)),
    .alloc .simpleName span (.name (.simple "F" none false)),
    .alloc .simpleNameExpression span (.expr (.simpleName 5)),
    .alloc .integerLiteralExpression span (.expr (.literal (.integer 1 .decimal none))),
    .alloc .integerLiteralExpression span (.expr (.literal (.integer 3 .decimal none))),
    .alloc .forBlockStatement span (.stmt (.forBlock 6 none 7 8 none none none)),
    .collection .statementCollection span [some 4, some 9] [],
    .alloc .functionDeclaration span
      (.decl (.method ⟨none, none⟩ (.ofName 0) none none (some 10) none)),
    .collection .declarationCollection span [some 11] [],
    .alloc .file span (.file ⟨some 12⟩)]

theorem control_accepted : (Forest.empty.after controlFile).size = controlFile.length := by
  decide +kernel

def controlBody : List Target.Stmt :=
  [.declare "FResult" (.primitive .int) (some (.int 0)),
    .assign (.ident "FResult") (.int 0),
    .iteration (some (.assign (.ident "F") (.int 1)))
      (.binary .lessEqual (.ident "F") (.int 3))
      (some (.assign (.ident "F") (.binary .add (.ident "F") (.int 1)))) [],
    .returns (some (.ident "FResult"))]

def controlRoutine : RoutineBody (Tree.ofCalls controlFile 13).toForest .standard controlBody where
  options := Settings.standard.options
  node := 11
  name := "F"
  returnType := .primitive .int
  statements := some 10
  holds := .method (by rw [Tree.ofCalls_eq_settled 13 control_accepted]; rfl)
  lowered := by rw [Tree.ofCalls_eq_settled 13 control_accepted]; with_unfolding_all rfl

theorem control_bypasses : (Tree.ofCalls controlFile 13).Finished ∧
    controlRoutine.routine.shadow = some "FResult" ∧
    ∃ v value, .assign (.ident v) value ∈ atomsAll controlBody ∧ v.toLower = "F".toLower := by
  have hfinished : (Tree.ofCalls controlFile 13).Finished :=
    Tree.finished_of_last control_accepted rfl
  have hshadow : controlRoutine.routine.shadow = some "FResult" := by decide +kernel
  obtain ⟨_, _, _, _, _, hwritten⟩ := own_name_written_iff hfinished controlRoutine hshadow
  have hstmt : (Tree.ofCalls controlFile 13).stmt? 9 =
      some (.forBlock 6 none 7 8 none none none) := by
    rw [Tree.ofCalls_eq_settled 13 control_accepted]
    rfl
  have hexpr : (Tree.ofCalls controlFile 13).expr? 6 = some (.simpleName 5) := by
    rw [Tree.ofCalls_eq_settled 13 control_accepted]
    rfl
  have hid : 9 ∈ (Tree.ofCalls controlFile 13).descendants 11 := by
    rw [Tree.ofCalls_eq_settled 13 control_accepted]
    decide +kernel
  have hname : (Tree.ofCalls controlFile 13).nameText? 5 = some "F" := by
    rw [Tree.ofCalls_eq_settled 13 control_accepted]
    decide +kernel
  refine ⟨hfinished, hshadow, hwritten.2 ⟨9, hid, 6, "F", ?_, rfl, Or.inl ?_⟩⟩
  · exact .simple hexpr hname
  · exact ⟨_, hstmt, rfl⟩

/-- The control variable of a `For` escapes: the code writes a name that no local has. -/
theorem control_escapes : (Tree.ofCalls controlFile 13).Finished ∧
    controlRoutine.routine.shadow = some "FResult" ∧
    .assign (.ident "F") (.int 1) ∈ atomsAll controlBody ∧
    (Machine.run controlBody .initial).1 = .error (.undefinedVariable "F") := by
  refine ⟨Tree.finished_of_last control_accepted rfl, by decide +kernel, ?_, rfl⟩
  exact List.mem_cons_of_mem _ (List.mem_cons_of_mem _ List.mem_cons_self)

end StructuredBasic.Lowering
