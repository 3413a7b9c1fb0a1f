import StructuredBasic.Proofs.Forest.Accepted
import StructuredBasic.Proofs.Lowering.ReturnPoints
import StructuredBasic.Proofs.Lowering.Synthesized

/-!
# Locals of lowered code

`Env.localsAt` tells which locals a statement of the source declares: those it names and those that
lowering makes up. The declarations of a lowered body are the locals of the routine in order, each
made-up one under a name that was free at the time (`LowersAll.declares`). So the made-up names of
a routine are distinct and meet no name of its source, whatever the case of letters
(`made_names_distinct`).
-/

set_option autoImplicit false

namespace StructuredBasic.Target.Stmt

mutual

/-- The names that a statement declares, in the order of its text. -/
def declared : Stmt → List String
  | .declare name _ _ => [name]
  | .conditional _ thenBody elseBody => declaredAll thenBody ++ declaredAll elseBody
  | .iteration init _ increment body =>
    declaredOptional init ++ declaredAll body ++ declaredOptional increment
  | _ => []

def declaredOptional : Option Stmt → List String
  | none => []
  | some stmt => declared stmt

def declaredAll : List Stmt → List String
  | [] => []
  | stmt :: rest => declared stmt ++ declaredAll rest

end

theorem declaredAll_append (a b : List Stmt) :
    declaredAll (a ++ b) = declaredAll a ++ declaredAll b := by
  induction a with
  | nil => rfl
  | cons stmt a ih => rw [List.cons_append, declaredAll, declaredAll, ih, List.append_assoc]

theorem declaredAll_singleton (stmt : Stmt) : declaredAll [stmt] = declared stmt :=
  List.append_nil _

theorem declaredAll_iteration {increment : Option Stmt} (h : declaredOptional increment = [])
    (init : Option Stmt) (test : Expr) (body : List Stmt) :
    declaredAll [.iteration init test increment body] =
      declaredOptional init ++ declaredAll body := by
  have hloop : declared (.iteration init test increment body) =
    declaredOptional init ++ declaredAll body ++ declaredOptional increment := rfl
  rw [declaredAll_singleton, hloop, h, List.append_nil]

theorem declaredAll_eq_nil {stmts : List Stmt} (h : ∀ stmt ∈ stmts, declared stmt = []) :
    declaredAll stmts = [] := by
  induction stmts with
  | nil => rfl
  | cons stmt stmts ih =>
    obtain ⟨hstmt, hrest⟩ := List.forall_mem_cons.1 h
    rw [declaredAll, hstmt, ih hrest]
    rfl

end StructuredBasic.Target.Stmt

namespace StructuredBasic.Lowering

open Syntax
open Target.Stmt (declared declaredAll declaredAll_append declaredAll_singleton
  declaredAll_iteration declaredAll_eq_nil)

/-! ## Names for locals -/

/-- A local: under a name of the source, or under a name made up from a base. -/
inductive Local where
  | named (name : String)
  | made (base : String)

/-- Locals with the names they get in order, where the names of `taken` are in use. -/
def settle (taken : List String) : List Local → List (Local × String)
  | [] => []
  | .named name :: rest => (.named name, name) :: settle taken rest
  | .made base :: rest =>
    (.made base, (fresh taken base).1) :: settle (fresh taken base).2 rest

/-- The names in use behind the locals. -/
def takenAfter (taken : List String) : List Local → List String
  | [] => taken
  | .named _ :: rest => takenAfter taken rest
  | .made base :: rest => takenAfter (fresh taken base).2 rest

/-- The made-up ones among settled names. -/
def madeNames : List (Local × String) → List String
  | [] => []
  | (.named _, _) :: rest => madeNames rest
  | (.made _, name) :: rest => name :: madeNames rest

section Settling

variable {taken : List String}

theorem settle_append (a b : List Local) :
    settle taken (a ++ b) = settle taken a ++ settle (takenAfter taken a) b := by
  induction a generalizing taken with
  | nil => rfl
  | cons first a ih =>
    cases first with
    | named name => rw [List.cons_append, settle, settle, ih, takenAfter, List.cons_append]
    | made base => rw [List.cons_append, settle, settle, ih, takenAfter, List.cons_append]

theorem takenAfter_append (a b : List Local) :
    takenAfter taken (a ++ b) = takenAfter (takenAfter taken a) b := by
  induction a generalizing taken with
  | nil => rfl
  | cons first a ih =>
    cases first with
    | named name => exact ih
    | made base => exact ih

theorem settle_named (taken names : List String) :
    (settle taken (names.map Local.named)).map Prod.snd = names ∧
      takenAfter taken (names.map Local.named) = taken := by
  induction names with
  | nil => exact ⟨rfl, rfl⟩
  | cons name names ih => exact ⟨congrArg (name :: ·) ih.1, ih.2⟩

theorem made_not_taken {locals : List Local} :
    ∀ name ∈ madeNames (settle taken locals), name.toLower ∉ taken := by
  induction locals generalizing taken with
  | nil => intro name hname; cases hname
  | cons first locals ih =>
    cases first with
    | named name => exact ih
    | made base =>
      intro name hname
      rcases List.mem_cons.1 hname with rfl | hname
      · exact fresh_not_taken taken base
      · have hnot : name.toLower ∉ (fresh taken base).1.toLower :: taken := ih name hname
        exact fun htaken => hnot (List.mem_cons_of_mem _ htaken)

/-- Made-up names are put in use in lower case, the last one in front. -/
theorem takenAfter_eq (locals : List Local) : takenAfter taken locals =
    ((madeNames (settle taken locals)).map String.toLower).reverse ++ taken := by
  induction locals generalizing taken with
  | nil => rfl
  | cons first locals ih =>
    cases first with
    | named name => exact ih
    | made base =>
      rw [takenAfter, ih, settle, madeNames, List.map_cons, List.reverse_cons, List.append_assoc]
      rfl

theorem nodup_made (locals : List Local) :
    ((madeNames (settle taken locals)).map String.toLower).Nodup := by
  induction locals generalizing taken with
  | nil => exact List.nodup_nil
  | cons first locals ih =>
    cases first with
    | named name => exact ih
    | made base =>
      refine List.nodup_cons.2 ⟨fun hmem => ?_, ih⟩
      obtain ⟨name, hname, hsame⟩ := List.mem_map.1 hmem
      have hnot : name.toLower ∉ (fresh taken base).1.toLower :: taken :=
        made_not_taken name hname
      rw [hsame] at hnot
      exact hnot List.mem_cons_self

end Settling

/-! ## Locals of the source -/

/-- The variables of a declarator. -/
def Env.variablesOf (env : Env) (declarator : Nat) : List Local :=
  match env.forest.declarator? declarator with
  | some d =>
    ((env.forest.elements (some d.names)).filterMap env.forest.nameText?).map Local.named
  | none => []

/-- The local that holds a selector, unless the selector is a name or a literal. -/
def Env.selectorLocal (env : Env) (expression : Nat) : List Local :=
  match env.forest.expr? expression with
  | some (.simpleName _) => []
  | some (.literal _) => []
  | _ => [.made "selected"]

/-- The local over which an operand of a `ReDim Preserve` is copied. -/
def Env.copyLocal (env : Env) (operand : Nat) : List Local :=
  match env.forest.expr? operand with
  | some (.callOrIndex target _ _) =>
    [.made ((env.forest.referenceText? target).getD "array" ++ "Preserved")]
  | _ => []

/-- The locals that a statement itself declares, in the order of the lowered text. -/
def Env.localsOf (env : Env) : Stmt → List Local
  | .localDeclaration _ declarators =>
    (env.forest.elements (some declarators)).flatMap env.variablesOf
  | .doBlock none _ tail =>
    if (env.trailingCondition? tail).isSome then [.made "latch"] else []
  | .forBlock _ declarator _ _ _ _ _ => declarator.toList.flatMap env.variablesOf
  | .forEachBlock _ declarator _ _ _ =>
    declarator.toList.flatMap env.variablesOf ++ [.made "enumerator"]
  | .selectBlock expression _ _ _ => env.selectorLocal expression
  | .reDim true arrays => (env.forest.elements (some arrays)).flatMap env.copyLocal
  | _ => []

/-- The locals that a node declares as a statement. -/
def Env.localsAt (env : Env) (id : Nat) : List Local :=
  match env.forest.stmt? id with
  | some stmt => env.localsOf stmt
  | none => []

theorem localsAt_of {env : Env} {id : Nat} {stmt : Stmt} (h : env.forest.stmt? id = some stmt) :
    env.localsAt id = env.localsOf stmt := by
  rw [Env.localsAt, h]

theorem sparse_localsAt (env : Env) (hf : env.forest.Shaped) :
    env.forest.Sparse env.localsAt := by
  refine hf.sparse_of_stmt fun id hne => ?_
  cases hstmt : env.forest.stmt? id with
  | none =>
    rw [Env.localsAt, hstmt] at hne
    exact absurd rfl hne
  | some stmt =>
    rw [localsAt_of hstmt] at hne
    refine ⟨stmt, rfl, ?_⟩
    cases stmt <;> first
      | rfl
      | exact absurd rfl hne

/-! ## Declarations of lowered code -/

/-- The code declares these locals, under the names that are free when it is lowered. -/
structure Declares (s : BodyState) (out : List Target.Stmt) (locals : List Local)
    (t : BodyState) : Prop where
  names : declaredAll out = (settle s.taken locals).map Prod.snd
  taken : t.taken = takenAfter s.taken locals

section Declares

variable {s u t : BodyState} {a b out : List Target.Stmt} {l m : List Local}

theorem declares_nothing (h : ∀ stmt ∈ out, declared stmt = []) (ht : t.taken = s.taken) :
    Declares s out [] t :=
  ⟨declaredAll_eq_nil h, ht⟩

theorem Declares.append (ha : Declares s a l u) (hb : Declares u b m t) :
    Declares s (a ++ b) (l ++ m) t := by
  constructor
  · rw [declaredAll_append, ha.names, hb.names, settle_append, List.map_append, ha.taken]
  · rw [takenAfter_append, ← ha.taken, hb.taken]

/-- Other code with the same declarations. -/
theorem Declares.of_eq (h : Declares s a l t) (hab : declaredAll b = declaredAll a) :
    Declares s b l t :=
  ⟨hab.trans h.names, h.taken⟩

theorem declares_made (s : BodyState) (base : String) (type : Target.Ty)
    (init : Option Target.Expr) :
    Declares s [.declare (fresh s.taken base).1 type init] [.made base]
      { s with taken := (fresh s.taken base).2 } :=
  ⟨rfl, rfl⟩

theorem declares_named {names : List String} (h : declaredAll out = names) :
    Declares s out (names.map Local.named) s := by
  obtain ⟨hnames, htaken⟩ := settle_named s.taken names
  exact ⟨h.trans hnames.symm, htaken.symm⟩

end Declares

section Plain

variable {routine : Routine} {env : Env} {id : Nat} {s t : BodyState} {out : List Target.Stmt}

theorem nameText_ok {text : String} (h : env.nameText id = .ok text) :
    env.forest.nameText? id = some text := by
  unfold Env.nameText at h
  split at h
  · next hname =>
    cases h
    exact hname
  · exact absurd h unsupported_ne_ok

theorem variablesOf_eq {declarator : Nat} {vs : List DeclaredVariable}
    (h : env.declaredVariables declarator = .ok vs) :
    env.variablesOf declarator = (vs.map DeclaredVariable.name).map Local.named := by
  unfold Env.declaredVariables at h
  split at h
  · next d hd =>
    simp only [Env.variablesOf, hd]
    refine congrArg (List.map Local.named) (Result.mapM_ok
      (R := fun ids vs => ids.filterMap env.forest.nameText? = vs.map DeclaredVariable.name)
      rfl ?_ _ h)
    intro declared rest v vs hv hrest
    rw [List.filterMap_cons, nameText_ok (declaredVariable_ok hv).1, hrest]
    rfl
  · exact absurd h unsupported_ne_ok

theorem declares_lowerLocals {modifiers declarators : Nat}
    (h : env.lowerLocals modifiers declarators = .ok out) :
    Declares s out ((env.forest.elements (some declarators)).flatMap env.variablesOf) s := by
  simp only [Env.lowerLocals, Result.bind_ok, Result.pure_ok] at h
  obtain ⟨lists, hlists, rfl⟩ := h
  refine Result.mapM_ok (R := fun ids lists =>
    Declares s lists.flatten (ids.flatMap env.variablesOf) s) ⟨rfl, rfl⟩ ?_ _ hlists
  intro declarator rest stmts lists hstmts hrest
  rw [Result.bind_ok] at hstmts
  obtain ⟨vs, hvs, hstmts⟩ := hstmts
  have hnames : declaredAll stmts = vs.map DeclaredVariable.name := by
    refine Result.mapM_ok (R := fun vs stmts => declaredAll stmts = vs.map DeclaredVariable.name)
      rfl ?_ _ hstmts
    intro v vs stmt stmts hstmt hrest
    obtain ⟨init, rfl⟩ := declareLocal_ok hstmt
    exact congrArg (v.name :: ·) hrest
  rw [List.flatten_cons, List.flatMap_cons, variablesOf_eq hvs]
  exact (declares_named hnames).append hrest

theorem declares_declareControl {declarator : Option Nat}
    (h : env.declareControl declarator = .ok out) :
    Declares s out (declarator.toList.flatMap env.variablesOf) s := by
  cases declarator with
  | none =>
    cases h
    exact ⟨rfl, rfl⟩
  | some declarator =>
    simp only [Env.declareControl, Result.bind_ok, Result.pure_ok] at h
    obtain ⟨vs, hvs, rfl⟩ := h
    rw [Option.toList_some, List.flatMap_singleton, variablesOf_eq hvs]
    refine declares_named ?_
    clear hvs
    induction vs with
    | nil => rfl
    | cons v vs ih => exact congrArg (v.name :: ·) ih

theorem declares_lowerReDimOperand {preserve : Bool} {operand : Nat} {declarator : Option Nat}
    (h : env.lowerReDimOperand id preserve operand declarator s = .ok (out, t)) :
    Declares s out (if preserve then env.copyLocal operand else []) t := by
  obtain ⟨target, _, _, _, _, _, hexpr, _, _, hcase⟩ := lowerReDimOperand_ok h
  rcases hcase with ⟨rfl, rfl, rfl⟩ | ⟨rfl, base, type, hbase, rfl, rfl⟩
  · exact ⟨rfl, rfl⟩
  · have hcopy : env.copyLocal operand = [.made base] := by
      unfold Env.copyLocal
      rw [hexpr, hbase]
    rw [if_pos rfl, hcopy]
    exact ⟨rfl, rfl⟩

theorem declares_lowerReDim {preserve : Bool} {arrays : Nat}
    (hstmt : env.forest.stmt? id = some (.reDim preserve arrays))
    (h : env.lowerReDim id preserve arrays s = .ok (out, t)) :
    Declares s out (env.localsAt id) t := by
  have hlocals : env.localsAt id = (env.forest.elements (some arrays)).flatMap
      fun operand => if preserve then env.copyLocal operand else [] := by
    rw [localsAt_of hstmt]
    cases preserve with
    | false => exact (List.flatMap_eq_nil_iff.2 fun _ _ => rfl).symm
    | true => rfl
  simp only [Env.lowerReDim, Lower.bind_ok, Lower.pure_ok] at h
  obtain ⟨lists, _, hlists, rfl, rfl⟩ := h
  rw [hlocals, ← map_fst_operands hstmt]
  refine Lower.mapM_ok (R := fun pairs s lists t => Declares s lists.flatten
    ((pairs.map Prod.fst).flatMap fun operand => if preserve then env.copyLocal operand else []) t)
    (fun _ => ⟨rfl, rfl⟩) ?_ hlists
  rintro ⟨operand, declarator⟩ _ rest s b u lists t hoperand hrest
  exact (declares_lowerReDimOperand hoperand).append hrest

theorem selectorLocal_made {expression : Nat}
    (hname : ∀ name, env.forest.expr? expression ≠ some (.simpleName name))
    (hliteral : ∀ literal, env.forest.expr? expression ≠ some (.literal literal)) :
    env.selectorLocal expression = [.made "selected"] := by
  unfold Env.selectorLocal
  split
  · next hexpr => exact absurd hexpr (hname _)
  · next hexpr => exact absurd hexpr (hliteral _)
  · rfl

theorem declares_lowerSelector {expression : Nat} {value : Target.Expr}
    (h : env.lowerSelector expression s = .ok ((out, value), t)) :
    Declares s out (env.selectorLocal expression) t := by
  unfold Env.lowerSelector at h
  simp only [Lower.bind_ok, Lower.lift_ok] at h
  obtain ⟨lowered, _, ⟨_, rfl⟩, h⟩ := h
  obtain ⟨m, hm, h⟩ := Lower.exists_eq h
  split at hm <;> subst hm <;>
    simp only [Lower.bind_ok, Lower.freshName_ok, Lower.pure_ok, Prod.mk.injEq] at h
  · next hexpr =>
    obtain ⟨⟨rfl, _⟩, rfl⟩ := h
    have hlocals : env.selectorLocal expression = [] := by
      simp only [Env.selectorLocal, hexpr]
    rw [hlocals]
    exact ⟨rfl, rfl⟩
  · next hexpr =>
    obtain ⟨⟨rfl, _⟩, rfl⟩ := h
    have hlocals : env.selectorLocal expression = [] := by
      simp only [Env.selectorLocal, hexpr]
    rw [hlocals]
    exact ⟨rfl, rfl⟩
  · next hname hliteral =>
    obtain ⟨_, _, ⟨rfl, rfl⟩, ⟨rfl, _⟩, rfl⟩ := h
    rw [selectorLocal_made hname hliteral]
    exact ⟨rfl, rfl⟩

theorem LowersPlain.declares (h : LowersPlain routine env id s out t) :
    Declares s out (env.localsAt id) t := by
  have other : ∀ {stmt : Stmt} {out : List Target.Stmt} {t : BodyState},
      env.forest.stmt? id = some stmt → env.localsOf stmt = [] →
      (∀ stmt ∈ out, declared stmt = []) → t.taken = s.taken →
      Declares s out (env.localsAt id) t := by
    intro stmt out t hstmt hs hout ht
    rw [localsAt_of hstmt, hs]
    exact declares_nothing hout ht
  have single : ∀ {stmt : Target.Stmt}, declared stmt = [] → ∀ x ∈ [stmt], declared x = [] :=
    fun h => List.forall_mem_singleton.2 h
  cases h with
  | empty h => exact other h rfl (fun _ h => nomatch h) rfl
  | stop h => exact other h rfl (single rfl) rfl
  | halt h => exact other h rfl (single rfl) rfl
  | endBlock h => exact other h rfl (fun _ h => nomatch h) rfl
  | label h => exact other h rfl (single rfl) rfl
  | goto h => exact other h rfl (single rfl) rfl
  | goSub h => exact other h rfl (by simp [declared]) rfl
  | exit h hs =>
    refine other h rfl (single ?_) rfl
    rcases lowerExit_ok hs with rfl | rfl | ⟨type, rfl⟩ <;> rfl
  | returns h hs =>
    refine other h rfl (single ?_) rfl
    rcases lowerReturn_ok hs with ⟨label, rfl⟩ | ⟨value, rfl⟩ <;> rfl
  | raiseEvent h => exact other h rfl (single rfl) rfl
  | reDim h hs => exact declares_lowerReDim h hs
  | erase h => exact other h rfl (List.forall_mem_map.2 fun _ _ => rfl) rfl
  | call h => exact other h rfl (single rfl) rfl
  | assignment h => exact other h rfl (single rfl) rfl
  | compound h hs =>
    obtain ⟨place, _, value, _, _, _, rfl⟩ := lowerCompound_ok hs
    exact other h rfl (single rfl) rfl
  | mid h hs =>
    obtain ⟨_, _, _, _, _, _, _, _, rfl⟩ := lowerMid_ok hs
    exact other h rfl (single rfl) rfl
  | locals h hs =>
    rw [localsAt_of h]
    exact declares_lowerLocals hs

end Plain

/-! ## Loops and chains -/

section Blocks

variable {s u t : BodyState} {body : List Target.Stmt} {l m : List Local}

theorem declares_preTestLoop (h : Declares s body l t) (test : Target.Expr) :
    Declares s [preTestLoop test body] l t :=
  h.of_eq (declaredAll_iteration rfl none test body)

theorem declares_postTestLoop
    (h : Declares { s with taken := (fresh s.taken "latch").2 } body l t) (test : Target.Expr) :
    Declares s [postTestLoop (fresh s.taken "latch").1 test body] (.made "latch" :: l) t := by
  have hall := (declares_made s "latch" (.primitive .bool) (some (.bool true))).append h
  have hset : declaredAll [.assign (.ident (fresh s.taken "latch").1) test] = [] := rfl
  refine hall.of_eq ?_
  rw [postTestLoop, declaredAll_iteration rfl, declaredAll_append, hset, List.append_nil,
    declaredAll_append]
  rfl

theorem declares_countedLoop {front : List Target.Stmt} (hfront : Declares s front m s)
    (h : Declares s body l t) (control lower upper step : Target.Expr) :
    Declares s (front ++ [countedLoop control lower upper step body]) (m ++ l) t :=
  hfront.append (h.of_eq (declaredAll_iteration rfl (some (.assign control lower)) _ body))

theorem declares_elementLoop {front : List Target.Stmt} (hfront : Declares s front m s)
    (h : Declares { s with taken := (fresh s.taken "enumerator").2 } body l t)
    (control collection : Target.Expr) (type : Target.Ty) :
    Declares s
      (front ++ [elementLoop (fresh s.taken "enumerator").1 control collection type body])
      (m ++ .made "enumerator" :: l) t := by
  have hall := (declares_made s "enumerator" (.named "System.Collections.IEnumerator")
    (some (.invoke (some collection) "GetEnumerator" []))).append h
  refine hfront.append (hall.of_eq ?_)
  rw [elementLoop, declaredAll_iteration rfl, declaredAll_append]
  rfl

theorem declares_conditional {a b : List Target.Stmt} (ha : Declares s a l u)
    (hb : Declares u b m t) (test : Target.Expr) :
    Declares s [.conditional test a b] (l ++ m) t := by
  refine (ha.append hb).of_eq ?_
  rw [declaredAll_singleton, declaredAll_append]
  rfl

theorem declares_comments (texts : List String) :
    Declares s (texts.map Target.Stmt.comment) [] s :=
  declares_nothing (List.forall_mem_map.2 fun _ _ => rfl) rfl

end Blocks

section Heads

variable {env : Env} {id : Nat} {statements : Option Nat} {declared : List Target.Stmt}

theorem LoopHead.localsAt {test : Target.Expr} (h : LoopHead env id test statements) :
    env.localsAt id = [] := by
  cases h with
  | doBlock h => exact localsAt_of h
  | endless h ht =>
    rw [localsAt_of h, Env.localsOf, ht]
    rfl
  | whileBlock h => exact localsAt_of h

theorem CountedHead.declares {control lower upper step : Target.Expr} (s : BodyState)
    (h : CountedHead env id declared control lower upper step statements) :
    Declares s declared (env.localsAt id) s := by
  cases h with
  | forBlock h hd =>
    rw [localsAt_of h]
    exact declares_declareControl hd

theorem ElementHead.declares {control collection : Target.Expr} {type : Target.Ty}
    (s : BodyState) (h : ElementHead env id declared control collection type statements) :
    ∃ m, env.localsAt id = m ++ [.made "enumerator"] ∧ Declares s declared m s := by
  cases h with
  | forEachBlock h hd =>
    exact ⟨_, localsAt_of h, declares_declareControl hd⟩

theorem Arm.localsAt {value : Option Target.Expr} {test : Target.Expr}
    (h : Arm env id value test statements) : env.localsAt id = [] := by
  cases h with
  | elseIf h => exact localsAt_of h
  | case h => exact localsAt_of h

end Heads

/-! ## Bodies -/

mutual

theorem Lowers.declares {routine : Routine} {env : Env} {id : Nat} {s t : BodyState}
    {out : List Target.Stmt} (h : Lowers routine env id s out t) (hf : env.forest.Shaped) :
    Declares s out (env.forest.gather env.localsAt id) t := by
  have hgather : ∀ {stmt : Stmt}, env.forest.stmt? id = some stmt →
      env.forest.gather env.localsAt id = env.localsAt id ++
        ((stmt.lists.flatMap env.forest.elements).flatMap (env.forest.gather env.localsAt) ++
        stmt.last?.toList.flatMap (env.forest.gather env.localsAt)) := by
    intro stmt hstmt
    rw [hf.gather_stmt (sparse_localsAt env hf) hstmt, List.append_assoc]
  -- The latch and the enumerator are settled in front of the loop's own statements, so that a loop
  -- inside gets another name.
  match h with
  | .plain h =>
    obtain ⟨stmt, hstmt, _, hlists, hlast⟩ := h.stmt
    rw [hgather hstmt, hlists, hlast]
    simpa using h.declares
  | .preTest h hb =>
    have hbody := hb.declares hf
    rw [h.hasList.gather hf (sparse_localsAt env hf), h.localsAt, List.nil_append]
    exact declares_preTestLoop hbody _
  | .postTest h ht hb _ =>
    have hbody := hb.declares hf
    have hlocals : env.localsAt id = [.made "latch"] := by
      rw [localsAt_of h, Env.localsOf, ht]
      rfl
    rw [hgather h, hlocals]
    simpa [Stmt.lists, Stmt.last?] using declares_postTestLoop hbody _
  | .counted h hb =>
    have hbody := hb.declares hf
    rw [h.hasList.gather hf (sparse_localsAt env hf)]
    exact declares_countedLoop (h.declares s) hbody _ _ _ _
  | .element h hb =>
    have hbody := hb.declares hf
    obtain ⟨m, hlocals, hdeclared⟩ := h.declares s
    rw [h.hasList.gather hf (sparse_localsAt env hf), hlocals, List.append_assoc]
    exact declares_elementLoop hdeclared hbody _ _ _
  | .within h _ _ hb =>
    have hbody : Declares s out
        ((env.forest.elements _).flatMap (env.forest.gather env.localsAt)) t := hb.declares hf
    have hlocals : env.localsAt id = [] := localsAt_of h
    rw [hgather h, hlocals]
    simpa [Stmt.lists, Stmt.last?] using hbody
  | .ifBlock h _ hthen helseIfs helse =>
    have hbody := hthen.declares hf
    have hlast := helse.declares hf
    have hchain := helseIfs.declares hf hlast
    have hlocals : env.localsAt id = [] := localsAt_of h
    rw [hgather h, hlocals]
    simpa [Stmt.lists, Stmt.last?] using declares_conditional hbody hchain _
  | .lineIf h _ hthen helse =>
    have hbody := hthen.declares hf
    have hlast := helse.declares hf
    have hlocals : env.localsAt id = [] := localsAt_of h
    rw [hgather h, hlocals]
    simpa [Stmt.lists, Stmt.last?] using declares_conditional hbody hlast _
  | .select h hs hcases helse =>
    have hlast := helse.declares hf
    have hchain := hcases.declares hf hlast
    have hlocals : env.localsAt id = env.selectorLocal _ := localsAt_of h
    rw [hgather h, hlocals]
    simpa [Stmt.lists, Stmt.last?] using (declares_lowerSelector hs).append hchain

/-- Lowered statements declare the locals of the source below them, in order. -/
theorem LowersAll.declares {routine : Routine} {env : Env} {ids : List Nat} {s t : BodyState}
    {out : List Target.Stmt} (h : LowersAll routine env ids s out t) (hf : env.forest.Shaped) :
    Declares s out (ids.flatMap (env.forest.gather env.localsAt)) t := by
  match h with
  | .nil => exact ⟨rfl, rfl⟩
  | .cons h hs =>
    have hfirst := h.declares hf
    have hrest := hs.declares hf
    exact ((declares_comments _).append hfirst).append hrest

/-- The blocks of a chain, in front of a last block. -/
theorem LowersBranches.declares {routine : Routine} {env : Env} {ids : List Nat}
    {value : Option Target.Expr} {s u t : BodyState} {branches : List Branch}
    (h : LowersBranches routine env value ids s branches u) (hf : env.forest.Shaped)
    {last : List Target.Stmt} {l : List Local} (hlast : Declares u last l t) :
    Declares s (chain branches last) (ids.flatMap (env.forest.gather env.localsAt) ++ l) t := by
  match h with
  | .nil => exact hlast
  | .cons h hb hs =>
    have hbody := hb.declares hf
    have hrest := hs.declares hf hlast
    rw [List.flatMap_cons, h.hasList.gather hf (sparse_localsAt env hf), h.localsAt,
      List.nil_append, List.append_assoc]
    exact declares_conditional hbody hrest _

theorem LowersElse.declares {routine : Routine} {env : Env} {block : Option Nat}
    {s t : BodyState} {out : List Target.Stmt} (h : LowersElse routine env block s out t)
    (hf : env.forest.Shaped) :
    Declares s out (block.toList.flatMap (env.forest.gather env.localsAt)) t := by
  match h with
  | .none => exact ⟨rfl, rfl⟩
  | .some h hb =>
    have hbody := hb.declares hf
    have hgather := hf.gather_stmt (sparse_localsAt env hf) h
    have hlocals : env.localsAt _ = [] := localsAt_of h
    rw [hlocals] at hgather
    simpa [Stmt.lists, Stmt.last?, hgather] using hbody

end

/-! ## Routines -/

/-- The local that holds the result of a routine which assigns to its own name. -/
def Env.resultLocal (env : Env) (node : Nat) (name : String) (returnType : Target.Ty) :
    List Local :=
  if !returnType.isVoid && env.assignsName node name then [.made (name ++ "Result")] else []

section Routines

variable {env : Env} {node : Nat} {name : String} {returnType : Target.Ty}
  {statements : Option Nat} {out : List Target.Stmt} {l : List Local} {t : BodyState}

theorem declares_withShadow
    (h : Declares ⟨(env.routineShadow node name returnType).2, []⟩ out l t) :
    Declares ⟨env.namesUnder node, []⟩
      (Env.withShadow (env.routineShadow node name returnType).1 returnType out)
      (env.resultLocal node name returnType ++ l) t := by
  unfold Env.resultLocal
  unfold Env.routineShadow at h ⊢
  split at h
  · next hassigned =>
    rw [if_pos hassigned, if_pos hassigned]
    have hfirst := declares_made ⟨env.namesUnder node, []⟩ (name ++ "Result") returnType
      (some (zeroValue returnType))
    refine (hfirst.append h).of_eq ?_
    simp only [Env.withShadow, declaredAll_append, declaredAll_singleton, declared,
      List.append_nil]
    rfl
  · next hassigned =>
    rw [if_neg hassigned, if_neg hassigned]
    exact h

theorem madeUp_eq
    (hout : env.lowerBody ⟨name, (env.routineShadow node name returnType).1, returnType⟩ statements
      ⟨(env.routineShadow node name returnType).2, []⟩ = .ok (out, t))
    (htaken : t.taken = takenAfter (env.namesUnder node) l) :
    env.madeUp node name returnType statements =
      ((madeNames (settle (env.namesUnder node) l)).map String.toLower).reverse := by
  simp only [Env.madeUp, hout]
  rw [htaken, takenAfter_eq, List.length_append, Nat.add_sub_cancel, List.take_left]

end Routines

namespace RoutineBody

variable {forest : Forest} {settings : Settings} {body : List Target.Stmt}

/-- The locals of a routine: the one that holds its result, then those of its statements. -/
def locals (r : RoutineBody forest settings body) : List Local :=
  r.env.resultLocal r.node r.name r.returnType ++ forest.gather r.env.localsAt r.node

/-- The locals of a routine with their names. -/
def settled (r : RoutineBody forest settings body) : List (Local × String) :=
  settle (r.env.namesUnder r.node) r.locals

theorem localsAt_node (r : RoutineBody forest settings body) (hf : forest.Shaped) :
    r.env.localsAt r.node = [] := by
  obtain ⟨_, _, d, hd⟩ := r.holds.list hf
  have hstmt : r.env.forest.stmt? r.node = none := by
    have hpayload : r.env.forest.payload? r.node = some (.decl d) := Forest.payload?_of_decl? hd
    simp only [Forest.stmt?, hpayload]
  simp only [Env.localsAt, hstmt]

/-- The body declares the locals of the routine in order, and the names that lowering it puts in use
are those of the made-up ones. -/
theorem locals_spec (r : RoutineBody forest settings body) (hf : forest.Shaped) :
    declaredAll body = r.settled.map Prod.snd ∧ r.env.madeUp r.node r.name r.returnType
      r.statements = ((madeNames r.settled).map String.toLower).reverse := by
  obtain ⟨out, state, hout, hbody⟩ := lowerRoutine_ok r.lowered
  have hall := declares_withShadow ((lowersAll_of_lowerBody hout).declares hf)
  rw [← hbody] at hall
  rw [settled, locals, r.gather_node hf (sparse_localsAt r.env hf) (r.localsAt_node hf)]
  exact ⟨hall.names, madeUp_eq hout hall.taken⟩

end RoutineBody

/-- Every body of a lowered program declares the locals of its routine in order. Those that lowering
makes up have distinct names, none of which is a name of the routine's source, in whatever case. -/
theorem made_names_distinct {tree : Tree} (hfinished : tree.Finished) {settings : Settings}
    {program : Target.Program} (h : lowerFile tree settings = .ok program)
    {body : List Target.Stmt} (hb : program.HasBody body) :
    HasOrigin tree.toForest settings body ∧
      ∀ r : RoutineBody tree.toForest settings body,
        declaredAll body = r.settled.map Prod.snd ∧
        (∀ n, r.Synthesizes n ↔ n.toLower ∈ (madeNames r.settled).map String.toLower) ∧
        ((madeNames r.settled).map String.toLower).Nodup ∧
        ∀ made ∈ madeNames r.settled, ∀ d ∈ tree.descendants r.node, ∀ text suffix escaped,
          tree.name? d = some (.simple text suffix escaped) → made.toLower ≠ text.toLower := by
  refine ⟨body_origin h hb, fun r => ?_⟩
  obtain ⟨hdeclared, hmade⟩ := r.locals_spec hfinished.built.shaped
  refine ⟨hdeclared, fun n => ?_, nodup_made r.locals, ?_⟩
  · rw [RoutineBody.Synthesizes, hmade, List.mem_reverse]
  · intro made hmem d hd text suffix escaped hname hsame
    have hnot : made.toLower ∉ r.env.namesUnder r.node := made_not_taken made hmem
    rw [hsame] at hnot
    exact hnot (mem_namesUnder hd hname)

/-- Two loops that test after their bodies, the first of them testing a variable `Latch`. -/
def latchesFile : List Call :=
  let span := Span.startingAt ⟨1, 1⟩
  [.alloc .simpleName span (.name (.simple "Main" none false)),
    .alloc .simpleName span (.name (.simple "Latch" none false)),
    .alloc .simpleNameExpression span (.expr (.simpleName 1)),
    .alloc .loopStatement span (.stmt (.loopEnd (some ⟨true, 2⟩))),
    .alloc .doBlockStatement span (.stmt (.doBlock none none (some 3))),
    .alloc .booleanLiteralExpression span (.expr (.literal (.boolean true))),
    .alloc .loopStatement span (.stmt (.loopEnd (some ⟨true, 5⟩))),
    .alloc .doBlockStatement span (.stmt (.doBlock none none (some 6))),
    .collection .statementCollection span [some 4, some 7] [],
    .alloc .subDeclaration span
      (.decl (.method ⟨none, none⟩ (.ofName 0) none none (some 8) none)),
    .collection .declarationCollection span [some 9] [],
    .alloc .file span (.file ⟨some 10⟩)]

theorem latches_accepted : (Forest.empty.after latchesFile).size = latchesFile.length := by
  decide +kernel

theorem latchesTree_settled : Tree.ofCalls latchesFile 11 =
    { Forest.settled latchesFile latches_accepted with root := 11 } :=
  Tree.ofCalls_eq_settled 11 latches_accepted

def latchesEnv : Env :=
  .atTop (Tree.ofCalls latchesFile 11).toForest .standard Settings.standard.options

def latchesMethod : Target.Method where
  name := "Main"
  kind := .normal
  visibility := .publicAccess
  isStatic := true
  typeParameters := []
  parameters := []
  returnType := .void
  body := [postTestLoop "latch1" (.ident "Latch") [], postTestLoop "latch2" (.bool true) []]
  entry := none
  comments := []

def latchesRoutine :
    RoutineBody (Tree.ofCalls latchesFile 11).toForest .standard latchesMethod.body where
  options := Settings.standard.options
  node := 9
  name := "Main"
  returnType := .void
  statements := some 8
  holds := .method (by rw [latchesTree_settled]; rfl)
  lowered := by
    have hnames : latchesEnv.routineShadow 9 "Main" .void = (none, ["main", "latch"]) := by
      decide +kernel
    rw [← latchesEnv, lowerRoutine_of_shadow hnames, latchesEnv, latchesTree_settled]
    with_unfolding_all rfl

theorem latchesMethod_lowers : latchesEnv.lowerMethod 9 ⟨none, none⟩ (.ofName 0) (some 8)
    Settings.standard.className true = .ok latchesMethod := by
  have hname : latchesEnv.nameText 0 = .ok "Main" := by
    rw [latchesEnv, latchesTree_settled]
    with_unfolding_all rfl
  have hform : latchesEnv.methodForm 9 "Main" Settings.standard.className (.ofName 0) =
      .ok (.normal, "Main", .void) := by
    rw [latchesEnv, latchesTree_settled]
    with_unfolding_all rfl
  have hbody : latchesEnv.lowerRoutine 9 "Main" .void (some 8) = .ok latchesMethod.body :=
    latchesRoutine.lowered
  unfold Env.lowerMethod
  simp only [Signature.ofName] at hform ⊢
  simp only [hname, hform, hbody, bind, Except.bind, Env.lowerParameters, Env.typeParameters]
  rw [latchesEnv, latchesTree_settled]
  with_unfolding_all rfl

theorem latches_distinct : (Tree.ofCalls latchesFile 11).Finished ∧
    madeNames latchesRoutine.settled = ["latch1", "latch2"] ∧
    declaredAll latchesMethod.body = latchesRoutine.settled.map Prod.snd ∧
    ((madeNames latchesRoutine.settled).map String.toLower).Nodup ∧
    ∀ made ∈ madeNames latchesRoutine.settled, made.toLower ≠ "Latch".toLower := by
  have hfinished : (Tree.ofCalls latchesFile 11).Finished :=
    Tree.finished_of_last latches_accepted rfl
  have hlowers : lowerFile (.ofCalls latchesFile 11) .standard = .ok {
      nameSpace := none
      imports := []
      options := Settings.standard.options
      type := wrapper .standard [.method latchesMethod] } := by
    have hroot : (Tree.ofCalls latchesFile 11).payload? 11 = some (.file ⟨some 10⟩) := by
      rw [latchesTree_settled]
      rfl
    have helements : (Tree.ofCalls latchesFile 11).elements (some 10) = [9] := by
      rw [latchesTree_settled]
      rfl
    have hdecl : (Tree.ofCalls latchesFile 11).decl? 9 =
        some (.method ⟨none, none⟩ (.ofName 0) none none (some 8) none) := by
      rw [latchesTree_settled]
      rfl
    exact lowerFile_of_method (by decide +kernel) hroot helements hdecl (by decide +kernel)
      latchesMethod_lowers
  have hmade : madeNames latchesRoutine.settled = ["latch1", "latch2"] := by
    have hnames : latchesRoutine.env.namesUnder latchesRoutine.node = ["main", "latch"] := by
      decide +kernel
    have hlocals : latchesRoutine.locals = latchesEnv.resultLocal 9 "Main" .void ++
        (Tree.ofCalls latchesFile 11).gather latchesEnv.localsAt 9 := rfl
    rw [RoutineBody.settled, hnames, hlocals, latchesEnv, latchesTree_settled]
    with_unfolding_all rfl
  have hall := (made_names_distinct hfinished hlowers
    (.nested List.mem_cons_self (.method latchesMethod))).2 latchesRoutine
  have hlatch : 1 ∈ (Tree.ofCalls latchesFile 11).descendants latchesRoutine.node := by
    decide +kernel
  have hname : (Tree.ofCalls latchesFile 11).name? 1 = some (.simple "Latch" none false) := by
    rw [latchesTree_settled]
    rfl
  exact ⟨hfinished, hmade, hall.1, hall.2.2.1, fun made hmem =>
    hall.2.2.2 made hmem 1 hlatch "Latch" none false hname⟩

end StructuredBasic.Lowering
