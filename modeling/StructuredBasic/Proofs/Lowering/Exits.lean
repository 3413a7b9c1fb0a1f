import StructuredBasic.Proofs.Forest.Accepted
import StructuredBasic.Proofs.Lowering.ReturnPoints
import StructuredBasic.Proofs.Machine.Breaks

/-!
# Loops and the ways out of them

Lowered code is compared with its source through `Traced` code, in which every iteration and every
break carries the statement that it comes from. A body has a traced form whose loops and breaks
are those of the source in order, and in it every break stands inside the iteration of the loop
that is nearest around its `Exit`, a loop of the keyword that the `Exit` names
(`exits_leave_nearest_loop`). So no run of the body ends with a stray break.
-/

set_option autoImplicit false

namespace StructuredBasic.Lowering

open Syntax Machine

/-! ## Traced code -/

/-- Statements that hold no others and are no breaks. -/
abbrev Straight := { stmt : Target.Stmt // isBlock stmt = false ∧ breaksOut stmt = false }

/-- Code in which loops and breaks carry the statement of the source they come from. -/
inductive Traced where
  | straight (stmt : Straight)
  | leave (source : Nat)
  | branch (condition : Target.Expr) (thenBody elseBody : List Traced)
  | loop (source : Nat) (init : Option Straight) (test : Target.Expr) (increment : Option Straight)
      (body : List Traced)

/-- A loop of the source, or an `Exit` of a loop. -/
inductive LoopMark where
  | loop (id : Nat)
  | leave (id : Nat)
deriving DecidableEq

namespace Traced

mutual

/-- The code without its traces. -/
def code : Traced → Target.Stmt
  | .straight stmt => stmt.1
  | .leave _ => .breaks
  | .branch condition thenBody elseBody =>
    .conditional condition (codeAll thenBody) (codeAll elseBody)
  | .loop _ init test increment body =>
    .iteration (init.map Subtype.val) test (increment.map Subtype.val) (codeAll body)

def codeAll : List Traced → List Target.Stmt
  | [] => []
  | traced :: rest => code traced :: codeAll rest

end

mutual

/-- The sources of loops and breaks in the order of the text. -/
def marks : Traced → List LoopMark
  | .straight _ => []
  | .leave source => [.leave source]
  | .branch _ thenBody elseBody => marksAll thenBody ++ marksAll elseBody
  | .loop source _ _ _ body => .loop source :: marksAll body

def marksAll : List Traced → List LoopMark
  | [] => []
  | traced :: rest => marks traced ++ marksAll rest

end

end Traced

/-- The keyword by which an `Exit` names each of the four forms of a loop. -/
def loopKeyword? : Stmt → Option Block
  | .doBlock .. => some .doLoop
  | .whileBlock .. => some .whileLoop
  | .forBlock .. | .forEachBlock .. => some .forLoop
  | _ => none

/-- The keyword of the loop that a node is. -/
def keywordAt? (f : Forest) (id : Nat) : Option Block := (f.stmt? id).bind loopKeyword?

/-- The nearest loop around a node. -/
def loopAbove? (f : Forest) (id : Nat) : Option Nat :=
  (f.ancestors id).find? fun ancestor => (keywordAt? f ancestor).isSome

mutual

/-- Inside the iteration of the loop `outer`, or inside none, a loop of the source stands where its
nearest loop is `outer`. A break stands where `outer` is the nearest loop of its `Exit` and has the
keyword that the `Exit` names. -/
def Placed (f : Forest) (outer : Option Nat) : Traced → Prop
  | .straight _ => True
  | .leave id => ∃ loop block, outer = some loop ∧ loopAbove? f id = some loop ∧
      f.stmt? id = some (.exit block) ∧ keywordAt? f loop = some block
  | .branch _ thenBody elseBody => PlacedAll f outer thenBody ∧ PlacedAll f outer elseBody
  | .loop id _ _ _ body => loopAbove? f id = outer ∧ (keywordAt? f id).isSome = true ∧
      PlacedAll f (some id) body

def PlacedAll (f : Forest) (outer : Option Nat) : List Traced → Prop
  | [] => True
  | traced :: rest => Placed f outer traced ∧ PlacedAll f outer rest

end

/-- The code has a traced form with these loops and breaks, each in its place inside `outer`. -/
def Traces (f : Forest) (outer : Option Nat) (out : List Target.Stmt) (marks : List LoopMark) :
    Prop :=
  ∃ traced, Traced.codeAll traced = out ∧ Traced.marksAll traced = marks ∧
    PlacedAll f outer traced

section Traces

variable {f : Forest} {outer : Option Nat} {a b : List Target.Stmt} {m n : List LoopMark}

theorem codeAll_append (a b : List Traced) :
    Traced.codeAll (a ++ b) = Traced.codeAll a ++ Traced.codeAll b := by
  induction a with
  | nil => rfl
  | cons traced a ih => rw [List.cons_append, Traced.codeAll, Traced.codeAll, ih, List.cons_append]

theorem traced_marksAll_append (a b : List Traced) :
    Traced.marksAll (a ++ b) = Traced.marksAll a ++ Traced.marksAll b := by
  induction a with
  | nil => rfl
  | cons traced a ih =>
    rw [List.cons_append, Traced.marksAll, Traced.marksAll, ih, List.append_assoc]

theorem placedAll_append {a b : List Traced} (ha : PlacedAll f outer a)
    (hb : PlacedAll f outer b) : PlacedAll f outer (a ++ b) := by
  induction a with
  | nil => exact hb
  | cons traced a ih => exact ⟨ha.1, ih ha.2⟩

theorem traces_nil : Traces f outer [] [] := ⟨[], rfl, rfl, trivial⟩

theorem Traces.append (ha : Traces f outer a m) (hb : Traces f outer b n) :
    Traces f outer (a ++ b) (m ++ n) := by
  obtain ⟨x, rfl, rfl, hx⟩ := ha
  obtain ⟨y, rfl, rfl, hy⟩ := hb
  exact ⟨x ++ y, codeAll_append x y, traced_marksAll_append x y, placedAll_append hx hy⟩

theorem traces_straight
    (h : ∀ stmt ∈ a, isBlock stmt = false ∧ breaksOut stmt = false) : Traces f outer a [] := by
  induction a with
  | nil => exact traces_nil
  | cons stmt a ih =>
    obtain ⟨hstmt, hrest⟩ := List.forall_mem_cons.1 h
    have hfirst : Traces f outer [stmt] [] :=
      ⟨[.straight ⟨stmt, hstmt⟩], rfl, rfl, trivial, trivial⟩
    exact hfirst.append (ih hrest)

theorem straight_of_isPlain (h : ∀ stmt ∈ a, stmt.isPlain = true) :
    ∀ stmt ∈ a, isBlock stmt = false ∧ breaksOut stmt = false := by
  intro stmt hs
  have hplain := h stmt hs
  cases stmt <;> first
    | exact ⟨rfl, rfl⟩
    | cases hplain

theorem traces_comments (texts : List String) :
    Traces f outer (texts.map Target.Stmt.comment) [] :=
  traces_straight (List.forall_mem_map.2 fun _ _ => ⟨rfl, rfl⟩)

theorem traces_branch {condition : Target.Expr} (ha : Traces f outer a m)
    (hb : Traces f outer b n) : Traces f outer [.conditional condition a b] (m ++ n) := by
  obtain ⟨x, rfl, rfl, hx⟩ := ha
  obtain ⟨y, rfl, rfl, hy⟩ := hb
  refine ⟨[.branch condition x y], rfl, ?_, ⟨hx, hy⟩, trivial⟩
  rw [Traced.marksAll, Traced.marksAll, List.append_nil, Traced.marks]

/-- A loop around traced code is traced code. -/
theorem traces_loop {id : Nat} (init increment : Option Straight) (test : Target.Expr)
    (hid : loopAbove? f id = outer) (hk : (keywordAt? f id).isSome = true)
    (ha : Traces f (some id) a m) :
    Traces f outer [.iteration (init.map Subtype.val) test (increment.map Subtype.val) a]
      (.loop id :: m) := by
  obtain ⟨x, rfl, rfl, hx⟩ := ha
  refine ⟨[.loop id init test increment x], rfl, ?_, ⟨hid, hk, hx⟩, trivial⟩
  rw [Traced.marksAll, Traced.marksAll, List.append_nil, Traced.marks]

end Traces

mutual

theorem breaksOut_of_placed {f : Forest} (traced : Traced) (h : Placed f none traced) :
    breaksOut traced.code = false := by
  match traced with
  | .straight stmt => exact stmt.2.2
  | .leave _ =>
    obtain ⟨_, _, hnone, _⟩ := h
    cases hnone
  | .branch _ thenBody elseBody =>
    have hthen := breaksOutAll_of_placed thenBody h.1
    have helse := breaksOutAll_of_placed elseBody h.2
    rw [Traced.code, breaksOut, hthen, helse]
    rfl
  | .loop .. => rfl

/-- Traced code in its place outside all loops holds no break outside a loop. -/
theorem breaksOutAll_of_placed {f : Forest} (traced : List Traced) (h : PlacedAll f none traced) :
    breaksOutAll (Traced.codeAll traced) = false := by
  match traced with
  | [] => rfl
  | first :: rest =>
    have hfirst := breaksOut_of_placed first h.1
    have hrest := breaksOutAll_of_placed rest h.2
    rw [Traced.codeAll, breaksOutAll, hfirst, hrest]
    rfl

end

/-! ## Loops of the source -/

def isLoop (stmt : Stmt) : Bool := (loopKeyword? stmt).isSome

/-- Statements that may bring a mark. -/
def marksLoops : Stmt → Bool
  | .exit _ => true
  | stmt => isLoop stmt

/-- The loop or the `Exit` of a loop that a statement itself is. -/
def loopMarksAt (f : Forest) (id : Nat) : List LoopMark :=
  match f.stmt? id with
  | some (.exit block) => if isLoopBlock block then [.leave id] else []
  | some stmt => if isLoop stmt then [.loop id] else []
  | none => []

section Source

variable {f : Forest} {id : Nat} {stmt : Stmt}

theorem loopMarksAt_of_isLoop (h : f.stmt? id = some stmt) (hs : isLoop stmt = true) :
    loopMarksAt f id = [.loop id] := by
  unfold loopMarksAt
  rw [h]
  cases stmt <;> first
    | rfl
    | cases hs

theorem loopMarksAt_eq_nil (h : f.stmt? id = some stmt) (hs : marksLoops stmt = false) :
    loopMarksAt f id = [] := by
  unfold loopMarksAt
  rw [h]
  cases stmt <;> first
    | rfl
    | cases hs

theorem sparse_loopMarksAt (hf : f.Shaped) : f.Sparse (loopMarksAt f) := by
  refine hf.sparse_of_stmt fun id hne => ?_
  unfold loopMarksAt at hne
  split at hne
  · next block hstmt => exact ⟨_, hstmt, rfl⟩
  · next stmt _ hstmt =>
    refine ⟨stmt, hstmt, ?_⟩
    cases stmt <;> first
      | rfl
      | exact absurd rfl hne
  · exact absurd rfl hne

theorem loop_of_stmt (h : f.stmt? id = some stmt) : (keywordAt? f id).isSome = isLoop stmt := by
  rw [keywordAt?, h, Option.bind_some, isLoop]

/-- The lowering tells loops and their keywords by the kinds of their nodes. -/
theorem loopBlock_eq (hf : f.Shaped) (id : Nat) :
    Env.loopBlock? (f.kind id) = keywordAt? f id := by
  unfold keywordAt?
  cases h : f.stmt? id with
  | some stmt =>
    have hall : stmt.kinds.all (fun k => Env.loopBlock? k == loopKeyword? stmt) = true := by
      cases stmt <;> rfl
    simpa using Stmt.of_kinds (hf.describes_stmt h) hall
  | none =>
    -- a node of the kind of a loop would be a statement
    cases hk : Env.loopBlock? (f.kind id) with
    | none => rfl
    | some block =>
      have hloop : (f.kind id).family = .statement ∧ (f.kind id).isInert = false := by
        revert hk
        cases f.kind id <;> first
          | (intro _; exact ⟨rfl, rfl⟩)
          | (intro hk; cases hk)
      rcases hf.stmt_or_inert (Or.inl hloop.1) with ⟨stmt, hstmt⟩ | hinert
      · cases h.symm.trans hstmt
      · cases hloop.2.symm.trans hinert

theorem loopAbove_of_child (hl : f.Linked) {p c : Nat} (hc : c ∈ f.children p) :
    loopAbove? f c =
      if (keywordAt? f p).isSome then some p else loopAbove? f p := by
  rw [loopAbove?, hl.ancestors_of_child hc, List.find?_cons]
  cases (keywordAt? f p).isSome <;> rfl

theorem not_loop_of_list (hf : f.Shaped) {c : Nat}
    (h : (Expect.kind .statementCollection).admits (f.kind c) = true) :
    (keywordAt? f c).isSome = false := by
  rw [← loopBlock_eq hf]
  simp only [Expect.admits, Kind.isBad, Bool.or_eq_true, beq_iff_eq] at h
  rcases h with hk | hk
  · rw [hk]; rfl
  · rw [← hk]; rfl

/-- The nearest loop of the statements of a list. -/
theorem loopAbove_of_list (hl : f.Linked) (hf : f.Shaped) {list : Option Nat}
    (h : f.stmt? id = some stmt) (hlist : list ∈ stmt.lists) {x : Nat} (hx : x ∈ f.elements list) :
    loopAbove? f x = if isLoop stmt then some id else loopAbove? f id := by
  cases list with
  | none => cases hx
  | some c =>
    rw [loopAbove_of_child hl (Forest.mem_children_of_elements hx),
      not_loop_of_list hf (hf.admits_of_list h hlist),
      loopAbove_of_child hl (Forest.mem_children_of_list h hlist), loop_of_stmt h]
    rfl

/-- Lists of a statement that is no loop have the nearest loop of the statement. -/
theorem loopAbove_in_list (hl : f.Linked) (hf : f.Shaped) {list : Option Nat}
    (h : f.stmt? id = some stmt) (hs : isLoop stmt = false) (hlist : list ∈ stmt.lists) :
    ∀ x ∈ f.elements list, loopAbove? f x = loopAbove? f id := by
  intro x hx
  rw [loopAbove_of_list hl hf h hlist hx, hs]
  rfl

theorem loopAbove_of_last (hl : f.Linked) (h : f.stmt? id = some stmt)
    (hs : isLoop stmt = false) {x : Nat} (hx : stmt.last? = some x) :
    loopAbove? f x = loopAbove? f id := by
  rw [loopAbove_of_child hl (Forest.mem_children_of_last h hx), loop_of_stmt h, hs]
  rfl

theorem findSome_eq {α β : Type} (g : α → Option β) (l : List α) :
    l.findSome? g = (l.find? fun x => (g x).isSome).bind g := by
  induction l with
  | nil => rfl
  | cons x l ih =>
    rw [List.findSome?_cons, List.find?_cons, ih]
    cases hx : g x with
    | none => rfl
    | some b => exact hx.symm

/-- The keyword of the nearest loop is that of the loop which the walk upwards meets first. -/
theorem enclosingLoop_eq {env : Env} (hf : env.forest.Shaped) (id : Nat) :
    env.enclosingLoop? id = (loopAbove? env.forest id).bind (keywordAt? env.forest) := by
  unfold Env.enclosingLoop?
  simp only [loopBlock_eq hf]
  exact findSome_eq _ _

end Source

/-! ## Lowered statements -/

section Plain

variable {routine : Routine} {env : Env} {id : Nat} {s t : BodyState} {out : List Target.Stmt}

theorem traces_exit (hf : env.forest.Shaped) {block : Block} {stmt : Target.Stmt}
    (h : env.forest.stmt? id = some (.exit block))
    (hs : env.lowerExit routine id block = .ok stmt) :
    Traces env.forest (loopAbove? env.forest id) [stmt] (loopMarksAt env.forest id) := by
  have hmarks : loopMarksAt env.forest id = if isLoopBlock block then [.leave id] else [] := by
    unfold loopMarksAt
    rw [h]
  rw [hmarks]
  cases hblock : isLoopBlock block with
  | false =>
    refine traces_straight (straight_of_isPlain ?_)
    exact List.forall_mem_singleton.2 (isPlain_lowerExit hblock hs)
  | true =>
    obtain ⟨rfl, hloop⟩ := lowerExit_loop hblock hs
    rw [enclosingLoop_eq hf] at hloop
    obtain ⟨loop, habove, hkeyword⟩ := Option.bind_eq_some_iff.1 hloop
    exact ⟨[.leave id], rfl, rfl, ⟨loop, block, habove, habove, h, hkeyword⟩, trivial⟩

theorem LowersPlain.traces (h : LowersPlain routine env id s out t) (hf : env.forest.Shaped) :
    Traces env.forest (loopAbove? env.forest id) out (loopMarksAt env.forest id) := by
  have other : ∀ {stmt : Stmt} {out : List Target.Stmt}, env.forest.stmt? id = some stmt →
      marksLoops stmt = false →
      (∀ stmt ∈ out, isBlock stmt = false ∧ breaksOut stmt = false) →
      Traces env.forest (loopAbove? env.forest id) out (loopMarksAt env.forest id) := by
    intro stmt out hstmt hs hout
    rw [loopMarksAt_eq_nil hstmt hs]
    exact traces_straight hout
  have single : ∀ {stmt : Target.Stmt}, isBlock stmt = false → breaksOut stmt = false →
      ∀ x ∈ [stmt], isBlock x = false ∧ breaksOut x = false :=
    fun h1 h2 => List.forall_mem_singleton.2 ⟨h1, h2⟩
  cases h with
  | empty h => exact other h rfl fun _ h => nomatch h
  | stop h => exact other h rfl (single rfl rfl)
  | halt h => exact other h rfl (single rfl rfl)
  | endBlock h => exact other h rfl fun _ h => nomatch h
  | label h => exact other h rfl (single rfl rfl)
  | goto h => exact other h rfl (single rfl rfl)
  | goSub h => exact other h rfl (by simp [isBlock, breaksOut])
  | exit h hs => exact traces_exit hf h hs
  | returns h hs =>
    refine other h rfl ?_
    rcases lowerReturn_ok hs with ⟨label, rfl⟩ | ⟨value, rfl⟩ <;> exact single rfl rfl
  | raiseEvent h => exact other h rfl (single rfl rfl)
  | reDim h hs => exact other h rfl (straight_of_isPlain (isPlain_lowerReDim hs))
  | erase h => exact other h rfl (List.forall_mem_map.2 fun _ _ => ⟨rfl, rfl⟩)
  | call h => exact other h rfl (single rfl rfl)
  | assignment h => exact other h rfl (single rfl rfl)
  | compound h hs =>
    obtain ⟨place, _, value, _, _, _, rfl⟩ := lowerCompound_ok hs
    exact other h rfl (single rfl rfl)
  | mid h hs =>
    obtain ⟨_, _, _, _, _, _, _, _, rfl⟩ := lowerMid_ok hs
    exact other h rfl (single rfl rfl)
  | locals h hs => exact other h rfl (straight_of_isPlain (isPlain_lowerLocals hs))

end Plain

/-- The marks of a loop: the loop itself, then those of its statements. -/
theorem HasList.gather_loop {f : Forest} {id : Nat} {statements : Option Nat}
    (h : HasList f id statements) (hf : f.Shaped)
    (hk : (keywordAt? f id).isSome = true) :
    f.gather (loopMarksAt f) id =
      .loop id :: (f.elements statements).flatMap (f.gather (loopMarksAt f)) := by
  have hgather := h.gather hf (sparse_loopMarksAt hf)
  obtain ⟨stmt, hstmt, _⟩ := h
  rw [loop_of_stmt hstmt] at hk
  rw [hgather, loopMarksAt_of_isLoop hstmt hk, List.singleton_append]

theorem HasList.loopAbove {f : Forest} {id : Nat} {statements : Option Nat}
    (h : HasList f id statements) (hl : f.Linked) (hf : f.Shaped) :
    ∀ x ∈ f.elements statements, loopAbove? f x =
      if (keywordAt? f id).isSome then some id else loopAbove? f id := by
  obtain ⟨stmt, hstmt, _, hlists, _⟩ := h
  intro x hx
  rw [loopAbove_of_list hl hf hstmt (by simp [hlists]) hx, loop_of_stmt hstmt]

section Heads

variable {env : Env} {id : Nat} {statements : Option Nat}

theorem LoopHead.isLoop {test : Target.Expr} (h : LoopHead env id test statements) :
    (keywordAt? env.forest id).isSome = true := by
  cases h with
  | doBlock h => exact loop_of_stmt h
  | endless h => exact loop_of_stmt h
  | whileBlock h => exact loop_of_stmt h

theorem CountedHead.isLoop {declared : List Target.Stmt}
    {control lower upper step : Target.Expr}
    (h : CountedHead env id declared control lower upper step statements) :
    (keywordAt? env.forest id).isSome = true := by
  cases h with
  | forBlock h => exact loop_of_stmt h

theorem ElementHead.isLoop {declared : List Target.Stmt}
    {control collection : Target.Expr} {type : Target.Ty}
    (h : ElementHead env id declared control collection type statements) :
    (keywordAt? env.forest id).isSome = true := by
  cases h with
  | forEachBlock h => exact loop_of_stmt h

theorem Arm.not_loop {value : Option Target.Expr} {test : Target.Expr}
    (h : Arm env id value test statements) :
    (keywordAt? env.forest id).isSome = false := by
  cases h with
  | elseIf h => exact loop_of_stmt h
  | case h => exact loop_of_stmt h

theorem Arm.gather_eq (hf : env.forest.Shaped) {value : Option Target.Expr} {test : Target.Expr}
    (h : Arm env id value test statements) :
    env.forest.gather (loopMarksAt env.forest) id =
      (env.forest.elements statements).flatMap
        (env.forest.gather (loopMarksAt env.forest)) := by
  have hnil : loopMarksAt env.forest id = [] := by
    cases h with
    | elseIf h => exact loopMarksAt_eq_nil h rfl
    | case h => exact loopMarksAt_eq_nil h rfl
  rw [h.hasList.gather hf (sparse_loopMarksAt hf), hnil, List.nil_append]

end Heads

/-! ## Loops around traced code -/

section Loops

variable {f : Forest} {outer : Option Nat} {id : Nat} {body declared : List Target.Stmt}
  {m : List LoopMark} (hid : loopAbove? f id = outer)
  (hk : (keywordAt? f id).isSome = true) (hbody : Traces f (some id) body m)
include hid hk hbody

theorem traces_preTestLoop (test : Target.Expr) :
    Traces f outer [preTestLoop test body] (.loop id :: m) :=
  traces_loop none none test hid hk hbody

theorem traces_postTestLoop (latch : String) (test : Target.Expr) :
    Traces f outer [postTestLoop latch test body] (.loop id :: m) := by
  have hset : Traces f (some id) [.assign (.ident latch) test] [] :=
    traces_straight (List.forall_mem_singleton.2 ⟨rfl, rfl⟩)
  have hall := hbody.append hset
  rw [List.append_nil] at hall
  exact traces_loop (some ⟨.declare latch (.primitive .bool) (some (.bool true)), rfl, rfl⟩) none
    (.ident latch) hid hk hall

theorem traces_countedLoop (hd : ∀ stmt ∈ declared, stmt.isPlain = true)
    (control lower upper step : Target.Expr) :
    Traces f outer (declared ++ [countedLoop control lower upper step body]) (.loop id :: m) := by
  have hloop := traces_loop (some ⟨.assign control lower, rfl, rfl⟩)
    (some ⟨.assign control (.binary .add control step), rfl, rfl⟩)
    (.binary .lessEqual control upper) hid hk hbody
  exact (traces_straight (straight_of_isPlain hd)).append hloop

theorem traces_elementLoop (hd : ∀ stmt ∈ declared, stmt.isPlain = true) (enumerator : String)
    (control collection : Target.Expr) (type : Target.Ty) :
    Traces f outer (declared ++ [elementLoop enumerator control collection type body])
      (.loop id :: m) := by
  have hset : Traces f (some id)
      [.assign control (.cast .convert type (.field (.ident enumerator) "Current"))] [] :=
    traces_straight (List.forall_mem_singleton.2 ⟨rfl, rfl⟩)
  have hloop := traces_loop (some ⟨.declare enumerator (.named "System.Collections.IEnumerator")
      (some (.invoke (some collection) "GetEnumerator" [])), rfl, rfl⟩) none
    (.invoke (some (.ident enumerator)) "MoveNext" []) hid hk (hset.append hbody)
  exact (traces_straight (straight_of_isPlain hd)).append hloop

end Loops

mutual

theorem Lowers.traces {routine : Routine} {env : Env} {id : Nat} {s t : BodyState}
    {out : List Target.Stmt} (h : Lowers routine env id s out t) (hl : env.forest.Linked)
    (hf : env.forest.Shaped) : Traces env.forest (loopAbove? env.forest id) out
      (env.forest.gather (loopMarksAt env.forest) id) := by
  have hgather : ∀ {stmt : Stmt}, env.forest.stmt? id = some stmt → marksLoops stmt = false →
      env.forest.gather (loopMarksAt env.forest) id =
        (stmt.lists.flatMap env.forest.elements).flatMap
          (env.forest.gather (loopMarksAt env.forest)) ++
        stmt.last?.toList.flatMap (env.forest.gather (loopMarksAt env.forest)) := by
    intro stmt hstmt hs
    rw [hf.gather_stmt (sparse_loopMarksAt hf) hstmt, loopMarksAt_eq_nil hstmt hs,
      List.nil_append]
  -- A loop is the nearest loop of its own statements. Any other block hands on the one it has.
  match h with
  | .plain h =>
    obtain ⟨stmt, hstmt, _, hlists, hlast⟩ := h.stmt
    rw [hf.gather_stmt (sparse_loopMarksAt hf) hstmt, hlists, hlast]
    simpa using h.traces hf
  | .preTest h hb =>
    have hk := h.isLoop
    have hbody := hb.traces hl hf (h.hasList.loopAbove hl hf)
    rw [hk] at hbody
    rw [h.hasList.gather_loop hf hk]
    exact traces_preTestLoop rfl hk hbody _
  | .postTest h _ hb _ =>
    have hlist : HasList env.forest id _ := ⟨_, h, rfl, rfl, rfl⟩
    have hk : (keywordAt? env.forest id).isSome = true := loop_of_stmt h
    have hbody := hb.traces hl hf (hlist.loopAbove hl hf)
    rw [hk] at hbody
    rw [hlist.gather_loop hf hk]
    exact traces_postTestLoop rfl hk hbody _ _
  | .counted h hb =>
    have hk := h.isLoop
    have hbody := hb.traces hl hf (h.hasList.loopAbove hl hf)
    rw [hk] at hbody
    rw [h.hasList.gather_loop hf hk]
    exact traces_countedLoop rfl hk hbody h.isPlain _ _ _ _
  | .element h hb =>
    have hk := h.isLoop
    have hbody := hb.traces hl hf (h.hasList.loopAbove hl hf)
    rw [hk] at hbody
    rw [h.hasList.gather_loop hf hk]
    exact traces_elementLoop rfl hk hbody h.isPlain _ _ _ _
  | .within h _ _ hb =>
    have hbody : Traces env.forest (loopAbove? env.forest id) out
        ((env.forest.elements _).flatMap (env.forest.gather (loopMarksAt env.forest))) :=
      hb.traces hl hf (loopAbove_in_list hl hf h rfl (by simp [Stmt.lists]))
    rw [hgather h rfl]
    simpa [Stmt.lists, Stmt.last?] using hbody
  | .ifBlock h _ hthen helseIfs helse =>
    have hbody := hthen.traces hl hf (loopAbove_in_list hl hf h rfl (by simp [Stmt.lists]))
    have hlast := helse.traces hl hf fun x hx => loopAbove_of_last hl h rfl hx
    have hchain := helseIfs.traces hl hf
      (loopAbove_in_list hl hf h rfl (by simp [Stmt.lists])) hlast
    rw [hgather h rfl]
    simpa [Stmt.lists, Stmt.last?] using traces_branch hbody hchain
  | .lineIf h _ hthen helse =>
    have hbody := hthen.traces hl hf (loopAbove_in_list hl hf h rfl (by simp [Stmt.lists]))
    have hlast := helse.traces hl hf (loopAbove_in_list hl hf h rfl (by simp [Stmt.lists]))
    rw [hgather h rfl]
    simpa [Stmt.lists, Stmt.last?] using traces_branch hbody hlast
  | .select h hs hcases helse =>
    have hlast := helse.traces hl hf fun x hx => loopAbove_of_last hl h rfl hx
    have hchain := hcases.traces hl hf
      (loopAbove_in_list hl hf h rfl (by simp [Stmt.lists])) hlast
    have hdeclared := straight_of_isPlain (isPlain_lowerSelector hs)
    rw [hgather h rfl]
    simpa [Stmt.lists, Stmt.last?] using (traces_straight hdeclared).append hchain

/-- Lowered statements trace back to the loops and the ways out of loops below them. -/
theorem LowersAll.traces {routine : Routine} {env : Env} {ids : List Nat} {s t : BodyState}
    {out : List Target.Stmt} (h : LowersAll routine env ids s out t) (hl : env.forest.Linked)
    (hf : env.forest.Shaped) {outer : Option Nat}
    (hids : ∀ id ∈ ids, loopAbove? env.forest id = outer) : Traces env.forest outer out
      (ids.flatMap (env.forest.gather (loopMarksAt env.forest))) := by
  match h with
  | .nil => exact traces_nil
  | .cons h hs =>
    have hfirst := h.traces hl hf
    rw [hids _ List.mem_cons_self] at hfirst
    have hrest := hs.traces hl hf fun id hid => hids id (List.mem_cons_of_mem _ hid)
    exact ((traces_comments _).append hfirst).append hrest

/-- The blocks of a chain, in front of a last block that has been traced. -/
theorem LowersBranches.traces {routine : Routine} {env : Env} {ids : List Nat}
    {value : Option Target.Expr} {s t : BodyState} {branches : List Branch}
    (h : LowersBranches routine env value ids s branches t) (hl : env.forest.Linked)
    (hf : env.forest.Shaped) {outer : Option Nat}
    (hids : ∀ id ∈ ids, loopAbove? env.forest id = outer) {last : List Target.Stmt}
    {m : List LoopMark} (hlast : Traces env.forest outer last m) :
    Traces env.forest outer (chain branches last)
      (ids.flatMap (env.forest.gather (loopMarksAt env.forest)) ++ m) := by
  match h with
  | .nil => exact hlast
  | .cons h hb hs =>
    have hk := h.not_loop
    have hbody := hb.traces hl hf (h.hasList.loopAbove hl hf)
    rw [hk, hids _ List.mem_cons_self] at hbody
    have hrest := hs.traces hl hf (fun id hid => hids id (List.mem_cons_of_mem _ hid)) hlast
    rw [List.flatMap_cons, h.gather_eq hf, List.append_assoc]
    exact traces_branch hbody hrest

theorem LowersElse.traces {routine : Routine} {env : Env} {block : Option Nat} {s t : BodyState}
    {out : List Target.Stmt} (h : LowersElse routine env block s out t) (hl : env.forest.Linked)
    (hf : env.forest.Shaped) {outer : Option Nat}
    (hblock : ∀ x, block = some x → loopAbove? env.forest x = outer) :
    Traces env.forest outer out
      (block.toList.flatMap (env.forest.gather (loopMarksAt env.forest))) := by
  match h with
  | .none => exact traces_nil
  | .some h hb =>
    have hbody := hb.traces hl hf (loopAbove_in_list hl hf h rfl (by simp [Stmt.lists]))
    rw [hblock _ rfl] at hbody
    have hgather := hf.gather_stmt (sparse_loopMarksAt hf) h
    rw [loopMarksAt_eq_nil h rfl] at hgather
    simpa [Stmt.lists, Stmt.last?, hgather] using hbody

end

/-! ## Routines -/

/-- No loop stands around a routine: below a loop there are statements only. -/
theorem loopAbove_routine {f : Forest} (hl : f.Linked) (hf : f.Shaped) {node : Nat}
    {statements : Option Nat} (h : HoldsStatements f node statements) :
    loopAbove? f node = none := by
  rw [loopAbove?, List.find?_eq_none]
  intro a ha hloop
  obtain ⟨_, hkeyword⟩ := Option.isSome_iff_exists.1 hloop
  obtain ⟨stmt, hstmt, _⟩ := Option.bind_eq_some_iff.1 hkeyword
  have hinside : IsInside f a := Or.inr (Or.inr ⟨stmt, hstmt⟩)
  exact h.not_below hf hinside (hl.mem_descendants_of_mem_ancestors ha)

theorem traces_withShadow {f : Forest} {out : List Target.Stmt} {m : List LoopMark}
    (h : Traces f none out m) (shadow : Option String) (returnType : Target.Ty) :
    Traces f none (Env.withShadow shadow returnType out) m := by
  cases shadow with
  | none => exact h
  | some name =>
    have hfirst : Traces f none [.declare name returnType (some (zeroValue returnType))] [] :=
      traces_straight (List.forall_mem_singleton.2 ⟨rfl, rfl⟩)
    have hlast : Traces f none [.returns (some (.ident name))] [] :=
      traces_straight (List.forall_mem_singleton.2 ⟨rfl, rfl⟩)
    have hall := (hfirst.append h).append hlast
    rw [List.append_nil, List.nil_append] at hall
    exact hall

namespace RoutineBody

variable {forest : Forest} {settings : Settings} {body : List Target.Stmt}

theorem loopMarksAt_node (r : RoutineBody forest settings body) (hf : forest.Shaped) :
    loopMarksAt forest r.node = [] := by
  obtain ⟨_, _, d, hd⟩ := r.holds.list hf
  have hstmt : forest.stmt? r.node = none := by
    simp only [Forest.stmt?, Forest.payload?_of_decl? hd]
  rw [loopMarksAt, hstmt]

theorem loopAbove (r : RoutineBody forest settings body) (hl : forest.Linked)
    (hf : forest.Shaped) : ∀ x ∈ forest.elements r.statements, loopAbove? forest x = none := by
  intro x hx
  cases hs : r.statements with
  | none => rw [hs] at hx; cases hx
  | some c =>
    rw [hs] at hx
    obtain ⟨hchild, hadmits⟩ := (r.holds.list hf).1 c hs
    have hnode : (keywordAt? forest r.node).isSome = false := by
      have hroutine := isRoutine_of_holds hf r.holds
      rw [← loopBlock_eq hf]
      revert hroutine
      cases forest.kind r.node <;> first
        | (intro _; rfl)
        | (intro h; cases h)
    rw [loopAbove_of_child hl (Forest.mem_children_of_elements hx), not_loop_of_list hf hadmits,
      loopAbove_of_child hl hchild, hnode]
    exact loopAbove_routine hl hf r.holds

/-- The body of a routine traces back to the loops and the ways out of loops of the routine. -/
theorem traces (r : RoutineBody forest settings body) (hl : forest.Linked) (hf : forest.Shaped) :
    Traces forest none body (forest.gather (loopMarksAt forest) r.node) := by
  obtain ⟨out, state, hout, hbody⟩ := lowerRoutine_ok r.lowered
  have htraces : Traces forest none out
      ((forest.elements r.statements).flatMap (forest.gather (loopMarksAt forest))) :=
    (lowersAll_of_lowerBody hout).traces hl hf (r.loopAbove hl hf)
  have hall := traces_withShadow htraces
    (r.env.routineShadow r.node r.name r.returnType).1 r.returnType
  have hsame : body = Env.withShadow (r.env.routineShadow r.node r.name r.returnType).1
    r.returnType out := hbody
  rw [r.gather_node hf (sparse_loopMarksAt hf) (r.loopMarksAt_node hf)]
  rw [← hsame] at hall
  exact hall

end RoutineBody

/-- In every body of a lowered program the breaks stand inside iterations, and each ends the
iteration of the loop that is nearest around its `Exit` and has the keyword that the `Exit` names.
So no run of a body ends with a stray break. -/
theorem exits_leave_nearest_loop {tree : Tree} (hfinished : tree.Finished) {settings : Settings}
    {program : Target.Program} (h : lowerFile tree settings = .ok program)
    {body : List Target.Stmt} (hb : program.HasBody body) :
    HasOrigin tree.toForest settings body ∧
      (∀ r : RoutineBody tree.toForest settings body, Traces tree.toForest none body
        (tree.gather (loopMarksAt tree.toForest) r.node)) ∧
      breaksOutAll body = false ∧
      ∀ limit state, ((runWithin limit body).run state).1 ≠ .error .strayBreak := by
  have hl := hfinished.built.linked
  have hf := hfinished.built.shaped
  have horigin := body_origin h hb
  have hbreaks : breaksOutAll body = false := by
    rcases horigin with rfl | ⟨⟨r⟩⟩
    · rfl
    · obtain ⟨traced, rfl, _, hplaced⟩ := r.traces hl hf
      exact breaksOutAll_of_placed traced hplaced
  exact ⟨horigin, fun r => r.traces hl hf, hbreaks, not_strayBreak hbreaks⟩

/-- A `While` block and an `Exit Do` inside a `Do` block, and an `Exit While` inside the `While`. -/
def exitFile : List Call :=
  let span := Span.startingAt ⟨1, 1⟩
  [.alloc .simpleName span (.name (.simple "Main" none false)),
    .alloc .booleanLiteralExpression span (.expr (.literal (.boolean true))),
    .alloc .exitStatement span (.stmt (.exit .whileLoop)),
    .collection .statementCollection span [some 2] [],
    .alloc .whileBlockStatement span (.stmt (.whileBlock 1 (some 3) none)),
    .alloc .exitStatement span (.stmt (.exit .doLoop)),
    .collection .statementCollection span [some 4, some 5] [],
    .alloc .doBlockStatement span (.stmt (.doBlock none (some 6) none)),
    .collection .statementCollection span [some 7] [],
    .alloc .subDeclaration span
      (.decl (.method ⟨none, none⟩ (.ofName 0) none none (some 8) none)),
    .collection .declarationCollection span [some 9] [],
    .alloc .file span (.file ⟨some 10⟩)]

theorem exit_accepted : (Forest.empty.after exitFile).size = exitFile.length := by
  decide +kernel

def exitMethod : Target.Method where
  name := "Main"
  kind := .normal
  visibility := .publicAccess
  isStatic := true
  typeParameters := []
  parameters := []
  returnType := .void
  body := [endlessLoop [preTestLoop (.bool true) [.breaks], .breaks]]
  entry := none
  comments := []

def exitRoutine : RoutineBody (Tree.ofCalls exitFile 11).toForest .standard exitMethod.body where
  options := Settings.standard.options
  node := 9
  name := "Main"
  returnType := .void
  statements := some 8
  holds := .method rfl
  lowered := by rw [Tree.ofCalls_eq_settled 11 exit_accepted]; with_unfolding_all rfl

theorem exitFile_leaves_loops : (Tree.ofCalls exitFile 11).Finished ∧
    Traces (Tree.ofCalls exitFile 11).toForest none exitMethod.body
      [.loop 7, .loop 4, .leave 2, .leave 5] ∧
    ∀ limit state, ((runWithin limit exitMethod.body).run state).1 ≠ .error .strayBreak := by
  have hfinished : (Tree.ofCalls exitFile 11).Finished := Tree.finished_of_last exit_accepted rfl
  have hlowers : lowerFile (.ofCalls exitFile 11) .standard = .ok {
      nameSpace := none
      imports := []
      options := Settings.standard.options
      type := wrapper .standard [.method exitMethod] } := by
    rw [Tree.ofCalls_eq_settled 11 exit_accepted]
    with_unfolding_all rfl
  have hmarks : (Tree.ofCalls exitFile 11).gather
      (loopMarksAt (Tree.ofCalls exitFile 11).toForest) 9 =
        [.loop 7, .loop 4, .leave 2, .leave 5] := by
    rw [Tree.ofCalls_eq_settled 11 exit_accepted]
    decide +kernel
  have hall := exits_leave_nearest_loop hfinished hlowers
    (.nested List.mem_cons_self (.method exitMethod))
  rw [← hmarks]
  exact ⟨hfinished, hall.2.1 exitRoutine, hall.2.2.2⟩

end StructuredBasic.Lowering
