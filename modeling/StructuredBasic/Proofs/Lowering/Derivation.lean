import StructuredBasic.Lowering.Bodies
import StructuredBasic.Proofs.Forest.Gather

/-!
# Derivations of the lowering

What a successful lowering of statements can be, as relations beside the functions. `Lowers` says
what becomes of one statement, its comments aside; `LowersAll` lowers a list of statements,
`LowersBranches` the `ElseIf` or `Case` blocks of a list and `LowersElse` a last block without a
test. A lowering that succeeds has a derivation (`lowersAll_of_lowerBody`), so a fact about lowered
code is proved by induction on derivations and needs no unfolding of the functions.
-/

set_option autoImplicit false

namespace StructuredBasic.Lowering

open Syntax

/-! ## Successful steps -/

theorem Result.bind_ok {α β : Type} {x : Result α} {g : α → Result β} {b : β} :
    (x >>= g) = .ok b ↔ ∃ a, x = .ok a ∧ g a = .ok b := by
  cases x with
  | error e => simp [bind, Except.bind]
  | ok a => simp [bind, Except.bind]

theorem Result.exists_of_isOk {α : Type} {x : Result α} (h : x.isOk = true) : ∃ a, x = .ok a := by
  cases x with
  | error e => cases h
  | ok a => exact ⟨a, rfl⟩

namespace Lower

variable {α β : Type} {s t : BodyState}

theorem bind_ok {x : Lower α} {g : α → Lower β} {b : β} :
    (x >>= g) s = .ok (b, t) ↔ ∃ a u, x s = .ok (a, u) ∧ g a u = .ok (b, t) := by
  simp only [bind, StateT.bind]
  cases hx : x s with
  | error e => simp [Except.bind]
  | ok p =>
    obtain ⟨a, u⟩ := p
    constructor
    · intro h; exact ⟨a, u, rfl, h⟩
    · rintro ⟨a', u', he, h⟩; cases he; exact h

theorem pure_ok {a b : α} : (pure a : Lower α) s = .ok (b, t) ↔ b = a ∧ t = s := by
  have hrun : (pure a : Lower α) s = .ok (a, s) := rfl
  rw [hrun, Except.ok.injEq, Prod.mk.injEq]
  exact and_congr eq_comm eq_comm

theorem lift_ok {r : Result α} {b : α} :
    (liftM r : Lower α) s = .ok (b, t) ↔ r = .ok b ∧ t = s := by
  simp only [liftM, monadLift, MonadLift.monadLift, StateT.lift, bind, Except.bind]
  cases r with
  | error e => simp
  | ok a =>
    simp only [pure, Except.pure, Except.ok.injEq, Prod.mk.injEq]
    constructor
    · rintro ⟨rfl, rfl⟩; exact ⟨rfl, rfl⟩
    · rintro ⟨rfl, rfl⟩; exact ⟨rfl, rfl⟩

/-- Gives the action of a step a name, so that its cases can be told apart. -/
theorem exists_eq {x : Lower α} {r : Result (α × BodyState)} (h : x s = r) :
    ∃ m, x = m ∧ m s = r :=
  ⟨x, rfl, h⟩

theorem freshName_ok {base name : String} :
    freshName base s = .ok (name, t) ↔
      name = (fresh s.taken base).1 ∧ t = { s with taken := (fresh s.taken base).2 } := by
  have hrun : freshName base s =
      .ok ((fresh s.taken base).1, { s with taken := (fresh s.taken base).2 }) := rfl
  rw [hrun, Except.ok.injEq, Prod.mk.injEq]
  exact and_congr eq_comm eq_comm

/-- A relation between lists that every step of a `mapM` extends holds of all of it. -/
theorem mapM_ok {g : α → Lower β} {R : List α → BodyState → List β → BodyState → Prop}
    (hnil : ∀ s, R [] s [] s) {l : List α}
    (hcons : ∀ x ∈ l, ∀ xs s b u bs t, g x s = .ok (b, u) → R xs u bs t →
      R (x :: xs) s (b :: bs) t) {out : List β} (h : l.mapM g s = .ok (out, t)) : R l s out t := by
  induction l generalizing s out with
  | nil =>
    rw [List.mapM_nil, pure_ok] at h
    obtain ⟨rfl, rfl⟩ := h
    exact hnil _
  | cons x l ih =>
    rw [List.mapM_cons, bind_ok] at h
    obtain ⟨b, u, hb, h⟩ := h
    rw [bind_ok] at h
    obtain ⟨bs, v, hbs, h⟩ := h
    rw [pure_ok] at h
    obtain ⟨rfl, rfl⟩ := h
    exact hcons x List.mem_cons_self _ _ _ _ _ _ hb
      (ih (fun y hy => hcons y (List.mem_cons_of_mem _ hy)) hbs)

theorem mapM_attach_ok {l : List α} {g : { x // x ∈ l } → Lower β}
    {R : List α → BodyState → List β → BodyState → Prop} (hnil : ∀ s, R [] s [] s)
    (hcons : ∀ x (hx : x ∈ l) xs s b u bs t, g ⟨x, hx⟩ s = .ok (b, u) → R xs u bs t →
      R (x :: xs) s (b :: bs) t) {out : List β} (h : l.attach.mapM g s = .ok (out, t)) :
    R l s out t := by
  have hall := mapM_ok (R := fun xs => R (xs.map Subtype.val)) hnil
    (fun x _ xs s b u bs t => hcons x.1 x.2 (xs.map Subtype.val) s b u bs t) h
  rw [List.attach_map_subtype_val] at hall
  exact hall

theorem mapM_lift_ok {g : α → Result β} {l : List α} {out : List β} :
    (l.mapM fun x => (liftM (g x) : Lower β)) s = .ok (out, t) ↔ l.mapM g = .ok out ∧ t = s := by
  induction l generalizing s t out with
  | nil =>
    rw [List.mapM_nil, List.mapM_nil, pure_ok]
    simp only [pure, Except.pure, Except.ok.injEq, eq_comm]
  | cons x l ih =>
    rw [List.mapM_cons, List.mapM_cons]
    simp only [bind_ok, lift_ok, pure_ok, ih, Result.bind_ok]
    constructor
    · rintro ⟨b, _, ⟨hb, rfl⟩, bs, _, ⟨hbs, rfl⟩, rfl, rfl⟩
      exact ⟨⟨b, hb, bs, hbs, rfl⟩, rfl⟩
    · rintro ⟨⟨b, hb, bs, hbs, hout⟩, rfl⟩
      cases hout
      exact ⟨b, _, ⟨hb, rfl⟩, bs, _, ⟨hbs, rfl⟩, rfl, rfl⟩

end Lower

/-! ## Statements without a body -/

/-- What becomes of a statement that holds no other statements. -/
inductive LowersPlain (routine : Routine) (env : Env) (id : Nat) :
    BodyState → List Target.Stmt → BodyState → Prop
  | empty {s} (h : env.forest.stmt? id = some .empty) (hk : env.forest.kind id = .emptyStatement) :
      LowersPlain routine env id s [] s
  | stop {s} (h : env.forest.stmt? id = some .empty) (hk : env.forest.kind id = .stopStatement) :
      LowersPlain routine env id s
        [.expression (.staticCall "System.Diagnostics.Debugger" "Break" [])] s
  | halt {s} (h : env.forest.stmt? id = some .empty) (hk : env.forest.kind id = .endStatement) :
      LowersPlain routine env id s [.expression (.staticCall "Environment" "Exit" [.int 0])] s
  | endBlock {s block} (h : env.forest.stmt? id = some (.endBlock block)) :
      LowersPlain routine env id s [] s
  | label {s name isLine} (h : env.forest.stmt? id = some (.labelReference name isLine))
      (hk : env.forest.kind id = .labelStatement) :
      LowersPlain routine env id s [.label (labelName name isLine)] s
  | goto {s name isLine} (h : env.forest.stmt? id = some (.labelReference name isLine))
      (hk : env.forest.kind id = .gotoStatement) :
      LowersPlain routine env id s [.goto (labelName name isLine)] s
  | goSub {s name isLine} (h : env.forest.stmt? id = some (.labelReference name isLine))
      (hl : env.forest.kind id ≠ .labelStatement) (hg : env.forest.kind id ≠ .gotoStatement)
      (hfirst : labelName name isLine ∉ s.visited) :
      LowersPlain routine env id s
        [.goto (labelName name isLine), .label (returnPoint (labelName name isLine))]
        { s with visited := labelName name isLine :: s.visited }
  | exit {s block stmt} (h : env.forest.stmt? id = some (.exit block))
      (hs : env.lowerExit routine id block = .ok stmt) : LowersPlain routine env id s [stmt] s
  | returns {s expression stmt} (h : env.forest.stmt? id = some (.returnValue expression))
      (hs : env.lowerReturn routine id expression = .ok stmt) :
      LowersPlain routine env id s [stmt] s
  | raiseEvent {s name arguments event args}
      (h : env.forest.stmt? id = some (.raiseEvent name arguments))
      (hn : env.nameText name = .ok event) (ha : env.lowerArguments arguments = .ok args) :
      LowersPlain routine env id s [.expression (.delegateInvoke (.ident event) args)] s
  | reDim {s preserve arrays out t} (h : env.forest.stmt? id = some (.reDim preserve arrays))
      (hs : env.lowerReDim id preserve arrays s = .ok (out, t)) : LowersPlain routine env id s out t
  | erase {s arrays targets} (h : env.forest.stmt? id = some (.erase arrays))
      (ht : (env.forest.elements (some arrays)).mapM env.lowerExpr = .ok targets) :
      LowersPlain routine env id s (targets.map fun array => .assign array .null) s
  | call {s target arguments callee args} (h : env.forest.stmt? id = some (.call target arguments))
      (hc : env.lowerExpr target = .ok callee) (ha : env.lowerArguments arguments = .ok args) :
      LowersPlain routine env id s [.expression (invocation callee args)] s
  | assignment {s target source place value}
      (h : env.forest.stmt? id = some (.assignment target source))
      (hp : env.assignmentTarget routine target = .ok place)
      (hv : env.lowerExpr source = .ok value) : LowersPlain routine env id s [.assign place value] s
  | compound {s op target source out}
      (h : env.forest.stmt? id = some (.compoundAssignment op target source))
      (hs : env.lowerCompound routine id op target source = .ok out) :
      LowersPlain routine env id s out s
  | mid {s target start length source out}
      (h : env.forest.stmt? id = some (.midAssignment target start length source))
      (hs : env.lowerMid routine target start length source = .ok out) :
      LowersPlain routine env id s out s
  | locals {s modifiers declarators out}
      (h : env.forest.stmt? id = some (.localDeclaration modifiers declarators))
      (hs : env.lowerLocals modifiers declarators = .ok out) : LowersPlain routine env id s out s

/-! ## Blocks -/

/-- The test of a loop that tests before each pass, and the statements of the loop. -/
inductive LoopHead (env : Env) (id : Nat) : Target.Expr → Option Nat → Prop
  | doBlock {condition statements tail test}
      (h : env.forest.stmt? id = some (.doBlock (some condition) statements tail))
      (ht : env.trailingCondition? tail = none) (hc : env.lowerCondition condition = .ok test) :
      LoopHead env id test statements
  | endless {statements tail} (h : env.forest.stmt? id = some (.doBlock none statements tail))
      (ht : env.trailingCondition? tail = none) : LoopHead env id (.bool true) statements
  | whileBlock {condition statements tail test}
      (h : env.forest.stmt? id = some (.whileBlock condition statements tail))
      (hc : env.lowerExpr condition = .ok test) : LoopHead env id test statements

/-- The test of a block of a chain, and the statements that it guards: of an `ElseIf` block where
there is no value to compare with, of a `Case` block of that value otherwise. -/
inductive Arm (env : Env) (id : Nat) : Option Target.Expr → Target.Expr → Option Nat → Prop
  | elseIf {condition statements test}
      (h : env.forest.stmt? id = some (.elseIfBlock condition statements))
      (hc : env.lowerExpr condition = .ok test) : Arm env id none test statements
  | case {value clauses statements test}
      (h : env.forest.stmt? id = some (.caseBlock clauses statements))
      (hc : env.lowerCaseTest value id clauses = .ok test) : Arm env id (some value) test statements

/-- The lowered parts of the head of a `For` block. -/
inductive CountedHead (env : Env) (id : Nat) : List Target.Stmt → Target.Expr → Target.Expr →
    Target.Expr → Target.Expr → Option Nat → Prop
  | forBlock {c declarator l u s statements tail declared control lower upper step}
      (h : env.forest.stmt? id = some (.forBlock c declarator l u s statements tail))
      (hd : env.declareControl declarator = .ok declared) (hc : env.lowerExpr c = .ok control)
      (hl : env.lowerExpr l = .ok lower) (hu : env.lowerExpr u = .ok upper)
      (hs : s.elim (.ok (.int 1)) env.lowerExpr = .ok step) :
      CountedHead env id declared control lower upper step statements

/-- The lowered parts of the head of a `For Each` block. -/
inductive ElementHead (env : Env) (id : Nat) : List Target.Stmt → Target.Expr → Target.Expr →
    Target.Ty → Option Nat → Prop
  | forEachBlock {c declarator x statements tail declared control collection type}
      (h : env.forest.stmt? id = some (.forEachBlock c declarator x statements tail))
      (hd : env.declareControl declarator = .ok declared)
      (ht : env.controlType id c = .ok type) (hc : env.lowerExpr c = .ok control)
      (hx : env.lowerExpr x = .ok collection) :
      ElementHead env id declared control collection type statements

mutual

/-- What becomes of a statement, its comments aside. -/
inductive Lowers (routine : Routine) :
    Env → Nat → BodyState → List Target.Stmt → BodyState → Prop
  | plain {env id s out t} (h : LowersPlain routine env id s out t) : Lowers routine env id s out t
  | preTest {env id s t test statements body} (h : LoopHead env id test statements)
      (hb : LowersAll routine env (env.forest.elements statements) s body t) :
      Lowers routine env id s [preTestLoop test body] t
  | postTest {env id s t condition statements tail test body}
      (h : env.forest.stmt? id = some (.doBlock none statements tail))
      (ht : env.trailingCondition? tail = some condition)
      (hb : LowersAll routine env (env.forest.elements statements)
        { s with taken := (fresh s.taken "latch").2 } body t)
      (hc : env.lowerCondition condition = .ok test) :
      Lowers routine env id s [postTestLoop (fresh s.taken "latch").1 test body] t
  | counted {env id s t declared control lower upper step statements body}
      (h : CountedHead env id declared control lower upper step statements)
      (hb : LowersAll routine env (env.forest.elements statements) s body t) :
      Lowers routine env id s (declared ++ [countedLoop control lower upper step body]) t
  | element {env id s t declared control collection type statements body}
      (h : ElementHead env id declared control collection type statements)
      (hb : LowersAll routine env (env.forest.elements statements)
        { s with taken := (fresh s.taken "enumerator").2 } body t) :
      Lowers routine env id s
        (declared ++ [elementLoop (fresh s.taken "enumerator").1 control collection type body]) t
  | within {env id s t expression statements tail subject body}
      (h : env.forest.stmt? id = some (.guarded expression statements tail))
      (hk : env.forest.kind id = .withBlockStatement)
      (hs : env.lowerExpr expression = .ok subject)
      (hb : LowersAll routine (env.within subject) (env.forest.elements statements) s body t) :
      Lowers routine env id s body t
  | ifBlock {env id s u v t condition statements elseIfs elseBlock tail test thenBody branches last}
      (h : env.forest.stmt? id = some (.ifBlock condition statements elseIfs elseBlock tail))
      (hc : env.lowerExpr condition = .ok test)
      (hthen : LowersAll routine env (env.forest.elements statements) s thenBody u)
      (helseIfs : LowersBranches routine env none (env.forest.elements elseIfs) u branches v)
      (helse : LowersElse routine env elseBlock v last t) :
      Lowers routine env id s [.conditional test thenBody (chain branches last)] t
  | lineIf {env id s u t condition statements elseStatements test thenBody elseBody}
      (h : env.forest.stmt? id = some (.lineIf condition statements elseStatements))
      (hc : env.lowerExpr condition = .ok test)
      (hthen : LowersAll routine env (env.forest.elements statements) s thenBody u)
      (helse : LowersAll routine env (env.forest.elements elseStatements) u elseBody t) :
      Lowers routine env id s [.conditional test thenBody elseBody] t
  | select {env id s u v t expression cases caseElse tail declared value branches last}
      (h : env.forest.stmt? id = some (.selectBlock expression cases caseElse tail))
      (hs : env.lowerSelector expression s = .ok ((declared, value), u))
      (hcases : LowersBranches routine env (some value) (env.forest.elements cases) u branches v)
      (helse : LowersElse routine env caseElse v last t) :
      Lowers routine env id s (declared ++ chain branches last) t

/-- What becomes of the statements of a list, each behind its comments. -/
inductive LowersAll (routine : Routine) :
    Env → List Nat → BodyState → List Target.Stmt → BodyState → Prop
  | nil {env s} : LowersAll routine env [] s [] s
  | cons {env id ids s u t out rest} (h : Lowers routine env id s out u)
      (hs : LowersAll routine env ids u rest t) :
      LowersAll routine env (id :: ids) s
        ((env.comments id).map Target.Stmt.comment ++ out ++ rest) t

/-- What becomes of the blocks of a chain. -/
inductive LowersBranches (routine : Routine) :
    Env → Option Target.Expr → List Nat → BodyState → List Branch → BodyState → Prop
  | nil {env value s} : LowersBranches routine env value [] s [] s
  | cons {env value id ids s u t test statements body branches}
      (h : Arm env id value test statements)
      (hb : LowersAll routine env (env.forest.elements statements) s body u)
      (hs : LowersBranches routine env value ids u branches t) :
      LowersBranches routine env value (id :: ids) s ((test, body) :: branches) t

/-- What becomes of the last block of a chain. -/
inductive LowersElse (routine : Routine) :
    Env → Option Nat → BodyState → List Target.Stmt → BodyState → Prop
  | none {env s} : LowersElse routine env none s [] s
  | some {env id s t statements out} (h : env.forest.stmt? id = some (.body statements))
      (hb : LowersAll routine env (env.forest.elements statements) s out t) :
      LowersElse routine env (some id) s out t

end

/-! ## Every success has a derivation -/

/-- What was lowered has a derivation, behind the comments of the statement. -/
def Derives (routine : Routine) (env : Env) (id : Nat) (s : BodyState) (out : List Target.Stmt)
    (t : BodyState) : Prop :=
  ∃ core, out = (env.comments id).map Target.Stmt.comment ++ core ∧ Lowers routine env id s core t

/-- Lowering the statement, when it succeeds, has a derivation. -/
def Derivable (routine : Routine) (id : Nat) : Prop :=
  ∀ env s out t, Env.lowerStmt env routine id s = .ok (out, t) → Derives routine env id s out t

section Lists

variable {routine : Routine} {env : Env} {s t : BodyState} {n : Nat}

theorem unsupported_ne_ok {α : Type} {env : Env} {id : Nat} {a : α} :
    (env.unsupported id : Result α) ≠ .ok a := by
  intro h
  cases h

theorem lowersAll_of_derivable (ih : ∀ x < n, Derivable routine x) {statements : Option Nat}
    (hs : ∀ c, statements = some c → c < n) {out : List Target.Stmt}
    (h : env.lowerBody routine statements s = .ok (out, t)) :
    LowersAll routine env (env.forest.elements statements) s out t := by
  cases statements with
  | none =>
    rw [Env.lowerBody, Lower.pure_ok] at h
    obtain ⟨rfl, rfl⟩ := h
    exact .nil
  | some c =>
    rw [Env.lowerBody, Lower.bind_ok] at h
    obtain ⟨lists, u, hl, h⟩ := h
    rw [Lower.pure_ok] at h
    obtain ⟨rfl, rfl⟩ := h
    refine Lower.mapM_attach_ok
      (R := fun ids s lists t => LowersAll routine env ids s lists.flatten t)
      (fun _ => .nil) ?_ hl
    intro id hid ids s b u bs t hb hs'
    have hlt := Nat.lt_trans (Forest.lt_of_mem_elements hid) (hs c rfl)
    obtain ⟨core, rfl, hcore⟩ := ih id hlt env s b u hb
    exact .cons hcore hs'

theorem lowersElseIfs_of_derivable (ih : ∀ x < n, Derivable routine x) {elseIfs : Option Nat}
    (hs : ∀ c, elseIfs = some c → c < n) {branches : List Branch}
    (h : env.lowerElseIfs routine elseIfs s = .ok (branches, t)) :
    LowersBranches routine env none (env.forest.elements elseIfs) s branches t := by
  cases elseIfs with
  | none =>
    rw [Env.lowerElseIfs, Lower.pure_ok] at h
    obtain ⟨rfl, rfl⟩ := h
    exact .nil
  | some c =>
    rw [Env.lowerElseIfs] at h
    refine Lower.mapM_attach_ok (R := LowersBranches routine env none) (fun _ => .nil) ?_ h
    intro id hid ids s b u bs t hstep hrest
    have hlt := Nat.lt_trans (Forest.lt_of_mem_elements hid) (hs c rfl)
    obtain ⟨m, hm, hb⟩ := Lower.exists_eq hstep
    dsimp only at hm
    split at hm <;> subst hm
    · next condition statements hstmt =>
      simp only [Lower.bind_ok, Lower.lift_ok, Lower.pure_ok] at hb
      obtain ⟨test, _, ⟨htest, rfl⟩, body, _, hbody, rfl, rfl⟩ := hb
      have hslot := Forest.lt_of_list (l := statements) hstmt (by simp [Stmt.lists])
      have hbelow := fun c hc => Nat.lt_trans (hslot c hc) hlt
      exact .cons (.elseIf hstmt htest) (lowersAll_of_derivable ih hbelow hbody) hrest
    · rw [Lower.lift_ok] at hb
      exact absurd hb.1 unsupported_ne_ok

theorem lowersCases_of_derivable (ih : ∀ x < n, Derivable routine x) {value : Target.Expr}
    {cases : Option Nat} (hs : ∀ c, cases = some c → c < n) {branches : List Branch}
    (h : env.lowerCases routine value cases s = .ok (branches, t)) :
    LowersBranches routine env (some value) (env.forest.elements cases) s branches t := by
  cases cases with
  | none =>
    rw [Env.lowerCases, Lower.pure_ok] at h
    obtain ⟨rfl, rfl⟩ := h
    exact .nil
  | some c =>
    rw [Env.lowerCases] at h
    refine Lower.mapM_attach_ok (R := LowersBranches routine env (some value)) (fun _ => .nil) ?_ h
    intro id hid ids s b u bs t hstep hrest
    have hlt := Nat.lt_trans (Forest.lt_of_mem_elements hid) (hs c rfl)
    obtain ⟨m, hm, hb⟩ := Lower.exists_eq hstep
    dsimp only at hm
    split at hm <;> subst hm
    · next clauses statements hstmt =>
      simp only [Lower.bind_ok, Lower.lift_ok, Lower.pure_ok] at hb
      obtain ⟨test, _, ⟨htest, rfl⟩, body, _, hbody, rfl, rfl⟩ := hb
      have hslot := Forest.lt_of_list (l := statements) hstmt (by simp [Stmt.lists])
      have hbelow := fun c hc => Nat.lt_trans (hslot c hc) hlt
      exact .cons (.case hstmt htest) (lowersAll_of_derivable ih hbelow hbody) hrest
    · rw [Lower.lift_ok] at hb
      exact absurd hb.1 unsupported_ne_ok

theorem lowersElse_of_derivable (ih : ∀ x < n, Derivable routine x) {block : Option Nat}
    (hs : ∀ c, block = some c → c < n) {out : List Target.Stmt}
    (h : env.lowerElse routine block s = .ok (out, t)) :
    LowersElse routine env block s out t := by
  cases block with
  | none =>
    rw [Env.lowerElse, Lower.pure_ok] at h
    obtain ⟨rfl, rfl⟩ := h
    exact .none
  | some id =>
    rw [Env.lowerElse] at h
    obtain ⟨m, hm, h⟩ := Lower.exists_eq h
    split at hm <;> subst hm
    · next statements hstmt =>
      have hslot := Forest.lt_of_list (l := statements) hstmt (by simp [Stmt.lists])
      have hbelow := fun c hc => Nat.lt_trans (hslot c hc) (hs id rfl)
      exact .some hstmt (lowersAll_of_derivable ih hbelow h)
    · rw [Lower.lift_ok] at h
      exact absurd h.1 unsupported_ne_ok

end Lists

/-! ## Statements -/

theorem lowerGoSub_ok {env : Env} {id : Nat} {label : String} {s t : BodyState}
    {out : List Target.Stmt} : env.lowerGoSub id label s = .ok (out, t) ↔
      label ∉ s.visited ∧ out = [.goto label, .label (returnPoint label)] ∧
        t = { s with visited := label :: s.visited } := by
  have hrun : env.lowerGoSub id label s = (if s.visited.contains label then
      liftM (env.unsupported id) else do
        set { s with visited := label :: s.visited }
        return [.goto label, .label (returnPoint label)] : Lower (List Target.Stmt)) s := rfl
  rw [hrun]
  by_cases hv : label ∈ s.visited
  · have hc : s.visited.contains label = true := List.contains_iff_mem.2 hv
    rw [if_pos hc, Lower.lift_ok]
    constructor
    · intro h; exact absurd h.1 unsupported_ne_ok
    · intro h; exact absurd hv h.1
  · have hc : ¬ s.visited.contains label = true := fun h => hv (List.contains_iff_mem.1 h)
    have hset : (do
        set { s with visited := label :: s.visited }
        return [.goto label, .label (returnPoint label)] : Lower (List Target.Stmt)) s =
      .ok ([.goto label, .label (returnPoint label)],
        { s with visited := label :: s.visited }) := rfl
    rw [if_neg hc, hset, Except.ok.injEq, Prod.mk.injEq, and_iff_right hv]
    exact and_congr eq_comm eq_comm

section Statements

variable {routine : Routine} {env : Env} {id : Nat} {s t : BodyState} {out : List Target.Stmt}

theorem derives_empty (hstmt : env.forest.stmt? id = some .empty)
    (hstep : env.lowerStmt routine id s = .ok (out, t)) : Derives routine env id s out t := by
  rw [Env.lowerStmt, hstmt] at hstep
  obtain ⟨m, hm, h⟩ := Lower.exists_eq hstep
  clear hstep
  dsimp only at hm
  split at hm <;> subst hm <;> simp only [Lower.bind_ok, Lower.lift_ok, Lower.pure_ok] at h
  · next hk =>
    obtain ⟨_, _, ⟨rfl, rfl⟩, rfl, rfl⟩ := h
    exact ⟨[], rfl, .plain (.empty hstmt hk)⟩
  · next hk =>
    obtain ⟨_, _, ⟨rfl, rfl⟩, rfl, rfl⟩ := h
    exact ⟨_, rfl, .plain (.stop hstmt hk)⟩
  · next hk =>
    obtain ⟨_, _, ⟨rfl, rfl⟩, rfl, rfl⟩ := h
    exact ⟨_, rfl, .plain (.halt hstmt hk)⟩
  · obtain ⟨_, _, ⟨hu, _⟩, _⟩ := h
    exact absurd hu unsupported_ne_ok

theorem derives_label {name : String} {isLine : Bool}
    (hstmt : env.forest.stmt? id = some (.labelReference name isLine))
    (hstep : env.lowerStmt routine id s = .ok (out, t)) : Derives routine env id s out t := by
  rw [Env.lowerStmt, hstmt] at hstep
  obtain ⟨m, hm, h⟩ := Lower.exists_eq hstep
  clear hstep
  dsimp only at hm
  split at hm <;> subst hm <;> simp only [Lower.bind_ok, Lower.pure_ok, lowerGoSub_ok] at h
  · next hk =>
    obtain ⟨_, _, ⟨rfl, rfl⟩, rfl, rfl⟩ := h
    exact ⟨_, rfl, .plain (.label hstmt hk)⟩
  · next hk =>
    obtain ⟨_, _, ⟨rfl, rfl⟩, rfl, rfl⟩ := h
    exact ⟨_, rfl, .plain (.goto hstmt hk)⟩
  · next hl hg =>
    obtain ⟨_, _, ⟨hfirst, rfl, rfl⟩, rfl, rfl⟩ := h
    exact ⟨_, rfl, .plain (.goSub hstmt hl hg hfirst)⟩

section Blocks

variable (ih : ∀ x < id, Derivable routine x)

include ih

theorem lowersAll_of_list {stmt : Stmt} {l : Option Nat}
    (hstmt : env.forest.stmt? id = some stmt) (hl : l ∈ stmt.lists)
    (h : env.lowerBody routine l s = .ok (out, t)) :
    LowersAll routine env (env.forest.elements l) s out t :=
  lowersAll_of_derivable ih (Forest.lt_of_list hstmt hl) h

theorem derives_do {condition : Option LoopCondition} {statements tail : Option Nat}
    (hstmt : env.forest.stmt? id = some (.doBlock condition statements tail))
    (hstep : env.lowerStmt routine id s = .ok (out, t)) : Derives routine env id s out t := by
  have hslot : statements ∈ (Stmt.doBlock condition statements tail).lists := by
    simp [Stmt.lists]
  rw [Env.lowerStmt, hstmt] at hstep
  obtain ⟨m, hm, h⟩ := Lower.exists_eq hstep
  clear hstep
  dsimp only at hm
  split at hm <;> subst hm
  · obtain ⟨_, _, hu, _⟩ := Lower.bind_ok.1 h
    cases hu
  · next ht =>
    simp only [Lower.bind_ok, Lower.lift_ok, Lower.pure_ok] at h
    obtain ⟨test, _, ⟨hc, rfl⟩, out, _, hb, _, _, ⟨rfl, rfl⟩, rfl, rfl⟩ := h
    exact ⟨_, rfl, .preTest (.doBlock hstmt ht hc) (lowersAll_of_list ih hstmt hslot hb)⟩
  · next ht =>
    simp only [Lower.bind_ok, Lower.lift_ok, Lower.pure_ok, Lower.freshName_ok] at h
    obtain ⟨_, _, ⟨rfl, rfl⟩, out, _, hb, test, _, ⟨hc, rfl⟩, _, _, ⟨rfl, rfl⟩, rfl, rfl⟩ := h
    exact ⟨_, rfl, .postTest hstmt ht (lowersAll_of_list ih hstmt hslot hb) hc⟩
  · next ht =>
    simp only [Lower.bind_ok, Lower.pure_ok] at h
    obtain ⟨out, _, hb, _, _, ⟨rfl, rfl⟩, rfl, rfl⟩ := h
    exact ⟨_, rfl, .preTest (.endless hstmt ht) (lowersAll_of_list ih hstmt hslot hb)⟩

theorem derives_while {condition : Nat} {statements tail : Option Nat}
    (hstmt : env.forest.stmt? id = some (.whileBlock condition statements tail))
    (h : env.lowerStmt routine id s = .ok (out, t)) : Derives routine env id s out t := by
  rw [Env.lowerStmt, hstmt] at h
  simp only [Lower.bind_ok, Lower.lift_ok, Lower.pure_ok] at h
  obtain ⟨test, _, ⟨hc, rfl⟩, out, _, hb, _, _, ⟨rfl, rfl⟩, rfl, rfl⟩ := h
  have hb := lowersAll_of_list ih hstmt (by simp [Stmt.lists]) hb
  exact ⟨_, rfl, .preTest (.whileBlock hstmt hc) hb⟩

theorem derives_for {control lower upper : Nat} {declarator step statements tail : Option Nat}
    (hstmt : env.forest.stmt? id =
      some (.forBlock control declarator lower upper step statements tail))
    (h : env.lowerStmt routine id s = .ok (out, t)) : Derives routine env id s out t := by
  rw [Env.lowerStmt, hstmt] at h
  cases step with
  | none =>
    simp only [Lower.bind_ok, Lower.lift_ok, Lower.pure_ok] at h
    obtain ⟨declared, _, ⟨hd, rfl⟩, control, _, ⟨hc, rfl⟩, lower, _, ⟨hl, rfl⟩, upper, _,
      ⟨hu, rfl⟩, _, _, ⟨rfl, rfl⟩, out, _, hb, _, _, ⟨rfl, rfl⟩, rfl, rfl⟩ := h
    have hb := lowersAll_of_list ih hstmt (by simp [Stmt.lists]) hb
    exact ⟨_, rfl, .counted (.forBlock hstmt hd hc hl hu rfl) hb⟩
  | some step =>
    simp only [Lower.bind_ok, Lower.lift_ok, Lower.pure_ok] at h
    obtain ⟨declared, _, ⟨hd, rfl⟩, control, _, ⟨hc, rfl⟩, lower, _, ⟨hl, rfl⟩, upper, _,
      ⟨hu, rfl⟩, step, _, ⟨hs, rfl⟩, out, _, hb, _, _, ⟨rfl, rfl⟩, rfl, rfl⟩ := h
    have hb := lowersAll_of_list ih hstmt (by simp [Stmt.lists]) hb
    exact ⟨_, rfl, .counted (.forBlock hstmt hd hc hl hu hs) hb⟩

theorem derives_forEach {control collection : Nat} {declarator statements tail : Option Nat}
    (hstmt : env.forest.stmt? id =
      some (.forEachBlock control declarator collection statements tail))
    (h : env.lowerStmt routine id s = .ok (out, t)) : Derives routine env id s out t := by
  rw [Env.lowerStmt, hstmt] at h
  simp only [Lower.bind_ok, Lower.lift_ok, Lower.pure_ok, Lower.freshName_ok] at h
  obtain ⟨declared, _, ⟨hd, rfl⟩, type, _, ⟨ht, rfl⟩, control, _, ⟨hc, rfl⟩, collection, _,
    ⟨hx, rfl⟩, _, _, ⟨rfl, rfl⟩, out, _, hb, _, _, ⟨rfl, rfl⟩, rfl, rfl⟩ := h
  have hb := lowersAll_of_list ih hstmt (by simp [Stmt.lists]) hb
  exact ⟨_, rfl, .element (.forEachBlock hstmt hd ht hc hx) hb⟩

theorem derives_guarded {expression : Nat} {statements tail : Option Nat}
    (hstmt : env.forest.stmt? id = some (.guarded expression statements tail))
    (hstep : env.lowerStmt routine id s = .ok (out, t)) : Derives routine env id s out t := by
  have hslot : ∀ c, statements = some c → c < id :=
    Forest.lt_of_list hstmt (by simp [Stmt.lists])
  rw [Env.lowerStmt, hstmt] at hstep
  obtain ⟨m, hm, h⟩ := Lower.exists_eq hstep
  clear hstep
  dsimp only at hm
  split at hm <;> subst hm <;> simp only [Lower.bind_ok, Lower.lift_ok, Lower.pure_ok] at h
  · next hk =>
    obtain ⟨subject, _, ⟨hs, rfl⟩, out, _, hb, rfl, rfl⟩ := h
    exact ⟨_, rfl, .within hstmt hk hs (lowersAll_of_derivable ih hslot hb)⟩
  · obtain ⟨_, _, ⟨hu, _⟩, _⟩ := h
    exact absurd hu unsupported_ne_ok

theorem derives_if {condition : Nat} {statements elseIfs elseBlock tail : Option Nat}
    (hstmt : env.forest.stmt? id = some (.ifBlock condition statements elseIfs elseBlock tail))
    (h : env.lowerStmt routine id s = .ok (out, t)) : Derives routine env id s out t := by
  have hslot : ∀ c, elseIfs = some c → c < id := Forest.lt_of_list hstmt (by simp [Stmt.lists])
  rw [Env.lowerStmt, hstmt] at h
  simp only [Lower.bind_ok, Lower.lift_ok, Lower.pure_ok] at h
  obtain ⟨test, _, ⟨hc, rfl⟩, thenBody, _, hthen, branches, _, helseIfs, last, _, helse, _, _,
    ⟨rfl, rfl⟩, rfl, rfl⟩ := h
  exact ⟨_, rfl, .ifBlock hstmt hc (lowersAll_of_list ih hstmt (by simp [Stmt.lists]) hthen)
    (lowersElseIfs_of_derivable ih hslot helseIfs)
    (lowersElse_of_derivable ih (Forest.lt_of_last hstmt rfl) helse)⟩

theorem derives_lineIf {condition : Nat} {statements elseStatements : Option Nat}
    (hstmt : env.forest.stmt? id = some (.lineIf condition statements elseStatements))
    (h : env.lowerStmt routine id s = .ok (out, t)) : Derives routine env id s out t := by
  rw [Env.lowerStmt, hstmt] at h
  simp only [Lower.bind_ok, Lower.lift_ok, Lower.pure_ok] at h
  obtain ⟨test, _, ⟨hc, rfl⟩, thenBody, _, hthen, elseBody, _, helse, _, _, ⟨rfl, rfl⟩, rfl,
    rfl⟩ := h
  exact ⟨_, rfl, .lineIf hstmt hc (lowersAll_of_list ih hstmt (by simp [Stmt.lists]) hthen)
    (lowersAll_of_list ih hstmt (by simp [Stmt.lists]) helse)⟩

theorem derives_select {expression : Nat} {cases caseElse tail : Option Nat}
    (hstmt : env.forest.stmt? id = some (.selectBlock expression cases caseElse tail))
    (h : env.lowerStmt routine id s = .ok (out, t)) : Derives routine env id s out t := by
  have hslot : ∀ c, cases = some c → c < id := Forest.lt_of_list hstmt (by simp [Stmt.lists])
  rw [Env.lowerStmt, hstmt] at h
  simp only [Lower.bind_ok, Lower.pure_ok] at h
  obtain ⟨⟨declared, value⟩, _, hs, branches, _, hcases, last, _, helse, _, _, ⟨rfl, rfl⟩, rfl,
    rfl⟩ := h
  exact ⟨_, rfl, .select hstmt hs (lowersCases_of_derivable ih hslot hcases)
    (lowersElse_of_derivable ih (Forest.lt_of_last hstmt rfl) helse)⟩

end Blocks

end Statements

/-- The statements of a list come before the statement, so each of them has a derivation. -/
theorem derivable (routine : Routine) (id : Nat) : Derivable routine id := by
  induction id using Nat.strongRecOn with
  | ind id ih =>
    intro env s out t h
    cases hstmt : env.forest.stmt? id with
    | none =>
      rw [Env.lowerStmt, hstmt, Lower.bind_ok] at h
      obtain ⟨_, _, hu, _⟩ := h
      exact absurd (Lower.lift_ok.1 hu).1 unsupported_ne_ok
    | some stmt =>
      cases stmt with
      | empty => exact derives_empty hstmt h
      | labelReference => exact derives_label hstmt h
      | doBlock => exact derives_do ih hstmt h
      | whileBlock => exact derives_while ih hstmt h
      | forBlock => exact derives_for ih hstmt h
      | forEachBlock => exact derives_forEach ih hstmt h
      | guarded => exact derives_guarded ih hstmt h
      | ifBlock => exact derives_if ih hstmt h
      | lineIf => exact derives_lineIf ih hstmt h
      | selectBlock => exact derives_select ih hstmt h
      | endBlock block =>
        rw [Env.lowerStmt, hstmt] at h
        simp only [Lower.bind_ok, Lower.pure_ok] at h
        obtain ⟨_, _, ⟨rfl, rfl⟩, rfl, rfl⟩ := h
        exact ⟨[], rfl, .plain (.endBlock hstmt)⟩
      | exit block =>
        rw [Env.lowerStmt, hstmt] at h
        simp only [Lower.bind_ok, Lower.lift_ok, Lower.pure_ok] at h
        obtain ⟨stmt, _, ⟨hs, rfl⟩, _, _, ⟨rfl, rfl⟩, rfl, rfl⟩ := h
        exact ⟨_, rfl, .plain (.exit hstmt hs)⟩
      | returnValue expression =>
        rw [Env.lowerStmt, hstmt] at h
        simp only [Lower.bind_ok, Lower.lift_ok, Lower.pure_ok] at h
        obtain ⟨stmt, _, ⟨hs, rfl⟩, _, _, ⟨rfl, rfl⟩, rfl, rfl⟩ := h
        exact ⟨_, rfl, .plain (.returns hstmt hs)⟩
      | raiseEvent name arguments =>
        rw [Env.lowerStmt, hstmt] at h
        simp only [Lower.bind_ok, Lower.lift_ok, Lower.pure_ok] at h
        obtain ⟨event, _, ⟨hn, rfl⟩, args, _, ⟨ha, rfl⟩, _, _, ⟨rfl, rfl⟩, rfl, rfl⟩ := h
        exact ⟨_, rfl, .plain (.raiseEvent hstmt hn ha)⟩
      | reDim preserve arrays =>
        rw [Env.lowerStmt, hstmt] at h
        simp only [Lower.bind_ok, Lower.pure_ok] at h
        obtain ⟨out, u, hs, rfl, rfl⟩ := h
        exact ⟨_, rfl, .plain (.reDim hstmt hs)⟩
      | erase arrays =>
        rw [Env.lowerStmt, hstmt] at h
        simp only [Lower.bind_ok, Lower.mapM_lift_ok, Lower.pure_ok] at h
        obtain ⟨targets, _, ⟨ht, rfl⟩, _, _, ⟨rfl, rfl⟩, rfl, rfl⟩ := h
        exact ⟨_, rfl, .plain (.erase hstmt ht)⟩
      | call target arguments =>
        rw [Env.lowerStmt, hstmt] at h
        simp only [Lower.bind_ok, Lower.lift_ok, Lower.pure_ok] at h
        obtain ⟨callee, _, ⟨hc, rfl⟩, args, _, ⟨ha, rfl⟩, _, _, ⟨rfl, rfl⟩, rfl, rfl⟩ := h
        exact ⟨_, rfl, .plain (.call hstmt hc ha)⟩
      | assignment target source =>
        rw [Env.lowerStmt, hstmt] at h
        simp only [Lower.bind_ok, Lower.lift_ok, Lower.pure_ok] at h
        obtain ⟨place, _, ⟨hp, rfl⟩, value, _, ⟨hv, rfl⟩, _, _, ⟨rfl, rfl⟩, rfl, rfl⟩ := h
        exact ⟨_, rfl, .plain (.assignment hstmt hp hv)⟩
      | compoundAssignment op target source =>
        rw [Env.lowerStmt, hstmt] at h
        simp only [Lower.bind_ok, Lower.lift_ok, Lower.pure_ok] at h
        obtain ⟨out, _, ⟨hs, rfl⟩, rfl, rfl⟩ := h
        exact ⟨_, rfl, .plain (.compound hstmt hs)⟩
      | midAssignment target start length source =>
        rw [Env.lowerStmt, hstmt] at h
        simp only [Lower.bind_ok, Lower.lift_ok, Lower.pure_ok] at h
        obtain ⟨out, _, ⟨hs, rfl⟩, rfl, rfl⟩ := h
        exact ⟨_, rfl, .plain (.mid hstmt hs)⟩
      | localDeclaration modifiers declarators =>
        rw [Env.lowerStmt, hstmt] at h
        simp only [Lower.bind_ok, Lower.lift_ok, Lower.pure_ok] at h
        obtain ⟨out, _, ⟨hs, rfl⟩, rfl, rfl⟩ := h
        exact ⟨_, rfl, .plain (.locals hstmt hs)⟩
      | _ =>
        rw [Env.lowerStmt, hstmt, Lower.bind_ok] at h
        obtain ⟨_, _, hu, _⟩ := h
        exact absurd (Lower.lift_ok.1 hu).1 unsupported_ne_ok

theorem lowersAll_of_lowerBody {routine : Routine} {env : Env} {statements : Option Nat}
    {s t : BodyState} {out : List Target.Stmt}
    (h : env.lowerBody routine statements s = .ok (out, t)) :
    LowersAll routine env (env.forest.elements statements) s out t :=
  lowersAll_of_derivable (n := statements.getD 0 + 1) (fun id _ => derivable routine id)
    (fun c hc => by rw [hc]; exact Nat.lt_succ_self c) h

/-! ## Steps on the way -/

section Steps

variable {routine : Routine} {env : Env} {id : Nat} {s t : BodyState}

theorem lowerBody_some {c : Nat} : env.lowerBody routine (some c) = do
    let lists ← (env.forest.elements (some c)).mapM (env.lowerStmt routine)
    return lists.flatten := by
  rw [Env.lowerBody, List.mapM_subtype (g := env.lowerStmt routine) fun _ _ => rfl,
    List.unattach_attach]

theorem lowerStmt_assignment {target source : Nat}
    (h : env.forest.stmt? id = some (.assignment target source)) :
    env.lowerStmt routine id s = (do
      let place ← env.assignmentTarget routine target
      let value ← env.lowerExpr source
      return ((env.comments id).map Target.Stmt.comment ++ [.assign place value], s)) := by
  rw [Env.lowerStmt, h]
  dsimp only
  cases hp : env.assignmentTarget routine target with
  | error e => rfl
  | ok place =>
    cases hv : env.lowerExpr source with
    | error e => rfl
    | ok value => rfl

/-- `Exit` leaves a loop, or the routine with the local that holds its result or with a zero. -/
theorem lowerExit_ok {block : Block} {stmt : Target.Stmt}
    (h : env.lowerExit routine id block = .ok stmt) :
    stmt = .breaks ∨ stmt = .returns (routine.shadow.map Target.Expr.ident) ∨
      ∃ type, stmt = .returns (some (zeroValue type)) := by
  have hzero : routine.shadow = none → (do
        let type ← env.exitType id
        if type.isVoid then return .returns none else return .returns (some (zeroValue type))) =
      (.ok stmt : Result Target.Stmt) → stmt = .returns (routine.shadow.map Target.Expr.ident) ∨
        ∃ type, stmt = .returns (some (zeroValue type)) := by
    intro hshadow hs
    rw [Result.bind_ok] at hs
    obtain ⟨type, _, hs⟩ := hs
    split at hs <;> cases hs
    · exact Or.inl (by rw [hshadow]; rfl)
    · exact Or.inr ⟨type, rfl⟩
  unfold Env.lowerExit at h
  split at h
  all_goals first
    | exact absurd h unsupported_ne_ok
    | (split at h
       · cases h; exact Or.inl rfl
       · exact absurd h unsupported_ne_ok)
    | (split at h
       · next hshadow => cases h; exact Or.inr (Or.inl (by rw [hshadow]; rfl))
       · next hshadow => exact Or.inr (hzero hshadow h))

/-- `Mid` on the left writes to its target what a call makes of its operands. -/
theorem lowerMid_ok {target start source : Nat} {length : Option Nat} {out : List Target.Stmt}
    (h : env.lowerMid routine target start length source = .ok out) :
    ∃ place first count value, env.assignmentTarget routine target = .ok place ∧
      env.lowerExpr start = .ok first ∧
      length.elim (.ok (.field (.typeRef (.primitive .int)) "MaxValue")) env.lowerExpr =
        .ok count ∧
      env.lowerExpr source = .ok value ∧
      out =
        [.assign place (.staticCall "StringType" "MidStmtStr" [place, first, count, value])] := by
  simp only [Env.lowerMid, Result.bind_ok] at h
  obtain ⟨place, hplace, first, hfirst, h⟩ := h
  cases length with
  | some x =>
    simp only [Result.bind_ok] at h
    obtain ⟨count, hcount, value, hvalue, hout⟩ := h
    cases hout
    exact ⟨place, first, count, value, hplace, hfirst, hcount, hvalue, rfl⟩
  | none =>
    simp only [Result.bind_ok] at h
    obtain ⟨count, hcount, value, hvalue, hout⟩ := h
    cases hout
    exact ⟨place, first, count, value, hplace, hfirst, hcount, hvalue, rfl⟩

/-- A compound assignment computes with the place that it writes to. -/
theorem lowerCompound_ok {op : Operator} {target source : Nat} {out : List Target.Stmt}
    (h : env.lowerCompound routine id op target source = .ok out) :
    ∃ place right value, env.assignmentTarget routine target = .ok place ∧
      env.lowerExpr source = .ok right ∧
      binaryOperation? env.compare op place right = some value ∧ out = [.assign place value] := by
  simp only [Env.lowerCompound, Result.bind_ok] at h
  obtain ⟨place, hplace, right, hright, h⟩ := h
  split at h
  · next value hvalue =>
    cases h
    exact ⟨place, right, value, hplace, hright, hvalue, rfl⟩
  · exact absurd h unsupported_ne_ok

/-- One operand of a `ReDim`: an array to allocate anew, or to copy over a temporary of the same
shape. -/
theorem lowerReDimOperand_parts {operand : Nat} {preserve : Bool} {declarator : Option Nat}
    {out : List Target.Stmt}
    (hstep : env.lowerReDimOperand id preserve operand declarator s = .ok (out, t)) :
    ∃ target arguments known element array lengths,
      env.forest.expr? operand = some (.callOrIndex target arguments known) ∧
      env.reDimElement declarator (env.forest.referenceText? target) = .ok element ∧
      env.lowerExpr target = .ok array ∧ env.boundLengths arguments = .ok lengths ∧
      ((preserve = false ∧ out = [.assign array (.arrayCreate element lengths none)] ∧ t = s) ∨
        (preserve = true ∧ ∃ base,
          base = (env.forest.referenceText? target).getD "array" ++ "Preserved" ∧
          out = Env.preserved (fresh s.taken base).1 array (.arrayCreate element lengths none)
            (.array element lengths.length) ∧
          t = { s with taken := (fresh s.taken base).2 })) := by
  unfold Env.lowerReDimOperand at hstep
  obtain ⟨m, hm, h⟩ := Lower.exists_eq hstep
  clear hstep
  split at hm <;> subst hm
  · next target arguments known hexpr =>
    simp only [Lower.bind_ok, Lower.lift_ok] at h
    obtain ⟨element, _, ⟨helement, rfl⟩, array, _, ⟨harray, rfl⟩, lengths, _, ⟨hlengths, rfl⟩, h⟩ :=
      h
    rw [Env.referenceText?_eq] at helement
    refine ⟨target, arguments, known, element, array, lengths, hexpr, helement, harray, hlengths,
      ?_⟩
    split at h
    · simp only [Lower.bind_ok] at h
      obtain ⟨_, _, h, _⟩ := h
      cases h
    · split at h
      · next hpreserve =>
        simp only [Lower.bind_ok, Lower.freshName_ok, Lower.pure_ok] at h
        obtain ⟨_, _, ⟨rfl, rfl⟩, rfl, rfl⟩ := h
        exact Or.inr ⟨hpreserve, _, by rw [Env.referenceText?_eq], rfl, rfl⟩
      · next hpreserve =>
        simp only [Lower.pure_ok] at h
        obtain ⟨rfl, rfl⟩ := h
        exact Or.inl ⟨by simpa using hpreserve, rfl, rfl⟩
  · rw [Lower.lift_ok] at h
    exact absurd h.1 unsupported_ne_ok

theorem lowerReDimOperand_ok {operand : Nat} {preserve : Bool} {declarator : Option Nat}
    {out : List Target.Stmt}
    (hstep : env.lowerReDimOperand id preserve operand declarator s = .ok (out, t)) :
    ∃ target arguments known element array lengths,
      env.forest.expr? operand = some (.callOrIndex target arguments known) ∧
      env.lowerExpr target = .ok array ∧ env.boundLengths arguments = .ok lengths ∧
      ((preserve = false ∧ out = [.assign array (.arrayCreate element lengths none)] ∧ t = s) ∨
        (preserve = true ∧ ∃ base type,
          base = (env.forest.referenceText? target).getD "array" ++ "Preserved" ∧
          out = Env.preserved (fresh s.taken base).1 array (.arrayCreate element lengths none)
            type ∧
          t = { s with taken := (fresh s.taken base).2 })) := by
  obtain ⟨target, arguments, known, element, array, lengths, hexpr, _, harray, hlengths, hcase⟩ :=
    lowerReDimOperand_parts hstep
  refine ⟨target, arguments, known, element, array, lengths, hexpr, harray, hlengths, ?_⟩
  rcases hcase with hplain | ⟨hpreserve, base, hbase, hout, ht⟩
  · exact Or.inl hplain
  · exact Or.inr ⟨hpreserve, base, _, hbase, hout, ht⟩

/-- Every operand of a `ReDim` has a declarator beside it, so pairing them loses none. -/
theorem map_fst_operands {f : Forest} {preserve : Bool} {arrays : Nat}
    (h : f.stmt? id = some (.reDim preserve arrays)) :
    ((f.elements (some arrays)).zip (f.reDimDeclarators id)).map Prod.fst =
      f.elements (some arrays) := by
  refine List.map_fst_zip (Nat.le_of_eq ?_)
  simp only [Forest.reDimDeclarators, h, List.length_map]

/-- A selector: a value to compare with as it stands, or a local that holds it. -/
theorem lowerSelector_ok {expression : Nat} {declared : List Target.Stmt} {value : Target.Expr}
    (h : env.lowerSelector expression s = .ok ((declared, value), t)) :
    ∃ lowered, env.lowerExpr expression = .ok lowered ∧
      ((declared = [] ∧ value = lowered ∧ t = s) ∨
        (declared = [.declare (fresh s.taken "selected").1 .object (some lowered)] ∧
          value = .ident (fresh s.taken "selected").1 ∧
          t = { s with taken := (fresh s.taken "selected").2 })) := by
  unfold Env.lowerSelector at h
  simp only [Lower.bind_ok, Lower.lift_ok] at h
  obtain ⟨lowered, _, ⟨hlowered, rfl⟩, h⟩ := h
  refine ⟨lowered, hlowered, ?_⟩
  obtain ⟨m, hm, h⟩ := Lower.exists_eq h
  split at hm <;> subst hm <;>
    simp only [Lower.bind_ok, Lower.freshName_ok, Lower.pure_ok, Prod.mk.injEq] at h
  · exact Or.inl ⟨h.1.1, h.1.2, h.2⟩
  · exact Or.inl ⟨h.1.1, h.1.2, h.2⟩
  · obtain ⟨_, _, ⟨rfl, rfl⟩, ⟨rfl, rfl⟩, rfl⟩ := h
    exact Or.inr ⟨rfl, rfl, rfl⟩

end Steps

end StructuredBasic.Lowering
