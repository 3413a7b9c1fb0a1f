import StructuredBasic.Proofs.Lowering.Malformed

/-!
# What lowering visits

Lowering a node leads to its parts in the same surroundings (`Forest.parts`), and to the statements
of a `With` block in surroundings with one more subject (`LeadsTo`). `r.Accounts env ids` ties the
result `r` to these visits: a success has lowered every access without a qualifier that is visited
from `ids`, and a failure for an access outside of `With` blocks has visited one without a subject.
The rules for building actions give this for every expression (`accountsFor`).
-/

set_option autoImplicit false

namespace StructuredBasic.Syntax.Forest

variable (f : Forest)

/-! ## Parts -/

/-- The arguments that bound an array type. -/
def boundsOf (type : Nat) : List Nat :=
  match f.type? type with
  | some (.array _ _ bounds) => f.elements bounds
  | _ => []

/-- The bounds on a declared name. -/
def declaredBounds (declared : Nat) : List Nat :=
  match f.name? declared with
  | some (.declared _ (some type)) => f.boundsOf type
  | _ => []

/-- The condition on the line that closes a loop. -/
def trailing (tail : Option Nat) : Option LoopCondition :=
  match tail.bind f.stmt? with
  | some (.loopEnd condition) => condition
  | _ => none

def exprParts : Expr → List Nat
  | .qualified qualifier _ _ => qualifier.toList
  | .dictionaryLookup qualifier _ _ => qualifier.toList
  | .callOrIndex target arguments _ => target :: f.elements arguments
  | .construct _ arguments => f.elements arguments
  | .constructArray type initializer => f.boundsOf type ++ [initializer]
  | .cast operand _ => [operand]
  | .intrinsicCast _ operand => [operand]
  | .typeTest operand _ => [operand]
  | .addressOf operand => [operand]
  | .parenthetical operand => [operand]
  | .unary _ operand => [operand]
  | .binary _ _ left right => [left, right]
  | _ => []

/-- The statements of a `With` block are left out: they have surroundings of their own. -/
def stmtParts : Stmt → List Nat
  | .returnValue expression => expression.toList
  | .raiseEvent _ arguments => f.elements arguments
  | .reDim _ arrays => f.elements (some arrays)
  | .erase arrays => f.elements (some arrays)
  | .call target arguments => target :: f.elements arguments
  | .assignment target source => [target, source]
  | .compoundAssignment _ target source => [target, source]
  | .midAssignment target start length source => [target, start] ++ length.toList ++ [source]
  | .localDeclaration _ declarators => f.elements (some declarators)
  | .doBlock condition statements tail =>
    condition.toList.map LoopCondition.expression ++ f.elements statements ++
      (f.trailing tail).toList.map LoopCondition.expression
  | .whileBlock condition statements _ => condition :: f.elements statements
  | .forBlock control declarator lower upper step statements _ =>
    declarator.toList ++ [control, lower, upper] ++ step.toList ++ f.elements statements
  | .forEachBlock control declarator collection statements _ =>
    declarator.toList ++ [control, collection] ++ f.elements statements
  | .guarded expression _ _ => [expression]
  | .body statements => f.elements statements
  | .ifBlock condition statements elseIfs elseBlock _ =>
    condition :: f.elements statements ++ f.elements elseIfs ++ elseBlock.toList
  | .elseIfBlock condition statements => condition :: f.elements statements
  | .lineIf condition statements elseStatements =>
    condition :: f.elements statements ++ f.elements elseStatements
  | .selectBlock expression cases caseElse _ =>
    expression :: f.elements cases ++ caseElse.toList
  | .caseBlock clauses statements => f.elements (some clauses) ++ f.elements statements
  | _ => []

def declParts : Decl → List Nat
  | .typeBlock _ _ _ declarations _ => f.elements declarations
  | .enumBlock _ _ _ members _ => f.elements members
  | .enumValue _ _ value => value.toList
  | .external _ signature _ _ _ => f.elements signature.parameters
  | .method _ signature _ _ statements _ =>
    f.elements signature.parameters ++ f.elements statements
  | .property _ signature _ accessors _ =>
    f.elements signature.parameters ++ f.elements accessors
  | .accessor _ _ statements _ => f.elements statements
  | .variableList _ declarators => f.elements (some declarators)
  | _ => []

/-- An initial value goes before the arguments of a new object, and these before bounds. -/
def declaratorParts (d : Declarator) : List Nat :=
  (f.elements (some d.names)).flatMap fun declared =>
    match d.initializer with
    | some initializer => [initializer]
    | none => if d.isNew then f.elements d.arguments else f.declaredBounds declared

/-- The nodes that are lowered along with a node, in the same surroundings. -/
def parts (id : Nat) : List Nat :=
  match f.payload? id with
  | some (.expr e) => f.exprParts e
  | some (.stmt s) => f.stmtParts s
  | some (.decl d) => f.declParts d
  | some (.declarator d) => f.declaratorParts d
  | some (.argument a) => [a.expression]
  | some (.initializer (.expression value)) => [value]
  | some (.initializer (.aggregate elements)) => f.elements elements
  | some (.caseClause (.comparison _ operand)) => [operand]
  | some (.caseClause (.range lower upper)) => [lower, upper]
  | some (.parameter p) => p.initializer.toList
  | _ => []

end StructuredBasic.Syntax.Forest

namespace StructuredBasic.Lowering

open Syntax

/-! ## Visits -/

/-- An access to a member or an element without a qualifier: the name, and what the access becomes
of its target and the text of the name. -/
inductive BareAccess (f : Forest) (id : Nat) :
    Nat → (Target.Expr → String → Target.Expr) → Prop
  | member {dot name} (h : f.expr? id = some (.qualified none dot name)) :
      BareAccess f id name .field
  | lookup {bang name} (h : f.expr? id = some (.dictionaryLookup none bang name)) :
      BareAccess f id name fun target text => .index target [.literal (.string text)]

def IsBare (f : Forest) (id : Nat) : Prop := ∃ name build, BareAccess f id name build

/-- Lowering a node in its surroundings comes to another node in other surroundings. -/
inductive LeadsTo : Env → Nat → Env → Nat → Prop
  | here {env id} : LeadsTo env id env id
  | part {env inner id c x} (hc : c ∈ env.forest.parts id) (h : LeadsTo env c inner x) :
      LeadsTo env id inner x
  | within {env inner id expression statements tail subject c x}
      (h : env.forest.stmt? id = some (.guarded expression statements tail))
      (hk : env.forest.kind id = .withBlockStatement)
      (hs : env.lowerExpr expression = .ok subject) (hc : c ∈ env.forest.elements statements)
      (hv : LeadsTo (env.within subject) c inner x) : LeadsTo env id inner x

/-- Every access without a qualifier that is visited from the node has a lowering. -/
def Settled (env : Env) (id : Nat) : Prop :=
  ∀ inner x, LeadsTo env id inner x → IsBare inner.forest x → ∃ e, inner.lowerExpr x = .ok e

/-- An access without a qualifier is visited from the node where no subject is in effect. -/
def Stranded (env : Env) (id : Nat) (span : Span) : Prop :=
  ∃ inner x, LeadsTo env id inner x ∧ IsBare inner.forest x ∧ inner.subjects = [] ∧
    span = inner.forest.span x

/-- The result is a success with settled nodes, or an error that is no access outside of `With`
blocks unless one of the nodes is stranded. -/
structure Result.Accounts {α : Type} (r : Result α) (env : Env) (ids : List Nat) : Prop where
  settled : ∀ a, r = .ok a → ∀ id ∈ ids, Settled env id
  stranded : ∀ span, r = .error (.malformed (.memberOutsideWith span)) →
    ∃ id ∈ ids, Stranded env id span

/-- From every state the action accounts for the nodes. -/
def Lower.Accounts {α : Type} (m : Lower α) (env : Env) (ids : List Nat) : Prop :=
  ∀ s, Result.Accounts (m s) env ids

/-- The error does not say that an access is outside of `With` blocks. -/
def IsElsewhere (e : LowerError) : Prop := ∀ span, e ≠ .malformed (.memberOutsideWith span)

/-! ## Rules -/

section Rules

variable {α β : Type} {env : Env} {xs ys ids : List Nat} {id : Nat}

theorem isElsewhere_unsupported (f : Forest) (id : Nat) :
    IsElsewhere (Lowering.unsupported f id) := by
  intro span h
  unfold Lowering.unsupported at h
  split at h <;> cases h

namespace Result

theorem elsewhere_unsupported : (env.unsupported id : Result α).Fails IsElsewhere :=
  fails_error (isElsewhere_unsupported env.forest id)

theorem elsewhere_of_blames {r : Result α} (h : r.Fails (Blames env.forest)) :
    r.Fails IsElsewhere := by
  refine h.mono fun e he => ?_
  obtain ⟨id, -, rfl⟩ := he
  exact isElsewhere_unsupported env.forest id

theorem accounts_of_settled {a : α} (h : ∀ id ∈ ids, Settled env id) :
    Accounts (.ok a) env ids where
  settled _ _ := h
  stranded _ hr := by cases hr

theorem accounts_ok {a : α} : Accounts (.ok a) env [] := accounts_of_settled nofun

theorem accounts_nil {r : Result α} (h : r.Fails IsElsewhere) : r.Accounts env [] where
  settled := nofun
  stranded span hr := absurd rfl (h _ hr span)

/-- A failure for another reason accounts for whatever comes with it. -/
theorem accounts_error {e : LowerError} (h : IsElsewhere e) :
    Accounts (.error e : Result α) env ids where
  settled := nofun
  stranded span hr := by
    cases hr
    exact absurd rfl (h span)

theorem accounts_unsupported : (env.unsupported id : Result α).Accounts env ids :=
  accounts_error (isElsewhere_unsupported env.forest id)

theorem Accounts.congr {r : Result α} (h : r.Accounts env xs) (heq : ∀ id, id ∈ ys ↔ id ∈ xs) :
    r.Accounts env ys where
  settled a hr id hid := h.settled a hr id ((heq id).1 hid)
  stranded span hr := by
    obtain ⟨id, hid, hstranded⟩ := h.stranded span hr
    exact ⟨id, (heq id).2 hid, hstranded⟩

/-- An error accounts for more nodes, and for every type of value. -/
theorem Accounts.rethrow {e : LowerError} (h : Accounts (.error e : Result α) env xs)
    (hsub : ∀ id ∈ xs, id ∈ ys) : Accounts (.error e : Result β) env ys where
  settled := nofun
  stranded span he := by
    cases he
    obtain ⟨id, hid, hstranded⟩ := h.stranded span rfl
    exact ⟨id, hsub id hid, hstranded⟩

theorem Accounts.bind {r : Result α} {g : α → Result β} (h : r.Accounts env xs)
    (hg : ∀ a, (g a).Accounts env ys) : (r >>= g).Accounts env (xs ++ ys) := by
  cases r with
  | error e => exact h.rethrow fun id hid => List.mem_append_left _ hid
  | ok a =>
    constructor
    · intro b hb id hid
      rcases List.mem_append.1 hid with hid | hid
      · exact h.settled a rfl id hid
      · exact (hg a).settled b hb id hid
    · intro span hr
      obtain ⟨id, hid, hstranded⟩ := (hg a).stranded span hr
      exact ⟨id, List.mem_append_right _ hid, hstranded⟩

/-- What comes in front and visits nothing. -/
theorem Fails.bind_accounts {r : Result α} {g : α → Result β} (h : r.Fails IsElsewhere)
    (hg : ∀ a, (g a).Accounts env ids) : (r >>= g).Accounts env ids :=
  (accounts_nil h).bind hg

/-- What follows and visits nothing. -/
theorem Accounts.bind_fails {r : Result α} {g : α → Result β} (h : r.Accounts env ids)
    (hg : ∀ a, (g a).Fails IsElsewhere) : (r >>= g).Accounts env ids :=
  (h.bind fun a => accounts_nil (hg a)).congr (by simp)

theorem Accounts.bind_ok {r : Result α} {g : α → β} (h : r.Accounts env ids) :
    (r >>= fun a => .ok (g a)).Accounts env ids :=
  h.bind_fails fun _ => fails_ok

theorem Accounts.map {r : Result α} {g : α → β} (h : r.Accounts env ids) :
    (g <$> r).Accounts env ids := by
  cases r with
  | error e => exact h.rethrow fun id hid => hid
  | ok a => exact accounts_of_settled (h.settled a rfl)

theorem accounts_mapM {g : α → Result β} {l : List α} {p : α → List Nat}
    (h : ∀ x ∈ l, (g x).Accounts env (p x)) : (l.mapM g).Accounts env (l.flatMap p) := by
  induction l with
  | nil => exact accounts_ok
  | cons x l ih =>
    rw [List.mapM_cons, List.flatMap_cons]
    refine (h x List.mem_cons_self).bind fun b => ?_
    exact (ih fun y hy => h y (List.mem_cons_of_mem _ hy)).bind_ok

theorem accounts_mapM_self {g : Nat → Result β} {l : List Nat}
    (h : ∀ x ∈ l, (g x).Accounts env [x]) : (l.mapM g).Accounts env l :=
  (accounts_mapM h).congr (by simp)

theorem accounts_mapM_attach {l : List Nat} {g : { x // x ∈ l } → Result β}
    (h : ∀ x, (g x).Accounts env [x.1]) : (l.attach.mapM g).Accounts env l :=
  (accounts_mapM fun x _ => h x).congr (by simp)

theorem accounts_foldlM {g : β → Nat → Result β} {l : List Nat} {b : β}
    (h : ∀ b, ∀ x ∈ l, (g b x).Accounts env [x]) : (l.foldlM g b).Accounts env l := by
  induction l generalizing b with
  | nil => exact accounts_ok
  | cons x l ih =>
    rw [List.foldlM_cons]
    refine (h b x List.mem_cons_self).bind fun _ => ih fun b y hy => ?_
    exact h b y (List.mem_cons_of_mem _ hy)

end Result

namespace Lower

theorem accounts_lift {r : Result α} (h : r.Accounts env ids) :
    (liftM r : Lower α).Accounts env ids := by
  intro s
  cases r with
  | error e => exact h.rethrow fun id hid => hid
  | ok a => exact Result.accounts_of_settled (h.settled a rfl)

theorem accounts_nil {m : Lower α} (h : m.Fails IsElsewhere) : m.Accounts env [] :=
  fun s => Result.accounts_nil (h s)

theorem Accounts.congr {m : Lower α} (h : m.Accounts env xs) (heq : ∀ id, id ∈ ys ↔ id ∈ xs) :
    m.Accounts env ys :=
  fun s => (h s).congr heq

theorem Accounts.bind {m : Lower α} {g : α → Lower β} (h : m.Accounts env xs)
    (hg : ∀ a, (g a).Accounts env ys) : (m >>= g).Accounts env (xs ++ ys) :=
  fun s => Result.Accounts.bind (h s) fun a => hg a.1 a.2

theorem Fails.bind_accounts {m : Lower α} {g : α → Lower β} (h : m.Fails IsElsewhere)
    (hg : ∀ a, (g a).Accounts env ids) : (m >>= g).Accounts env ids :=
  (accounts_nil h).bind hg

theorem Accounts.bind_fails {m : Lower α} {g : α → Lower β} (h : m.Accounts env ids)
    (hg : ∀ a, (g a).Fails IsElsewhere) : (m >>= g).Accounts env ids :=
  (h.bind fun a => accounts_nil (hg a)).congr (by simp)

theorem Accounts.bind_pure {m : Lower α} {g : α → β} (h : m.Accounts env ids) :
    (m >>= fun a => pure (g a)).Accounts env ids :=
  h.bind_fails fun _ => fails_pure

theorem accounts_mapM {g : α → Lower β} {l : List α} {p : α → List Nat}
    (h : ∀ x ∈ l, (g x).Accounts env (p x)) : (l.mapM g).Accounts env (l.flatMap p) := by
  induction l with
  | nil => exact accounts_nil fails_pure
  | cons x l ih =>
    rw [List.mapM_cons, List.flatMap_cons]
    refine (h x List.mem_cons_self).bind fun b => ?_
    exact (ih fun y hy => h y (List.mem_cons_of_mem _ hy)).bind_pure

theorem accounts_mapM_attach {l : List Nat} {g : { x // x ∈ l } → Lower β}
    (h : ∀ x, (g x).Accounts env [x.1]) : (l.attach.mapM g).Accounts env l :=
  (accounts_mapM fun x _ => h x).congr (by simp)

end Lower

end Rules

/-! ## Nodes -/

/-- Whether a node is neither an access without a qualifier nor a `With` block. -/
def isOrdinary : Payload → Bool
  | .expr (.qualified none _ _) => false
  | .expr (.dictionaryLookup none _ _) => false
  | .stmt (.guarded ..) => false
  | _ => true

section Nodes

variable {α : Type} {env : Env} {id : Nat} {r : Result α} {m : Lower α}

theorem IsBare.not_ordinary {f : Forest} {p : Payload} (h : IsBare f id)
    (hp : f.payload? id = some p) : isOrdinary p = false := by
  obtain ⟨name, build, h⟩ := h
  cases h with
  | member h | lookup h =>
    cases (Forest.payload?_of_expr? h).symm.trans hp
    rfl

theorem IsBare.ne_stmt {f : Forest} {stmt : Stmt} (h : IsBare f id) : f.stmt? id ≠ some stmt := by
  obtain ⟨name, build, h⟩ := h
  intro hstmt
  cases h with
  | member h | lookup h =>
    cases (Forest.payload?_of_stmt? hstmt).symm.trans (Forest.payload?_of_expr? h)

theorem BareAccess.parts_eq_nil {f : Forest} {name : Nat}
    {build : Target.Expr → String → Target.Expr} (h : BareAccess f id name build) :
    f.parts id = [] := by
  cases h with
  | member h | lookup h =>
    rw [Forest.parts, Forest.payload?_of_expr? h]
    rfl

/-- Whatever is visited from an ordinary node is visited from one of its parts. -/
theorem Settled.of_parts {p : Payload} (hp : env.forest.payload? id = some p)
    (ho : isOrdinary p = true) (h : ∀ c ∈ env.forest.parts id, Settled env c) :
    Settled env id := by
  intro inner x hvisits hbare
  cases hvisits with
  | here =>
    rw [hbare.not_ordinary hp] at ho
    cases ho
  | part hc hvisits => exact h _ hc inner x hvisits hbare
  | within hstmt =>
    cases (Forest.payload?_of_stmt? hstmt).symm.trans hp
    cases ho

theorem Settled.expr {e : Expr} (he : env.forest.expr? id = some e)
    (ho : isOrdinary (.expr e) = true) (h : ∀ c ∈ env.forest.exprParts e, Settled env c) :
    Settled env id := by
  have hp := Forest.payload?_of_expr? he
  apply Settled.of_parts hp ho
  rw [Forest.parts, hp]
  exact h

namespace Result.Accounts

theorem node {p : Payload} (hp : env.forest.payload? id = some p) (ho : isOrdinary p = true)
    (h : r.Accounts env (env.forest.parts id)) : r.Accounts env [id] where
  settled a hr x hx := by
    obtain rfl := List.mem_singleton.1 hx
    exact .of_parts hp ho (h.settled a hr)
  stranded span hr := by
    obtain ⟨c, hc, inner, x, hvisits, hstranded⟩ := h.stranded span hr
    exact ⟨id, List.mem_singleton_self id, inner, x, .part hc hvisits, hstranded⟩

theorem expr {e : Expr} (he : env.forest.expr? id = some e) (ho : isOrdinary (.expr e) = true)
    (h : r.Accounts env (env.forest.exprParts e)) : r.Accounts env [id] := by
  have hp := Forest.payload?_of_expr? he
  apply node hp ho
  rw [Forest.parts, hp]
  exact h

theorem argument {a : Argument} (ha : env.forest.argument? id = some a)
    (h : r.Accounts env [a.expression]) : r.Accounts env [id] := by
  have hp := Forest.payload?_of_argument? ha
  apply node hp rfl
  rw [Forest.parts, hp]
  exact h

theorem initializer {value : Nat} (hi : env.forest.initializer? id = some (.expression value))
    (h : r.Accounts env [value]) : r.Accounts env [id] := by
  have hp := Forest.payload?_of_initializer? hi
  apply node hp rfl
  rw [Forest.parts, hp]
  exact h

theorem aggregate {elements : Option Nat}
    (hi : env.forest.initializer? id = some (.aggregate elements))
    (h : r.Accounts env (env.forest.elements elements)) : r.Accounts env [id] := by
  have hp := Forest.payload?_of_initializer? hi
  apply node hp rfl
  rw [Forest.parts, hp]
  exact h

theorem stmt {s : Stmt} (hs : env.forest.stmt? id = some s) (ho : isOrdinary (.stmt s) = true)
    (h : r.Accounts env (env.forest.stmtParts s)) : r.Accounts env [id] := by
  have hp := Forest.payload?_of_stmt? hs
  apply node hp ho
  rw [Forest.parts, hp]
  exact h

theorem decl {d : Decl} (hd : env.forest.decl? id = some d)
    (h : r.Accounts env (env.forest.declParts d)) : r.Accounts env [id] := by
  have hp := Forest.payload?_of_decl? hd
  apply node hp rfl
  rw [Forest.parts, hp]
  exact h

end Result.Accounts

theorem Lower.Accounts.expr {e : Expr} (he : env.forest.expr? id = some e)
    (ho : isOrdinary (.expr e) = true) (h : m.Accounts env (env.forest.exprParts e)) :
    m.Accounts env [id] :=
  fun state => (h state).expr he ho

theorem Lower.Accounts.stmt {s : Stmt} (hs : env.forest.stmt? id = some s)
    (ho : isOrdinary (.stmt s) = true) (h : m.Accounts env (env.forest.stmtParts s)) :
    m.Accounts env [id] :=
  fun state => (h state).stmt hs ho

end Nodes

/-! ## Names and types -/

section Names

variable {env : Env}

open Result

theorem payload?_eq_none {f : Forest} {id : Nat} (h : ¬ id < f.size) : f.payload? id = none := by
  have hnone : f.node? id = none := Array.getElem?_eq_none (Nat.le_of_not_lt h)
  rw [Forest.payload?, hnone]
  rfl

theorem elsewhere_nameText (env : Env) (id : Nat) : (env.nameText id).Fails IsElsewhere := by
  unfold Env.nameText
  split
  · exact fails_ok
  · exact elsewhere_unsupported

theorem elsewhere_qualifiedText (id : Nat) : (env.qualifiedText id).Fails IsElsewhere := by
  by_cases h : id < env.forest.size
  · exact elsewhere_of_blames (blames_qualifiedText h)
  · have hnone : env.forest.name? id = none := by rw [Forest.name?, payload?_eq_none h]
    rw [Env.qualifiedText]
    split <;> first
      | exact elsewhere_unsupported
      | simp_all

theorem elsewhere_lowerType (id : Nat) : (env.lowerType id).Fails IsElsewhere := by
  by_cases h : id < env.forest.size
  · exact elsewhere_of_blames (blames_lowerType h)
  · have hnone : env.forest.type? id = none := by rw [Forest.type?, payload?_eq_none h]
    rw [Env.lowerType]
    split <;> first
      | exact elsewhere_unsupported
      | simp_all

theorem elsewhere_variableType (env : Env) (declared : Nat) (asType : Option Nat) :
    (env.variableType declared asType).Fails IsElsewhere := by
  unfold Env.variableType
  split
  cases asType with
  | some id =>
    refine (elsewhere_lowerType id).bind fun type => ?_
    split <;> exact fails_ok
  | none =>
    dsimp only
    split <;> (refine fails_ok.bind fun type => ?_; split <;> exact fails_ok)

theorem elsewhere_elementType (element : Option Nat) :
    (env.elementType element).Fails IsElsewhere := by
  cases element with
  | none => exact fails_ok
  | some id => exact elsewhere_lowerType id

theorem elsewhere_methodReference (id : Nat) (e : Target.Expr) :
    (env.methodReference id e).Fails IsElsewhere := by
  unfold Env.methodReference
  split
  · exact fails_ok
  · exact fails_ok
  · exact elsewhere_unsupported

end Names

/-! ## Expressions -/

section Exprs

variable {env : Env} {id : Nat}

open Result

theorem settled_of_literalInt? {n : Int64} (h : env.literalInt? id = some n) :
    Settled env id := by
  induction id using Env.literalInt?.induct env generalizing n with
  | case1 id value base suffix hexpr => exact .expr hexpr rfl fun c hc => by cases hc
  | case2 id operand hexpr ih =>
    rw [Env.literalInt?, hexpr] at h
    exact .expr hexpr rfl (List.forall_mem_singleton.2 (ih h))
  | case3 id operand hexpr ih =>
    rw [Env.literalInt?, hexpr] at h
    obtain ⟨m, hm, -⟩ := Option.bind_eq_some_iff.1 h
    exact .expr hexpr rfl (List.forall_mem_singleton.2 (ih hm))
  | case4 id h1 h2 h3 =>
    rw [Env.literalInt?] at h
    split at h <;> simp_all

theorem accounts_literalLength {bound : Nat} (length : Option Int64)
    (h : Settled env bound) : (env.literalLength bound length).Accounts env [bound] := by
  unfold Env.literalLength
  split
  · exact accounts_of_settled (List.forall_mem_singleton.2 h)
  · exact accounts_error fun span herror => by cases herror

/-- What the lowering of the expression accounts for. -/
def AccountsFor (env : Env) (id : Nat) : Prop := (env.lowerExpr id).Accounts env [id]

theorem accounts_boundLength_of {bound : Nat} (ih : AccountsFor env bound) :
    (env.boundLength bound).Accounts env [bound] := by
  rw [Env.boundLength]
  split
  · next hexpr =>
    split
    · next hl hu =>
      apply accounts_literalLength
      have hleft := settled_of_literalInt? hl
      have hright := settled_of_literalInt? hu
      exact .expr hexpr rfl (List.forall_mem_cons.2 ⟨hleft, List.forall_mem_singleton.2 hright⟩)
    · exact ih.bind_ok
  · split
    · next hu => exact accounts_literalLength _ (settled_of_literalInt? hu)
    · exact ih.bind_ok

theorem accounts_boundLengths_of {bounds : Option Nat}
    (ih : ∀ c, bounds = some c → ∀ x < c, AccountsFor env x) :
    (env.boundLengths bounds).Accounts env (env.forest.elements bounds) := by
  cases bounds with
  | none =>
    rw [Env.boundLengths]
    exact accounts_ok
  | some c =>
    rw [Env.boundLengths]
    apply accounts_mapM_attach
    rintro ⟨a, ha⟩
    dsimp only
    split
    · next argument hargument =>
      have hlt := Forest.lt_of_argument_of_mem_elements ha hargument
      exact .argument hargument (accounts_boundLength_of (ih c rfl _ (by omega)))
    · exact accounts_unsupported

theorem accounts_bounds_of {type rank : Nat} {element bounds : Option Nat}
    (harray : env.forest.type? type = some (.array element rank bounds))
    (ih : ∀ x < type, AccountsFor env x) :
    (env.boundLengths bounds).Accounts env (env.forest.boundsOf type) := by
  rw [Forest.boundsOf, harray]
  apply accounts_boundLengths_of
  intro c hc x hx
  exact ih x (Nat.lt_trans hx (Forest.bounds_lt harray c hc))

theorem accounts_lowerArguments_of {arguments : Option Nat}
    (ih : ∀ c, arguments = some c → ∀ x < c, AccountsFor env x) :
    (env.lowerArguments arguments).Accounts env (env.forest.elements arguments) := by
  cases arguments with
  | none =>
    rw [Env.lowerArguments]
    exact accounts_ok
  | some c =>
    rw [Env.lowerArguments]
    split
    · next hnone =>
      have hempty : env.forest.elements (some c) = [] := by
        rw [Forest.elements, Option.bind_some, hnone]
      rw [hempty]
      exact accounts_ok
    · next value hvalue =>
      have helements : env.forest.elements (some c) = value.present := by
        rw [Forest.elements, Option.bind_some, hvalue]
      rw [helements]
      refine (accounts_mapM (p := fun x => x.1.toList) ?_).congr ?_
      · rintro ⟨element, hmem⟩ _
        cases element with
        | none => exact accounts_ok
        | some a =>
          dsimp only
          split
          · next expression hargument =>
            have hlt : expression + 1 < c := Forest.lt_of_argument_of_mem hvalue hmem hargument
            exact .argument hargument (ih c rfl expression (by omega))
          · exact accounts_unsupported
      · intro x
        simp [Collection.present]

theorem accounts_lowerAggregate_of {initializer : Nat}
    (ih : ∀ x < initializer, AccountsFor env x) :
    (env.lowerAggregate initializer).Accounts env [initializer] := by
  rw [Env.lowerAggregate]
  split
  · next hinitializer => exact .aggregate hinitializer accounts_ok
  · next c hinitializer =>
    apply Accounts.aggregate hinitializer
    apply accounts_mapM_attach
    rintro ⟨element, hmem⟩
    dsimp only
    split
    · next expression hexpression =>
      have h1 := Forest.lt_of_initializer hinitializer (c := c)
        (by simp [Initializer.slots, Slot.opt])
      have h2 := Forest.lt_of_mem_elements hmem
      have h3 := Forest.lt_of_initializer hexpression (c := expression)
        (by simp [Initializer.slots, Slot.expr, Slot.one])
      exact .initializer hexpression (ih expression (by omega))
    · exact accounts_unsupported
  · exact accounts_unsupported

theorem BareAccess.lowerExpr {name : Nat} {build : Target.Expr → String → Target.Expr}
    (h : BareAccess env.forest id name build) :
    env.lowerExpr id = do return build (← env.subject id) (← env.nameText name) := by
  cases h with
  | member h | lookup h => rw [Env.lowerExpr, h]

/-- An access without a qualifier is settled if it has a lowering, and stranded without a
subject. -/
theorem accountsFor_of_bare {name : Nat} {build : Target.Expr → String → Target.Expr}
    (h : BareAccess env.forest id name build) : AccountsFor env id where
  settled e he x hx := by
    obtain rfl := List.mem_singleton.1 hx
    intro inner y hvisits hbare
    cases hvisits with
    | here => exact ⟨e, he⟩
    | part hc =>
      rw [h.parts_eq_nil] at hc
      cases hc
    | within hstmt => exact absurd hstmt (IsBare.ne_stmt ⟨name, build, h⟩)
  stranded span he := by
    refine ⟨id, List.mem_singleton_self id, env, id, .here, ⟨name, build, h⟩, ?_⟩
    rw [h.lowerExpr, Env.subject] at he
    cases hsubjects : env.subjects with
    | nil =>
      rw [hsubjects] at he
      cases he
      exact ⟨rfl, rfl⟩
    | cons innermost rest =>
      rw [hsubjects] at he
      have hname : Result.Fails (do return build innermost (← env.nameText name)) IsElsewhere :=
        (elsewhere_nameText env name).bind fun _ => fails_ok
      exact absurd rfl (hname _ he span)

theorem accounts_lowerExpr_below {expr : Expr} {c : Nat} (ih : ∀ x < id, AccountsFor env x)
    (hexpr : env.forest.expr? id = some expr) (hc : c ∈ expr.slots.map Slot.id) :
    (env.lowerExpr c).Accounts env [c] :=
  ih c (Forest.lt_of_expr hexpr hc)

theorem accounts_lowerArguments_below {expr : Expr} {arguments : Option Nat}
    (ih : ∀ x < id, AccountsFor env x) (hexpr : env.forest.expr? id = some expr)
    (hslot : ∀ c, arguments = some c → c ∈ expr.slots.map Slot.id) :
    (env.lowerArguments arguments).Accounts env (env.forest.elements arguments) := by
  apply accounts_lowerArguments_of
  intro c hc x hx
  exact ih x (Nat.lt_trans hx (Forest.lt_of_expr hexpr (hslot c hc)))

theorem elsewhere_named {α : Type} (name : Nat) (build : String → α) :
    Result.Fails (do return build (← env.nameText name)) IsElsewhere :=
  (elsewhere_nameText env name).bind fun _ => fails_ok

theorem elsewhere_typed {α : Type} (type : Nat) (build : Target.Ty → α) :
    Result.Fails (do return build (← env.lowerType type)) IsElsewhere :=
  (elsewhere_lowerType type).bind fun _ => fails_ok

theorem accountsFor_qualified {qualifier : Option Nat} {dot : Location} {name : Nat}
    (ih : ∀ x < id, AccountsFor env x)
    (hexpr : env.forest.expr? id = some (.qualified qualifier dot name)) : AccountsFor env id := by
  cases qualifier with
  | none => exact accountsFor_of_bare (.member hexpr)
  | some qualifier =>
    have hqualifier := accounts_lowerExpr_below (c := qualifier) ih hexpr
      (by simp [Expr.slots, Slot.opt])
    rw [AccountsFor, Env.lowerExpr, hexpr]
    exact .expr hexpr rfl (hqualifier.bind_fails fun target => elsewhere_named name _)

theorem accountsFor_lookup {qualifier : Option Nat} {bang : Location} {name : Nat}
    (ih : ∀ x < id, AccountsFor env x)
    (hexpr : env.forest.expr? id = some (.dictionaryLookup qualifier bang name)) :
    AccountsFor env id := by
  cases qualifier with
  | none => exact accountsFor_of_bare (.lookup hexpr)
  | some qualifier =>
    have hqualifier := accounts_lowerExpr_below (c := qualifier) ih hexpr
      (by simp [Expr.slots, Slot.opt])
    rw [AccountsFor, Env.lowerExpr, hexpr]
    exact .expr hexpr rfl (hqualifier.bind_fails fun target => elsewhere_named name
      fun text => Target.Expr.index target [.literal (.string text)])

theorem accountsFor_call {target : Nat} {arguments known : Option Nat}
    (ih : ∀ x < id, AccountsFor env x)
    (hexpr : env.forest.expr? id = some (.callOrIndex target arguments known)) :
    AccountsFor env id := by
  have htarget := accounts_lowerExpr_below (c := target) ih hexpr
    (by simp [Expr.slots, Slot.expr, Slot.one])
  have harguments :
      (env.lowerArguments arguments).Accounts env (env.forest.elements arguments) :=
    accounts_lowerArguments_below ih hexpr
      (by rintro c rfl; simp [Expr.slots, Slot.arguments, Slot.opt])
  rw [AccountsFor, Env.lowerExpr, hexpr]
  refine .expr hexpr rfl ?_
  exact (elsewhere_of_blames (blames_targetsArray _ _)).bind_accounts fun _ =>
    htarget.bind fun _ => harguments.bind_ok

theorem accountsFor_construct {type : Nat} {arguments : Option Nat}
    (ih : ∀ x < id, AccountsFor env x)
    (hexpr : env.forest.expr? id = some (.construct type arguments)) : AccountsFor env id := by
  have harguments :
      (env.lowerArguments arguments).Accounts env (env.forest.elements arguments) :=
    accounts_lowerArguments_below ih hexpr
      (by rintro c rfl; simp [Expr.slots, Slot.arguments, Slot.opt])
  rw [AccountsFor, Env.lowerExpr, hexpr]
  exact .expr hexpr rfl ((elsewhere_lowerType type).bind_accounts fun _ => harguments.bind_ok)

/-- The bounds of the type come before the list of elements. -/
theorem accountsFor_constructArray {type initializer : Nat} (ih : ∀ x < id, AccountsFor env x)
    (hexpr : env.forest.expr? id = some (.constructArray type initializer)) :
    AccountsFor env id := by
  have htype : type < id := Forest.lt_of_expr hexpr (by simp [Expr.slots, Slot.one])
  have hinit : initializer < id := Forest.lt_of_expr hexpr (by simp [Expr.slots, Slot.one])
  rw [AccountsFor, Env.lowerExpr, hexpr]
  dsimp only
  split
  · next element rank bounds harray =>
    have hbounds := accounts_bounds_of harray fun x hx => ih x (by omega)
    have helements : (env.lowerAggregate initializer).Accounts env [initializer] :=
      accounts_lowerAggregate_of fun x hx => ih x (by omega)
    refine .expr hexpr rfl ?_
    exact (elsewhere_elementType element).bind_accounts fun _ =>
      hbounds.bind fun _ => helements.bind_ok
  · exact accounts_unsupported

theorem accountsFor_unary {op : Operator} {operand : Nat} (ih : ∀ x < id, AccountsFor env x)
    (hexpr : env.forest.expr? id = some (.unary op operand)) : AccountsFor env id := by
  have hoperand := accounts_lowerExpr_below (c := operand) ih hexpr
    (by simp [Expr.slots, Slot.expr, Slot.one])
  rw [AccountsFor, Env.lowerExpr, hexpr]
  dsimp only
  split
  · exact .expr hexpr rfl hoperand.bind_ok
  · exact accounts_unsupported

theorem accountsFor_binary {op : Operator} {place : Location} {left right : Nat}
    (ih : ∀ x < id, AccountsFor env x)
    (hexpr : env.forest.expr? id = some (.binary op place left right)) : AccountsFor env id := by
  have hleft := accounts_lowerExpr_below (c := left) ih hexpr
    (by simp [Expr.slots, Slot.expr, Slot.one])
  have hright := accounts_lowerExpr_below (c := right) ih hexpr
    (by simp [Expr.slots, Slot.expr, Slot.one])
  rw [AccountsFor, Env.lowerExpr, hexpr]
  apply Accounts.expr hexpr rfl
  dsimp only
  split
  · split
    · exact hleft.bind fun _ => hright.bind_ok
    · exact accounts_unsupported
  · refine hleft.bind fun _ => hright.bind_fails fun _ => ?_
    split
    · exact fails_ok
    · exact elsewhere_unsupported

theorem accountsFor (env : Env) (id : Nat) : AccountsFor env id := by
  induction id using Nat.strongRecOn with
  | ind id ih =>
    cases hexpr : env.forest.expr? id with
    | none =>
      rw [AccountsFor, Env.lowerExpr, hexpr]
      exact accounts_unsupported
    | some expr =>
      have operand := fun c => accounts_lowerExpr_below (c := c) ih hexpr
      cases expr with
      | qualified => exact accountsFor_qualified ih hexpr
      | dictionaryLookup => exact accountsFor_lookup ih hexpr
      | callOrIndex => exact accountsFor_call ih hexpr
      | construct => exact accountsFor_construct ih hexpr
      | constructArray => exact accountsFor_constructArray ih hexpr
      | unary => exact accountsFor_unary ih hexpr
      | binary => exact accountsFor_binary ih hexpr
      | literal | nothing =>
        rw [AccountsFor, Env.lowerExpr, hexpr]
        exact .expr hexpr rfl accounts_ok
      | self =>
        rw [AccountsFor, Env.lowerExpr, hexpr]
        dsimp only
        split <;> exact .expr hexpr rfl accounts_ok
      | simpleName name =>
        rw [AccountsFor, Env.lowerExpr, hexpr]
        exact .expr hexpr rfl (accounts_nil (elsewhere_named name _))
      | typeReference type | getType type =>
        rw [AccountsFor, Env.lowerExpr, hexpr]
        exact .expr hexpr rfl (accounts_nil (elsewhere_typed type _))
      | cast inner type =>
        rw [AccountsFor, Env.lowerExpr, hexpr]
        have hinner := operand inner (by simp [Expr.slots, Slot.expr, Slot.one])
        exact .expr hexpr rfl ((elsewhere_lowerType type).bind_accounts fun _ => hinner.bind_ok)
      | intrinsicCast target inner =>
        rw [AccountsFor, Env.lowerExpr, hexpr]
        exact .expr hexpr rfl (operand inner (by simp [Expr.slots, Slot.expr, Slot.one])).bind_ok
      | typeTest inner type =>
        rw [AccountsFor, Env.lowerExpr, hexpr]
        have hinner := operand inner (by simp [Expr.slots, Slot.expr, Slot.one])
        exact .expr hexpr rfl (hinner.bind_fails fun _ => elsewhere_typed type _)
      | addressOf inner =>
        rw [AccountsFor, Env.lowerExpr, hexpr]
        have hinner := operand inner (by simp [Expr.slots, Slot.expr, Slot.one])
        exact .expr hexpr rfl (hinner.bind_fails fun method => elsewhere_methodReference id method)
      | parenthetical inner =>
        rw [AccountsFor, Env.lowerExpr, hexpr]
        exact .expr hexpr rfl (operand inner (by simp [Expr.slots, Slot.expr, Slot.one]))
      | genericQualified =>
        rw [AccountsFor, Env.lowerExpr, hexpr]
        exact accounts_unsupported

theorem accounts_lowerArguments (env : Env) (arguments : Option Nat) :
    (env.lowerArguments arguments).Accounts env (env.forest.elements arguments) :=
  accounts_lowerArguments_of fun _ _ x _ => accountsFor env x

theorem accounts_boundLengths (bounds : Option Nat) :
    (env.boundLengths bounds).Accounts env (env.forest.elements bounds) :=
  accounts_boundLengths_of fun _ _ x _ => accountsFor env x

end Exprs

/-! ## Declared variables -/

section Variables

variable {env : Env}

open Result

theorem accounts_initialValue (initializer : Nat) (type : Target.Ty) :
    (env.initialValue initializer type).Accounts env [initializer] := by
  unfold Env.initialValue
  split
  · next hinit => exact .initializer hinit (accountsFor env _)
  · exact (accounts_lowerAggregate_of fun x _ => accountsFor env x).bind_ok
  · exact accounts_unsupported

theorem accounts_allocation (declared : Nat) (type : Target.Ty) :
    (env.allocation declared type).Accounts env (env.forest.declaredBounds declared) := by
  unfold Env.allocation Forest.declaredBounds
  cases hname : env.forest.name? declared with
  | none => exact accounts_ok
  | some name =>
    cases name with
    | declared inner arrayType =>
      cases arrayType with
      | none => exact accounts_ok
      | some arrayType =>
        dsimp only
        rw [Forest.boundsOf]
        cases htype : env.forest.type? arrayType with
        | none => exact accounts_ok
        | some written =>
          cases written with
          | array element rank bounds =>
            cases bounds with
            | none => exact accounts_ok
            | some bounds => exact (accounts_boundLengths _).bind_ok
          | _ => exact accounts_ok
    | _ => exact accounts_ok

/-- An initial value goes before the arguments of a new object, and these before bounds. -/
theorem accounts_declaredVariables (declarator : Nat) :
    (env.declaredVariables declarator).Accounts env [declarator] := by
  unfold Env.declaredVariables
  split
  · next d hd =>
    have hp := payload?_of_declarator? hd
    apply Accounts.node hp rfl
    rw [Forest.parts, hp]
    refine accounts_mapM fun declared _ => ?_
    unfold Env.declaredVariable
    refine (elsewhere_nameText env declared).bind_accounts fun name => ?_
    refine (elsewhere_variableType env declared d.type).bind_accounts fun type => ?_
    cases d.initializer with
    | some initializer => exact (accounts_initialValue initializer type).map.bind_ok
    | none =>
      dsimp only
      split
      · exact (accounts_lowerArguments env d.arguments).bind_fails fun _ =>
          fails_ok.bind fun _ => fails_ok
      · exact (accounts_allocation declared type).bind_ok
  · exact accounts_unsupported

end Variables

end StructuredBasic.Lowering
