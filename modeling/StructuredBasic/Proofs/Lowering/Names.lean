import StructuredBasic.Proofs.Lowering.Expressions
import StructuredBasic.Proofs.Machine.Faults

/-!
# Names in lowered expressions

A lowered expression mentions names of the source only: the names below the node it comes from, and
those of the subject of a `With` block around it (`Spells.lowerExpr`).
-/

set_option autoImplicit false

namespace StructuredBasic.Target

/-! ## Expressions over some names -/

namespace Expr

/-- Every name that the expression mentions satisfies `P`. -/
def Named (P : String → Prop) (e : Expr) : Prop := ∀ n ∈ e.idents, P n

variable {P : String → Prop}

theorem named_of_nil {e : Expr} (h : e.idents = []) : e.Named P := by
  intro n hn
  rw [h] at hn
  cases hn

theorem named_identsAll {es : List Expr} :
    (∀ n ∈ identsAll es, P n) ↔ ∀ e ∈ es, e.Named P := by
  constructor
  · intro h e he n hn
    exact h n (mem_identsAll.2 ⟨e, he, hn⟩)
  · intro h n hn
    obtain ⟨e, he, hn⟩ := mem_identsAll.1 hn
    exact h e he n hn

@[simp] theorem named_ident {name : String} : (ident name).Named P ↔ P name :=
  List.forall_mem_singleton

@[simp] theorem named_field {target : Expr} {name : String} :
    (field target name).Named P ↔ target.Named P := Iff.rfl

-- The names of an expression are those of its parts one behind the other.
theorem named_with_args {target : Expr} {args : List Expr} :
    (∀ n ∈ target.idents ++ identsAll args, P n) ↔ target.Named P ∧ ∀ e ∈ args, e.Named P :=
  List.forall_mem_append.trans (and_congr_right' named_identsAll)

@[simp] theorem named_invoke_none {method : String} {args : List Expr} :
    (invoke none method args).Named P ↔ ∀ e ∈ args, e.Named P := named_identsAll

@[simp] theorem named_invoke_some {target : Expr} {method : String} {args : List Expr} :
    (invoke (some target) method args).Named P ↔ target.Named P ∧ ∀ e ∈ args, e.Named P :=
  named_with_args

@[simp] theorem named_delegateInvoke {target : Expr} {args : List Expr} :
    (delegateInvoke target args).Named P ↔ target.Named P ∧ ∀ e ∈ args, e.Named P :=
  named_with_args

@[simp] theorem named_index {target : Expr} {args : List Expr} :
    (index target args).Named P ↔ target.Named P ∧ ∀ e ∈ args, e.Named P := named_with_args

@[simp] theorem named_arrayCreate_some {type : Ty} {lengths elements : List Expr} :
    (arrayCreate type lengths (some elements)).Named P ↔
      (∀ e ∈ lengths, e.Named P) ∧ ∀ e ∈ elements, e.Named P :=
  List.forall_mem_append.trans (and_congr named_identsAll named_identsAll)

@[simp] theorem named_arrayCreate_none {type : Ty} {lengths : List Expr} :
    (arrayCreate type lengths none).Named P ↔ ∀ e ∈ lengths, e.Named P := by
  have hsame : (arrayCreate type lengths none).idents = identsAll lengths := List.append_nil _
  rw [Named, hsame, named_identsAll]

@[simp] theorem named_objectCreate {type : Ty} {args : List Expr} :
    (objectCreate type args).Named P ↔ ∀ e ∈ args, e.Named P := named_identsAll

@[simp] theorem named_cast {kind : CastKind} {type : Ty} {operand : Expr} :
    (cast kind type operand).Named P ↔ operand.Named P := Iff.rfl

@[simp] theorem named_binary {op : BinaryOp} {left right : Expr} :
    (binary op left right).Named P ↔ left.Named P ∧ right.Named P := List.forall_mem_append

@[simp] theorem named_unary {op : UnaryOp} {operand : Expr} :
    (unary op operand).Named P ↔ operand.Named P := Iff.rfl

@[simp] theorem named_typeIs {operand : Expr} {type : Ty} :
    (typeIs operand type).Named P ↔ operand.Named P := Iff.rfl

@[simp] theorem named_methodRef_none {method : String} : (methodRef none method).Named P := by
  exact named_of_nil rfl

@[simp] theorem named_methodRef_some {target : Expr} {method : String} :
    (methodRef (some target) method).Named P ↔ target.Named P := Iff.rfl

@[simp] theorem named_literal {value : Literal} : (literal value).Named P := named_of_nil rfl

@[simp] theorem named_typeRef {type : Ty} : (typeRef type).Named P := named_of_nil rfl

@[simp] theorem named_typeOf {type : Ty} : (typeOf type).Named P := named_of_nil rfl

@[simp] theorem named_defaultOf {type : Ty} : (defaultOf type).Named P := named_of_nil rfl

@[simp] theorem named_null : null.Named P := named_of_nil rfl

@[simp] theorem named_self : self.Named P := named_of_nil rfl

@[simp] theorem named_base : base.Named P := named_of_nil rfl

end Expr

end StructuredBasic.Target

namespace StructuredBasic.Lowering

open Syntax

variable {P : String → Prop}

theorem named_invocation {callee : Target.Expr} {args : List Target.Expr} (hc : callee.Named P)
    (ha : ∀ e ∈ args, e.Named P) : (invocation callee args).Named P := by
  unfold invocation
  split
  · simpa using ha
  · exact Target.Expr.named_invoke_some.2 ⟨hc, ha⟩
  · split
    · exact hc
    · exact Target.Expr.named_delegateInvoke.2 ⟨hc, ha⟩
  · exact Target.Expr.named_delegateInvoke.2 ⟨hc, ha⟩

theorem named_binaryOperation {mode : Target.CompareMode} {op : Operator}
    {left right e : Target.Expr} (hl : left.Named P) (hr : right.Named P)
    (h : binaryOperation? mode op left right = some e) : e.Named P := by
  unfold binaryOperation? at h
  split at h <;> cases h
  · exact Target.Expr.named_binary.2 ⟨hl, hr⟩
  · simp [Target.Expr.staticCall, hl, hr]
  · simp [Target.Expr.staticCall, compareArgument, hl, hr]

theorem named_zeroValue (type : Target.Ty) : (zeroValue type).Named P := by
  unfold zeroValue
  split
  · exact Target.Expr.named_literal
  · split
    · exact Target.Expr.named_literal
    · exact Target.Expr.named_defaultOf
  · exact Target.Expr.named_defaultOf

/-! ## Names of the source -/

/-- The simple names below a node and the names of the subjects in effect satisfy `P`. -/
structure Spells (P : String → Prop) (env : Env) (node : Nat) : Prop where
  names : ∀ d ∈ env.forest.descendants node, ∀ text suffix escaped,
    env.forest.name? d = some (.simple text suffix escaped) → P text
  subjects : ∀ e ∈ env.subjects, e.Named P

section Source

variable {env : Env} {node id : Nat}

theorem simple_of_nameText {f : Forest} {id : Nat} {text : String}
    (h : f.nameText? id = some text) :
    ∃ d ∈ f.descendants id, ∃ suffix escaped, f.name? d = some (.simple text suffix escaped) := by
  induction id using Nat.strongRecOn with
  | ind id ih =>
    have below : ∀ {payload : Payload} {name : Nat}, f.payload? id = some payload →
        (∀ kind, name ∈ (payload.slots kind).map Slot.id) → f.nameText? name = some text →
        ∃ d ∈ f.descendants id, ∃ suffix escaped,
          f.name? d = some (.simple text suffix escaped) := by
      intro payload name hp hs ht
      have hchild := Forest.mem_children_of_slot hp hs
      obtain ⟨d, hd, hsimple⟩ := ih name (Forest.lt_of_mem_children hchild) ht
      exact ⟨d, Forest.mem_descendants_of_child hchild hd, hsimple⟩
    rw [Forest.nameText?] at h
    split at h
    case h_1 suffix escaped hp =>
      cases h
      refine ⟨id, Forest.mem_descendants_self f id, suffix, escaped, ?_⟩
      simp only [Forest.name?, hp]
    case h_2 hp =>
      exact below hp (fun _ => by simp [Payload.slots, Name.slots, Slot.one]) h
    case h_3 hp =>
      exact below hp (fun _ => by simp [Payload.slots, Name.slots, Slot.one]) h
    case h_4 hp =>
      exact below hp (fun _ => by simp [Payload.slots, Expr.slots, Slot.one]) h
    case h_5 => cases h

theorem Spells.nameText (h : Spells P env node) (hid : id ∈ env.forest.descendants node)
    {text : String} (ht : env.nameText id = .ok text) : P text := by
  unfold Env.nameText at ht
  split at ht
  · next htext =>
    cases ht
    obtain ⟨d, hd, suffix, escaped, hsimple⟩ := simple_of_nameText htext
    exact h.names d (Forest.mem_descendants_trans hid hd) text suffix escaped hsimple
  · exact absurd ht unsupported_ne_ok

theorem Spells.within (h : Spells P env node) {subject : Target.Expr} (hs : subject.Named P) :
    Spells P (env.within subject) node :=
  ⟨h.names, List.forall_mem_cons.2 ⟨hs, h.subjects⟩⟩

theorem Spells.subject (h : Spells P env node) {e : Target.Expr} (he : env.subject id = .ok e) :
    e.Named P := by
  unfold Env.subject at he
  split at he
  · next innermost rest hsubjects =>
    cases he
    exact h.subjects _ (by rw [hsubjects]; exact List.mem_cons_self)
  · cases he

theorem named_methodReference {callee e : Target.Expr} (hc : callee.Named P)
    (h : env.methodReference id callee = .ok e) : e.Named P := by
  unfold Env.methodReference at h
  split at h
  · cases h
    exact Target.Expr.named_methodRef_none
  · cases h
    exact hc
  · exact absurd h unsupported_ne_ok

theorem LowersLength.named {e : Target.Expr} (h : LowersLength env id e)
    (operand : ∀ x e, Operand env id x e → e.Named P) : e.Named P := by
  cases h with
  | known => exact Target.Expr.named_literal
  | plain h => exact operand _ _ h
  | shifted h => exact Target.Expr.named_binary.2 ⟨operand _ _ h, Target.Expr.named_literal⟩

/-- Lowered expressions mention names of the source only. -/
theorem Spells.lowerExpr (h : Spells P env node) (hid : id ∈ env.forest.descendants node)
    {e : Target.Expr} (he : env.lowerExpr id = .ok e) : e.Named P := by
  induction id using Nat.strongRecOn generalizing e with
  | ind id ih =>
    have operand : ∀ x e, Operand env id x e → e.Named P :=
      fun x _ hx => ih x hx.lt (Forest.mem_descendants_trans hid hx.below) hx.lowered
    have arguments : ∀ {list : Option Nat} {args : List Target.Expr},
        LowersArguments env id list args → ∀ e ∈ args, e.Named P := by
      intro list args hargs e he
      rcases hargs.operand e he with rfl | ⟨x, hx⟩
      · exact Target.Expr.named_field.2 Target.Expr.named_typeRef
      · exact operand x e hx
    cases lowersExpr_of_ok he with
    | literal => exact Target.Expr.named_literal
    | nothing => exact Target.Expr.named_null
    | self => exact Target.Expr.named_self
    | base => exact Target.Expr.named_base
    | @simpleName name _ hexpr hn =>
      have hname : name ∈ env.forest.children id :=
        Forest.mem_children_of_expr hexpr (by simp [Expr.slots, Slot.one])
      exact Target.Expr.named_ident.2 (h.nameText (Forest.mem_descendants_child hid hname) hn)
    | typeReference => exact Target.Expr.named_typeRef
    | qualified _ hq => exact Target.Expr.named_field.2 (operand _ _ hq)
    | member _ hs => exact Target.Expr.named_field.2 (h.subject hs)
    | lookup _ hq => simpa using operand _ _ hq
    | memberLookup _ hs => simpa using h.subject hs
    | index _ _ hc ha => exact Target.Expr.named_index.2 ⟨operand _ _ hc, arguments ha⟩
    | call _ _ hc ha => exact named_invocation (operand _ _ hc) (arguments ha)
    | construct _ _ ha => exact Target.Expr.named_objectCreate.2 (arguments ha)
    | constructArray _ _ hl helements =>
      refine Target.Expr.named_arrayCreate_some.2 ⟨fun e he => (hl e he).named operand, ?_⟩
      intro e he
      obtain ⟨x, hx⟩ := helements e he
      exact operand x e hx
    | cast _ _ ho => exact Target.Expr.named_cast.2 (operand _ _ ho)
    | intrinsicCast _ ho => exact Target.Expr.named_cast.2 (operand _ _ ho)
    | typeTest _ ho => exact Target.Expr.named_typeIs.2 (operand _ _ ho)
    | getType => exact Target.Expr.named_typeOf
    | addressOf _ ho hm => exact named_methodReference (operand _ _ ho) hm
    | parenthetical _ ho => exact operand _ _ ho
    | unary _ _ ho => exact Target.Expr.named_unary.2 (operand _ _ ho)
    | range _ _ hl hr => exact Target.Expr.named_binary.2 ⟨operand _ _ hr, operand _ _ hl⟩
    | binary _ _ hl hr hvalue =>
      exact named_binaryOperation (operand _ _ hl) (operand _ _ hr) hvalue

theorem Spells.operand (h : Spells P env node) (hid : id ∈ env.forest.descendants node) (x : Nat)
    (e : Target.Expr) (hx : Operand env id x e) : e.Named P :=
  h.lowerExpr (Forest.mem_descendants_trans hid hx.below) hx.lowered

theorem Spells.lowerArguments (h : Spells P env node) {arguments : Option Nat}
    (hsub : ∀ c, arguments = some c → c ∈ env.forest.descendants node) {es : List Target.Expr}
    (hes : env.lowerArguments arguments = .ok es) : ∀ e ∈ es, e.Named P := by
  intro e he
  rcases forall_lowerArguments hes e he with rfl | ⟨c, hc, x, hx⟩
  · exact Target.Expr.named_field.2 Target.Expr.named_typeRef
  · exact h.operand (hsub c hc) x e hx

theorem Spells.boundLengths (h : Spells P env node) {bounds : Option Nat}
    (hsub : ∀ c, bounds = some c → c ∈ env.forest.descendants node) {es : List Target.Expr}
    (hes : env.boundLengths bounds = .ok es) : ∀ e ∈ es, e.Named P := by
  intro e he
  obtain ⟨c, hc, hlength⟩ := forall_boundLengths hes e he
  exact hlength.named (h.operand (hsub c hc))

end Source

/-! ## Declared variables -/

section Variables

variable {env : Env} {node : Nat}

theorem payload?_of_declarator? {f : Forest} {id : Nat} {d : Declarator}
    (h : f.declarator? id = some d) : f.payload? id = some (.declarator d) := by
  unfold Forest.declarator? at h
  split at h
  · next hp => rw [hp]; cases h; rfl
  · cases h

theorem mem_children_of_declarator {f : Forest} {id c : Nat} {d : Declarator}
    (h : f.declarator? id = some d) (hc : c ∈ d.slots.map Slot.id) : c ∈ f.children id :=
  Forest.mem_children_of_slot (payload?_of_declarator? h) fun _ => hc

theorem Spells.initialValue (h : Spells P env node) {initializer : Nat} {type : Target.Ty}
    (hid : initializer ∈ env.forest.descendants node) {e : Target.Expr}
    (he : env.initialValue initializer type = .ok e) : e.Named P := by
  unfold Env.initialValue at he
  split at he
  · next expression hinit =>
    refine h.lowerExpr (Forest.mem_descendants_child hid ?_) he
    exact Forest.mem_children_of_initializer hinit
      (by simp [Initializer.slots, Slot.expr, Slot.one])
  · simp only [Result.bind_ok, Result.pure_ok] at he
    obtain ⟨elements, helements, rfl⟩ := he
    have hall : ∀ e ∈ elements, e.Named P := by
      intro e he
      obtain ⟨x, hx⟩ := forall_lowerAggregate helements e he
      exact h.operand hid x e hx
    simpa using hall
  · exact absurd he unsupported_ne_ok

theorem Spells.allocation (h : Spells P env node) {declared : Nat} {type : Target.Ty}
    (hid : declared ∈ env.forest.descendants node) {e : Target.Expr}
    (he : env.allocation declared type = .ok (some e)) : e.Named P := by
  unfold Env.allocation at he
  split at he
  · next arrayType hname =>
    have harray := Forest.mem_descendants_child hid
      (Forest.mem_children_of_name hname (c := arrayType) (by simp [Name.slots, Slot.opt]))
    split at he
    · next bounds htype =>
      simp only [Result.bind_ok, Result.pure_ok, Option.some.injEq] at he
      obtain ⟨lengths, hlengths, rfl⟩ := he
      refine Target.Expr.named_arrayCreate_none.2 (h.boundLengths ?_ hlengths)
      rintro c ⟨⟩
      exact Forest.mem_descendants_child harray
        (Forest.mem_children_of_type htype (by simp [TypeName.slots, Slot.opt]))
    · cases he
  · cases he

theorem Spells.declaredVariables (h : Spells P env node) {declarator : Nat}
    (hid : declarator ∈ env.forest.descendants node) {vs : List DeclaredVariable}
    (hvs : env.declaredVariables declarator = .ok vs) :
    ∀ v ∈ vs, ∀ e, v.init = some e → e.Named P := by
  unfold Env.declaredVariables at hvs
  split at hvs
  · next d hd =>
    refine Result.forall_mapM_ok (fun declared hmem v hv => ?_) hvs
    have hdeclared : declared ∈ env.forest.descendants node :=
      Forest.mem_descendants_child (Forest.mem_descendants_child hid
        (mem_children_of_declarator hd (by simp [Declarator.slots, Slot.one])))
        (Forest.mem_children_of_elements hmem)
    intro e he
    obtain ⟨_, _, hstarts⟩ := declaredVariable_ok hv
    rw [he] at hstarts
    cases hstarts with
    | value hinit hvalue =>
      refine h.initialValue (Forest.mem_descendants_child hid ?_) hvalue
      exact mem_children_of_declarator hd (by simp [Declarator.slots, hinit, Slot.opt])
    | object _ _ hargs =>
      refine Target.Expr.named_objectCreate.2 (h.lowerArguments ?_ hargs)
      intro c hc
      refine Forest.mem_descendants_child hid (mem_children_of_declarator hd ?_)
      simp [Declarator.slots, hc, Slot.arguments, Slot.opt]
    | array _ _ hallocation => exact h.allocation hdeclared hallocation
  · exact absurd hvs unsupported_ne_ok

end Variables

/-! ## Tests -/

section Tests

variable {env : Env} {node : Nat}

theorem Spells.lowerCondition (h : Spells P env node) {condition : LoopCondition}
    (hid : condition.expression ∈ env.forest.descendants node) {e : Target.Expr}
    (he : env.lowerCondition condition = .ok e) : e.Named P := by
  simp only [Env.lowerCondition, Result.bind_ok, Result.pure_ok] at he
  obtain ⟨test, htest, rfl⟩ := he
  have hnamed := h.lowerExpr hid htest
  unfold loopTest
  split
  · exact hnamed
  · exact Target.Expr.named_unary.2 hnamed

theorem Spells.lowerClause (h : Spells P env node) {clause : Nat} {value : Target.Expr}
    (hv : value.Named P) (hid : clause ∈ env.forest.descendants node) {e : Target.Expr}
    (he : env.lowerClause value clause = .ok e) : e.Named P := by
  have operand : ∀ {c : CaseClause} {x : Nat} {lowered : Target.Expr},
      env.forest.payload? clause = some (.caseClause c) → x ∈ c.slots.map Slot.id →
      env.lowerExpr x = .ok lowered → lowered.Named P := by
    intro c x lowered hp hx hlowered
    refine h.lowerExpr (Forest.mem_descendants_child hid ?_) hlowered
    exact Forest.mem_children_of_slot hp fun _ => hx
  unfold Env.lowerClause at he
  split at he
  · next hp =>
    simp only [Result.bind_ok, Result.pure_ok] at he
    obtain ⟨lowered, hlowered, rfl⟩ := he
    have hl := operand hp (by simp [CaseClause.slots, Slot.expr, Slot.one]) hlowered
    exact Target.Expr.named_binary.2 ⟨hv, hl⟩
  · next hp =>
    simp only [Result.bind_ok, Result.pure_ok] at he
    obtain ⟨lower, hlower, upper, hupper, rfl⟩ := he
    have hl := operand hp (by simp [CaseClause.slots, Slot.expr, Slot.one]) hlower
    have hu := operand hp (by simp [CaseClause.slots, Slot.expr, Slot.one]) hupper
    simp [rangeTest, hv, hl, hu]
  · exact absurd he unsupported_ne_ok

theorem named_conjunction {tests : List Target.Expr} (h : ∀ e ∈ tests, e.Named P)
    {test : Target.Expr} (ht : conjunction? tests = some test) : test.Named P := by
  cases tests with
  | nil => cases ht
  | cons first rest =>
    cases ht
    refine List.foldlRecOn rest _ (h first List.mem_cons_self) fun test hl clause hc => ?_
    exact Target.Expr.named_binary.2 ⟨hl, h clause (List.mem_cons_of_mem _ hc)⟩

theorem Spells.lowerCaseTest (h : Spells P env node) {case clauses : Nat} {value : Target.Expr}
    (hv : value.Named P) (hid : clauses ∈ env.forest.descendants node) {e : Target.Expr}
    (he : env.lowerCaseTest value case clauses = .ok e) : e.Named P := by
  simp only [Env.lowerCaseTest, Result.bind_ok] at he
  obtain ⟨tests, htests, he⟩ := he
  split at he
  · next test htest =>
    cases he
    refine named_conjunction (Result.forall_mapM_ok (fun clause hmem e he => ?_) htests) htest
    exact h.lowerClause hv
      (Forest.mem_descendants_child hid (Forest.mem_children_of_elements hmem)) he
  · exact absurd he unsupported_ne_ok

end Tests

end StructuredBasic.Lowering
