import StructuredBasic.Syntax.Shape

/-!
# Forests of syntax nodes

Nodes live in one array, numbered in order of construction. A node is built after its children and
adopted after it was built, so a child's number is below its parent's: this is part of the type and
is what every walk over the nodes terminates by.
-/

set_option autoImplicit false

namespace StructuredBasic.Syntax

/-- A node with its place, the node that adopted it and the comments attached to it. -/
structure Node where
  kind : Kind
  span : Span
  parent : Option Nat
  comments : List Nat
  payload : Payload

/-- The children of a node: the present slots in order, then the attached comments. -/
def Node.children (n : Node) : List Nat :=
  (n.payload.slots n.kind).map Slot.id ++ n.comments

/-- Nodes in which children come before their parents. -/
structure Forest where
  nodes : Array Node
  child_lt : ∀ (i : Nat) (n : Node), nodes[i]? = some n → ∀ (c : Nat), c ∈ n.children → c < i
  lt_parent : ∀ (i : Nat) (n : Node) (p : Nat), nodes[i]? = some n → n.parent = some p → i < p

namespace Forest

def empty : Forest where
  nodes := #[]
  child_lt := by simp
  lt_parent := by simp

variable (f : Forest)

/-! ## Reading a node -/

/-- The number of nodes, adopted or not. -/
def size : Nat := f.nodes.size

def node? (id : Nat) : Option Node := f.nodes[id]?

/-- All ids in order of construction. -/
def ids : List Nat := List.range f.size

/-- The kind of a node. A number without a node reads as unparsed text. -/
def kind (id : Nat) : Kind :=
  match f.node? id with
  | some n => n.kind
  | none => .syntaxError

def span (id : Nat) : Span :=
  match f.node? id with
  | some n => n.span
  | none => .unknown

def parent? (id : Nat) : Option Nat := (f.node? id).bind Node.parent

def children (id : Nat) : List Nat :=
  match f.node? id with
  | some n => n.children
  | none => []

def comments (id : Nat) : List Nat :=
  match f.node? id with
  | some n => n.comments
  | none => []

def payload? (id : Nat) : Option Payload := (f.node? id).map Node.payload

def expr? (id : Nat) : Option Expr :=
  match f.payload? id with
  | some (.expr value) => some value
  | _ => none

def stmt? (id : Nat) : Option Stmt :=
  match f.payload? id with
  | some (.stmt value) => some value
  | _ => none

def decl? (id : Nat) : Option Decl :=
  match f.payload? id with
  | some (.decl value) => some value
  | _ => none

def name? (id : Nat) : Option Name :=
  match f.payload? id with
  | some (.name value) => some value
  | _ => none

def type? (id : Nat) : Option TypeName :=
  match f.payload? id with
  | some (.type value) => some value
  | _ => none

def collection? (id : Nat) : Option Collection :=
  match f.payload? id with
  | some (.collection value) => some value
  | _ => none

def declarator? (id : Nat) : Option Declarator :=
  match f.payload? id with
  | some (.declarator value) => some value
  | _ => none

def initializer? (id : Nat) : Option Initializer :=
  match f.payload? id with
  | some (.initializer value) => some value
  | _ => none

def argument? (id : Nat) : Option Argument :=
  match f.payload? id with
  | some (.argument value) => some value
  | _ => none

def parameter? (id : Nat) : Option Parameter :=
  match f.payload? id with
  | some (.parameter value) => some value
  | _ => none

/-- The present elements of a collection; none when there is no collection. -/
def elements (id : Option Nat) : List Nat :=
  match id.bind f.collection? with
  | some value => value.present
  | none => []

/-! ## Children come first -/

variable {f}

theorem lt_of_mem_children {id c : Nat} (h : c ∈ f.children id) : c < id := by
  unfold children at h
  split at h
  · next n hn => exact f.child_lt id n hn c h
  · cases h

theorem mem_children_of_slot {id c : Nat} {p : Payload} (h : f.payload? id = some p)
    (hc : ∀ kind, c ∈ (p.slots kind).map Slot.id) : c ∈ f.children id := by
  obtain ⟨n, hn, rfl⟩ := Option.map_eq_some_iff.1 h
  unfold children
  rw [hn]
  exact List.mem_append_left _ (hc n.kind)

theorem lt_of_slot {id c : Nat} {p : Payload} (h : f.payload? id = some p)
    (hc : ∀ kind, c ∈ (p.slots kind).map Slot.id) : c < id :=
  lt_of_mem_children (mem_children_of_slot h hc)

theorem payload?_of_expr? {id : Nat} {e : Expr} (h : f.expr? id = some e) :
    f.payload? id = some (.expr e) := by
  unfold expr? at h
  split at h
  · next hp => rw [hp]; cases h; rfl
  · cases h

theorem payload?_of_stmt? {id : Nat} {s : Stmt} (h : f.stmt? id = some s) :
    f.payload? id = some (.stmt s) := by
  unfold stmt? at h
  split at h
  · next hp => rw [hp]; cases h; rfl
  · cases h

theorem payload?_of_decl? {id : Nat} {d : Decl} (h : f.decl? id = some d) :
    f.payload? id = some (.decl d) := by
  unfold decl? at h
  split at h
  · next hp => rw [hp]; cases h; rfl
  · cases h

theorem payload?_of_name? {id : Nat} {n : Name} (h : f.name? id = some n) :
    f.payload? id = some (.name n) := by
  unfold name? at h
  split at h
  · next hp => rw [hp]; cases h; rfl
  · cases h

theorem payload?_of_type? {id : Nat} {t : TypeName} (h : f.type? id = some t) :
    f.payload? id = some (.type t) := by
  unfold type? at h
  split at h
  · next hp => rw [hp]; cases h; rfl
  · cases h

theorem payload?_of_collection? {id : Nat} {c : Collection} (h : f.collection? id = some c) :
    f.payload? id = some (.collection c) := by
  unfold collection? at h
  split at h
  · next hp => rw [hp]; cases h; rfl
  · cases h

theorem payload?_of_initializer? {id : Nat} {i : Initializer}
    (h : f.initializer? id = some i) : f.payload? id = some (.initializer i) := by
  unfold initializer? at h
  split at h
  · next hp => rw [hp]; cases h; rfl
  · cases h

theorem payload?_of_argument? {id : Nat} {a : Argument} (h : f.argument? id = some a) :
    f.payload? id = some (.argument a) := by
  unfold argument? at h
  split at h
  · next hp => rw [hp]; cases h; rfl
  · cases h

theorem lt_of_expr {id c : Nat} {e : Expr} (h : f.expr? id = some e)
    (hc : c ∈ e.slots.map Slot.id) : c < id :=
  lt_of_slot (payload?_of_expr? h) fun _ => hc

theorem lt_of_stmt {id c : Nat} {s : Stmt} (h : f.stmt? id = some s)
    (hc : c ∈ s.slots.map Slot.id) : c < id :=
  lt_of_slot (payload?_of_stmt? h) fun _ => hc

theorem lt_of_decl {id c : Nat} {d : Decl} (h : f.decl? id = some d)
    (hc : c ∈ d.slots.map Slot.id) : c < id :=
  lt_of_slot (payload?_of_decl? h) fun _ => hc

theorem lt_of_name {id c : Nat} {n : Name} (h : f.name? id = some n)
    (hc : c ∈ n.slots.map Slot.id) : c < id :=
  lt_of_slot (payload?_of_name? h) fun _ => hc

theorem lt_of_type {id c : Nat} {t : TypeName} (h : f.type? id = some t)
    (hc : c ∈ t.slots.map Slot.id) : c < id :=
  lt_of_slot (payload?_of_type? h) fun _ => hc

theorem lt_of_argument {id : Nat} {a : Argument} (h : f.argument? id = some a) :
    a.expression < id :=
  lt_of_slot (payload?_of_argument? h) fun _ => by
    simp [Payload.slots, Argument.slots, Slot.expr, Slot.one]

theorem lt_of_initializer {id c : Nat} {i : Initializer} (h : f.initializer? id = some i)
    (hc : c ∈ i.slots.map Slot.id) : c < id :=
  lt_of_slot (payload?_of_initializer? h) fun _ => hc

theorem lt_of_mem_collection {id c : Nat} {value : Collection}
    (h : f.collection? id = some value) (hc : some c ∈ value.elements) : c < id := by
  refine lt_of_slot (payload?_of_collection? h) fun kind => ?_
  simp only [Payload.slots, List.map_map, Collection.present]
  exact List.mem_map.2 ⟨c, List.mem_filterMap.2 ⟨some c, hc, rfl⟩, rfl⟩

theorem lt_of_mem_elements {id c : Nat} (h : c ∈ f.elements (some id)) : c < id := by
  unfold elements at h
  split at h
  · next value hv =>
    obtain ⟨a, ha, hac⟩ := List.mem_filterMap.1 h
    cases hac
    exact lt_of_mem_collection hv ha
  · cases h

theorem lt_of_argument_of_mem {c a : Nat} {value : Collection} {argument : Argument}
    (hc : f.collection? c = some value) (ha : some a ∈ value.elements)
    (h : f.argument? a = some argument) : argument.expression + 1 < c := by
  have h1 := lt_of_mem_collection hc ha
  have h2 := lt_of_argument h
  omega

theorem lt_of_argument_of_mem_elements {c a : Nat} {argument : Argument}
    (ha : a ∈ f.elements (some c)) (h : f.argument? a = some argument) :
    argument.expression + 1 < c := by
  have h1 := lt_of_mem_elements ha
  have h2 := lt_of_argument h
  omega

theorem getD_lt {id : Nat} {slot : Option Nat} (h : ∀ c, slot = some c → c < id) :
    2 * slot.getD 0 < 2 * id + 1 := by
  cases slot with
  | none => simp only [Option.getD_none]; omega
  | some c =>
    have := h c rfl
    simp only [Option.getD_some]
    omega

theorem mem_slots_arguments {c : Nat} {arguments : Option Nat} (h : arguments = some c) :
    c ∈ (Slot.arguments arguments).map Slot.id := by
  subst h
  simp [Slot.arguments, Slot.opt]

theorem arguments_lt_of_call {id target : Nat} {arguments declarator : Option Nat}
    (h : f.expr? id = some (.callOrIndex target arguments declarator)) :
    2 * arguments.getD 0 < 2 * id + 1 :=
  getD_lt fun _ hc => lt_of_expr h (by
    rw [Expr.slots, List.map_append]
    exact List.mem_append_right _ (mem_slots_arguments hc))

theorem arguments_lt_of_construct {id type : Nat} {arguments : Option Nat}
    (h : f.expr? id = some (.construct type arguments)) :
    2 * arguments.getD 0 < 2 * id + 1 :=
  getD_lt fun _ hc => lt_of_expr h (by
    rw [Expr.slots, List.map_append]
    exact List.mem_append_right _ (mem_slots_arguments hc))

theorem bounds_lt {id rank : Nat} {element bounds : Option Nat}
    (h : f.type? id = some (.array element rank bounds)) : ∀ c, bounds = some c → c < id := by
  intro c hc
  refine lt_of_type h ?_
  subst hc
  simp [TypeName.slots, Slot.opt]

theorem lt_of_parent? {id p : Nat} (h : f.parent? id = some p) : id < p := by
  obtain ⟨n, hn, hp⟩ := Option.bind_eq_some_iff.1 h
  exact f.lt_parent id n p hn hp

theorem lt_size_of_parent? {id p : Nat} (h : f.parent? id = some p) : id < f.size := by
  obtain ⟨n, hn, _⟩ := Option.bind_eq_some_iff.1 h
  exact (Array.getElem?_eq_some_iff.1 hn).1

variable (f)

/-! ## Walks -/

set_option linter.unusedVariables false in
/-- The proper ancestors of a node, nearest first. -/
def ancestors (id : Nat) : List Nat :=
  match h : f.parent? id with
  | some p => p :: ancestors p
  | none => []
termination_by f.size - id
decreasing_by
  have := lt_of_parent? h
  have := lt_size_of_parent? h
  omega

/-- The number of nodes below and including a node, counted along the children. -/
def weight (id : Nat) : Nat :=
  1 + ((f.children id).attach.map fun ⟨c, _⟩ => weight c).foldr (· + ·) 0
termination_by id
decreasing_by exact lt_of_mem_children (by assumption)

theorem weight_eq (id : Nat) :
    f.weight id = 1 + ((f.children id).map f.weight).foldr (· + ·) 0 := by
  rw [weight, List.map_attach_eq_pmap, List.pmap_eq_map]

/-- Takes nodes from a stack, putting the children of each in its place. -/
def walk : List Nat → List Nat
  | [] => []
  | id :: rest => id :: walk (f.children id ++ rest)
termination_by stack => (stack.map f.weight).foldr (· + ·) 0
decreasing_by
  have hsum := @List.foldr_assoc Nat (· + ·) ⟨Nat.add_assoc⟩ ((f.children id).map f.weight) 0
    ((rest.map f.weight).foldr (· + ·) 0)
  rw [Nat.zero_add] at hsum
  simp only [List.map_append, List.foldr_append, List.map_cons, List.foldr_cons, weight_eq f id,
    hsum]
  omega

/-- A node and everything below it, each node before its children. -/
def descendants (id : Nat) : List Nat := f.walk [id]

/-- The nearest proper ancestor whose kind passes the test. -/
def enclosing? (id : Nat) (test : Kind → Bool) : Option Nat :=
  (f.ancestors id).find? fun ancestor => test (f.kind ancestor)

/-- Whether some node, adopted or not, is unparsed text. -/
def hasBadNodes : Bool := f.ids.any fun id => (f.kind id).isBad

/-! ## Facts about a node -/

set_option linter.unusedVariables false in
/-- The identifier of a name-like node: a simple name, a declared variable, the last part of a
qualified name, or an expression that is a simple name. -/
def nameText? (id : Nat) : Option String :=
  match h : f.payload? id with
  | some (.name (.simple text _ _)) => some text
  | some (.name (.declared name _)) => nameText? name
  | some (.name (.qualified _ _ name)) => nameText? name
  | some (.expr (.simpleName name)) => nameText? name
  | _ => none
termination_by id
decreasing_by
  all_goals
    exact lt_of_slot h fun _ => by simp [Payload.slots, Name.slots, Expr.slots, Slot.one]

set_option linter.unusedVariables false in
/-- Compile-time constants: literals, and unary, parenthesized and binary expressions over them. -/
def isConstant (id : Nat) : Bool :=
  match h : f.expr? id with
  | some (.literal _) => true
  | some (.unary _ operand) => isConstant operand
  | some (.parenthetical operand) => isConstant operand
  | some (.binary _ _ left right) => isConstant left && isConstant right
  | _ => false
termination_by id
decreasing_by
  all_goals exact lt_of_expr h (by simp [Expr.slots, Slot.expr, Slot.one])

/-- Whether a declarator declares a field: its list belongs to a list of fields. -/
def isField (id : Nat) : Bool :=
  match f.parent? id with
  | some list =>
    f.kind list == .variableDeclaratorCollection &&
      match f.parent? list with
      | some owner => f.kind owner == .variableListDeclaration
      | none => false
  | none => false

end Forest

/-- A forest with one parentless node chosen as its root. -/
structure Tree extends Forest where
  root : Nat

end StructuredBasic.Syntax
