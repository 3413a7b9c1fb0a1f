import Mathlib.Data.List.Basic
import StructuredBasic.Proofs.Forest.Shapes

/-!
# Gathering over a subtree

`f.gather g id` collects what `g` gives for the nodes below `id`, in the order of the walk. Where
nothing comes from inert places and from collections themselves (`Scattered`), only the lists of
statements or declarations of a node and its last block count: `Scattered.gather_stmt`,
`Scattered.gather_decl` and `Scattered.gather_file` say so for each form of node. This is so for
every `g` that gives nothing for inert nodes and for collections (`Sparse`).
-/

set_option autoImplicit false

namespace StructuredBasic.Syntax

/-! ## Parts that hold statements or declarations -/

/-- The lists of statements of a statement. -/
def Stmt.lists : Stmt → List (Option Nat)
  | .doBlock _ statements _ => [statements]
  | .whileBlock _ statements _ => [statements]
  | .forBlock _ _ _ _ _ statements _ => [statements]
  | .forEachBlock _ _ _ statements _ => [statements]
  | .guarded _ statements _ => [statements]
  | .usingBlock _ _ statements _ => [statements]
  | .tryBlock statements catches _ _ => [statements, catches]
  | .catchBlock _ _ _ statements => [statements]
  | .body statements => [statements]
  | .ifBlock _ statements elseIfs _ _ => [statements, elseIfs]
  | .elseIfBlock _ statements => [statements]
  | .lineIf _ statements elseStatements => [statements, elseStatements]
  | .selectBlock _ cases _ _ => [cases]
  | .caseBlock _ statements => [statements]
  | _ => []

/-- The block that stands last in a statement, after its lists. -/
def Stmt.last? : Stmt → Option Nat
  | .tryBlock _ _ finallyBlock _ => finallyBlock
  | .ifBlock _ _ _ elseBlock _ => elseBlock
  | .selectBlock _ _ caseElse _ => caseElse
  | _ => none

/-- Lines that close a block. -/
def Stmt.isEnd : Stmt → Bool
  | .endBlock _ | .loopEnd _ | .nextEnd _ => true
  | _ => false

/-- The list of statements or declarations of a declaration. -/
def Decl.list? : Decl → Option Nat
  | .namespaceBlock _ declarations _ => declarations
  | .typeBlock _ _ _ declarations _ => declarations
  | .enumBlock _ _ _ members _ => members
  | .method _ _ _ _ statements _ => statements
  | .property _ _ _ accessors _ => accessors
  | .accessor _ _ statements _ => statements
  | _ => none

/-- The children in places that accept a node that is not inert. -/
def Slot.live (slots : List Slot) : List Nat :=
  (slots.filter fun slot => !slot.expect.isInert).map Slot.id

namespace Slot

theorem live_nil : live [] = [] := rfl

theorem live_append (a b : List Slot) : live (a ++ b) = live a ++ live b := by
  rw [live, List.filter_append, List.map_append, live, live]

theorem live_inert {slots : List Slot} (h : ∀ slot ∈ slots, slot.expect.isInert = true) :
    live slots = [] := by
  rw [live, List.filter_eq_nil_iff.2, List.map_nil]
  intro slot hs
  rw [h slot hs]
  decide

theorem live_one {field : String} {id : Nat} {expect : Expect} (h : expect.isInert = true) :
    live (one field id expect) = [] :=
  live_inert (forall_mem_one.2 h)

theorem live_opt {field : String} {id : Option Nat} {expect : Expect} :
    live (opt field id expect) = if expect.isInert then [] else id.toList := by
  cases id with
  | none => cases expect.isInert <;> rfl
  | some c => cases h : expect.isInert <;> simp [live, opt, h]

end Slot

theorem LoopCondition.live_slots (condition : Option LoopCondition) :
    Slot.live (LoopCondition.slots condition) = [] := by
  cases condition with
  | none => rfl
  | some condition => rfl

theorem Stmt.live_slots (s : Stmt) :
    Slot.live s.slots = (s.lists.flatMap fun list => list.toList) ++ s.last?.toList := by
  cases s <;>
    simp +decide [Stmt.slots, Stmt.lists, Stmt.last?, Slot.live_append, Slot.live_one,
      Slot.live_opt, LoopCondition.live_slots, Slot.expr, Slot.statements, Slot.arguments,
      Slot.live_nil]

theorem Signature.live_slots (s : Signature) : Slot.live s.slots = [] := by
  simp +decide [Signature.slots, Slot.live_append, Slot.live_one, Slot.live_opt]

theorem Header.live_slots (h : Header) : Slot.live h.slots = [] :=
  Slot.live_inert h.inert_slots

theorem Decl.live_slots (d : Decl) : Slot.live d.slots = d.list?.toList := by
  cases d <;>
    simp +decide [Decl.slots, Decl.list?, Slot.live_append, Header.live_slots,
      Signature.live_slots, Slot.live_one, Slot.live_opt, Slot.members, Slot.closing,
      Slot.implemented, Slot.statements]

theorem Stmt.slot_of_list {s : Stmt} {list : Option Nat} {c : Nat} (hl : list ∈ s.lists)
    (hc : list = some c) : ∃ field, ⟨field, c, .kind .statementCollection⟩ ∈ s.slots := by
  subst hc
  cases s <;>
    simp_all [Stmt.lists, Stmt.slots, Slot.statements, Slot.expr, Slot.one, Slot.mem_opt]
  all_goals
    rcases hl with rfl | rfl
    · exact ⟨_, Or.inl ⟨rfl, rfl⟩⟩
    · exact ⟨_, Or.inr ⟨rfl, rfl⟩⟩

theorem Decl.expect_slots (d : Decl) : ∀ slot ∈ d.slots, slot.expect.isInert = true ∨
    slot.expect = .kind .statementCollection ∨ slot.expect = .kind .declarationCollection := by
  cases d <;>
    simp +decide only [Decl.slots, Header.slots, Signature.slots, Slot.members, Slot.closing,
      Slot.implemented, Slot.statements, List.forall_mem_append, Slot.forall_mem_one,
      Slot.forall_mem_opt, List.not_mem_nil, implies_true, and_self, false_implies, or_true,
      true_or]

theorem Stmt.kind_of_describes {s : Stmt} {kind : Kind} (h : s.describes kind = true)
    (hs : s.isEnd = false) : kind.isInert = false ∧ kind ≠ .statementCollection ∧
      kind ≠ .declarationCollection := by
  have hall : s.kinds.all (fun k => !k.isInert && k != .statementCollection &&
      k != .declarationCollection) = true := by
    cases s <;> first
      | rfl
      | cases hs
  simpa [and_assoc] using Stmt.of_kinds h hall

theorem Slot.mem_live {slots : List Slot} {c : Nat} :
    c ∈ live slots ↔ ∃ slot ∈ slots, slot.expect.isInert = false ∧ slot.id = c := by
  simp [live, and_assoc]

theorem Payload.exists_collection {payload : Payload} (h : payload.family = .collection) :
    ∃ value, payload = .collection value := by
  cases payload <;> first
    | exact ⟨_, rfl⟩
    | cases h

theorem Payload.exists_stmt {payload : Payload} (h : payload.family = .statement) :
    ∃ s, payload = .stmt s := by
  cases payload <;> first
    | exact ⟨_, rfl⟩
    | cases h

namespace Forest

variable {α : Type} {f : Forest} {g : Nat → List α}

/-! ## Parts that count -/

theorem mem_children_of_list {id c : Nat} {s : Stmt} (h : f.stmt? id = some s)
    (hl : some c ∈ s.lists) : c ∈ f.children id := by
  obtain ⟨field, hslot⟩ := Stmt.slot_of_list hl rfl
  exact mem_children_of_stmt h (List.mem_map.2 ⟨_, hslot, rfl⟩)

theorem mem_children_of_last {id x : Nat} {s : Stmt} (h : f.stmt? id = some s)
    (hl : s.last? = some x) : x ∈ f.children id := by
  have hlive : x ∈ Slot.live s.slots := by
    rw [s.live_slots, hl]
    exact List.mem_append_right _ (List.mem_singleton.2 rfl)
  obtain ⟨slot, hs, _, rfl⟩ := Slot.mem_live.1 hlive
  exact mem_children_of_stmt h (List.mem_map.2 ⟨slot, hs, rfl⟩)

/-- A list of statements comes before the statement. -/
theorem lt_of_list {id : Nat} {s : Stmt} {l : Option Nat} (h : f.stmt? id = some s)
    (hl : l ∈ s.lists) : ∀ c, l = some c → c < id := by
  rintro c rfl
  exact lt_of_mem_children (mem_children_of_list h hl)

theorem lt_of_last {id : Nat} {s : Stmt} {block : Option Nat} (h : f.stmt? id = some s)
    (hl : s.last? = block) : ∀ c, block = some c → c < id := by
  rintro c rfl
  exact lt_of_mem_children (mem_children_of_last h hl)

theorem elements_below {id node : Nat} {s : Stmt} {list : Option Nat}
    (hid : id ∈ f.descendants node) (h : f.stmt? id = some s) (hl : list ∈ s.lists) :
    ∀ x ∈ f.elements list, x ∈ f.descendants node := by
  intro x hx
  cases list with
  | none => cases hx
  | some c =>
    exact mem_descendants_child (mem_descendants_child hid (mem_children_of_list h hl))
      (mem_children_of_elements hx)

theorem last_below {id node : Nat} {s : Stmt} (hid : id ∈ f.descendants node)
    (h : f.stmt? id = some s) : ∀ x, s.last? = some x → x ∈ f.descendants node :=
  fun _ hx => mem_descendants_child hid (mem_children_of_last h hx)

theorem Shaped.admits_of_list (hf : Shaped f) {id c : Nat} {s : Stmt} (h : f.stmt? id = some s)
    (hl : some c ∈ s.lists) : (Expect.kind .statementCollection).admits (f.kind c) = true := by
  obtain ⟨n, hn, hp⟩ := Option.map_eq_some_iff.1 (payload?_of_stmt? h)
  obtain ⟨field, hslot⟩ := Stmt.slot_of_list hl rfl
  exact hf.slots id n hn ⟨field, c, .kind .statementCollection⟩ (by rw [hp]; exact hslot)

theorem Shaped.exists_node (hf : Shaped f) {id : Nat} (h : f.kind id ≠ .syntaxError) :
    ∃ n, f.node? id = some n ∧ n.kind = f.kind id ∧ n.payload.family = (f.kind id).family := by
  cases hn : f.node? id with
  | none => rw [Forest.kind, hn] at h; exact absurd rfl h
  | some n =>
    have hk : f.kind id = n.kind := by rw [Forest.kind, hn]
    have hfit := (Payload.fits_of_fault? (hf.payload id n hn)).1
    rw [Family.contains, beq_iff_eq] at hfit
    exact ⟨n, rfl, hk.symm, by rw [hk, hfit]⟩

theorem Shaped.stmt_or_inert (hf : Shaped f) {id : Nat}
    (h : (f.kind id).family = .statement ∨ f.kind id = .syntaxError) :
    (∃ s, f.stmt? id = some s) ∨ (f.kind id).isInert = true := by
  by_cases hbad : f.kind id = .syntaxError
  · exact Or.inr (by rw [hbad]; rfl)
  · obtain ⟨n, hn, _, hfamily⟩ := hf.exists_node hbad
    obtain ⟨s, hs⟩ := Payload.exists_stmt (hfamily.trans (h.resolve_right hbad))
    exact Or.inl ⟨s, by simp [stmt?, payload?, hn, hs]⟩

theorem Shaped.live_of_child (hf : Shaped f) {id c : Nat} {n : Node} (hn : f.node? id = some n)
    (hc : c ∈ f.children id) (hi : (f.kind c).isInert = false) :
    c ∈ Slot.live (n.payload.slots n.kind) := by
  rcases hf.admits_of_mem_children hn hc with ⟨slot, hs, rfl, ha⟩ | ⟨_, ha⟩
  · refine Slot.mem_live.2 ⟨slot, hs, ?_, rfl⟩
    by_contra hinert
    rw [Bool.not_eq_false] at hinert
    rw [Expect.isInert_of_admits hinert ha] at hi
    cases hi
  · rw [Expect.isInert_of_admits rfl ha] at hi
    cases hi

/-- The children of a statement that are not inert are its lists and its last block. -/
theorem Shaped.part_of_child (hf : Shaped f) {id c : Nat} {s : Stmt} (h : f.stmt? id = some s)
    (hc : c ∈ f.children id) (hi : (f.kind c).isInert = false) :
    some c ∈ s.lists ∨ s.last? = some c := by
  obtain ⟨n, hn, hp⟩ := Option.map_eq_some_iff.1 (payload?_of_stmt? h)
  have hlive : c ∈ Slot.live s.slots := by
    have := hf.live_of_child hn hc hi
    rwa [hp] at this
  rw [s.live_slots, List.mem_append, List.mem_flatMap] at hlive
  rcases hlive with ⟨list, hl, hx⟩ | hx
  · exact Or.inl (by rwa [← Option.mem_toList.1 hx])
  · exact Or.inr (Option.mem_toList.1 hx)

theorem Shaped.list_of_child (hf : Shaped f) {id c : Nat} {d : Decl} (h : f.decl? id = some d)
    (hc : c ∈ f.children id) (hi : (f.kind c).isInert = false) : d.list? = some c := by
  obtain ⟨n, hn, hp⟩ := Option.map_eq_some_iff.1 (payload?_of_decl? h)
  have hlive : c ∈ Slot.live d.slots := by
    have := hf.live_of_child hn hc hi
    rwa [hp] at this
  rw [d.live_slots] at hlive
  exact Option.mem_toList.1 hlive

theorem Shaped.exists_collection (hf : Shaped f) {c : Nat} (h : f.kind c = .statementCollection) :
    ∃ n value, f.node? c = some n ∧ n.kind = .statementCollection ∧
      n.payload = .collection value ∧ f.elements (some c) = value.present := by
  obtain ⟨n, hn, hk, hfamily⟩ := hf.exists_node (by rw [h]; decide)
  rw [h] at hk hfamily
  obtain ⟨value, hvalue⟩ := Payload.exists_collection hfamily
  exact ⟨n, value, hn, hk, hvalue, by simp [elements, collection?, payload?, hn, hvalue]⟩

theorem Shaped.element_of_child (hf : Shaped f) {c z : Nat} (h : f.kind c = .statementCollection)
    (hz : z ∈ f.children c) (hi : (f.kind z).isInert = false) : z ∈ f.elements (some c) := by
  obtain ⟨n, value, hn, _, hvalue, helements⟩ := hf.exists_collection h
  have hlive := hf.live_of_child hn hz hi
  rw [hvalue] at hlive
  obtain ⟨slot, hs, _, rfl⟩ := Slot.mem_live.1 hlive
  obtain ⟨x, hx, rfl⟩ := List.mem_map.1 hs
  rw [helements]
  exact hx

theorem Shaped.stmt_of_element (hf : Shaped f) {c z : Nat}
    (h : (Expect.kind .statementCollection).admits (f.kind c) = true)
    (hz : z ∈ f.elements (some c)) :
    (∃ s, f.stmt? z = some s) ∨ (f.kind z).isInert = true := by
  simp only [Expect.admits, Kind.isBad, Bool.or_eq_true, beq_iff_eq] at h
  rcases h with hbad | hk
  · refine Or.inr (hf.inert_of_child ?_ (mem_children_of_elements hz))
    rw [hbad]
    rfl
  · obtain ⟨n, value, hn, hkind, hvalue, helements⟩ := hf.exists_collection hk.symm
    rw [helements] at hz
    have hslot : ⟨"element", z, n.kind.element⟩ ∈ n.payload.slots n.kind := by
      rw [hvalue]
      exact List.mem_map.2 ⟨z, hz, rfl⟩
    have ha := hf.slots c n hn _ hslot
    rw [hkind] at ha
    simp only [Kind.element, Expect.admits, Kind.isBad, Family.contains, Bool.or_eq_true,
      beq_iff_eq] at ha
    exact hf.stmt_or_inert ha.symm

theorem Shaped.stmt_of_last (hf : Shaped f) {id x : Nat} {s : Stmt} (h : f.stmt? id = some s)
    (hl : s.last? = some x) : (∃ s', f.stmt? x = some s') ∨ (f.kind x).isInert = true := by
  obtain ⟨n, hn, hp⟩ := Option.map_eq_some_iff.1 (payload?_of_stmt? h)
  obtain ⟨field, k, hk, hslot⟩ : ∃ field k, k.family = .statement ∧
      (⟨field, x, .kind k⟩ : Slot) ∈ s.slots := by
    cases s <;> cases hl
    case tryBlock =>
      exact ⟨"finally", .finallyBlockStatement, rfl, by simp [Stmt.slots, Slot.opt]⟩
    case ifBlock => exact ⟨"else_block", .elseBlockStatement, rfl, by simp [Stmt.slots, Slot.opt]⟩
    case selectBlock =>
      exact ⟨"case_else", .caseElseBlockStatement, rfl, by simp [Stmt.slots, Slot.opt]⟩
  have ha := hf.slots id n hn ⟨field, x, .kind k⟩ (by rw [hp]; exact hslot)
  simp only [Expect.admits, Kind.isBad, Bool.or_eq_true, beq_iff_eq] at ha
  rcases ha with hbad | hkind
  · exact hf.stmt_or_inert (Or.inr hbad)
  · exact hf.stmt_or_inert (Or.inl (by rw [← hkind]; exact hk))

/-! ## Gathering -/

/-- What `g` gives for a node and everything below it, in the order of the walk. -/
def gather (f : Forest) (g : Nat → List α) (id : Nat) : List α := (f.descendants id).flatMap g

theorem gather_eq (f : Forest) (g : Nat → List α) (id : Nat) :
    f.gather g id = g id ++ (f.children id).flatMap (f.gather g) := by
  rw [gather, descendants_eq, List.flatMap_cons, List.flatMap_assoc]
  rfl

theorem mem_gather {x : α} {id : Nat} : x ∈ f.gather g id ↔ ∃ d ∈ f.descendants id, x ∈ g d :=
  List.mem_flatMap

theorem gather_eq_nil {id : Nat} (h : ∀ d ∈ f.descendants id, g d = []) : f.gather g id = [] :=
  List.flatMap_eq_nil_iff.2 h

/-- Whether `g` gives nothing for inert nodes and for lists of statements or declarations. -/
structure Sparse (f : Forest) (g : Nat → List α) : Prop where
  inert : ∀ d, (f.kind d).isInert = true → g d = []
  statements : ∀ d, f.kind d = .statementCollection → g d = []
  declarations : ∀ d, f.kind d = .declarationCollection → g d = []

theorem Shaped.sparse_of_stmt (hf : Shaped f)
    (h : ∀ id, g id ≠ [] → ∃ s, f.stmt? id = some s ∧ s.isEnd = false) : Sparse f g := by
  have hkind : ∀ id, g id ≠ [] → (f.kind id).isInert = false ∧
      f.kind id ≠ .statementCollection ∧ f.kind id ≠ .declarationCollection := by
    intro id hne
    obtain ⟨s, hs, hend⟩ := h id hne
    exact Stmt.kind_of_describes (hf.describes_stmt hs) hend
  refine ⟨fun d hd => ?_, fun d hd => ?_, fun d hd => ?_⟩
  · by_contra hne
    rw [(hkind d hne).1] at hd
    cases hd
  · by_contra hne
    exact (hkind d hne).2.1 hd
  · by_contra hne
    exact (hkind d hne).2.2 hd

/-- Whether nothing is gathered in places for inert nodes and from comments and unparsed text, and
`g` gives nothing for lists of statements or declarations. -/
structure Scattered (f : Forest) (g : Nat → List α) : Prop where
  slot : ∀ id n, f.node? id = some n → ∀ slot ∈ n.payload.slots n.kind,
    slot.expect.isInert = true → f.gather g slot.id = []
  comment : ∀ id n, f.node? id = some n → ∀ c ∈ n.comments, f.gather g c = []
  bad : ∀ d, f.kind d = .syntaxError → f.gather g d = []
  statements : ∀ d, f.kind d = .statementCollection → g d = []
  declarations : ∀ d, f.kind d = .declarationCollection → g d = []

theorem Sparse.gather_inert (hg : Sparse f g) (hf : Shaped f) {id : Nat}
    (h : (f.kind id).isInert = true) : f.gather g id = [] :=
  gather_eq_nil fun d hd => hg.inert d (hf.inert_of_mem_descendants h hd)

theorem Sparse.scattered (hg : Sparse f g) (hf : Shaped f) : Scattered f g where
  slot id n hn slot hs hi :=
    hg.gather_inert hf (Expect.isInert_of_admits hi (hf.slots id n hn slot hs))
  comment id n hn c hc :=
    hg.gather_inert hf (Expect.isInert_of_admits rfl (hf.comments id n hn c hc))
  bad d hd := hg.gather_inert hf (by rw [hd]; rfl)
  statements := hg.statements
  declarations := hg.declarations

theorem gather_child_eq_nil {id c : Nat} (h : f.gather g id = []) (hc : c ∈ f.children id) :
    f.gather g c = [] := by
  rw [gather_eq, List.append_eq_nil_iff] at h
  exact List.flatMap_eq_nil_iff.1 h.2 c hc

/-- Of the children of a node, those in places that accept more than inert nodes count. -/
theorem Scattered.gather_node (hg : Scattered f g) {id : Nat} {n : Node}
    (hn : f.node? id = some n) :
    f.gather g id = g id ++ (Slot.live (n.payload.slots n.kind)).flatMap (f.gather g) := by
  have hslots : ∀ slots : List Slot,
      (∀ slot ∈ slots, slot.expect.isInert = true → f.gather g slot.id = []) →
      (slots.map Slot.id).flatMap (f.gather g) = (Slot.live slots).flatMap (f.gather g) := by
    intro slots
    induction slots with
    | nil => intro _; rfl
    | cons slot slots ih =>
      intro h
      have hrest := ih fun s hs => h s (List.mem_cons_of_mem _ hs)
      have hslot := h slot List.mem_cons_self
      rw [Slot.live, List.map_cons, List.flatMap_cons, hrest]
      cases hi : slot.expect.isInert with
      | true =>
        rw [List.filter_cons_of_neg (by rw [hi]; decide), hslot hi]
        rfl
      | false =>
        rw [List.filter_cons_of_pos (by rw [hi]; decide), List.map_cons, List.flatMap_cons]
        rfl
  have hcomments : n.comments.flatMap (f.gather g) = [] :=
    List.flatMap_eq_nil_iff.2 (hg.comment id n hn)
  rw [gather_eq, children, hn]
  simp only [Node.children, List.flatMap_append]
  rw [hslots _ (hg.slot id n hn), hcomments, List.append_nil]

section Scattered

variable (hg : Scattered f g) (hf : Shaped f)
include hg hf

theorem Scattered.gather_list {c : Nat} {k : Kind}
    (hk : k = .statementCollection ∨ k = .declarationCollection)
    (h : (Expect.kind k).admits (f.kind c) = true) :
    f.gather g c = (f.elements (some c)).flatMap (f.gather g) := by
  by_cases hbad : f.kind c = .syntaxError
  · rw [hg.bad c hbad]
    refine (List.flatMap_eq_nil_iff.2 fun x hx => ?_).symm
    exact gather_child_eq_nil (hg.bad c hbad) (mem_children_of_elements hx)
  · have hkind : f.kind c = k := by
      simp only [Expect.admits, Kind.isBad, Bool.or_eq_true, beq_iff_eq] at h
      rcases h with h | h
      · exact absurd h hbad
      · exact h.symm
    have hnil : g c = [] := by
      rcases hk with rfl | rfl
      · exact hg.statements c hkind
      · exact hg.declarations c hkind
    obtain ⟨n, hn, hnk, hfamily⟩ := hf.exists_node hbad
    rw [hkind] at hnk hfamily
    obtain ⟨value, hvalue⟩ : ∃ value, n.payload = .collection value := by
      refine Payload.exists_collection ?_
      rcases hk with rfl | rfl <;> exact hfamily
    have helements : f.elements (some c) = value.present := by
      simp [elements, collection?, payload?, hn, hvalue]
    have hlive : Slot.live (n.payload.slots n.kind) = value.present := by
      rw [hvalue, hnk, Payload.slots, Slot.live, List.filter_eq_self.2, List.map_map]
      · exact List.map_id _
      · intro slot hs
        obtain ⟨x, _, rfl⟩ := List.mem_map.1 hs
        rcases hk with rfl | rfl <;> rfl
    rw [hg.gather_node hn, hnil, hlive, helements, List.nil_append]

theorem Scattered.gather_slots {k : Kind}
    (hk : k = .statementCollection ∨ k = .declarationCollection) {list : Option Nat}
    (h : ∀ c, list = some c → (Expect.kind k).admits (f.kind c) = true) :
    list.toList.flatMap (f.gather g) = (f.elements list).flatMap (f.gather g) := by
  cases list with
  | none => rfl
  | some c =>
    rw [Option.toList_some, List.flatMap_singleton]
    exact hg.gather_list hf hk (h c rfl)

/-- A statement counts by itself, its lists and its last block. -/
theorem Scattered.gather_stmt {id : Nat} {s : Stmt} (h : f.stmt? id = some s) :
    f.gather g id = g id ++ (s.lists.flatMap f.elements).flatMap (f.gather g) ++
      s.last?.toList.flatMap (f.gather g) := by
  obtain ⟨n, hn, hp⟩ := Option.map_eq_some_iff.1 (payload?_of_stmt? h)
  have hlists : ∀ list ∈ s.lists,
      list.toList.flatMap (f.gather g) = (f.elements list).flatMap (f.gather g) := by
    intro list hl
    refine hg.gather_slots hf (Or.inl rfl) fun c hc => hf.admits_of_list h ?_
    rw [← hc]
    exact hl
  have hlive : Slot.live (n.payload.slots n.kind) = Slot.live s.slots := by rw [hp]; rfl
  rw [hg.gather_node hn, hlive, s.live_slots, List.flatMap_append, List.append_assoc,
    List.flatMap_assoc, List.flatMap_assoc]
  rw [List.flatMap_congr hlists]

theorem Scattered.gather_decl {id : Nat} {d : Decl} (h : f.decl? id = some d) :
    f.gather g id = g id ++ (f.elements d.list?).flatMap (f.gather g) := by
  obtain ⟨n, hn, hp⟩ := Option.map_eq_some_iff.1 (payload?_of_decl? h)
  have hlive : Slot.live (n.payload.slots n.kind) = Slot.live d.slots := by rw [hp]; rfl
  rw [hg.gather_node hn, hlive, d.live_slots]
  cases hl : d.list? with
  | none => rfl
  | some c =>
    have hc : c ∈ Slot.live d.slots := by rw [d.live_slots, hl]; simp
    obtain ⟨slot, hs, hinert, rfl⟩ := Slot.mem_live.1 hc
    have hadmits := hf.slots id n hn slot (by rw [hp]; exact hs)
    rw [Option.toList_some, List.flatMap_singleton]
    rcases d.expect_slots slot hs with he | he | he
    · rw [hinert] at he; cases he
    · rw [he] at hadmits
      rw [hg.gather_list hf (Or.inl rfl) hadmits]
    · rw [he] at hadmits
      rw [hg.gather_list hf (Or.inr rfl) hadmits]

theorem Scattered.gather_file {id : Nat} {file : File} (h : f.payload? id = some (.file file)) :
    f.gather g id = g id ++ (f.elements file.declarations).flatMap (f.gather g) := by
  obtain ⟨n, hn, hp⟩ := Option.map_eq_some_iff.1 h
  have hlive : Slot.live (n.payload.slots n.kind) = file.declarations.toList := by
    rw [hp, Payload.slots, File.slots, Slot.live_opt]
    rfl
  rw [hg.gather_node hn, hlive]
  rw [hg.gather_slots hf (Or.inr rfl)]
  intro c hc
  refine hf.slots id n hn ⟨"declarations", c, .kind .declarationCollection⟩ ?_
  rw [hp]
  exact Slot.mem_opt.2 ⟨c, hc, rfl⟩

end Scattered

section Sparse

variable (hf : Shaped f) (hg : Sparse f g)
include hf hg

theorem Shaped.gather_stmt {id : Nat} {s : Stmt} (h : f.stmt? id = some s) :
    f.gather g id = g id ++ (s.lists.flatMap f.elements).flatMap (f.gather g) ++
      s.last?.toList.flatMap (f.gather g) :=
  (hg.scattered hf).gather_stmt hf h

theorem Shaped.gather_decl {id : Nat} {d : Decl} (h : f.decl? id = some d) :
    f.gather g id = g id ++ (f.elements d.list?).flatMap (f.gather g) :=
  (hg.scattered hf).gather_decl hf h

theorem Shaped.gather_file {id : Nat} {file : File} (h : f.payload? id = some (.file file)) :
    f.gather g id = g id ++ (f.elements file.declarations).flatMap (f.gather g) :=
  (hg.scattered hf).gather_file hf h

end Sparse

end Forest

end StructuredBasic.Syntax
