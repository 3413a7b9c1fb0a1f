import StructuredBasic.Proofs.Forest.Shapes

/-!
# Nodes of a finished tree

What the checks of an addition promise to a reader of a finished tree. `Node.Fits` is about a node
alone, `Forest.Fills` about the node in one of its places. Unparsed text stands in for any child;
where there is none, every place holds a payload of the family that it expects, so the readers of
that family answer there (`nodes_well_formed`).
-/

set_option autoImplicit false

namespace StructuredBasic.Syntax

/-! ## A node alone -/

/-- A payload that goes with its kind, and comments only where comments may stand. -/
structure Node.Fits (n : Node) : Prop where
  family : n.kind.family = n.payload.family
  variant : n.payload.describes n.kind = true
  enumerants : n.payload.misfit? n.kind = none
  inhabited : ∀ value, n.payload = .collection value →
    value.elements ≠ [] ∨ value.separators ≠ []
  comments : n.comments ≠ [] → n.kind.family = .statement ∨ n.kind.family = .declaration

theorem Kind.isCommentable_iff {kind : Kind} :
    kind.isCommentable = true ↔ kind.family = .statement ∨ kind.family = .declaration := by
  unfold Kind.isCommentable
  cases kind.family <;> simp

/-- The last two checks of a payload: it is not an empty list, and its values fit its kind. -/
theorem Payload.values_of_fault? {payload : Payload} {kind : Kind}
    (h : Forest.payloadFault? kind payload = none) :
    payload.isVoid = false ∧ payload.misfit? kind = none := by
  obtain ⟨hfamily, hdescribes⟩ := Payload.fits_of_fault? h
  unfold Forest.payloadFault? at h
  rw [hfamily, hdescribes] at h
  cases hvoid : payload.isVoid with
  | true => simp [hvoid] at h
  | false =>
    simp only [hvoid, Bool.not_true, Bool.false_eq_true, if_false, Option.map_eq_none_iff] at h
    exact ⟨rfl, h⟩

/-! ## The node in a place -/

/-- What a place asks of the kind of its child. -/
def Expect.Asks : Expect → Kind → Prop
  | .family group, actual => actual.family = group
  | .kind expected, actual => actual = expected

theorem Expect.admits_iff {expect : Expect} {kind : Kind} :
    expect.admits kind = true ↔ expect.Asks kind ∨ kind = .syntaxError := by
  unfold Expect.admits Kind.isBad Expect.Asks
  cases expect with
  | family group => simp [Family.contains, or_comm]
  | kind expected => simp [or_comm, eq_comm (a := expected)]

/-- The family of the payloads that a place accepts. -/
def Expect.payloads : Expect → Family
  | .family group => group
  | .kind expected => expected.family

theorem Expect.Asks.family_eq {expect : Expect} {kind : Kind} (h : expect.Asks kind) :
    kind.family = expect.payloads := by
  cases expect with
  | family group => exact h
  | kind expected => exact congrArg Kind.family h

namespace Forest

variable {f : Forest}

/-- The node of a place is there, and is what the place asks for or unparsed text. -/
def Fills (f : Forest) (slot : Slot) : Prop :=
  ∃ child, f.node? slot.id = some child ∧
    (slot.expect.Asks child.kind ∨ child.kind = .syntaxError)

/-- Whether the reader of a family answers at a node; a family without a reader of its own is read
off the payload. -/
def readsAs (f : Forest) (id : Nat) : Family → Bool
  | .expression => (f.expr? id).isSome
  | .statement => (f.stmt? id).isSome
  | .declaration => (f.decl? id).isSome
  | .name => (f.name? id).isSome
  | .type => (f.type? id).isSome
  | .collection => (f.collection? id).isSome
  | .declarator => (f.declarator? id).isSome
  | .initializer => (f.initializer? id).isSome
  | .argument => (f.argument? id).isSome
  | .parameter => (f.parameter? id).isSome
  | other => (f.payload? id).any fun payload => payload.family == other

theorem readsAs_family {id : Nat} {payload : Payload} (h : f.payload? id = some payload) :
    f.readsAs id payload.family = true := by
  cases payload <;>
    simp [readsAs, Payload.family, h, expr?, stmt?, decl?, name?, type?, collection?, declarator?,
      initializer?, argument?, parameter?]

/-- The node of a place holds a payload for that place, which the reader of its family finds. -/
def Holds (f : Forest) (slot : Slot) : Prop :=
  ∃ payload, f.payload? slot.id = some payload ∧ payload.family = slot.expect.payloads ∧
    (∀ kind, slot.expect = .kind kind → payload.describes kind = true) ∧
    f.readsAs slot.id slot.expect.payloads = true

/-! ## Every node -/

theorem Shaped.fits (hf : Shaped f) {id : Nat} {n : Node} (hn : f.node? id = some n) :
    n.Fits := by
  obtain ⟨hfamily, hdescribes⟩ := Payload.fits_of_fault? (hf.payload id n hn)
  obtain ⟨hvoid, hmisfit⟩ := Payload.values_of_fault? (hf.payload id n hn)
  refine ⟨by simpa [Family.contains] using hfamily, hdescribes, hmisfit, ?_, ?_⟩
  · intro value hvalue
    rw [hvalue, Payload.isVoid] at hvoid
    rcases Bool.and_eq_false_iff.1 hvoid with h | h
    · exact Or.inl (by simpa using h)
    · exact Or.inr (by simpa using h)
  · intro hcomments
    exact Kind.isCommentable_iff.1 ((hf.commentable id n hn).resolve_left hcomments)

/-- A child is older than its parent, so it is there; later additions change its parent only. -/
theorem Shaped.fills (hf : Shaped f) {id : Nat} {n : Node} (hn : f.node? id = some n)
    {slot : Slot} (hs : slot ∈ n.payload.slots n.kind) : f.Fills slot := by
  have hchild : slot.id ∈ n.children := List.mem_append_left _ (List.mem_map.2 ⟨slot, hs, rfl⟩)
  have hlt : slot.id < f.nodes.size := by
    have h1 := f.child_lt id n hn slot.id hchild
    have h2 := (Array.getElem?_eq_some_iff.1 hn).1
    omega
  have hnode : f.node? slot.id = some f.nodes[slot.id] := Array.getElem?_eq_getElem hlt
  have hkind : f.kind slot.id = f.nodes[slot.id].kind := by
    unfold Forest.kind
    rw [hnode]
  refine ⟨f.nodes[slot.id], hnode, Expect.admits_iff.1 ?_⟩
  rw [← hkind]
  exact hf.slots id n hn slot hs

theorem Shaped.holds (hf : Shaped f) {slot : Slot} (h : f.Fills slot)
    (hgood : f.kind slot.id ≠ .syntaxError) : f.Holds slot := by
  obtain ⟨child, hchild, hasks⟩ := h
  have hkind : f.kind slot.id = child.kind := by
    unfold Forest.kind
    rw [hchild]
  rw [hkind] at hgood
  replace hasks := hasks.resolve_right hgood
  have hfits := hf.fits hchild
  have hpayload : f.payload? slot.id = some child.payload := by
    rw [payload?, hchild, Option.map_some]
  have hfamily : child.payload.family = slot.expect.payloads :=
    hfits.family.symm.trans hasks.family_eq
  refine ⟨child.payload, hpayload, hfamily, ?_, ?_⟩
  · intro kind hexpect
    rw [hexpect] at hasks
    rw [← show child.kind = kind from hasks]
    exact hfits.variant
  · rw [← hfamily]
    exact readsAs_family hpayload

theorem ne_bad_of_hasBadNodes {id : Nat} {n : Node} (h : f.hasBadNodes = false)
    (hn : f.node? id = some n) : f.kind id ≠ .syntaxError := by
  intro hbad
  have hid : id ∈ f.ids := List.mem_range.2 (Array.getElem?_eq_some_iff.1 hn).1
  have := List.any_eq_false.1 h id hid
  rw [hbad] at this
  exact this rfl

end Forest

/-- Every node of a finished tree goes with its kind and finds its children in their places; a
place without unparsed text holds a payload of its family. -/
theorem nodes_well_formed {tree : Tree} (hfinished : tree.Finished) :
    (∀ id n, tree.node? id = some n → n.Fits ∧ ∀ slot ∈ n.payload.slots n.kind,
      tree.Fills slot ∧ (tree.kind slot.id ≠ .syntaxError → tree.Holds slot)) ∧
    (tree.hasBadNodes = false → ∀ id n, tree.node? id = some n →
      ∀ slot ∈ n.payload.slots n.kind, tree.Holds slot) := by
  have hf := hfinished.built.shaped
  constructor
  · intro id n hn
    refine ⟨hf.fits hn, fun slot hs => ?_⟩
    have hfills := hf.fills hn hs
    exact ⟨hfills, hf.holds hfills⟩
  · intro hgood id n hn slot hs
    have hfills := hf.fills hn hs
    have ⟨child, hchild, _⟩ := hfills
    exact hf.holds hfills (Forest.ne_bad_of_hasBadNodes hgood hchild)

/-- `Return x` under a comment. The second call asks for a name where an expression belongs and is
refused; the calls after it go on. -/
def commentedReturn : List Call :=
  let span := Span.startingAt ⟨1, 1⟩
  [.alloc .simpleName span (.name (.simple "x" none false)),
    .alloc .returnStatement span (.stmt (.returnValue (some 0))),
    .alloc .simpleNameExpression span (.expr (.simpleName 0)),
    .comment span "the answer" false,
    .allocWithComments .returnStatement span (.stmt (.returnValue (some 1))) [2],
    .collection .statementCollection span [some 3] []]

theorem commentedReturn_well_formed :
    (Tree.ofCalls commentedReturn 4).Finished ∧
    (Tree.ofCalls commentedReturn 4).hasBadNodes = false ∧
    (Tree.ofCalls commentedReturn 4).Holds ⟨"expression", 1, .family .expression⟩ ∧
    (Tree.ofCalls commentedReturn 4).Holds ⟨"element", 3, .family .statement⟩ := by
  have hfinished : (Tree.ofCalls commentedReturn 4).Finished :=
    Tree.finished_ofCalls (by decide +kernel)
  have hgood : (Tree.ofCalls commentedReturn 4).hasBadNodes = false := by decide +kernel
  obtain ⟨-, hholds⟩ := nodes_well_formed hfinished
  exact ⟨hfinished, hgood, hholds hgood 3 _ rfl _ (.head _), hholds hgood 4 _ rfl _ (.head _)⟩

end StructuredBasic.Syntax
