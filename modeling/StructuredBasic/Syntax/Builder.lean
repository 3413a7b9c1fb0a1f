import StructuredBasic.Syntax.Forest

/-!
# Building forests

Nodes are added one at a time, children first. An addition is checked against the shape of its
payload and against the nodes that are already there; the first thing wrong is reported, and a
refused addition leaves the forest as it was.
-/

set_option autoImplicit false

namespace StructuredBasic.Syntax

/-! ## What can be wrong with an addition -/

inductive BuildError where
  | kindOutsideFamily (kind : Kind) (family : Family)
  | payloadMismatch (kind : Kind)
  | missingChild (kind : Kind) (field : String)
  | childAlreadyAttached (kind : Kind) (field : String)
  | wrongChildFamily (kind : Kind) (field : String) (expected : Expect) (found : Kind)
  | invalidEnumerant (kind : Kind) (field value : String)
  | emptyCollection (kind : Kind)
  | notCommentable (kind : Kind)
  | rootHasParent (kind : Kind)
deriving DecidableEq

def BuildError.message : BuildError → String
  | .kindOutsideFamily kind family =>
    kind.text ++ " is not a " ++ Named.name family ++ " kind"
  | .payloadMismatch kind => "payload variant does not describe a " ++ kind.text
  | .missingChild kind field =>
    kind.text ++ "." ++ field ++ " refers to a node that does not exist"
  | .childAlreadyAttached kind field =>
    kind.text ++ "." ++ field ++ " refers to a node that already has a parent"
  | .wrongChildFamily kind field expected found =>
    kind.text ++ "." ++ field ++ " expects " ++ expected.text ++ ", found " ++ found.text
  | .invalidEnumerant kind field value =>
    "invalid enumerant " ++ value ++ " for " ++ kind.text ++ "." ++ field
  | .emptyCollection kind => kind.text ++ " has no elements and no separators"
  | .notCommentable kind => kind.text ++ " cannot carry comments"
  | .rootHasParent kind => "root " ++ kind.text ++ " already has a parent"

namespace Forest

variable (f : Forest)

/-! ## Checks, in the order in which they are made -/

/-- Faults of the payload alone. -/
def payloadFault? (kind : Kind) (payload : Payload) : Option BuildError :=
  if !payload.family.contains kind then some (.kindOutsideFamily kind payload.family)
  else if !payload.describes kind then some (.payloadMismatch kind)
  else if payload.isVoid then some (.emptyCollection kind)
  else (payload.misfit? kind).map fun misfit =>
    .invalidEnumerant kind misfit.field misfit.value

/-- A mentioned node has to be there and to be of the expected kind. -/
def mentionFault? (kind : Kind) (slot : Slot) : Option BuildError :=
  match f.node? slot.id with
  | none => some (.missingChild kind slot.field)
  | some n =>
    if slot.expect.admits n.kind then none
    else some (.wrongChildFamily kind slot.field slot.expect n.kind)

/-- Adopted nodes moreover have no parent yet, and none is adopted twice; `seen` are the ones
adopted so far. -/
def adoptFault? (kind : Kind) : List Nat → List Slot → Option BuildError
  | _, [] => none
  | seen, slot :: rest =>
    match f.mentionFault? kind slot with
    | some fault => some fault
    | none =>
      if (f.parent? slot.id).isSome || seen.contains slot.id then
        some (.childAlreadyAttached kind slot.field)
      else
        adoptFault? kind (slot.id :: seen) rest

/-- The position of an attached comment. -/
def commentSlot (id : Nat) : Slot := ⟨"comments", id, .kind .comment⟩

/-- The first fault of an addition: the payload, the children, the references, the comments. -/
def fault? (kind : Kind) (payload : Payload) (comments : List Nat) : Option BuildError :=
  let slots := payload.slots kind
  payloadFault? kind payload
    |>.or (f.adoptFault? kind [] slots)
    |>.or (payload.references.findSome? (f.mentionFault? kind))
    |>.or (if !comments.isEmpty && !kind.isCommentable then some (.notCommentable kind) else none)
    |>.or (f.adoptFault? kind (slots.map Slot.id).reverse (comments.map commentSlot))

/-! ## Additions -/

variable {f}

theorem lt_size_of_mentionFault? {kind : Kind} {slot : Slot}
    (h : f.mentionFault? kind slot = none) : slot.id < f.size := by
  unfold mentionFault? at h
  split at h
  · cases h
  · next n hn => exact (Array.getElem?_eq_some_iff.1 hn).1

theorem lt_size_of_adoptFault? {kind : Kind} {seen : List Nat} {slots : List Slot}
    (h : f.adoptFault? kind seen slots = none) : ∀ slot ∈ slots, slot.id < f.size := by
  induction slots generalizing seen with
  | nil => simp
  | cons slot rest ih =>
    unfold adoptFault? at h
    split at h
    · cases h
    · next hm =>
      split at h
      · cases h
      · intro s hs
        cases hs with
        | head => exact lt_size_of_mentionFault? hm
        | tail _ hs => exact ih h s hs

theorem lt_size_of_fault? {kind : Kind} {payload : Payload} {comments : List Nat}
    (h : f.fault? kind payload comments = none) :
    ∀ c ∈ (payload.slots kind).map Slot.id ++ comments, c < f.size := by
  simp only [fault?, Option.or_eq_none_iff] at h
  obtain ⟨⟨⟨⟨_, hslots⟩, _⟩, _⟩, hcomments⟩ := h
  intro c hc
  rcases List.mem_append.1 hc with hc | hc
  · obtain ⟨slot, hs, rfl⟩ := List.mem_map.1 hc
    exact lt_size_of_adoptFault? hslots slot hs
  · exact lt_size_of_adoptFault? hcomments (commentSlot c) (List.mem_map.2 ⟨c, hc, rfl⟩)

variable (f)

/-- The nodes after an addition: the new node stands last and is the parent of its children. -/
def extended (node : Node) : Array Node :=
  (f.nodes.mapIdx fun i n =>
    if i ∈ node.children then { n with parent := some f.size } else n).push node

theorem extended_some {node n : Node} {i : Nat} (h : (f.extended node)[i]? = some n) :
    (i = f.size ∧ n = node) ∨
      ∃ m, f.nodes[i]? = some m ∧
        n = if i ∈ node.children then { m with parent := some f.size } else m := by
  unfold extended at h
  rw [Array.getElem?_push] at h
  split at h
  · next hi => exact Or.inl ⟨by simpa [size] using hi, by cases h; rfl⟩
  · rw [Array.getElem?_mapIdx] at h
    obtain ⟨m, hm, rfl⟩ := Option.map_eq_some_iff.1 h
    exact Or.inr ⟨m, hm, rfl⟩

/-- The forest with a node added whose children are all there. -/
def push (node : Node) (unadopted : node.parent = none)
    (present : ∀ c ∈ node.children, c < f.size) : Forest where
  nodes := f.extended node
  child_lt i n h c hc := by
    rcases f.extended_some h with ⟨rfl, rfl⟩ | ⟨m, hm, rfl⟩
    · exact present c hc
    · refine f.child_lt i m hm c ?_
      revert hc
      split <;> exact fun hc => hc
  lt_parent i n p h hp := by
    rcases f.extended_some h with ⟨_, rfl⟩ | ⟨m, hm, rfl⟩
    · rw [unadopted] at hp
      cases hp
    · have hi : i < f.size := (Array.getElem?_eq_some_iff.1 hm).1
      split at hp
      · cases hp
        exact hi
      · exact f.lt_parent i m p hm hp

/-- Adds a node with attached comments and gives its number. -/
def alloc (kind : Kind) (span : Span) (payload : Payload) (comments : List Nat) :
    Except BuildError (Nat × Forest) :=
  match h : f.fault? kind payload comments with
  | some fault => .error fault
  | none =>
    .ok (f.size, f.push ⟨kind, span, none, comments, payload⟩ rfl (lt_size_of_fault? h))

/-- Chooses the root: a node of the forest that nothing has adopted. -/
def finish (root : Nat) : Except BuildError Tree :=
  match f.node? root with
  | none => .error (.missingChild .file "root")
  | some n =>
    if n.parent.isSome then .error (.rootHasParent n.kind)
    else .ok { f with root := root }

end Forest

end StructuredBasic.Syntax
