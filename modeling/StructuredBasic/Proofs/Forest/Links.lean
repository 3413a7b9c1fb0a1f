import StructuredBasic.Syntax.Builder

/-!
# The two link directions of a forest agree

A forest holds its links twice: a node knows its children, and every node knows the node that
adopted it. `Linked f` says that the two agree. It holds of the empty forest, one accepted addition
keeps it (`Linked.push`), and so it holds after any sequence of calls, refused ones among them
(`linked_after`).
-/

set_option autoImplicit false

namespace StructuredBasic.Syntax

/-! ## Calls -/

/-- What can be asked of a forest under construction. -/
inductive Call where
  | alloc (kind : Kind) (span : Span) (payload : Payload)
  | allocWithComments (kind : Kind) (span : Span) (payload : Payload) (comments : List Nat)
  | collection (kind : Kind) (span : Span) (elements : List (Option Nat))
      (separators : List Location)
  | comment (span : Span) (text : String) (isRem : Bool)

namespace Call

def kind : Call → Kind
  | .alloc kind _ _ => kind
  | .allocWithComments kind _ _ _ => kind
  | .collection kind _ _ _ => kind
  | .comment _ _ _ => .comment

def span : Call → Span
  | .alloc _ span _ => span
  | .allocWithComments _ span _ _ => span
  | .collection _ span _ _ => span
  | .comment span _ _ => span

def payload : Call → Payload
  | .alloc _ _ payload => payload
  | .allocWithComments _ _ payload _ => payload
  | .collection _ _ elements separators => .collection ⟨elements, separators, none⟩
  | .comment _ text isRem => .comment ⟨text, isRem⟩

def comments : Call → List Nat
  | .allocWithComments _ _ _ comments => comments
  | _ => []

/-- The node that a call asks for, not adopted yet. -/
def node (call : Call) : Node := ⟨call.kind, call.span, none, call.comments, call.payload⟩

end Call

namespace Forest

/-- The answer to a call, and the forest that the next call meets. -/
def answer (f : Forest) (call : Call) : Except BuildError Nat × Forest :=
  match f.alloc call.kind call.span call.payload call.comments with
  | .ok (id, g) => (.ok id, g)
  | .error fault => (.error fault, f)

/-- The forest after calls, each made whatever became of the ones before it. -/
def after (f : Forest) : List Call → Forest
  | [] => f
  | call :: calls => after (f.answer call).2 calls

variable {f : Forest}

/-! ## What an accepted addition looks like -/

theorem adoptFault?_none {kind : Kind} {seen : List Nat} {slots : List Slot}
    (h : f.adoptFault? kind seen slots = none) :
    (∀ slot ∈ slots, f.mentionFault? kind slot = none ∧ f.parent? slot.id = none ∧
      slot.id ∉ seen) ∧ (slots.map Slot.id).Nodup := by
  induction slots generalizing seen with
  | nil => simp
  | cons slot rest ih =>
    unfold adoptFault? at h
    split at h
    · cases h
    · next hm =>
      split at h
      · cases h
      · next hfree =>
        have hparent : f.parent? slot.id = none := by
          cases hp : f.parent? slot.id with
          | none => rfl
          | some p => simp [hp] at hfree
        have hseen : slot.id ∉ seen := by
          intro hs
          simp [hs] at hfree
        obtain ⟨hrest, hnodup⟩ := ih h
        refine ⟨?_, ?_⟩
        · intro s hs
          rcases List.mem_cons.1 hs with rfl | hs
          · exact ⟨hm, hparent, hseen⟩
          · obtain ⟨h1, h2, h3⟩ := hrest s hs
            exact ⟨h1, h2, fun hin => h3 (List.mem_cons_of_mem _ hin)⟩
        · rw [List.map_cons, List.nodup_cons]
          refine ⟨?_, hnodup⟩
          intro hin
          obtain ⟨s, hs, he⟩ := List.mem_map.1 hin
          exact (hrest s hs).2.2 (by rw [he]; exact List.mem_cons_self)

/-- What the checks of an addition leave through: the payload fits the kind, every child is there,
of an expected kind and without a parent, and no child is named twice. -/
structure Admitted (f : Forest) (node : Node) : Prop where
  payload : payloadFault? node.kind node.payload = none
  slots : ∀ slot ∈ node.payload.slots node.kind, f.mentionFault? node.kind slot = none
  comments : ∀ c ∈ node.comments, f.mentionFault? node.kind (commentSlot c) = none
  commentable : node.comments = [] ∨ node.kind.isCommentable = true
  free : ∀ c ∈ node.children, f.parent? c = none
  nodup : node.children.Nodup
  unadopted : node.parent = none

theorem admitted_of_fault? {kind : Kind} {span : Span} {payload : Payload} {comments : List Nat}
    (h : f.fault? kind payload comments = none) :
    f.Admitted ⟨kind, span, none, comments, payload⟩ := by
  simp only [fault?, Option.or_eq_none_iff] at h
  obtain ⟨⟨⟨⟨hpayload, hslots⟩, _⟩, hcommentable⟩, hcomments⟩ := h
  obtain ⟨h1, n1⟩ := adoptFault?_none hslots
  obtain ⟨h2, n2⟩ := adoptFault?_none hcomments
  have hids : (comments.map commentSlot).map Slot.id = comments := by
    rw [List.map_map]
    exact List.map_id comments
  rw [hids] at n2
  refine ⟨hpayload, fun slot hs => (h1 slot hs).1,
    fun c hc => (h2 _ (List.mem_map.2 ⟨c, hc, rfl⟩)).1, ?_, ?_, ?_, rfl⟩
  · cases comments with
    | nil => exact Or.inl rfl
    | cons c rest =>
      right
      cases hk : kind.isCommentable with
      | true => rfl
      | false => simp [hk] at hcommentable
  · intro c hc
    rcases List.mem_append.1 hc with hc | hc
    · obtain ⟨slot, hs, rfl⟩ := List.mem_map.1 hc
      exact (h1 slot hs).2.1
    · exact (h2 _ (List.mem_map.2 ⟨c, hc, rfl⟩)).2.1
  · refine List.nodup_append.2 ⟨n1, n2, ?_⟩
    intro a ha b hb hab
    subst hab
    have hseen := (h2 _ (List.mem_map.2 ⟨a, hb, rfl⟩)).2.2
    exact hseen (List.mem_reverse.2 ha)

theorem Admitted.present {node : Node} (h : f.Admitted node) : ∀ c ∈ node.children, c < f.size := by
  intro c hc
  rcases List.mem_append.1 hc with hc | hc
  · obtain ⟨slot, hs, rfl⟩ := List.mem_map.1 hc
    exact lt_size_of_mentionFault? (h.slots slot hs)
  · exact lt_size_of_mentionFault? (h.comments c hc)

/-- A call is refused and changes nothing, or adds the node that it asks for. -/
theorem answer_cases (f : Forest) (call : Call) :
    (∃ fault, f.answer call = (.error fault, f)) ∨
      ∃ h : f.Admitted call.node,
        f.answer call = (.ok f.size, f.push call.node h.unadopted h.present) := by
  unfold answer alloc
  split
  · next id g heq =>
    right
    split at heq
    · cases heq
    · next hfault =>
      cases heq
      exact ⟨admitted_of_fault? hfault, rfl⟩
  · next fault _ => exact Or.inl ⟨fault, rfl⟩

/-- What holds of the empty forest and is kept by every accepted addition holds after any calls. -/
theorem after_induction {P : Forest → Prop} (h0 : P Forest.empty)
    (hstep : ∀ (f : Forest) (node : Node) (h : f.Admitted node), P f →
      P (f.push node h.unadopted h.present)) (calls : List Call) :
    P (Forest.empty.after calls) := by
  suffices h : ∀ f, P f → P (f.after calls) from h _ h0
  induction calls with
  | nil => exact fun f hf => hf
  | cons call calls ih =>
    intro f hf
    refine ih _ ?_
    rcases f.answer_cases call with ⟨fault, e⟩ | ⟨hadm, e⟩
    · rw [e]; exact hf
    · rw [e]; exact hstep f call.node hadm hf

/-! ## Reading a forest after an addition -/

section Push

variable {node : Node} (unadopted : node.parent = none)
  (present : ∀ c ∈ node.children, c < f.size)

theorem node?_push (i : Nat) :
    (f.push node unadopted present).node? i =
      if i = f.size then some node
      else (f.node? i).map fun n =>
        if i ∈ node.children then { n with parent := some f.size } else n := by
  unfold node? push extended
  rw [Array.getElem?_push, Array.size_mapIdx]
  by_cases hi : i = f.size
  · rw [if_pos hi]
    rw [if_pos (show i = f.nodes.size from hi)]
  · rw [if_neg hi, if_neg (show ¬ i = f.nodes.size from hi), Array.getElem?_mapIdx]

theorem size_push : (f.push node unadopted present).size = f.size + 1 := by
  simp [push, extended, size]

theorem node?_size : f.node? f.size = none := by
  simp [node?, size]

theorem children_push (i : Nat) :
    (f.push node unadopted present).children i =
      if i = f.size then node.children else f.children i := by
  unfold children
  rw [node?_push]
  by_cases hi : i = f.size
  · rw [if_pos hi, if_pos hi]
  · rw [if_neg hi, if_neg hi]
    cases f.node? i with
    | none => rfl
    | some n =>
      simp only [Option.map_some]
      split <;> rfl

theorem kind_push (i : Nat) :
    (f.push node unadopted present).kind i = if i = f.size then node.kind else f.kind i := by
  unfold kind
  rw [node?_push]
  by_cases hi : i = f.size
  · rw [if_pos hi, if_pos hi]
  · rw [if_neg hi, if_neg hi]
    cases f.node? i with
    | none => rfl
    | some n =>
      simp only [Option.map_some]
      split <;> rfl

theorem parent?_push (i : Nat) :
    (f.push node unadopted present).parent? i =
      if i ∈ node.children then some f.size else f.parent? i := by
  unfold parent?
  rw [node?_push]
  by_cases hi : i = f.size
  · subst hi
    have hout : f.size ∉ node.children := fun h => Nat.lt_irrefl _ (present _ h)
    rw [if_pos rfl, if_neg hout, node?_size]
    exact unadopted
  · rw [if_neg hi]
    by_cases hc : i ∈ node.children
    · have hlt : i < f.nodes.size := present i hc
      have hn : f.node? i = some (f.nodes[i]) := Array.getElem?_eq_getElem hlt
      rw [hn, if_pos hc]
      simp [hc]
    · rw [if_neg hc]
      simp [hc]

end Push

/-! ## Links -/

/-- The children of every node are distinct, and a node is a child of exactly its parent. -/
structure Linked (f : Forest) : Prop where
  nodup : ∀ p, (f.children p).Nodup
  mem_children_iff : ∀ p c, c ∈ f.children p ↔ f.parent? c = some p

theorem Linked.empty : Linked Forest.empty := by
  refine ⟨fun p => ?_, fun p c => ?_⟩
  · simp [children, node?, Forest.empty]
  · simp [children, parent?, node?, Forest.empty]

theorem Linked.push (hf : Linked f) {node : Node} (h : f.Admitted node) :
    Linked (f.push node h.unadopted h.present) := by
  have hnew : ∀ c, f.parent? c ≠ some f.size := by
    intro c hc
    have hmem := (hf.mem_children_iff f.size c).2 hc
    unfold children at hmem
    rw [node?_size] at hmem
    cases hmem
  refine ⟨fun p => ?_, fun p c => ?_⟩
  · rw [children_push]
    split
    · exact h.nodup
    · exact hf.nodup p
  · rw [children_push, parent?_push]
    by_cases hp : p = f.size
    · subst hp
      rw [if_pos rfl]
      constructor
      · intro hc
        rw [if_pos hc]
      · intro hc
        split at hc
        · assumption
        · exact absurd hc (hnew c)
    · rw [if_neg hp]
      -- a child of an older node has a parent already, so the new node cannot have named it
      by_cases hc : c ∈ node.children
      · rw [if_pos hc, hf.mem_children_iff, h.free c hc]
        constructor
        · intro he; cases he
        · intro he; cases he; exact absurd rfl hp
      · rw [if_neg hc]
        exact hf.mem_children_iff p c

theorem linked_after (calls : List Call) : Linked (Forest.empty.after calls) :=
  after_induction Linked.empty (fun _ _ h hf => hf.push h) calls

/-! ## Chains of parents -/

theorem ancestors_of_parent {id p : Nat} (h : f.parent? id = some p) :
    f.ancestors id = p :: f.ancestors p := by
  rw [ancestors]
  split
  · next q hq => rw [h] at hq; cases hq; rfl
  · next hq => rw [h] at hq; cases hq

theorem ancestors_of_root {id : Nat} (h : f.parent? id = none) : f.ancestors id = [] := by
  rw [ancestors]
  split
  · next q hq => rw [h] at hq; cases hq
  · rfl

theorem lt_of_mem_ancestors {id a : Nat} (h : a ∈ f.ancestors id) : id < a := by
  induction id using ancestors.induct f with
  | case1 id p hp ih =>
    rw [ancestors_of_parent hp] at h
    have hlt := lt_of_parent? hp
    rcases List.mem_cons.1 h with rfl | h
    · exact hlt
    · exact Nat.lt_trans hlt (ih h)
  | case2 id hp =>
    rw [ancestors_of_root hp] at h
    cases h

/-- A chain of parents climbs strictly, so it never comes back. -/
theorem ancestors_increasing (f : Forest) (id : Nat) :
    (id :: f.ancestors id).Pairwise (· < ·) := by
  induction id using ancestors.induct f with
  | case1 id p hp ih =>
    refine List.pairwise_cons.2 ⟨fun a ha => lt_of_mem_ancestors ha, ?_⟩
    rw [ancestors_of_parent hp]
    exact ih
  | case2 id hp =>
    rw [ancestors_of_root hp]
    exact List.pairwise_singleton _ _

theorem lt_size_of_mem_children {p c : Nat} (h : c ∈ f.children p) : p < f.size := by
  unfold children at h
  split at h
  · next n hn => exact (Array.getElem?_eq_some_iff.1 hn).1
  · cases h

theorem Linked.lt_size_of_mem_ancestors (hf : Linked f) {id a : Nat} (h : a ∈ f.ancestors id) :
    a < f.size := by
  induction id using ancestors.induct f with
  | case1 id p hp ih =>
    rw [ancestors_of_parent hp] at h
    rcases List.mem_cons.1 h with rfl | h
    · exact lt_size_of_mem_children ((hf.mem_children_iff _ _).2 hp)
    · exact ih h
  | case2 id hp =>
    rw [ancestors_of_root hp] at h
    cases h

theorem Linked.count_eq_one (hf : Linked f) {p c : Nat} (h : f.parent? c = some p) :
    (f.children p).count c = 1 := by
  rw [List.Nodup.count (hf.nodup p), if_pos ((hf.mem_children_iff p c).2 h)]

/-! ## After any calls -/

/-- After any calls, accepted and refused ones in any order: the children of a node are its slots in
order and then its comments, distinct and older than the node; a node is a child of exactly its
parent, once; chains of parents climb and stay inside the forest. A refused call leaves the forest
as it was, and an accepted one adds just the node that it asks for. -/
theorem links_agree_after_calls (calls : List Call) :
    let f := Forest.empty.after calls
    (∀ p n, f.node? p = some n →
      f.children p = (n.payload.slots n.kind).map Slot.id ++ n.comments) ∧
    (∀ p, (f.children p).Nodup) ∧
    (∀ p, ∀ c ∈ f.children p, c < p) ∧
    (∀ p c, c ∈ f.children p ↔ f.parent? c = some p) ∧
    (∀ p c, f.parent? c = some p → (f.children p).count c = 1) ∧
    (∀ c, (c :: f.ancestors c).Pairwise (· < ·) ∧ ∀ a ∈ f.ancestors c, a < f.size) ∧
    (∀ call fault, (f.answer call).1 = .error fault → (f.answer call).2 = f) ∧
    (∀ call id, (f.answer call).1 = .ok id →
      id = f.size ∧ (f.answer call).2.size = f.size + 1 ∧
      (f.answer call).2.node? id = some call.node) := by
  intro f
  have hf : Linked f := linked_after calls
  refine ⟨?_, hf.nodup, fun _ _ h => lt_of_mem_children h, hf.mem_children_iff,
    fun _ _ h => hf.count_eq_one h,
    fun c => ⟨f.ancestors_increasing c, fun _ h => hf.lt_size_of_mem_ancestors h⟩, ?_, ?_⟩
  · intro p n hn
    unfold children
    rw [hn]
    rfl
  · intro call fault h
    rcases f.answer_cases call with ⟨fault', e⟩ | ⟨hadm, e⟩
    · rw [e]
    · rw [e] at h
      cases h
  · intro call id h
    rcases f.answer_cases call with ⟨fault, e⟩ | ⟨hadm, e⟩
    · rw [e] at h
      cases h
    · rw [e] at h ⊢
      cases h
      refine ⟨rfl, size_push hadm.unadopted hadm.present, ?_⟩
      rw [node?_push, if_pos rfl]

end Forest

end StructuredBasic.Syntax
