import StructuredBasic.Proofs.Forest.Shapes

/-!
# Forests of accepted calls

A forest can be read off its calls when none of them was refused, which is when there are as many
nodes as calls. The node of a call stands at the position of the call, and the first later call that
names it is its parent (`nodes_after`, `Tree.ofCalls_eq_settled`). Nothing names the last node, so a
tree can be finished there (`Tree.finished_of_last`).
-/

set_option autoImplicit false

namespace StructuredBasic.Syntax

/-! ## The nodes of calls -/

/-- The children that calls name, each with the node that names it. The first call makes node
`i`. -/
def adoptions (i : Nat) : List Call → List (Nat × Nat)
  | [] => []
  | call :: calls => call.node.children.map (·, i) ++ adoptions (i + 1) calls

/-- The nodes of calls, each under the first later call that names it. -/
def settledFrom (i : Nat) : List Call → List Node
  | [] => []
  | call :: calls =>
    { call.node with parent := (adoptions (i + 1) calls).lookup i } :: settledFrom (i + 1) calls

theorem lookup_children (children : List Nat) (c p : Nat) :
    (children.map (·, p)).lookup c = if c ∈ children then some p else none := by
  induction children with
  | nil => rfl
  | cons d children ih =>
    rw [List.map_cons, List.lookup_cons, ih]
    by_cases hd : c = d
    · simp [hd]
    · simp [hd, beq_eq_false_iff_ne.2 hd]

namespace Forest

variable {f : Forest}

theorem after_cons (f : Forest) (call : Call) (calls : List Call) :
    f.after (call :: calls) = (f.answer call).2.after calls := rfl

theorem size_after_le (f : Forest) (calls : List Call) :
    (f.after calls).size ≤ f.size + calls.length := by
  induction calls generalizing f with
  | nil => exact Nat.le_refl _
  | cons call calls ih =>
    have hrest := ih (f.answer call).2
    rw [after_cons, List.length_cons]
    rcases f.answer_cases call with ⟨_, e⟩ | ⟨_, e⟩
    · simp only [e] at hrest ⊢
      omega
    · simp only [e, size_push] at hrest ⊢
      omega

/-- A node among later adoptions: a parent that it has stays. -/
def settle (adopted : List (Nat × Nat)) (i : Nat) (n : Node) : Node :=
  { n with parent := n.parent.or (adopted.lookup i) }

/-- A node that an accepted call adopts had no parent, so the call comes first among those that
name it. -/
theorem Admitted.settle_push {node : Node} (h : f.Admitted node) (adopted : List (Nat × Nat)) :
    (f.push node h.unadopted h.present).nodes.toList.mapIdx (settle adopted) =
      f.nodes.toList.mapIdx (settle (node.children.map (·, f.size) ++ adopted)) ++
        [{ node with parent := adopted.lookup f.size }] := by
  have hold : ∀ i n, f.node? i = some n →
      settle adopted i (if i ∈ node.children then { n with parent := some f.size } else n) =
        settle (node.children.map (·, f.size) ++ adopted) i n := by
    intro i n hn
    unfold settle
    rw [List.lookup_append, lookup_children]
    by_cases hi : i ∈ node.children
    · have hfree : n.parent = none := by simpa [parent?, hn] using h.free i hi
      simp [hi, hfree]
    · simp [hi]
  have hnew : settle adopted f.size node = { node with parent := adopted.lookup f.size } := by
    rw [settle, h.unadopted, Option.none_or]
  unfold push extended
  rw [Array.toList_push, Array.toList_mapIdx, List.mapIdx_append, List.mapIdx_mapIdx]
  congr 1
  · exact List.mapIdx_eq_mapIdx_iff.2 fun i hi => hold i _ (Array.getElem?_eq_getElem hi)
  · simpa [size] using hnew

/-- The nodes that were there keep the parents that they have, and the others get the first call
that names them. -/
theorem nodes_after {calls : List Call} (h : (f.after calls).size = f.size + calls.length) :
    (f.after calls).nodes.toList =
      f.nodes.toList.mapIdx (settle (adoptions f.size calls)) ++ settledFrom f.size calls := by
  induction calls generalizing f with
  | nil =>
    have hkept : ∀ i, settle [] i = id := fun i => funext fun n => by simp [settle]
    refine List.ext_getElem? fun i => ?_
    simp [show f.after [] = f from rfl, settledFrom, adoptions, hkept]
  | cons call calls ih =>
    rw [after_cons, List.length_cons] at h
    rcases f.answer_cases call with ⟨_, e⟩ | ⟨hadm, e⟩
    · -- a refusal leaves too few calls to make the nodes
      have := size_after_le f calls
      simp only [e] at h
      omega
    · simp only [e] at h
      rw [after_cons]
      simp only [e]
      rw [ih (by rw [h, size_push]; omega), size_push, hadm.settle_push, adoptions, settledFrom,
        List.append_assoc, List.singleton_append]

theorem nodes_after_empty {calls : List Call} (h : (empty.after calls).size = calls.length) :
    (empty.after calls).nodes = ⟨settledFrom 0 calls⟩ := by
  have hsize : (empty.after calls).size = empty.size + calls.length := by
    rw [h]
    exact (Nat.zero_add _).symm
  exact congrArg Array.mk (nodes_after hsize)

/-- The forest that calls make when none of them is refused. -/
def settled (calls : List Call) (h : (empty.after calls).size = calls.length) : Forest where
  nodes := ⟨settledFrom 0 calls⟩
  child_lt := nodes_after_empty h ▸ (empty.after calls).child_lt
  lt_parent := nodes_after_empty h ▸ (empty.after calls).lt_parent

theorem after_eq_settled {calls : List Call} (h : (empty.after calls).size = calls.length) :
    empty.after calls = settled calls h := by
  cases hf : empty.after calls with
  | mk nodes _ _ =>
    have hnodes := nodes_after_empty h
    rw [hf] at hnodes
    subst hnodes
    rfl

theorem Linked.parent?_last (hf : Linked f) {id : Nat} (h : f.size = id + 1) :
    f.parent? id = none := by
  cases hp : f.parent? id with
  | none => rfl
  | some p =>
    have habove : id < p := lt_of_parent? hp
    have hsize : p < f.size := lt_size_of_mem_children ((hf.mem_children_iff p id).2 hp)
    omega

end Forest

theorem Tree.ofCalls_eq_settled {calls : List Call} (root : Nat)
    (h : (Forest.empty.after calls).size = calls.length) :
    Tree.ofCalls calls root = { Forest.settled calls h with root := root } := by
  rw [Tree.ofCalls, Forest.after_eq_settled h]

theorem Tree.finished_of_last {calls : List Call} {root : Nat}
    (h : (Forest.empty.after calls).size = calls.length) (hlast : calls.length = root + 1) :
    (Tree.ofCalls calls root).Finished := by
  replace h := h.trans hlast
  have hroot : root < (Forest.empty.after calls).nodes.size := by
    rw [show (Forest.empty.after calls).nodes.size = root + 1 from h]
    exact Nat.lt_succ_self root
  have hnode :
      (Forest.empty.after calls).node? root = some (Forest.empty.after calls).nodes[root] :=
    Array.getElem?_eq_getElem hroot
  have hparent := (Forest.linked_after calls).parent?_last h
  refine Tree.finished_ofCalls ?_
  rw [Forest.parent?, hnode] at hparent
  rw [hnode]
  exact congrArg some hparent

end StructuredBasic.Syntax
