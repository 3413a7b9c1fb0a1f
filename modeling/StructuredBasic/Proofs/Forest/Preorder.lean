import Mathlib.Data.List.Nodup
import StructuredBasic.Proofs.Forest.Shapes

/-!
# Walking down and climbing up

The descendants of a node come from an iterator over a stack. `next?` is one call of it and
`Produces` a run of calls; every run gives a beginning of the recursive pre-order (`preorder`), and
one run gives all of it and leaves the stack empty. The ancestors of a node come from the chain of
its parents, which ends at the one node above it that has no parent (`top`). `walks_agree` puts the
two directions together for finished trees.
-/

set_option autoImplicit false

namespace StructuredBasic.Syntax

namespace Forest

variable {f : Forest}

/-! ## Pre-order -/

/-- A node, and then the pre-order of each of its children in turn. -/
def preorder (f : Forest) (id : Nat) : List Nat :=
  id :: (f.children id).attach.flatMap fun ⟨c, _⟩ => preorder f c
termination_by id
decreasing_by exact lt_of_mem_children ‹_›

theorem preorder_eq (f : Forest) (id : Nat) :
    f.preorder id = id :: (f.children id).flatMap f.preorder := by
  rw [preorder]
  conv_rhs => rw [← List.attach_map_subtype_val (f.children id), List.flatMap_map]

theorem descendants_eq_preorder (f : Forest) (id : Nat) : f.descendants id = f.preorder id := by
  induction id using Nat.strongRecOn with
  | ind id ih =>
    rw [descendants_eq, preorder_eq]
    exact congrArg (id :: ·) (List.flatMap_congr fun c hc => ih c (lt_of_mem_children hc))

/-- The descendants of distinct children are apart, so no node comes twice. -/
theorem Linked.nodup_descendants (hf : Linked f) (id : Nat) : (f.descendants id).Nodup := by
  induction id using Nat.strongRecOn with
  | ind id ih =>
    rw [descendants_eq, List.nodup_cons]
    refine ⟨fun hmem => ?_, List.nodup_flatMap.2 ⟨fun c hc => ih c (lt_of_mem_children hc), ?_⟩⟩
    · obtain ⟨c, hc, hid⟩ := List.mem_flatMap.1 hmem
      have h1 := lt_of_mem_children hc
      have h2 := le_of_mem_descendants hid
      omega
    · refine (hf.nodup id).pairwise_of_forall_ne fun a ha b hb hne => ?_
      intro d hda hdb
      exact hne (hf.child_unique ha hb hda hdb)

/-! ## The iterator -/

/-- One call: the node on top of the stack, and the stack with the children of the node in its
place. The top of a stack is its end, so the children go on it in reverse. -/
def next? (f : Forest) (stack : List Nat) : Option (Nat × List Nat) :=
  stack.getLast?.map fun id => (id, stack.dropLast ++ (f.children id).reverse)

/-- Calls that give the nodes `out` one after another and leave the stack `rest`. -/
inductive Produces (f : Forest) : List Nat → List Nat → List Nat → Prop
  | nil {stack} : Produces f stack [] stack
  | cons {stack id mid out rest} (h : f.next? stack = some (id, mid))
      (hs : Produces f mid out rest) : Produces f stack (id :: out) rest

theorem next?_concat (f : Forest) (stack : List Nat) (id : Nat) :
    f.next? (stack ++ [id]) = some (id, stack ++ (f.children id).reverse) := by
  rw [next?, List.getLast?_concat, List.dropLast_concat]
  rfl

/-- What the calls so far gave, and what the rest of the stack will give, is one walk. -/
theorem Produces.walk_eq {stack out rest : List Nat} (h : f.Produces stack out rest) :
    f.walk stack.reverse = out ++ f.walk rest.reverse := by
  induction h with
  | nil => rfl
  | @cons stack id mid out rest h hs ih =>
    obtain ⟨top, htop, heq⟩ := Option.map_eq_some_iff.1 h
    cases heq
    obtain ⟨below, rfl⟩ := List.getLast?_eq_some_iff.1 htop
    rw [List.dropLast_concat, List.reverse_append, List.reverse_reverse] at ih
    rw [List.reverse_concat, walk, ih, List.cons_append]

/-- The calls end: a walk takes as many of them as it has nodes. -/
theorem produces_walk (f : Forest) (stack : List Nat) :
    f.Produces stack.reverse (f.walk stack) [] := by
  induction stack using walk.induct f with
  | case1 =>
    rw [walk]
    exact .nil
  | case2 id rest ih =>
    rw [walk, List.reverse_cons]
    refine .cons (f.next?_concat rest.reverse id) ?_
    rw [← List.reverse_append]
    exact ih

theorem produces_descendants (f : Forest) (id : Nat) : f.Produces [id] (f.descendants id) [] :=
  f.produces_walk [id]

theorem Produces.prefix_descendants {id : Nat} {out rest : List Nat}
    (h : f.Produces [id] out rest) : out <+: f.descendants id :=
  ⟨f.walk rest.reverse, h.walk_eq.symm⟩

/-! ## The top of a chain of parents -/

/-- The node that stands `k` parents above a node. -/
def climb (f : Forest) : Nat → Nat → Option Nat
  | 0, id => some id
  | k + 1, id => (f.parent? id).bind (climb f k)

/-- The node that the chain of parents ends with. -/
def top (f : Forest) (id : Nat) : Nat := (f.ancestors id).getLastD id

theorem getElem?_ancestors (f : Forest) (id k : Nat) :
    (f.ancestors id)[k]? = f.climb (k + 1) id := by
  induction id using ancestors.induct f generalizing k with
  | case1 id p hp ih =>
    rw [ancestors_of_parent hp, climb, hp, Option.bind_some]
    cases k with
    | zero => rfl
    | succ k => rw [List.getElem?_cons_succ, ih k]
  | case2 id hp => rw [ancestors_of_root hp, climb, hp, List.getElem?_nil, Option.bind_none]

theorem top_of_parent {id p : Nat} (h : f.parent? id = some p) : f.top id = f.top p := by
  rw [top, top, ancestors_of_parent h, List.getLastD_cons]

theorem top_of_root {id : Nat} (h : f.parent? id = none) : f.top id = id := by
  rw [top, ancestors_of_root h, List.getLastD_nil]

/-- At or above a node, only its top has no parent. -/
theorem eq_top_iff {id r : Nat} :
    r = f.top id ↔ f.parent? r = none ∧ (id = r ∨ r ∈ f.ancestors id) := by
  induction id using ancestors.induct f with
  | case1 id p hp ih =>
    rw [top_of_parent hp, ih, ancestors_of_parent hp, List.mem_cons, @eq_comm _ r p]
    constructor
    · rintro ⟨hr, h⟩
      exact ⟨hr, Or.inr h⟩
    · rintro ⟨hr, rfl | h⟩
      · rw [hr] at hp
        cases hp
      · exact ⟨hr, h⟩
  | case2 id hp =>
    rw [top_of_root hp, ancestors_of_root hp]
    constructor
    · rintro rfl
      exact ⟨hp, Or.inl rfl⟩
    · rintro ⟨_, rfl | h⟩
      · rfl
      · cases h

end Forest

/-! ## Both directions -/

/-- In a finished tree, orphans included, the iterator over a stack ends and gives the recursive
pre-order of a node, each node once; a node is below another exactly when it is that node or has it
among its ancestors; and the ancestors of a node are the finite chain of its parents, which climbs
to the one node above it without a parent. This is the root for the nodes below the root, and for
no others. -/
theorem walks_agree {tree : Tree} (hfinished : tree.Finished) :
    (∀ id, tree.descendants id = tree.preorder id ∧ (tree.descendants id).Nodup ∧
      tree.Produces [id] (tree.descendants id) [] ∧ tree.next? [] = none ∧
      ∀ out rest, tree.Produces [id] out rest → out <+: tree.descendants id) ∧
    (∀ a d, d ∈ tree.descendants a ↔ d = a ∨ a ∈ tree.ancestors d) ∧
    (∀ d, (∀ k, (tree.ancestors d)[k]? = tree.climb (k + 1) d) ∧
      (d :: tree.ancestors d).Pairwise (· < ·) ∧
      (d :: tree.ancestors d).getLast? = some (tree.top d) ∧
      (∀ r, tree.parent? r = none ∧ (d = r ∨ r ∈ tree.ancestors d) ↔ r = tree.top d) ∧
      (d ∈ tree.descendants tree.root ↔ tree.top d = tree.root)) := by
  have hf : tree.Linked := hfinished.built.linked
  refine ⟨fun id => ?_, fun a d => hf.mem_descendants_iff, fun d => ?_⟩
  · exact ⟨tree.descendants_eq_preorder id, hf.nodup_descendants id, tree.produces_descendants id,
      rfl, fun out rest h => h.prefix_descendants⟩
  · refine ⟨tree.getElem?_ancestors d, tree.ancestors_increasing d, ?_,
      fun r => Forest.eq_top_iff.symm, ?_⟩
    · rw [Forest.top, List.getLast?_cons, List.getLastD_eq_getLast?]
    · rw [hf.mem_descendants_iff, eq_comm (a := tree.top d), Forest.eq_top_iff]
      exact (and_iff_right hfinished.parent_root).symm

/-- `Return x` under a comment, in a list of its own, beside a comment that nothing has adopted. -/
def returnBesideOrphan : List Call :=
  let span := Span.startingAt ⟨1, 1⟩
  [.alloc .simpleName span (.name (.simple "x" none false)),
    .alloc .simpleNameExpression span (.expr (.simpleName 0)),
    .comment span "the answer" false,
    .allocWithComments .returnStatement span (.stmt (.returnValue (some 1))) [2],
    .collection .statementCollection span [some 3] [],
    .comment span "an orphan" false]

theorem returnBesideOrphan_walks :
    (Tree.ofCalls returnBesideOrphan 4).Finished ∧
    (Tree.ofCalls returnBesideOrphan 4).Produces [4] [4, 3, 1, 0, 2] [] ∧
    (Tree.ofCalls returnBesideOrphan 4).top 2 = 4 ∧
    (Tree.ofCalls returnBesideOrphan 4).top 5 ≠ 4 := by
  have hfinished : (Tree.ofCalls returnBesideOrphan 4).Finished :=
    Tree.finished_ofCalls (by decide +kernel)
  have hwalk : (Tree.ofCalls returnBesideOrphan 4).descendants 4 = [4, 3, 1, 0, 2] := by
    decide +kernel
  obtain ⟨hdown, _, hup⟩ := walks_agree hfinished
  obtain ⟨_, _, hproduces, _⟩ := hdown 4
  rw [hwalk] at hproduces
  have hroot : ∀ d, d ∈ [4, 3, 1, 0, 2] ↔ (Tree.ofCalls returnBesideOrphan 4).top d = 4 := by
    intro d
    rw [← hwalk]
    exact (hup d).2.2.2.2
  refine ⟨hfinished, hproduces, (hroot 2).1 (by decide), fun h => ?_⟩
  exact absurd ((hroot 5).2 h) (by decide)

end StructuredBasic.Syntax
