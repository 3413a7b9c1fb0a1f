import StructuredBasic.Proofs.Forest.Links

/-!
# Walks over a forest

The walk from a stack is the walk from each of its nodes in turn, so the descendants of a node are
the node and then the descendants of its children (`descendants_eq`). In a forest whose links agree,
going down and going up meet: `d` is under `a` exactly when `d` is `a` or `a` is an ancestor of `d`
(`Linked.mem_descendants_iff`).
-/

set_option autoImplicit false

namespace StructuredBasic.Syntax.Forest

variable {f : Forest}

/-! ## Descendants -/

theorem walk_append (f : Forest) (a b : List Nat) : f.walk (a ++ b) = f.walk a ++ f.walk b := by
  induction a using walk.induct f with
  | case1 => rw [walk, List.nil_append, List.nil_append]
  | case2 id rest ih =>
    rw [List.cons_append, walk, walk, ← List.append_assoc, ih, List.cons_append]

theorem walk_eq_flatMap (f : Forest) (stack : List Nat) :
    f.walk stack = stack.flatMap f.descendants := by
  induction stack with
  | nil => rw [walk, List.flatMap_nil]
  | cons id rest ih =>
    rw [List.flatMap_cons, ← ih, ← List.singleton_append, walk_append]
    rfl

theorem descendants_eq (f : Forest) (id : Nat) :
    f.descendants id = id :: (f.children id).flatMap f.descendants := by
  rw [descendants, walk, List.append_nil, walk_eq_flatMap]

theorem mem_descendants {a d : Nat} :
    d ∈ f.descendants a ↔ d = a ∨ ∃ c ∈ f.children a, d ∈ f.descendants c := by
  rw [descendants_eq, List.mem_cons, List.mem_flatMap]

theorem mem_descendants_self (f : Forest) (a : Nat) : a ∈ f.descendants a :=
  mem_descendants.2 (Or.inl rfl)

theorem mem_descendants_of_child {a c d : Nat} (hc : c ∈ f.children a) (hd : d ∈ f.descendants c) :
    d ∈ f.descendants a :=
  mem_descendants.2 (Or.inr ⟨c, hc, hd⟩)

/-- What holds of a node and passes from every node to its children holds of all descendants. -/
theorem descendants_induction {P : Nat → Prop} {a : Nat} (ha : P a)
    (hstep : ∀ p, P p → ∀ c ∈ f.children p, P c) : ∀ d ∈ f.descendants a, P d := by
  induction a using Nat.strongRecOn with
  | ind a ih =>
    intro d hd
    rcases mem_descendants.1 hd with rfl | ⟨c, hc, hd⟩
    · exact ha
    · exact ih c (lt_of_mem_children hc) (hstep a ha c hc) d hd

theorem mem_descendants_trans {a c d : Nat} (hc : c ∈ f.descendants a) (hd : d ∈ f.descendants c) :
    d ∈ f.descendants a := by
  induction a using Nat.strongRecOn with
  | ind a ih =>
    rcases mem_descendants.1 hc with rfl | ⟨b, hb, hc⟩
    · exact hd
    · exact mem_descendants_of_child hb (ih b (lt_of_mem_children hb) hc)

theorem mem_descendants_child {a c d : Nat} (hc : c ∈ f.descendants a) (hd : d ∈ f.children c) :
    d ∈ f.descendants a :=
  mem_descendants_trans hc (mem_descendants_of_child hd (mem_descendants_self f d))

theorem le_of_mem_descendants {a d : Nat} (h : d ∈ f.descendants a) : d ≤ a := by
  refine descendants_induction (f := f) (P := fun n => n ≤ a) (Nat.le_refl a) ?_ d h
  intro p hp c hc
  have := lt_of_mem_children hc
  omega

/-! ## Up and down -/

theorem Linked.ancestors_of_child (hf : Linked f) {p c : Nat} (h : c ∈ f.children p) :
    f.ancestors c = p :: f.ancestors p :=
  ancestors_of_parent ((hf.mem_children_iff p c).1 h)

theorem Linked.mem_ancestors_of_mem_descendants (hf : Linked f) {a d : Nat}
    (h : d ∈ f.descendants a) : d = a ∨ a ∈ f.ancestors d := by
  refine descendants_induction (f := f) (P := fun n => n = a ∨ a ∈ f.ancestors n) (Or.inl rfl)
    ?_ d h
  intro p hp c hc
  right
  rw [hf.ancestors_of_child hc]
  rcases hp with rfl | hp
  · exact List.mem_cons_self
  · exact List.mem_cons_of_mem _ hp

theorem Linked.mem_descendants_of_mem_ancestors (hf : Linked f) {a d : Nat}
    (h : a ∈ f.ancestors d) : d ∈ f.descendants a := by
  induction d using ancestors.induct f with
  | case1 d p hp ih =>
    have hchild := (hf.mem_children_iff p d).2 hp
    have hd : d ∈ f.descendants p :=
      mem_descendants_of_child hchild (mem_descendants_self f d)
    rw [ancestors_of_parent hp] at h
    rcases List.mem_cons.1 h with rfl | h
    · exact hd
    · exact mem_descendants_trans (ih h) hd
  | case2 d hp =>
    rw [ancestors_of_root hp] at h
    cases h

theorem Linked.mem_descendants_iff (hf : Linked f) {a d : Nat} :
    d ∈ f.descendants a ↔ d = a ∨ a ∈ f.ancestors d := by
  constructor
  · exact hf.mem_ancestors_of_mem_descendants
  · rintro (rfl | h)
    · exact mem_descendants_self f d
    · exact hf.mem_descendants_of_mem_ancestors h

/-- Of two nodes at or above a third, one is at or above the other. -/
theorem ancestors_comparable {a b d : Nat} (ha : d = a ∨ a ∈ f.ancestors d)
    (hb : d = b ∨ b ∈ f.ancestors d) : a = b ∨ b ∈ f.ancestors a ∨ a ∈ f.ancestors b := by
  induction d using ancestors.induct f with
  | case1 d p hp ih =>
    rcases ha with rfl | ha
    · rcases hb with rfl | hb
      · exact Or.inl rfl
      · exact Or.inr (Or.inl hb)
    · rcases hb with rfl | hb
      · exact Or.inr (Or.inr ha)
      · rw [ancestors_of_parent hp] at ha hb
        have ha' : p = a ∨ a ∈ f.ancestors p := (List.mem_cons.1 ha).imp_left Eq.symm
        have hb' : p = b ∨ b ∈ f.ancestors p := (List.mem_cons.1 hb).imp_left Eq.symm
        exact ih ha' hb'
  | case2 d hp =>
    rw [ancestors_of_root hp] at ha hb
    rcases ha with rfl | ha
    · rcases hb with rfl | hb
      · exact Or.inl rfl
      · cases hb
    · cases ha

/-- No node is below two children of a node. -/
theorem Linked.child_unique (hf : Linked f) {p a b d : Nat} (ha : a ∈ f.children p)
    (hb : b ∈ f.children p) (hda : d ∈ f.descendants a) (hdb : d ∈ f.descendants b) : a = b := by
  have hapart : ∀ {a b : Nat}, a ∈ f.children p → b ∈ f.children p → b ∉ f.ancestors a := by
    intro a b ha hb hmem
    have hlt := lt_of_mem_children hb
    rw [hf.ancestors_of_child ha] at hmem
    rcases List.mem_cons.1 hmem with rfl | hmem
    · exact Nat.lt_irrefl _ hlt
    · have := lt_of_mem_ancestors hmem
      omega
  rcases ancestors_comparable (hf.mem_descendants_iff.1 hda) (hf.mem_descendants_iff.1 hdb)
    with h | h | h
  · exact h
  · exact absurd h (hapart ha hb)
  · exact absurd h (hapart hb ha)

/-! ## Parts of a node -/

theorem mem_children_of_elements {c x : Nat} (h : x ∈ f.elements (some c)) : x ∈ f.children c := by
  unfold elements at h
  simp only [Option.bind_some] at h
  split at h
  · next value hv =>
    refine mem_children_of_slot (payload?_of_collection? hv) fun kind => ?_
    simp only [Payload.slots, List.map_map]
    exact List.mem_map.2 ⟨x, h, rfl⟩
  · cases h

theorem mem_children_of_collection {c x : Nat} {value : Collection}
    (h : f.collection? c = some value) (hx : some x ∈ value.elements) : x ∈ f.children c := by
  refine mem_children_of_elements ?_
  simp only [elements, Option.bind_some, h]
  exact List.mem_filterMap.2 ⟨some x, hx, rfl⟩

theorem mem_children_of_argument {id : Nat} {a : Argument} (h : f.argument? id = some a) :
    a.expression ∈ f.children id :=
  mem_children_of_slot (payload?_of_argument? h) fun _ => by
    simp [Payload.slots, Argument.slots, Slot.expr, Slot.one]

theorem mem_children_of_initializer {id c : Nat} {i : Initializer} (h : f.initializer? id = some i)
    (hc : c ∈ i.slots.map Slot.id) : c ∈ f.children id :=
  mem_children_of_slot (payload?_of_initializer? h) fun _ => hc

theorem mem_children_of_type {id c : Nat} {t : TypeName} (h : f.type? id = some t)
    (hc : c ∈ t.slots.map Slot.id) : c ∈ f.children id :=
  mem_children_of_slot (payload?_of_type? h) fun _ => hc

theorem mem_children_of_name {id c : Nat} {n : Name} (h : f.name? id = some n)
    (hc : c ∈ n.slots.map Slot.id) : c ∈ f.children id :=
  mem_children_of_slot (payload?_of_name? h) fun _ => hc

theorem mem_children_of_stmt {id c : Nat} {s : Stmt} (h : f.stmt? id = some s)
    (hc : c ∈ s.slots.map Slot.id) : c ∈ f.children id :=
  mem_children_of_slot (payload?_of_stmt? h) fun _ => hc

theorem mem_children_of_expr {id c : Nat} {e : Expr} (h : f.expr? id = some e)
    (hc : c ∈ e.slots.map Slot.id) : c ∈ f.children id :=
  mem_children_of_slot (payload?_of_expr? h) fun _ => hc

theorem mem_children_of_decl {id c : Nat} {d : Decl} (h : f.decl? id = some d)
    (hc : c ∈ d.slots.map Slot.id) : c ∈ f.children id :=
  mem_children_of_slot (payload?_of_decl? h) fun _ => hc

end StructuredBasic.Syntax.Forest
