import StructuredBasic.Proofs.Forest.Accepted
import StructuredBasic.Proofs.Lowering.Accesses
import StructuredBasic.Proofs.Lowering.Accounts
import StructuredBasic.Proofs.Lowering.Refusals

/-!
# The subjects of `With` blocks

Lowering keeps the lowered subjects of the `With` blocks that it is inside of. By the tree alone the
surroundings of a node are those of the innermost block around it with one more subject
(`Surrounds`). Both agree at every node that lowering visits, so an access without a qualifier
belongs to the innermost block among whose statements it is, and has no lowering outside of all
blocks. With the subject of this block as its target it stands in the code of every node that it
feeds, in that of the routine too (`accesses_follow_blocks`).
-/

set_option autoImplicit false

namespace StructuredBasic.Lowering

open Syntax

/-! ## Blocks around a node -/

/-- Of the `With` blocks around the node, `w` is the one that is inside of all. -/
structure Innermost (f : Forest) (w x : Nat) : Prop where
  around : Around f w x
  nearest : ∀ v, Around f v x → w ∈ f.descendants v

section Around

variable {f : Forest} {w x y : Nat}

theorem Around.mem_descendants (h : Around f w x) : x ∈ f.descendants w := by
  obtain ⟨c, hw, hx⟩ := h
  exact Forest.mem_descendants_of_child hw.mem_children hx

theorem Innermost.unique {v : Nat} (hw : Innermost f w x) (hv : Innermost f v x) : w = v := by
  have hle := Forest.le_of_mem_descendants (hw.nearest v hv.around)
  have hge := Forest.le_of_mem_descendants (hv.nearest w hw.around)
  omega

theorem SameBlocks.innermost (h : SameBlocks f x y) : Innermost f w x ↔ Innermost f w y := by
  constructor
  · exact fun hx => ⟨(h w).1 hx.around, fun v hv => hx.nearest v ((h v).2 hv)⟩
  · exact fun hy => ⟨(h w).2 hy.around, fun v hv => hy.nearest v ((h v).1 hv)⟩

/-- The blocks around the list of a block are this block and those around it. -/
theorem around_list (hl : f.Linked) {c v : Nat} (hc : IsWithList f w c) :
    Around f v c ↔ v = w ∨ Around f v w := by
  constructor
  · rintro ⟨d, hd, hmem⟩
    rcases hl.mem_ancestors_of_mem_descendants hmem with rfl | hmem
    · left
      have hsame : some v = some w := ((hl.mem_children_iff v c).1 hd.mem_children).symm.trans
        ((hl.mem_children_iff w c).1 hc.mem_children)
      cases hsame
      rfl
    · right
      rw [hl.ancestors_of_child hc.mem_children] at hmem
      refine ⟨d, hd, ?_⟩
      rcases List.mem_cons.1 hmem with rfl | hmem
      · exact Forest.mem_descendants_self f d
      · exact hl.mem_descendants_of_mem_ancestors hmem
  · rintro (rfl | ⟨d, hd, hmem⟩)
    · exact ⟨c, hc, Forest.mem_descendants_self f c⟩
    · exact ⟨d, hd, Forest.mem_descendants_child hmem hc.mem_children⟩

theorem innermost_list (hl : f.Linked) {c : Nat} (hc : IsWithList f w c) : Innermost f w c where
  around := (around_list hl hc).2 (Or.inl rfl)
  nearest v hv := by
    rcases (around_list hl hc).1 hv with rfl | hv
    · exact Forest.mem_descendants_self f v
    · exact hv.mem_descendants

end Around

/-! ## Parts -/

section Parts

variable {f : Forest} {id x y : Nat}

theorem SameBlocks.slot (hl : f.Linked) (h : SameBlocks f y id) {p : Payload}
    (hp : f.payload? y = some p) (hg : isGuarded p = false)
    (hx : ∀ kind, x ∈ (p.slots kind).map Slot.id) : SameBlocks f x id := by
  refine h.child hl (Forest.mem_children_of_slot hp hx) ?_
  rintro ⟨_, expression, tail, hstmt⟩
  rw [Forest.payload?_of_stmt? hstmt] at hp
  cases hp
  cases hg

theorem SameBlocks.element (hl : f.Linked) (h : SameBlocks f y id)
    (hx : x ∈ f.elements (some y)) : SameBlocks f x id := by
  refine h.child hl (Forest.mem_children_of_elements hx) ?_
  rintro ⟨_, expression, tail, hstmt⟩
  rw [Forest.elements, Option.bind_some, Forest.collection?, Forest.payload?_of_stmt? hstmt] at hx
  cases hx

theorem SameBlocks.bound (hl : f.Linked) (h : SameBlocks f y id) (hx : x ∈ f.boundsOf y) :
    SameBlocks f x id := by
  unfold Forest.boundsOf at hx
  split at hx
  · next element rank bounds htype =>
    cases bounds with
    | none => cases hx
    | some c =>
      have hc : SameBlocks f c id := h.slot hl (Forest.payload?_of_type? htype) rfl fun _ => by
        simp [Payload.slots, TypeName.slots, Slot.opt]
      exact hc.element hl hx
  · cases hx

/-- How a part is found at a child of its node. -/
inductive FoundAt (f : Forest) (c : Nat) : Nat → Prop
  | child : FoundAt f c c
  | element {part : Nat} (h : part ∈ f.elements (some c)) : FoundAt f c part
  | bound {part : Nat} (h : part ∈ f.boundsOf c) : FoundAt f c part
  | closing {condition : LoopCondition} (h : f.stmt? c = some (.loopEnd (some condition))) :
      FoundAt f c condition.expression

theorem SameBlocks.foundAt (hl : f.Linked) (h : SameBlocks f y id) (hx : FoundAt f y x) :
    SameBlocks f x id := by
  cases hx with
  | child => exact h
  | element hx => exact h.element hl hx
  | bound hx => exact h.bound hl hx
  | closing hend =>
    exact h.slot hl (Forest.payload?_of_stmt? hend) rfl fun _ => by
      simp [Payload.slots, Stmt.slots, LoopCondition.slots, Slot.expr, Slot.one]

theorem foundAt_of_elements {slot : Option Nat} (h : x ∈ f.elements slot) :
    ∃ c, slot = some c ∧ FoundAt f c x := by
  cases slot with
  | none => cases h
  | some c => exact ⟨c, rfl, .element h⟩

theorem foundAt_of_trailing {tail : Option Nat} {condition : LoopCondition}
    (h : f.trailing tail = some condition) :
    ∃ c, tail = some c ∧ FoundAt f c condition.expression := by
  have htrailing : (Env.atTop f .standard Settings.standard.options).trailingCondition? tail =
      some condition := h
  obtain ⟨last, hlast, hend⟩ := loopEnd_of_trailing htrailing
  exact ⟨last, hlast, .closing hend⟩

theorem ids_opt (field : String) (slot : Option Nat) (expect : Expect) :
    (Slot.opt field slot expect).map Slot.id = slot.toList := by
  cases slot <;> rfl

theorem ids_condition (condition : Option LoopCondition) :
    (LoopCondition.slots condition).map Slot.id =
      condition.toList.map LoopCondition.expression := by
  cases condition <;> rfl

theorem foundAt_of_exprParts {e : Expr} (h : x ∈ f.exprParts e) :
    ∃ c ∈ e.slots.map Slot.id, FoundAt f c x := by
  cases e <;> simp only [Forest.exprParts, Expr.slots, Slot.expr, Slot.one, Slot.arguments,
    List.map_append, List.map_cons, List.map_nil, List.mem_append, List.mem_cons, ids_opt]
    at h ⊢ <;> grind [FoundAt.child, FoundAt.bound, foundAt_of_elements]

theorem foundAt_of_stmtParts {s : Stmt} (h : x ∈ f.stmtParts s) :
    ∃ c ∈ s.slots.map Slot.id, FoundAt f c x := by
  cases s <;> simp only [Forest.stmtParts, Stmt.slots, Slot.expr, Slot.one, Slot.arguments,
    Slot.statements, List.map_append, List.map_cons, List.map_nil, List.mem_append, List.mem_cons,
    List.mem_map, Option.mem_toList, ids_opt, ids_condition]
    at h ⊢ <;> grind [FoundAt.child, foundAt_of_elements, foundAt_of_trailing]

theorem foundAt_of_declParts {d : Decl} (h : x ∈ f.declParts d) :
    ∃ c ∈ d.slots.map Slot.id, FoundAt f c x := by
  cases d <;> simp only [Forest.declParts, Decl.slots, Signature.slots, Slot.one, Slot.members,
    Slot.statements, List.map_append, List.map_cons, List.map_nil, List.mem_append, List.mem_cons,
    Option.mem_toList, ids_opt]
    at h ⊢ <;> grind [FoundAt.child, foundAt_of_elements]

/-- The bounds on a name stand below the declared variable. -/
theorem SameBlocks.declaredBound (hl : f.Linked) (h : SameBlocks f y id)
    (hx : x ∈ f.declaredBounds y) : SameBlocks f x id := by
  unfold Forest.declaredBounds at hx
  split at hx
  · next name type hname =>
    have htype : SameBlocks f type id := h.slot hl (Forest.payload?_of_name? hname) rfl fun _ => by
      simp [Payload.slots, Name.slots, Slot.opt]
    exact htype.bound hl hx
  · cases hx

/-- A part of a node is among the statements of the same blocks. -/
theorem sameBlocks_of_part (hl : f.Linked) (h : x ∈ f.parts id) : SameBlocks f x id := by
  have hid := SameBlocks.refl f id
  have found : ∀ {p : Payload}, f.payload? id = some p → isGuarded p = false →
      (∃ c, (∀ kind, c ∈ (p.slots kind).map Slot.id) ∧ FoundAt f c x) → SameBlocks f x id := by
    rintro p hp hg ⟨c, hc, hx⟩
    exact (hid.slot hl hp hg hc).foundAt hl hx
  unfold Forest.parts at h
  split at h
  · next hp =>
    obtain ⟨c, hc, hx⟩ := foundAt_of_exprParts h
    exact found hp rfl ⟨c, fun _ => hc, hx⟩
  · next s hp =>
    by_cases hg : isGuarded (.stmt s) = true
    · cases s <;> cases hg
      next expression statements tail =>
      have hs : f.stmt? id = some (.guarded expression statements tail) := by
        rw [Forest.stmt?, hp]
      obtain rfl := List.mem_singleton.1 h
      have hx : x ∈ f.children id :=
        Forest.mem_children_of_stmt hs (by simp [Stmt.slots, Slot.expr, Slot.one])
      exact hid.child hl hx (subject_not_list hl hs)
    · obtain ⟨c, hc, hx⟩ := foundAt_of_stmtParts h
      exact found hp (by simpa using hg) ⟨c, fun _ => hc, hx⟩
  · next hp =>
    obtain ⟨c, hc, hx⟩ := foundAt_of_declParts h
    exact found hp rfl ⟨c, fun _ => hc, hx⟩
  · next d hp =>
    have hnames : ∀ declared ∈ f.elements (some d.names), SameBlocks f declared id :=
      fun declared hmem => (hid.slot hl hp rfl fun _ => by
        simp [Payload.slots, Declarator.slots, Slot.one]).element hl hmem
    obtain ⟨declared, hmem, hx⟩ := List.mem_flatMap.1 h
    split at hx
    · next initializer hinit =>
      obtain rfl := List.mem_singleton.1 hx
      exact found hp rfl ⟨x, fun _ => by
        simp [Payload.slots, Declarator.slots, hinit, Slot.opt], .child⟩
    · split at hx
      · obtain ⟨c, hc, hx⟩ := foundAt_of_elements hx
        exact found hp rfl ⟨c, fun _ => by
          simp [Payload.slots, Declarator.slots, Slot.arguments, hc, Slot.opt], hx⟩
      · exact (hnames declared hmem).declaredBound hl hx
  · next a hp =>
    obtain rfl := List.mem_singleton.1 h
    exact found hp rfl ⟨_, fun _ => by
      simp [Payload.slots, Argument.slots, Slot.expr, Slot.one], .child⟩
  · next value hp =>
    obtain rfl := List.mem_singleton.1 h
    exact found hp rfl ⟨_, fun _ => by
      simp [Payload.slots, Initializer.slots, Slot.expr, Slot.one], .child⟩
  · next elements hp =>
    obtain ⟨c, hc, hx⟩ := foundAt_of_elements h
    exact found hp rfl ⟨c, fun _ => by
      simp [Payload.slots, Initializer.slots, hc, Slot.opt], hx⟩
  · next operand hp =>
    obtain rfl := List.mem_singleton.1 h
    exact found hp rfl ⟨_, fun _ => by
      simp [Payload.slots, CaseClause.slots, Slot.expr, Slot.one], .child⟩
  · next lower upper hp =>
    exact found hp rfl ⟨x, fun _ => by
      simpa [Payload.slots, CaseClause.slots, Slot.expr, Slot.one] using h, .child⟩
  · next p hp =>
    exact found hp rfl ⟨x, fun _ => by
      simp [Payload.slots, Parameter.slots, Option.mem_toList.1 h, Slot.opt], .child⟩
  · cases h

end Parts

/-! ## Surroundings by the tree -/

/-- The surroundings of a node by the tree alone. Outside of `With` blocks they are those of the
declaration. The statements of a block are under its subject, which is lowered in the surroundings
of the block. -/
inductive Surrounds (base : Env) : Nat → Env → Prop
  | outside {x} (h : OutsideWith base.forest x) : Surrounds base x base
  | inside {x w outer subject statements tail target} (h : Innermost base.forest w x)
      (hw : base.forest.stmt? w = some (.guarded subject statements tail))
      (houter : Surrounds base w outer) (ht : outer.lowerExpr subject = .ok target) :
      Surrounds base x (outer.within target)

section Surrounds

variable {base env inner : Env} {id x y : Nat}

theorem Surrounds.forest_eq (h : Surrounds base x env) : env.forest = base.forest := by
  induction h with
  | outside => rfl
  | inside _ _ _ _ ih => exact ih

theorem Surrounds.of_sameBlocks (h : Surrounds base y env) (hs : SameBlocks base.forest x y) :
    Surrounds base x env := by
  cases h with
  | outside h => exact .outside (hs.outside.2 h)
  | inside h hw houter ht => exact .inside (hs.innermost.2 h) hw houter ht

theorem Surrounds.unique {other : Env} (h : Surrounds base x env) (ho : Surrounds base x other) :
    env = other := by
  induction h generalizing other with
  | outside h =>
    cases ho with
    | outside => rfl
    | inside hi => exact absurd hi.around (outsideWith_iff.1 h _)
  | inside h hw _ ht ih =>
    cases ho with
    | outside ho => exact absurd h.around (outsideWith_iff.1 ho _)
    | inside hi hwo houter hto =>
      obtain rfl := h.unique hi
      cases hw.symm.trans hwo
      obtain rfl := ih houter
      cases ht.symm.trans hto
      rfl

/-- What lowering visits has the surroundings that the tree gives it. -/
theorem Surrounds.of_leadsTo (hl : base.forest.Linked) (h : Surrounds base id env)
    (hv : LeadsTo env id inner x) : Surrounds base x inner := by
  induction hv with
  | here => exact h
  | @part env inner id c x hc hv ih =>
    rw [h.forest_eq] at hc
    exact ih (h.of_sameBlocks (sameBlocks_of_part hl hc))
  | @within env inner id expression statements tail subject c x hstmt hk hs hc hv ih =>
    rw [h.forest_eq] at hstmt hk hc
    cases statements with
    | none => cases hc
    | some list =>
      have hlist : IsWithList base.forest id list := ⟨hk, expression, tail, hstmt⟩
      have hsame := (SameBlocks.refl base.forest list).element hl hc
      exact ih (.inside (hsame.innermost.2 (innermost_list hl hlist)) hstmt h hs)

theorem Surrounds.innermost (h : Surrounds base x env) (ho : ¬ OutsideWith base.forest x) :
    ∃ w subject statements tail outer target, Innermost base.forest w x ∧
      base.forest.stmt? w = some (.guarded subject statements tail) ∧ Surrounds base w outer ∧
      outer.lowerExpr subject = .ok target ∧ env = outer.within target := by
  cases h with
  | outside h => exact absurd h ho
  | inside h hw houter ht => exact ⟨_, _, _, _, _, _, h, hw, houter, ht, rfl⟩

/-- Where no subject is in effect, the node is outside of `With` blocks. -/
theorem Surrounds.subjects_eq_nil (h : Surrounds base x env) (hbase : base.subjects = []) :
    env.subjects = [] ↔ OutsideWith base.forest x := by
  cases h with
  | outside h => exact iff_of_true hbase h
  | inside h =>
    exact iff_of_false (List.cons_ne_nil _ _) fun ho => outsideWith_iff.1 ho _ h.around

/-- The lowering of the access `x` follows the blocks around it. It fails for want of a subject
outside of `With` blocks, and only there. Elsewhere its target is the subject of the innermost
block, as it is lowered in the surroundings that this block has by the tree. -/
structure FollowsBlocks (f : Forest) (base env : Env) (x name : Nat)
    (build : Target.Expr → String → Target.Expr) : Prop where
  surrounds : Surrounds base x env
  refused_iff : env.lowerExpr x = .error (.malformed (.memberOutsideWith (f.span x))) ↔
    OutsideWith f x
  target : ¬ OutsideWith f x → ∃ w subject statements tail outer target, Innermost f w x ∧
    f.stmt? w = some (.guarded subject statements tail) ∧ Surrounds base w outer ∧
    outer.lowerExpr subject = .ok target ∧
    env.lowerExpr x = (do return build target (← env.nameText name))

theorem Surrounds.followsBlocks (h : Surrounds base x env) (hbase : base.subjects = [])
    {name : Nat} {build : Target.Expr → String → Target.Expr}
    (hx : BareAccess base.forest x name build) :
    FollowsBlocks base.forest base env x name build := by
  have hforest := h.forest_eq
  have hlower := BareAccess.lowerExpr (hforest ▸ hx)
  refine ⟨h, ⟨fun herror => ?_, fun ho => ?_⟩, fun ho => ?_⟩
  · by_contra ho
    obtain ⟨_, _, _, _, outer, target, _, _, _, _, rfl⟩ := h.innermost ho
    have hname : Result.Fails (do return build target (← (outer.within target).nameText name))
        IsElsewhere := (elsewhere_nameText _ name).bind fun _ => Result.fails_ok
    exact absurd rfl (hname _ (hlower.symm.trans herror) _)
  · rw [hlower, Env.subject, (h.subjects_eq_nil hbase).2 ho, hforest]
    rfl
  · obtain ⟨w, subject, statements, tail, outer, target, hw, hstmt, houter, ht, rfl⟩ :=
      h.innermost ho
    exact ⟨w, subject, statements, tail, outer, target, hw, hstmt, houter, ht, hlower⟩

/-- The access `x` stands in the code, with the subject of the innermost block around it as its
target, as this subject is lowered in the surroundings that the block has by the tree. -/
def StandsUnder (base : Env) (x name : Nat) (build : Target.Expr → String → Target.Expr)
    (code : List Target.Expr) : Prop :=
  ∃ w subject statements tail outer target text, Innermost base.forest w x ∧
    base.forest.stmt? w = some (.guarded subject statements tail) ∧ Surrounds base w outer ∧
    outer.lowerExpr subject = .ok target ∧ base.forest.nameText? name = some text ∧
    Stands (build target text) code

/-- What a node shows in its surroundings by the tree stands there under the subject of its own
block. -/
theorem Shown.standsUnder {code : List Target.Expr} (h : Shown env id code)
    (hl : base.forest.Linked) (hbase : base.subjects = []) (hs : Surrounds base id env) {name : Nat}
    {build : Target.Expr → String → Target.Expr} (hfeeds : base.forest.Feeds x id)
    (hx : BareAccess base.forest x name build) : StandsUnder base x name build code := by
  have hforest := hs.forest_eq
  obtain ⟨inner, e, hleads, he, hstands⟩ := h x (hforest ▸ hfeeds) ⟨name, build, hforest ▸ hx⟩
  have hinner : Surrounds base x inner := hs.of_leadsTo hl hleads
  have hfollows := hinner.followsBlocks hbase hx
  have ho : ¬ OutsideWith base.forest x := by
    intro ho
    rw [hfollows.refused_iff.2 ho] at he
    cases he
  obtain ⟨w, subject, statements, tail, outer, target, hw, hstmt, houter, ht, hlower⟩ :=
    hfollows.target ho
  rw [hlower] at he
  simp only [Result.bind_ok, Result.pure_ok] at he
  obtain ⟨text, htext, rfl⟩ := he
  have htext := hinner.forest_eq ▸ nameText_ok htext
  exact ⟨w, subject, statements, tail, outer, target, text, hw, hstmt, houter, ht, htext, hstands⟩

end Surrounds

/-! ## Routines -/

/-- The statements of a routine are outside of `With` blocks: what is inside one holds no
routine. -/
theorem outsideWith_routine {f : Forest} (hl : f.Linked) (hf : f.Shaped) {node : Nat}
    {statements : Option Nat} (h : HoldsStatements f node statements) :
    ∀ id ∈ f.elements statements, OutsideWith f id := by
  intro id hid
  have hpart : id ∈ f.parts node := by
    cases h with
    | method h | accessor h =>
      rw [Forest.parts, Forest.payload?_of_decl? h]
      simp [Forest.declParts, hid]
  rw [(sameBlocks_of_part hl hpart).outside, outsideWith_iff]
  rintro w ⟨c, ⟨_, expression, tail, hstmt⟩, hc⟩
  have hchild : c ∈ f.children w :=
    Forest.mem_children_of_stmt hstmt (by simp [Stmt.slots, Slot.statements, Slot.opt])
  exact h.not_below hf (Or.inr (Or.inr ⟨_, hstmt⟩)) (Forest.mem_descendants_of_child hchild hc)

/-- Every access that feeds a statement of a routine stands in the body under the subject of its
own block. -/
theorem RoutineBody.standsUnder {forest : Forest} {settings : Settings} {body : List Target.Stmt}
    (r : RoutineBody forest settings body) (hl : forest.Linked) (hf : forest.Shaped) {id x : Nat}
    (hid : id ∈ forest.elements r.statements) (hfeeds : forest.Feeds x id) {name : Nat}
    {build : Target.Expr → String → Target.Expr} (hx : BareAccess forest x name build) :
    StandsUnder r.env x name build (Target.Stmt.exprsAll body) := by
  have houtside : Surrounds r.env id r.env := .outside (outsideWith_routine hl hf r.holds id hid)
  exact (r.shown id hid).standsUnder hl rfl houtside hfeeds hx

/-! ## Files -/

/-- Lowering the file comes to the node `x` in the surroundings `env`, from a declaration in the
surroundings `base`. -/
def Visited (tree : Tree) (settings : Settings) (base env : Env) (x : Nat) : Prop :=
  ∃ file place top, tree.payload? tree.root = some (.file file) ∧
    (tree.elements file.declarations)[place]? = some top ∧
    base = envAt tree.toForest settings (tree.elements file.declarations) place ∧
    LeadsTo base top env x

section Files

variable {tree : Tree} {settings : Settings} {base env : Env} {x : Nat}

theorem Visited.surrounds (hfinished : tree.Finished) (h : Visited tree settings base env x) :
    base.forest = tree.toForest ∧ base.subjects = [] ∧ Surrounds base x env := by
  obtain ⟨file, place, top, hfile, htop, rfl, hvisits⟩ := h
  have hmem := List.mem_of_getElem? htop
  have houtside := (declarations_outside hfinished hfile top hmem).2
  exact ⟨rfl, rfl, Surrounds.of_leadsTo hfinished.built.linked (.outside houtside) hvisits⟩

theorem Visited.followsBlocks (hfinished : tree.Finished)
    (h : Visited tree settings base env x) {name : Nat}
    {build : Target.Expr → String → Target.Expr} (hx : BareAccess tree.toForest x name build) :
    FollowsBlocks tree.toForest base env x name build := by
  obtain ⟨hforest, hbase, hsurrounds⟩ := h.surrounds hfinished
  have hfollows := hsurrounds.followsBlocks hbase (hforest ▸ hx)
  rw [hforest] at hfollows
  exact hfollows

/-- An access to a member or an element without a qualifier belongs to the innermost `With` block
among whose statements it is, wherever lowering comes to it. The subject of a nested block belongs
to the blocks around this block. A file that lowers has lowered all accesses that it comes to, and
one that is refused for an access outside of `With` blocks comes to such an access. In the bodies of
the program, and in whatever a node is lowered to, stands every access that feeds it, with the
subject of its own block as its target. -/
theorem accesses_follow_blocks {tree : Tree} (hfinished : tree.Finished) (settings : Settings) :
    (∀ base env x name build, Visited tree settings base env x →
      BareAccess tree.toForest x name build →
      FollowsBlocks tree.toForest base env x name build) ∧
    (∀ w subject statements tail, tree.stmt? w = some (.guarded subject statements tail) →
      ∀ v, Innermost tree.toForest v subject ↔ Innermost tree.toForest v w) ∧
    (∀ program, lowerFile tree settings = .ok program → ∀ base env x,
      Visited tree settings base env x → IsBare tree.toForest x →
      ¬ OutsideWith tree.toForest x ∧ ∃ e, env.lowerExpr x = .ok e) ∧
    (∀ span, lowerFile tree settings = .error (.malformed (.memberOutsideWith span)) →
      ∃ base env x, Visited tree settings base env x ∧ IsBare tree.toForest x ∧
        OutsideWith tree.toForest x ∧ span = tree.span x) ∧
    (∀ program, lowerFile tree settings = .ok program → ∀ body, program.HasBody body →
      HasOrigin tree.toForest settings body ∧
      ∀ r : RoutineBody tree.toForest settings body, ∀ id ∈ tree.elements r.statements,
      ∀ x name build, tree.toForest.Feeds x id → BareAccess tree.toForest x name build →
      StandsUnder r.env x name build (Target.Stmt.exprsAll body)) ∧
    ∀ base env id, Visited tree settings base env id → ∀ x name build,
      tree.toForest.Feeds x id → BareAccess tree.toForest x name build →
      (∀ e, env.lowerExpr id = .ok e → StandsUnder base x name build [e]) ∧
      ∀ routine s out t, env.lowerStmt routine id s = .ok (out, t) →
        StandsUnder base x name build (Target.Stmt.exprsAll out) := by
  have hl := hfinished.built.linked
  refine ⟨fun base env x name build hvisited hx => hvisited.followsBlocks hfinished hx,
    ?_, ?_, ?_, ?_, ?_⟩
  · intro w subject statements tail hstmt v
    have hchild : subject ∈ tree.children w :=
      Forest.mem_children_of_stmt hstmt (by simp [Stmt.slots, Slot.expr, Slot.one])
    exact ((SameBlocks.refl _ w).child hl hchild (subject_not_list hl hstmt)).innermost
  · rintro program hlowers base env x hvisited ⟨name, build, hx⟩
    have hfollows := hvisited.followsBlocks hfinished hx
    obtain ⟨file, place, top, hfile, htop, rfl, hvisits⟩ := hvisited
    have hsettled := (accounts_of_lowerFile hfile).1 program hlowers place top htop
    have hforest : env.forest = tree.toForest := hfollows.surrounds.forest_eq
    obtain ⟨e, he⟩ := hsettled env x hvisits ⟨name, build, hforest ▸ hx⟩
    refine ⟨fun ho => ?_, e, he⟩
    rw [hfollows.refused_iff.2 ho] at he
    cases he
  · intro span hrefused
    rcases hasCause_of_lowerFile hfinished hrefused with ⟨_, h⟩ | ⟨file, hfile, _⟩
    · cases h
    · obtain ⟨place, top, htop, env, x, hvisits, hbare, hsubjects, hspan⟩ :=
        (accounts_of_lowerFile hfile).2 span hrefused
      have hvisited : Visited tree settings _ env x :=
        ⟨file, place, top, hfile, htop, rfl, hvisits⟩
      obtain ⟨-, hbase, hsurrounds⟩ := hvisited.surrounds hfinished
      have hforest : env.forest = tree.toForest := hsurrounds.forest_eq
      rw [hforest] at hbare hspan
      exact ⟨_, env, x, hvisited, hbare, (hsurrounds.subjects_eq_nil hbase).1 hsubjects, hspan⟩
  · intro program hlowers body hbody
    refine ⟨body_origin hlowers hbody, fun r id hid x name build hfeeds hx => ?_⟩
    exact r.standsUnder hl hfinished.built.shaped hid hfeeds hx
  · intro base env id hvisited x name build hfeeds hx
    obtain ⟨hforest, hbase, hsurrounds⟩ := hvisited.surrounds hfinished
    rw [← hforest] at hl hfeeds hx
    refine ⟨fun e he => ?_, fun routine s out t hout => ?_⟩
    · exact (shown_lowerExpr env id e he).standsUnder hl hbase hsurrounds hfeeds hx
    · obtain ⟨core, rfl, hcore⟩ := derivable routine id env s out t hout
      rw [Target.Stmt.exprsAll_append]
      exact Shown.standsUnder (hcore.shown.of_subset (List.subset_append_right _ _)) hl hbase
        hsurrounds hfeeds hx

end Files

/-- A `With a` around a `With .b` around a `.c = 1`. -/
def withsFile : List Call :=
  let span := Span.startingAt ⟨1, 1⟩
  [.alloc .simpleName span (.name (.simple "Main" none false)),
    .alloc .simpleName span (.name (.simple "a" none false)),
    .alloc .simpleNameExpression span (.expr (.simpleName 1)),
    .alloc .simpleName span (.name (.simple "b" none false)),
    .alloc .qualifiedExpression span (.expr (.qualified none ⟨1, 1⟩ 3)),
    .alloc .simpleName span (.name (.simple "c" none false)),
    .alloc .qualifiedExpression span (.expr (.qualified none ⟨1, 1⟩ 5)),
    .alloc .integerLiteralExpression span (.expr (.literal (.integer 1 .decimal none))),
    .alloc .assignmentStatement span (.stmt (.assignment 6 7)),
    .collection .statementCollection span [some 8] [],
    .alloc .withBlockStatement span (.stmt (.guarded 4 (some 9) none)),
    .collection .statementCollection span [some 10] [],
    .alloc .withBlockStatement span (.stmt (.guarded 2 (some 11) none)),
    .collection .statementCollection span [some 12] [],
    .alloc .subDeclaration span
      (.decl (.method ⟨none, none⟩ (.ofName 0) none none (some 13) none)),
    .collection .declarationCollection span [some 14] [],
    .alloc .file span (.file ⟨some 15⟩)]

def withsTree : Tree := .ofCalls withsFile 16

theorem withs_accepted : (Forest.empty.after withsFile).size = withsFile.length := by
  decide +kernel

theorem withsTree_settled :
    withsTree = { Forest.settled withsFile withs_accepted with root := 16 } :=
  Tree.ofCalls_eq_settled 16 withs_accepted

/-- The statements of the `Sub`. -/
def withsBody : List Target.Stmt :=
  [.assign (.field (.field (.ident "a") "b") "c") (.int 1)]

def withsProgram : Target.Program where
  nameSpace := none
  imports := []
  options := Settings.standard.options
  type := wrapper .standard [.method {
    name := "Main"
    kind := .normal
    visibility := .publicAccess
    isStatic := true
    typeParameters := []
    parameters := []
    returnType := .void
    body := withsBody
    entry := none
    comments := [] }]

def withsBase : Env := envAt withsTree.toForest .standard [14] 0

/-- The surroundings of the statements of the outer block. -/
def withsOuter : Env := withsBase.within (.ident "a")

/-- The surroundings of the statements of the inner block. -/
def withsInner : Env := withsOuter.within (.field (.ident "a") "b")

theorem withs_lead :
    LeadsTo withsBase 14 withsOuter 4 ∧ LeadsTo withsBase 14 withsInner 6 := by
  rw [withsInner, withsOuter, withsBase, withsTree_settled]
  constructor
  · refine .part (c := 12) (by decide +kernel) ?_
    refine .within rfl rfl (by with_unfolding_all rfl) (c := 10) (by decide +kernel) ?_
    exact .part (c := 4) (by decide +kernel) .here
  · refine .part (c := 12) (by decide +kernel) ?_
    refine .within rfl rfl (by with_unfolding_all rfl) (c := 10) (by decide +kernel) ?_
    refine .within rfl rfl (by with_unfolding_all rfl) (c := 8) (by decide +kernel) ?_
    exact .part (c := 6) (by decide +kernel) .here

theorem withs_feed : withsTree.toForest.Feeds 6 12 ∧ withsTree.toForest.Feeds 4 4 := by
  rw [withsTree_settled]
  refine ⟨.within rfl rfl (c := 10) (by decide +kernel) ?_, .here⟩
  refine .within rfl rfl (c := 8) (by decide +kernel) ?_
  refine .part (c := 6) (by decide +kernel) (fun h => ?_) .here
  cases h with
  | subject h | counter h | element h => cases h

/-- The `Sub` with its body. -/
theorem withs_routine : ∃ r : RoutineBody withsTree.toForest .standard withsBody,
    12 ∈ withsTree.elements r.statements := by
  rw [withsTree_settled]
  refine ⟨⟨Settings.standard.options, 14, "Main", .void, some 13, .method rfl, ?_⟩, ?_⟩
  · with_unfolding_all rfl
  · decide +kernel

theorem withs_follow_blocks : withsTree.Finished ∧
    (lowerFile withsTree .standard = .ok withsProgram ∧ ¬ OutsideWith withsTree.toForest 4) ∧
    (Innermost withsTree.toForest 12 4 ∧
      FollowsBlocks withsTree.toForest withsBase withsOuter 4 3 .field ∧
      withsOuter.lowerExpr 4 = .ok (.field (.ident "a") "b")) ∧
    (Innermost withsTree.toForest 10 6 ∧
      FollowsBlocks withsTree.toForest withsBase withsInner 6 5 .field ∧
      withsInner.lowerExpr 6 = .ok (.field (.field (.ident "a") "b") "c")) ∧
    StandsUnder withsBase 4 3 .field [.field (.ident "a") "b"] ∧
    withsProgram.HasBody withsBody ∧ ∃ r : RoutineBody withsTree.toForest .standard withsBody,
      StandsUnder r.env 6 5 .field (Target.Stmt.exprsAll withsBody) := by
  have hfinished : withsTree.Finished := Tree.finished_of_last withs_accepted rfl
  have hl := hfinished.built.linked
  have hroot : withsTree.payload? withsTree.root = some (.file ⟨some 15⟩) := by
    rw [withsTree_settled]
    rfl
  have helements : withsTree.elements (some 15) = [14] := by
    rw [withsTree_settled]
    rfl
  have hvisited : ∀ {env x}, LeadsTo withsBase 14 env x →
      Visited withsTree .standard withsBase env x := by
    intro env x h
    refine ⟨_, 0, 14, hroot, ?_, ?_, h⟩
    · rw [helements]
      rfl
    · rw [helements]
      rfl
  have hinner : withsTree.stmt? 10 = some (.guarded 4 (some 9) none) := by
    rw [withsTree_settled]
    rfl
  have hlists : IsWithList withsTree.toForest 12 11 ∧ IsWithList withsTree.toForest 10 9 := by
    rw [withsTree_settled]
    exact ⟨⟨rfl, 2, none, rfl⟩, ⟨rfl, 4, none, rfl⟩⟩
  have hplaces : 10 ∈ withsTree.elements (some 11) ∧ 8 ∈ withsTree.elements (some 9) ∧
      6 ∈ withsTree.parts 8 := by
    rw [withsTree_settled]
    decide +kernel
  have hblock : SameBlocks withsTree.toForest 10 11 := (SameBlocks.refl _ 11).element hl hplaces.1
  have hstmt : SameBlocks withsTree.toForest 8 9 := (SameBlocks.refl _ 9).element hl hplaces.2.1
  have htarget : SameBlocks withsTree.toForest 6 8 := sameBlocks_of_part hl hplaces.2.2
  have hb : withsTree.expr? 4 = some (.qualified none ⟨1, 1⟩ 3) := by
    rw [withsTree_settled]
    rfl
  have hc : withsTree.expr? 6 = some (.qualified none ⟨1, 1⟩ 5) := by
    rw [withsTree_settled]
    rfl
  have hlowers : lowerFile withsTree .standard = .ok withsProgram := by
    rw [withsTree_settled]
    with_unfolding_all rfl
  have hfields : withsOuter.lowerExpr 4 = .ok (.field (.ident "a") "b") ∧
      withsInner.lowerExpr 6 = .ok (.field (.field (.ident "a") "b") "c") := by
    rw [withsInner, withsOuter, withsBase, withsTree_settled]
    constructor <;> with_unfolding_all rfl
  have hbody : withsProgram.HasBody withsBody := .nested List.mem_cons_self (.method _)
  obtain ⟨hfollows, hsubject, hlowered, _, hbodies, hnodes⟩ :=
    accesses_follow_blocks hfinished .standard
  refine ⟨hfinished, ⟨hlowers, ?_⟩, ⟨?_, ?_, hfields.1⟩, ⟨?_, ?_, hfields.2⟩, ?_, hbody, ?_⟩
  · exact (hlowered _ hlowers _ _ 4 (hvisited withs_lead.1) ⟨_, _, .member hb⟩).1
  · exact (hsubject 10 4 _ _ hinner 12).2 (hblock.innermost.2 (innermost_list hl hlists.1))
  · exact hfollows _ _ 4 3 .field (hvisited withs_lead.1) (.member hb)
  · exact htarget.innermost.2 (hstmt.innermost.2 (innermost_list hl hlists.2))
  · exact hfollows _ _ 6 5 .field (hvisited withs_lead.2) (.member hc)
  · exact (hnodes _ _ 4 (hvisited withs_lead.1) 4 3 .field withs_feed.2 (.member hb)).1 _ hfields.1
  · obtain ⟨r, hr⟩ := withs_routine
    exact ⟨r, (hbodies _ hlowers _ hbody).2 r 12 hr 6 5 .field withs_feed.1 (.member hc)⟩

end StructuredBasic.Lowering
