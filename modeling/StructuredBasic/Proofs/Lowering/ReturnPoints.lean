import StructuredBasic.Proofs.Forest.Accepted
import StructuredBasic.Proofs.Lowering.Routines
import StructuredBasic.Proofs.Lowering.Scope

/-!
# Return points

A bare `Return` behind a label that a `GoSub` goes to becomes a jump to the return point of the
label. `ReturnsTo` says what such a jump needs: the return point is placed once, behind a jump to
the label, and every jump to it finds it. Lowering does not promise that. It holds exactly when one
statement alone places the return point, a `GoSub` spelled as the label is or a label that spells
the return point itself, and each jump there stands in the list that this statement lowers into, or
inside it (`return_point_iff`).
-/

set_option autoImplicit false

namespace StructuredBasic.Lowering

open Syntax Machine

/-! ## The routine around a statement -/

section Routines

variable {f : Forest} {node : Nat} {statements : Option Nat}

theorem isRoutine_of_holds (hf : f.Shaped) (h : HoldsStatements f node statements) :
    Env.isRoutine (f.kind node) = true := by
  cases h with
  | method h | accessor h => exact Decl.of_kinds (hf.describes_decl h) rfl

/-- Nodes that may stand below the list of a routine. -/
def IsInside (f : Forest) (id : Nat) : Prop :=
  (f.kind id).isInert = true ∨ f.kind id = .statementCollection ∨ ∃ s, f.stmt? id = some s

theorem IsInside.not_routine (hf : f.Shaped) {id : Nat} (h : IsInside f id) :
    Env.isRoutine (f.kind id) = false := by
  rcases h with hi | hk | ⟨s, hs⟩
  · revert hi
    cases f.kind id <;> first
      | (intro _; rfl)
      | (intro hi; cases hi)
  · rw [hk]
    rfl
  · have hall : s.kinds.all (fun k => !Env.isRoutine k) = true := by cases s <;> rfl
    simpa using Stmt.of_kinds (hf.describes_stmt hs) hall

theorem isInside_of_list {c : Nat}
    (h : (Expect.kind .statementCollection).admits (f.kind c) = true) : IsInside f c := by
  simp only [Expect.admits, Kind.isBad, Bool.or_eq_true, beq_iff_eq] at h
  rcases h with hbad | hk
  · exact Or.inl (by rw [hbad]; rfl)
  · exact Or.inr (Or.inl hk.symm)

theorem IsInside.child (hf : f.Shaped) {p c : Nat} (h : IsInside f p) (hc : c ∈ f.children p) :
    IsInside f c := by
  cases hi : (f.kind c).isInert with
  | true => exact Or.inl hi
  | false =>
    rcases h with hp | hk | ⟨s, hs⟩
    · exact Or.inl (hf.inert_of_child hp hc)
    · have helement := hf.element_of_child hk hc hi
      have hadmits : (Expect.kind .statementCollection).admits (f.kind p) = true := by
        rw [hk]
        rfl
      rcases hf.stmt_of_element hadmits helement with hstmt | hinert
      · exact Or.inr (Or.inr hstmt)
      · exact Or.inl hinert
    · rcases hf.part_of_child hs hc hi with hl | hl
      · exact isInside_of_list (hf.admits_of_list hs hl)
      · rcases hf.stmt_of_last hs hl with hstmt | hinert
        · exact Or.inr (Or.inr hstmt)
        · exact Or.inl hinert

/-- No routine is below what is inside one. -/
theorem HoldsStatements.not_below (hf : f.Shaped) (h : HoldsStatements f node statements) {a : Nat}
    (ha : IsInside f a) : node ∉ f.descendants a := by
  intro hbelow
  have hinside : IsInside f node := Forest.descendants_induction ha
    (fun _ hp _ hchild => hp.child hf hchild) node hbelow
  have hroutine := isRoutine_of_holds hf h
  rw [hinside.not_routine hf] at hroutine
  cases hroutine

/-- The list of a routine is a list of statements, and its only child that is not inert. -/
theorem HoldsStatements.list (hf : f.Shaped) (h : HoldsStatements f node statements) :
    (∀ c, statements = some c → c ∈ f.children node ∧
      (Expect.kind .statementCollection).admits (f.kind c) = true) ∧
    (∀ c ∈ f.children node, (f.kind c).isInert = false → statements = some c) ∧
    ∃ d, f.decl? node = some d := by
  have hdecl : ∃ d, f.decl? node = some d ∧ d.list? = statements ∧
      ∀ c, statements = some c →
        (⟨"statements", c, .kind .statementCollection⟩ : Slot) ∈ d.slots := by
    cases h with
    | method h =>
      exact ⟨_, h, rfl, by rintro c rfl; simp [Decl.slots, Slot.statements, Slot.opt]⟩
    | accessor h =>
      exact ⟨_, h, rfl, by rintro c rfl; simp [Decl.slots, Slot.statements, Slot.opt]⟩
  obtain ⟨d, hd, hlist, hslot⟩ := hdecl
  obtain ⟨n, hn, hp⟩ := Option.map_eq_some_iff.1 (Forest.payload?_of_decl? hd)
  refine ⟨fun c hc => ⟨?_, ?_⟩, fun c hc hi => ?_, d, hd⟩
  · exact Forest.mem_children_of_decl hd (List.mem_map.2 ⟨_, hslot c hc, rfl⟩)
  · exact hf.slots node n hn _ (by rw [hp]; exact hslot c hc)
  · rw [← hlist]
    exact hf.list_of_child hd hc hi

/-- Between a routine and what is below it there are statements and their lists only, so no other
routine. -/
theorem inside_of_mem {env : Env} (hl : env.forest.Linked) (hf : env.forest.Shaped)
    (h : HoldsStatements env.forest node statements) {id : Nat}
    (hid : id ∈ env.forest.descendants node) (hne : id ≠ node) :
    IsInside env.forest id ∧ env.enclosingRoutine? id = some node := by
  obtain ⟨hlist, hchild, _⟩ := h.list hf
  rcases Forest.mem_descendants.1 hid with rfl | ⟨c, hc, hid⟩
  · exact absurd rfl hne
  have hinside : IsInside env.forest c := by
    cases hi : (env.forest.kind c).isInert with
    | true => exact Or.inl hi
    | false => exact isInside_of_list (hlist c (hchild c hc hi)).2
  have hfound : env.forest.enclosing? c Env.isRoutine = some node := by
    rw [Forest.enclosing?, hl.ancestors_of_child hc, List.find?_cons, isRoutine_of_holds hf h]
  refine Forest.descendants_induction (P := fun d => IsInside env.forest d ∧
    env.forest.enclosing? d Env.isRoutine = some node) ⟨hinside, hfound⟩ ?_ id hid
  rintro p ⟨hp, henclosing⟩ d hd
  refine ⟨hp.child hf hd, ?_⟩
  rw [Forest.enclosing?, hl.ancestors_of_child hd, List.find?_cons, hp.not_routine hf]
  exact henclosing

theorem enclosingRoutine_of_mem {env : Env} (hl : env.forest.Linked) (hf : env.forest.Shaped)
    (h : HoldsStatements env.forest node statements) {id : Nat}
    (hid : id ∈ env.forest.descendants node) (hne : id ≠ node) :
    env.enclosingRoutine? id = some node :=
  (inside_of_mem hl hf h hid hne).2

end Routines

/-! ## Statements that place a label -/

section Placing

variable {env : Env}

theorem count_label_le (env : Env) (r : String) (id : Nat) :
    (env.marksAt id).count (.label r) ≤ 1 := by
  unfold Env.marksAt
  split
  · dsimp only
    split <;> simp [List.count_cons] <;> split <;> omega
  · cases env.returnTarget? _ <;> simp
  · simp

theorem count_flatMap_eq {α : Type} {g : α → List Mark} {mark : Mark}
    (h : ∀ x, (g x).count mark ≤ 1) (l : List α) :
    (l.flatMap g).count mark = (l.filter fun x => decide (mark ∈ g x)).length := by
  induction l with
  | nil => rfl
  | cons x l ih =>
    rw [List.flatMap_cons, List.count_append, ih, List.filter_cons]
    have hle := h x
    split
    · next hmem =>
      have := List.count_pos_iff.2 (of_decide_eq_true hmem)
      rw [List.length_cons]
      omega
    · next hmem =>
      have hzero := List.count_eq_zero_of_not_mem fun h => hmem (decide_eq_true h)
      omega

/-- The statements of a list that places a label stand on the surface of the list. -/
theorem listShows_iff {f : Forest} {g : Nat → List Mark} {r : String} {node x c : Nat}
    (hone : (f.descendants node).filter (fun x => decide (.label r ∈ g x)) = [x])
    (hc : c ∈ f.descendants node) :
    ListShows f g r (some c) ↔ ∃ z ∈ f.elements (some c), Surfaces f z x := by
  have hsurface : ∀ {z y : Nat}, Surfaces f z y → y ∈ f.descendants z := by
    intro z y h
    induction h with
    | self y => exact Forest.mem_descendants_self f y
    | within h hz _ ih =>
      exact Forest.mem_descendants_trans (Forest.elements_below (Forest.mem_descendants_self f _) h
        (by simp [Stmt.lists]) _ hz) ih
    | caseElse h _ hl hz _ ih =>
      have hlast := Forest.mem_descendants_child (Forest.mem_descendants_self f _)
        (Forest.mem_children_of_last h rfl)
      have hbelow := Forest.elements_below hlast hl (by simp [Stmt.lists]) _ hz
      exact Forest.mem_descendants_trans hbelow ih
  constructor
  · rintro ⟨z, hz, y, hy, hr⟩
    have hbelow : y ∈ f.descendants node := Forest.mem_descendants_trans
      (Forest.mem_descendants_child hc (Forest.mem_children_of_elements hz)) (hsurface hy)
    have hmem : y ∈ (f.descendants node).filter (fun x => decide (.label r ∈ g x)) :=
      List.mem_filter.2 ⟨hbelow, decide_eq_true hr⟩
    rw [hone, List.mem_singleton] at hmem
    rw [hmem] at hy
    exact ⟨z, hz, hy⟩
  · rintro ⟨z, hz, hx⟩
    have hmem : x ∈ (f.descendants node).filter (fun x => decide (.label r ∈ g x)) := by
      rw [hone]
      exact List.mem_singleton.2 rfl
    exact ⟨z, hz, x, hx, of_decide_eq_true (List.mem_filter.1 hmem).2⟩

end Placing

/-! ## Jumps of a routine -/

theorem returnPoint_injective {a b : String} (h : returnPoint a = returnPoint b) : a = b := by
  have hlist := congrArg String.toList h
  rw [returnPoint, returnPoint, String.toList_append, String.toList_append] at hlist
  exact String.toList_inj.1 (List.append_cancel_right hlist)

section Marks

variable {env : Env} {id : Nat}

/-- A label is placed by its definition, or as the return point of a `GoSub`. -/
theorem label_mem_marksAt {point : String} (h : .label point ∈ env.marksAt id) :
    env.labelOf? .labelStatement id = some point ∨
      ∃ label ∈ env.goSubAt id, point = returnPoint label := by
  unfold Env.marksAt at h
  split at h
  · next name isLineNumber hstmt =>
    dsimp only at h
    split at h
    · next hk =>
      left
      simp only [List.mem_singleton, Mark.label.injEq] at h
      simp only [Env.labelOf?, hstmt, hk, h, if_true]
    · simp at h
    · next hk =>
      right
      refine ⟨labelName name isLineNumber, mem_goSubAt.2 ⟨name, isLineNumber, hstmt, hk, rfl⟩, ?_⟩
      simpa using h
    · cases h
  · cases env.returnTarget? id <;> simp at h
  · cases h

theorem quiet_withShadow (shadow : Option String) (returnType : Target.Ty)
    (out : List Target.Stmt) : ∃ front back, Quiet front ∧ Quiet back ∧
      Env.withShadow shadow returnType out = front ++ out ++ back := by
  cases shadow with
  | none => exact ⟨[], [], quiet_nil, quiet_nil, by rw [List.append_nil]; rfl⟩
  | some name =>
    exact ⟨[.declare name returnType (some (zeroValue returnType))],
      [.returns (some (.ident name))], List.forall_mem_singleton.2 ⟨rfl, rfl⟩,
      List.forall_mem_singleton.2 ⟨rfl, rfl⟩, rfl⟩

end Marks

namespace RoutineBody

variable {forest : Forest} {settings : Settings} {body : List Target.Stmt}

/-- A routine that holds a list lowers to the list with quiet statements around it. -/
theorem lowersAll (r : RoutineBody forest settings body) : ∃ front out back s t,
    Quiet front ∧ Quiet back ∧ body = front ++ out ++ back ∧
      LowersAll r.routine r.env (forest.elements r.statements) s out t := by
  obtain ⟨out, state, hout, hbody⟩ := lowerRoutine_ok r.lowered
  obtain ⟨front, back, hfront, hback, heq⟩ := quiet_withShadow
    (r.env.routineShadow r.node r.name r.returnType).1 r.returnType out
  exact ⟨front, out, back, _, state, hfront, hback, hbody.trans heq, lowersAll_of_lowerBody hout⟩

theorem gather_node (r : RoutineBody forest settings body) (hf : forest.Shaped) {α : Type}
    {g : Nat → List α} (hg : forest.Sparse g) (hnode : g r.node = []) :
    forest.gather g r.node = (forest.elements r.statements).flatMap (forest.gather g) := by
  obtain ⟨options, node, name, returnType, statements, holds, lowered⟩ := r
  cases holds with
  | method h => rw [hf.gather_decl hg h, hnode]; rfl
  | accessor h => rw [hf.gather_decl hg h, hnode]; rfl

variable (r : RoutineBody forest settings body) (hf : forest.Shaped)
include hf

theorem marksAt_node : r.env.marksAt r.node = [] := by
  obtain ⟨_, _, d, hd⟩ := r.holds.list hf
  exact marksAt_of_decl hd

theorem marksAll_eq : marksAll body = forest.gather r.env.marksAt r.node := by
  obtain ⟨front, out, back, s, t, hfront, hback, hbody, hlowers⟩ := r.lowersAll
  have hsame : marksAll body = marksAll out := by rw [hbody, marksAll_between hfront hback]
  have hmarks : marksAll out =
      (forest.elements r.statements).flatMap (forest.gather r.env.marksAt) :=
    hlowers.marksAll_eq hf
  rw [hsame, hmarks, r.gather_node hf (sparse_marksAt r.env hf) (r.marksAt_node hf)]

theorem follows {x : Nat} (hx : x ∈ forest.descendants r.node) {l : String}
    (hl : l ∈ r.env.goSubAt x) : Follows l (returnPoint l) body := by
  obtain ⟨front, out, back, s, t, _, _, hbody, hlowers⟩ := r.lowersAll
  have hnode : r.env.goSubAt r.node = [] := by
    refine List.eq_nil_iff_forall_not_mem.2 fun l hl => ?_
    obtain ⟨_, _, d, hd⟩ := r.holds.list hf
    obtain ⟨_, _, hstmt, _⟩ := mem_goSubAt.1 hl
    cases (Forest.payload?_of_stmt? hstmt).symm.trans (Forest.payload?_of_decl? hd)
  have hmem : l ∈ forest.gather r.env.goSubAt r.node := Forest.mem_gather.2 ⟨x, hx, hl⟩
  rw [r.gather_node hf (sparse_goSubAt r.env) hnode] at hmem
  rw [hbody]
  exact ((hlowers.follows hf hmem).append_right _).append_left _

theorem inScope_iff (hl : forest.Linked) {point : String} :
    InScope point false body ↔ ¬ Stray forest r.env.marksAt point r.node := by
  obtain ⟨front, out, back, s, t, hfront, hback, hbody, hlowers⟩ := r.lowersAll
  have hsame : InScope point false body ↔ InScope point false out := by
    rw [hbody, inScope_between hfront hback]
  have hscope : InScope point false out ↔ ¬ LooseList forest r.env.marksAt point r.statements :=
    Lowering.inScope_iff (hlowers.holdsLabel_iff hf) (hlowers.scoped_iff hf)
  obtain ⟨hlist, hchild, d, hd⟩ := r.holds.list hf
  have hnone := not_listShows_of_elements (g := r.env.marksAt) (r := point) (elements_of_decl hd)
  rw [hsame, hscope, stray_iff hl, and_iff_right hnone, r.marksAt_node hf]
  refine not_congr ?_
  have hstray : ∀ c, r.statements = some c →
      (LooseList forest r.env.marksAt point (some c) ↔ Stray forest r.env.marksAt point c) :=
    fun c hc => looseList_iff_stray hl hf (sparse_marksAt r.env hf) (hlist c hc).2
      fun z _ hz => loose_iff_stray hl hf (sparse_marksAt r.env hf) hz
  constructor
  · intro hloose
    cases hs : r.statements with
    | none =>
      rw [hs] at hloose
      obtain ⟨_, _, hz, _⟩ := hloose
      cases hz
    | some c =>
      rw [hs] at hloose
      exact Or.inr ⟨c, (hlist c hs).1, (hstray c hs).1 hloose⟩
  · rintro (hjump | ⟨c, hc, hx⟩)
    · cases hjump
    · have hs := hchild c hc (not_inert_of_stray hf (sparse_marksAt r.env hf) hx)
      rw [hs]
      exact (hstray c hs).2 hx

end RoutineBody

/-! ## Returns that find their return point -/

/-- What a `Return` of the part that `label` heads needs: its return point is placed once, behind a
jump to the label, and every jump there finds it. -/
structure ReturnsTo (label : String) (body : List Target.Stmt) : Prop where
  once : (marksAll body).count (.label (returnPoint label)) = 1
  behind : Follows label (returnPoint label) body
  inScope : InScope (returnPoint label) false body
  lands : ∀ limit state,
    ((runWithin limit body).run state).1 ≠ .error (.undefinedLabel (returnPoint label))

namespace RoutineBody

variable {forest : Forest} {settings : Settings} {body : List Target.Stmt}

/-- The statements of the routine that place a label. -/
def placing (r : RoutineBody forest settings body) (point : String) : List Nat :=
  (forest.descendants r.node).filter fun x => decide (.label point ∈ r.env.marksAt x)

/-- One statement of the routine places the return point of `label`: a `GoSub` that spells the label
the same way, or a label of the source that has come to stand behind a jump to `label`. Every
statement that jumps there is below a list that the placing statement lowers into. -/
def Serves (r : RoutineBody forest settings body) (label : String) : Prop :=
  ∃ x, r.placing (returnPoint label) = [x] ∧
    (label ∈ r.env.goSubAt x ∨ (r.env.labelOf? .labelStatement x = some (returnPoint label) ∧
      Follows label (returnPoint label) body)) ∧
    ∀ j ∈ forest.descendants r.node, .jump (returnPoint label) ∈ r.env.marksAt j →
      ∃ c ∈ forest.descendants r.node, j ∈ forest.descendants c ∧
        ∃ z ∈ forest.elements (some c), Surfaces forest z x

variable (r : RoutineBody forest settings body) (hf : forest.Shaped)
include hf

theorem once_iff {point : String} :
    (marksAll body).count (.label point) = 1 ↔ ∃ x, r.placing point = [x] := by
  rw [r.marksAll_eq hf, Forest.gather, count_flatMap_eq (count_label_le r.env point)]
  exact List.length_eq_one_iff

theorem inScope_iff_of_placing (hl : forest.Linked) {point : String} {x : Nat}
    (hx : r.placing point = [x]) : InScope point false body ↔
      ∀ j ∈ forest.descendants r.node, .jump point ∈ r.env.marksAt j →
        ∃ c ∈ forest.descendants r.node, j ∈ forest.descendants c ∧
          ∃ z ∈ forest.elements (some c), Surfaces forest z x := by
  rw [r.inScope_iff hf hl]
  constructor
  · intro hstray j hj hjump
    by_contra hnone
    refine hstray ⟨j, hj, hjump, fun c hc hjc hshows => hnone ⟨c, hc, hjc, ?_⟩⟩
    exact (listShows_iff hx hc).1 hshows
  · rintro h ⟨j, hj, hjump, hfree⟩
    obtain ⟨c, hc, hjc, hsurface⟩ := h j hj hjump
    exact hfree c hc hjc ((listShows_iff hx hc).2 hsurface)

theorem returnsTo_iff (hl : forest.Linked) (label : String) :
    ReturnsTo label body ↔ r.Serves label := by
  constructor
  · rintro ⟨honce, hbehind, hscope, _⟩
    obtain ⟨x, hx⟩ := (r.once_iff hf).1 honce
    refine ⟨x, hx, ?_, (r.inScope_iff_of_placing hf hl hx).1 hscope⟩
    have hmem : x ∈ r.placing (returnPoint label) := by
      rw [hx]
      exact List.mem_singleton.2 rfl
    rcases label_mem_marksAt (of_decide_eq_true (List.mem_filter.1 hmem).2) with h | ⟨l, hl, heq⟩
    · exact Or.inr ⟨h, hbehind⟩
    · rw [returnPoint_injective heq]
      exact Or.inl hl
  · rintro ⟨x, hx, hplace, hjumps⟩
    have hmem : x ∈ r.placing (returnPoint label) := by
      rw [hx]
      exact List.mem_singleton.2 rfl
    have hbehind : Follows label (returnPoint label) body := by
      rcases hplace with hgoSub | ⟨_, hfollows⟩
      · exact r.follows hf (List.mem_filter.1 hmem).1 hgoSub
      · exact hfollows
    have hscope := (r.inScope_iff_of_placing hf hl hx).2 hjumps
    exact ⟨(r.once_iff hf).2 ⟨x, hx⟩, hbehind, hscope, hscope.sound⟩

end RoutineBody

theorem lowerBareReturn_goto {env : Env} {routine : Routine} {id : Nat} {point : String}
    (h : env.lowerBareReturn routine id = .ok (.goto point)) : ∃ node label,
      env.enclosingRoutine? id = some node ∧ env.precedingLabel? node id = some label ∧
      point = returnPoint label := by
  unfold Env.lowerBareReturn at h
  split at h
  · cases h
  · next node hnode =>
    split at h
    · next label hlabel =>
      split at h
      · cases h
        exact ⟨node, label, hnode, hlabel, rfl⟩
      · cases h
    · cases h

/-- A bare `Return` that becomes a jump finds its return point exactly when the routine serves the
label before it. -/
theorem return_point_iff {tree : Tree} {settings : Settings} {body : List Target.Stmt}
    (hfinished : tree.Finished) (r : RoutineBody tree.toForest settings body) {id : Nat}
    (hid : id ∈ tree.descendants r.node) (hbare : tree.stmt? id = some (.returnValue none))
    {point : String} (hjump : r.env.lowerBareReturn r.routine id = .ok (.goto point)) :
    .jump point ∈ marksAll body ∧ ∃ label, r.env.precedingLabel? r.node id = some label ∧
      point = returnPoint label ∧ (ReturnsTo label body ↔ r.Serves label) := by
  have hl := hfinished.built.linked
  have hf := hfinished.built.shaped
  constructor
  · have hmarks : .jump point ∈ r.env.marksAt id := by
      have hstmt : r.env.forest.stmt? id = some (.returnValue none) := hbare
      have hreturn := (marks_of_lowerBareReturn hjump).2
      simp only [Env.marksAt, hstmt, ← hreturn, marks, List.mem_singleton]
    rw [r.marksAll_eq hf]
    exact Forest.mem_gather.2 ⟨id, hid, hmarks⟩
  · obtain ⟨node, label, hnode, hlabel, hpoint⟩ := lowerBareReturn_goto hjump
    -- the label is looked up in the nearest routine, which is the one whose body this is
    have hne : id ≠ r.node := by
      rintro rfl
      obtain ⟨_, _, d, hd⟩ := r.holds.list hf
      cases (Forest.payload?_of_stmt? hbare).symm.trans (Forest.payload?_of_decl? hd)
    have hsame : r.env.enclosingRoutine? id = some r.node :=
      enclosingRoutine_of_mem hl hf r.holds hid hne
    rw [hnode] at hsame
    cases hsame
    exact ⟨label, hlabel, hpoint, r.returnsTo_iff hf hl label⟩

/-- A `Sub` that goes to a part of its own and comes back. -/
def workFile : List Call :=
  let span := Span.startingAt ⟨1, 1⟩
  [.alloc .simpleName span (.name (.simple "Main" none false)),
    .alloc .goSubStatement span (.stmt (.labelReference "Work" false)),
    .alloc .exitStatement span (.stmt (.exit .subroutine)),
    .alloc .labelStatement span (.stmt (.labelReference "Work" false)),
    .alloc .returnStatement span (.stmt (.returnValue none)),
    .collection .statementCollection span [some 1, some 2, some 3, some 4] [],
    .alloc .subDeclaration span
      (.decl (.method ⟨none, none⟩ (.ofName 0) none none (some 5) none)),
    .collection .declarationCollection span [some 6] [],
    .alloc .file span (.file ⟨some 7⟩)]

theorem work_accepted : (Forest.empty.after workFile).size = workFile.length := by
  decide +kernel

def workBody : List Target.Stmt :=
  [.goto "Work", .label "Work_return", .returns none, .label "Work", .goto "Work_return"]

def workRoutine : RoutineBody (Tree.ofCalls workFile 8).toForest .standard workBody where
  options := Settings.standard.options
  node := 6
  name := "Main"
  returnType := .void
  statements := some 5
  holds := .method rfl
  lowered := by rw [Tree.ofCalls_eq_settled 8 work_accepted]; with_unfolding_all rfl

theorem workRoutine_serves : workRoutine.Serves "Work" := by
  refine ⟨1, by decide +kernel, Or.inl (by decide +kernel), ?_⟩
  intro j hj hjump
  have hj4 : j = 4 := by
    revert j
    decide +kernel
  subst hj4
  exact ⟨5, by decide +kernel, by decide +kernel, 1, by decide +kernel, .self 1⟩

theorem work_returns : (Tree.ofCalls workFile 8).Finished ∧
    workRoutine.env.lowerBareReturn workRoutine.routine 4 = .ok (.goto "Work_return") ∧
    ReturnsTo "Work" workBody := by
  have hfinished : (Tree.ofCalls workFile 8).Finished := Tree.finished_of_last work_accepted rfl
  have hid : 4 ∈ (Tree.ofCalls workFile 8).descendants workRoutine.node := by decide +kernel
  have hjump : workRoutine.env.lowerBareReturn workRoutine.routine 4 =
      .ok (.goto "Work_return") := by
    with_unfolding_all rfl
  obtain ⟨-, label, hlabel, -, hiff⟩ := return_point_iff hfinished workRoutine hid rfl hjump
  have hwork : workRoutine.env.precedingLabel? workRoutine.node 4 = some "Work" := by
    decide +kernel
  cases hlabel.symm.trans hwork
  exact ⟨hfinished, hjump, hiff.2 workRoutine_serves⟩

/-- The jump to the part stands inside an `If`. -/
def nestedFile : List Call :=
  let span := Span.startingAt ⟨1, 1⟩
  [.alloc .simpleName span (.name (.simple "Main" none false)),
    .alloc .goSubStatement span (.stmt (.labelReference "Work" false)),
    .collection .statementCollection span [some 1] [],
    .alloc .booleanLiteralExpression span (.expr (.literal (.boolean true))),
    .alloc .ifBlockStatement span (.stmt (.ifBlock 3 (some 2) none none none)),
    .alloc .exitStatement span (.stmt (.exit .subroutine)),
    .alloc .labelStatement span (.stmt (.labelReference "Work" false)),
    .alloc .returnStatement span (.stmt (.returnValue none)),
    .collection .statementCollection span [some 4, some 5, some 6, some 7] [],
    .alloc .subDeclaration span
      (.decl (.method ⟨none, none⟩ (.ofName 0) none none (some 8) none)),
    .collection .declarationCollection span [some 9] [],
    .alloc .file span (.file ⟨some 10⟩)]

theorem nested_accepted : (Forest.empty.after nestedFile).size = nestedFile.length := by
  decide +kernel

def nestedBody : List Target.Stmt :=
  [.conditional (.bool true) [.goto "Work", .label "Work_return"] [], .returns none, .label "Work",
    .goto "Work_return"]

def nestedRoutine : RoutineBody (Tree.ofCalls nestedFile 11).toForest .standard nestedBody where
  options := Settings.standard.options
  node := 9
  name := "Main"
  returnType := .void
  statements := some 8
  holds := .method rfl
  lowered := by rw [Tree.ofCalls_eq_settled 11 nested_accepted]; with_unfolding_all rfl

/-- The return point of a `GoSub` inside an `If` is out of the reach of a `Return` outside. -/
theorem nested_goSub_lost : (Tree.ofCalls nestedFile 11).Finished ∧
    nestedRoutine.env.lowerBareReturn nestedRoutine.routine 7 = .ok (.goto "Work_return") ∧
    ¬ ReturnsTo "Work" nestedBody ∧
    (Machine.run nestedBody .initial).1 = .error (.undefinedLabel "Work_return") := by
  have hrun : (Machine.run nestedBody .initial).1 = .error (.undefinedLabel "Work_return") := by
    rfl
  exact ⟨Tree.finished_of_last nested_accepted rfl, by with_unfolding_all rfl,
    fun h => h.lands _ _ hrun, hrun⟩

end StructuredBasic.Lowering
