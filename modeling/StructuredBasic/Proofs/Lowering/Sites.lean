import Mathlib.Data.List.Forall2
import StructuredBasic.Proofs.Forest.Accepted
import StructuredBasic.Proofs.Lowering.ReturnPoints
import StructuredBasic.Proofs.Machine.Sites

/-!
# What a jump of lowered code can see

Lowering nests blocks anew: an `ElseIf` or `Case` block goes into the else body of the one before
it, the statements of a `With` block join the list around it, and loops wrap their bodies. Jumps
keep their order, and each of them still stands in a list with every label that a list around it in
the source shows (`LowersAll.finds`). So a `GoTo` finds every label that stands in a list around it
(`goto_finds_enclosing_label`).
-/

set_option autoImplicit false

namespace StructuredBasic.Lowering

open Syntax Machine

/-! ## Jumps of the source -/

/-- The jumps that a statement itself becomes, each with the statement. -/
def Env.jumpsAt (env : Env) (id : Nat) : List (Nat × String) :=
  ((env.marksAt id).filterMap Mark.jump?).map fun label => (id, label)

/-- Every label that a list of statements around `id` shows is in one of the lists `around`. -/
def Env.Covered (env : Env) (around : List (List Target.Stmt)) (id : Nat) : Prop :=
  ∀ c ∈ env.forest.ancestors id, env.forest.kind c = .statementCollection →
    ∀ label, ListShows env.forest env.marksAt label (some c) →
      ∃ list ∈ around, holdsLabel label list = true

/-- A jump of the source and what has become of it: it goes to the same label, and sees what could
be seen from its place in the source. -/
def Env.Finds (env : Env) (jump : Nat × String) (site : Site) : Prop :=
  site.target = jump.2 ∧ env.Covered site.lists jump.1

/-- The labels of a list of statements are in one of the lists `around`. -/
def HeldIn (around : List (List Target.Stmt)) (stmts : List Target.Stmt) : Prop :=
  ∀ label, holdsLabel label stmts = true → ∃ list ∈ around, holdsLabel label list = true

section Covered

variable {env : Env} {id : Nat} {around : List (List Target.Stmt)} {stmts : List Target.Stmt}

theorem heldIn_self : HeldIn (stmts :: around) stmts :=
  fun _ h => ⟨stmts, List.mem_cons_self, h⟩

theorem HeldIn.left {rest : List Target.Stmt} (h : HeldIn around (stmts ++ rest)) :
    HeldIn around stmts := by
  intro label hl
  exact h label (by rw [holdsLabel_append, hl, Bool.true_or])

theorem HeldIn.right {rest : List Target.Stmt} (h : HeldIn around (stmts ++ rest)) :
    HeldIn around rest := by
  intro label hl
  exact h label (by rw [holdsLabel_append, hl, Bool.or_true])

theorem Env.Covered.cons (h : env.Covered around id) (list : List Target.Stmt) :
    env.Covered (list :: around) id := by
  intro c hc hk label hshows
  obtain ⟨found, hfound, hheld⟩ := h c hc hk label hshows
  exact ⟨found, List.mem_cons_of_mem _ hfound, hheld⟩

theorem jumpsAt_eq_nil (h : env.marksAt id = []) : env.jumpsAt id = [] := by
  rw [Env.jumpsAt, h]
  rfl

theorem sparse_jumpsAt (env : Env) (hf : env.forest.Shaped) :
    env.forest.Sparse env.jumpsAt := by
  have hmarks := sparse_marksAt env hf
  exact ⟨fun d hd => jumpsAt_eq_nil (hmarks.inert d hd),
    fun d hd => jumpsAt_eq_nil (hmarks.statements d hd),
    fun d hd => jumpsAt_eq_nil (hmarks.declarations d hd)⟩

theorem gather_jumpsAt (hf : env.forest.Shaped) {stmt : Stmt}
    (h : env.forest.stmt? id = some stmt) (hl : stmt.lists ≠ []) :
    env.forest.gather env.jumpsAt id =
      (stmt.lists.flatMap env.forest.elements).flatMap (env.forest.gather env.jumpsAt) ++
        stmt.last?.toList.flatMap (env.forest.gather env.jumpsAt) := by
  rw [hf.gather_stmt (sparse_jumpsAt env hf) h, jumpsAt_eq_nil (marksAt_of_lists h hl),
    List.nil_append]

theorem HasList.gather_jumpsAt {statements : Option Nat} (h : HasList env.forest id statements)
    (hf : env.forest.Shaped) : env.forest.gather env.jumpsAt id =
      (env.forest.elements statements).flatMap (env.forest.gather env.jumpsAt) := by
  obtain ⟨stmt, hstmt, _, hlists, hlast⟩ := h
  rw [Lowering.gather_jumpsAt hf hstmt (by simp [hlists]), hlists, hlast]
  simp

/-- From a statement to the elements of one of its lists: what the list shows has to be held
too. -/
theorem Env.Covered.elements (hl : env.forest.Linked) {stmt : Stmt}
    (h : env.forest.stmt? id = some stmt) {statements : Option Nat} (hs : statements ∈ stmt.lists)
    (hcov : env.Covered around id)
    (hlist : ∀ label, ListShows env.forest env.marksAt label statements →
      ∃ list ∈ around, holdsLabel label list = true) :
    ∀ x ∈ env.forest.elements statements, env.Covered around x := by
  intro x hx
  cases statements with
  | none => cases hx
  | some c =>
    have hancestors : env.forest.ancestors x = c :: id :: env.forest.ancestors id := by
      rw [hl.ancestors_of_child (Forest.mem_children_of_elements hx),
        hl.ancestors_of_child (Forest.mem_children_of_list h hs)]
    intro d hd hk label hshows
    rw [hancestors] at hd
    rcases List.mem_cons.1 hd with rfl | hd
    · exact hlist label hshows
    · rcases List.mem_cons.1 hd with rfl | hd
      · exact absurd hshows (not_listShows_of_elements (elements_of_stmt h))
      · exact hcov d hd hk label hshows

theorem Env.Covered.last (hl : env.forest.Linked) {stmt : Stmt}
    (h : env.forest.stmt? id = some stmt) (hcov : env.Covered around id) :
    ∀ x, stmt.last? = some x → env.Covered around x := by
  intro x hx d hd hk label hshows
  rw [hl.ancestors_of_child (Forest.mem_children_of_last h hx)] at hd
  rcases List.mem_cons.1 hd with rfl | hd
  · exact absurd hshows (not_listShows_of_elements (elements_of_stmt h))
  · exact hcov d hd hk label hshows

/-- The list that a body lowers to holds what the list of its statements shows. -/
theorem LowersAll.heldIn {routine : Routine} {statements : Option Nat} {s t : BodyState}
    (h : LowersAll routine env (env.forest.elements statements) s stmts t)
    (hf : env.forest.Shaped) (hheld : HeldIn around stmts) :
    ∀ label, ListShows env.forest env.marksAt label statements →
      ∃ list ∈ around, holdsLabel label list = true :=
  fun label hshows => hheld label ((h.holdsLabel_iff hf).2 hshows)

theorem LowersBranches.not_shows {routine : Routine} {value : Option Target.Expr}
    {ids : List Nat} {s t : BodyState} {branches : List Branch}
    (h : LowersBranches routine env value ids s branches t) {label : String} :
    ∀ x ∈ ids, ¬ Shows env.forest env.marksAt label x := by
  match h with
  | .nil => exact List.forall_mem_nil _
  | .cons h _ hs =>
    refine List.forall_mem_cons.2 ⟨?_, hs.not_shows⟩
    cases h with
    | elseIf h => exact not_shows_of_lists h (by simp [Stmt.lists]) rfl
    | case h => exact not_shows_of_lists h (by simp [Stmt.lists]) rfl

end Covered

/-! ## Blocks -/

section Blocks

variable {env : Env} {around : List (List Target.Stmt)} {body out : List Target.Stmt}

/-- The jumps of a loop are those of its body, in a list that holds the labels of the body. -/
theorem Wraps.sitesAll_eq (h : Wraps body out) (around : List (List Target.Stmt)) :
    ∃ list, HeldIn (list :: around) body ∧
      sitesAll around out = sitesAll (list :: around) body := by
  obtain ⟨front, before, after, init, test, increment, rfl, hfront, hbefore, hafter, hinit,
    hnext⟩ := h
  refine ⟨before ++ body ++ after, (heldIn_self.left).right, ?_⟩
  rw [sitesAll_append, hfront.sitesAll, sitesAll, sites, sitesOptional_eq_nil hinit,
    sitesOptional_eq_nil hnext, sitesAll_append, sitesAll_append, hbefore.sitesAll,
    hafter.sitesAll]
  simp [sitesAll]

theorem LowersPlain.finds {routine : Routine} {id : Nat} {s t : BodyState}
    (h : LowersPlain routine env id s out t) (hf : env.forest.Shaped)
    (hcov : env.Covered around id) :
    List.Forall₂ env.Finds (env.forest.gather env.jumpsAt id) (sitesAll around out) := by
  obtain ⟨hleaf, hmarks⟩ := h.marksAll_eq hf
  obtain ⟨stmt, hstmt, _, hlists, hlast⟩ := h.stmt
  have hgather : env.forest.gather env.jumpsAt id = env.jumpsAt id := by
    rw [hf.gather_stmt (sparse_jumpsAt env hf) hstmt, hlists, hlast]
    simp
  rw [hgather, sitesAll_of_leaves hleaf, hmarks, Env.jumpsAt, List.forall₂_map_left_iff,
    List.forall₂_map_right_iff]
  exact List.forall₂_same.2 fun label _ => ⟨rfl, hcov⟩

/-- The jumps of a lowered list see what can be seen, in whatever lists it comes to stand. -/
def Env.FindsAll (env : Env) (ids : List Nat) (out : List Target.Stmt) : Prop :=
  ∀ around, (∀ id ∈ ids, env.Covered around id) → HeldIn around out →
    List.Forall₂ env.Finds (ids.flatMap (env.forest.gather env.jumpsAt)) (sitesAll around out)

section Lists

variable {routine : Routine} {id : Nat} {statements : Option Nat} {s t : BodyState}

/-- A body that becomes a list of its own. -/
theorem Env.FindsAll.own (hfinds : env.FindsAll (env.forest.elements statements) body)
    (h : LowersAll routine env (env.forest.elements statements) s body t)
    (hl : env.forest.Linked) (hf : env.forest.Shaped) {stmt : Stmt}
    (hstmt : env.forest.stmt? id = some stmt) (hlist : statements ∈ stmt.lists)
    (hcov : env.Covered around id) :
    List.Forall₂ env.Finds
      ((env.forest.elements statements).flatMap (env.forest.gather env.jumpsAt))
      (sitesAll (body :: around) body) := by
  have hself : HeldIn (body :: around) body := heldIn_self
  have hshown := h.heldIn hf hself
  exact hfinds _ ((hcov.cons body).elements hl hstmt hlist hshown) hself

/-- The body of a loop. -/
theorem Env.FindsAll.wrapped (hfinds : env.FindsAll (env.forest.elements statements) body)
    (h : LowersAll routine env (env.forest.elements statements) s body t)
    (hl : env.forest.Linked) (hf : env.forest.Shaped) (hlist : HasList env.forest id statements)
    (hwraps : Wraps body out) (hcov : env.Covered around id) :
    List.Forall₂ env.Finds (env.forest.gather env.jumpsAt id) (sitesAll around out) := by
  obtain ⟨list, hheld, hsites⟩ := hwraps.sitesAll_eq around
  rw [hsites, hlist.gather_jumpsAt hf]
  obtain ⟨stmt, hstmt, _, hlists, _⟩ := hlist
  have hshown := h.heldIn hf hheld
  exact hfinds _ ((hcov.cons list).elements hl hstmt (by simp [hlists]) hshown) hheld

end Lists

/-- In a chain every block goes into the else body of the one before it: the lists around it get
more, and it sees what it saw before. -/
theorem finds_chain {ids : List Nat} {branches : List Branch} {block : Option Nat}
    {last : List Target.Stmt}
    (hbranches : List.Forall₂ (fun id branch => ∀ around, env.Covered around id →
      List.Forall₂ env.Finds (env.forest.gather env.jumpsAt id)
        (sitesAll (branch.2 :: around) branch.2)) ids branches)
    (hlast : ∀ around, (∀ x, block = some x → env.Covered around x) → HeldIn around last →
      List.Forall₂ env.Finds (block.toList.flatMap (env.forest.gather env.jumpsAt))
        (sitesAll around last))
    (hids : ∀ id ∈ ids, env.Covered around id) (hblock : ∀ x, block = some x → env.Covered around x)
    (hheld : HeldIn around (chain branches last)) :
    List.Forall₂ env.Finds (ids.flatMap (env.forest.gather env.jumpsAt) ++
        block.toList.flatMap (env.forest.gather env.jumpsAt))
      (sitesAll around (chain branches last)) := by
  induction hbranches generalizing around with
  | nil => exact hlast around hblock hheld
  | @cons id branch ids branches hbranch _ ih =>
    have hchain : chain (branch :: branches) last =
        [.conditional branch.1 branch.2 (chain branches last)] := rfl
    rw [hchain, sitesAll, sites, sitesAll, List.append_nil, List.flatMap_cons, List.append_assoc]
    refine List.rel_append (hbranch around (hids id List.mem_cons_self)) (ih ?_ ?_ heldIn_self)
    · exact fun x hx => (hids x (List.mem_cons_of_mem _ hx)).cons _
    · exact fun x hx => (hblock x hx).cons _

end Blocks

mutual

theorem Lowers.finds {routine : Routine} {env : Env} {id : Nat} {s t : BodyState}
    {out : List Target.Stmt} (h : Lowers routine env id s out t) (hl : env.forest.Linked)
    (hf : env.forest.Shaped) {around : List (List Target.Stmt)} (hcov : env.Covered around id)
    (hheld : HeldIn around out) :
    List.Forall₂ env.Finds (env.forest.gather env.jumpsAt id) (sitesAll around out) := by
  match h with
  | .plain h => exact h.finds hf hcov
  | .preTest h hb => exact (hb.finds hl hf).wrapped hb hl hf h.hasList (wraps_preTestLoop _ _) hcov
  | .postTest h _ hb _ =>
    exact (hb.finds hl hf).wrapped hb hl hf ⟨_, h, rfl, rfl, rfl⟩ (wraps_postTestLoop _ _ _) hcov
  | .counted h hb =>
    exact (hb.finds hl hf).wrapped hb hl hf h.hasList
      (wraps_countedLoop (quiet_of_isPlain h.isPlain) _ _ _ _ _) hcov
  | .element h hb =>
    exact (hb.finds hl hf).wrapped hb hl hf h.hasList
      (wraps_elementLoop (quiet_of_isPlain h.isPlain) _ _ _ _ _) hcov
  | @Lowers.within _ _ _ _ _ _ statements _ _ _ h _ _ hb =>
    have hshown : ∀ label, ListShows env.forest env.marksAt label statements →
        ∃ list ∈ around, holdsLabel label list = true := hb.heldIn hf hheld
    have hbody : List.Forall₂ env.Finds ((env.forest.elements statements).flatMap
        (env.forest.gather env.jumpsAt)) (sitesAll around out) :=
      hb.finds hl hf _ (hcov.elements hl h (by simp [Stmt.lists]) hshown) hheld
    rw [gather_jumpsAt hf h (by simp [Stmt.lists])]
    simpa [Stmt.lists, Stmt.last?] using hbody
  | .ifBlock h _ hthen helseIfs helse =>
    have hbody := (hthen.finds hl hf).own hthen hl hf h (by simp [Stmt.lists]) hcov
    have hnone : ∀ label, ListShows env.forest env.marksAt label _ →
        ∃ list ∈ around, holdsLabel label list = true :=
      fun label ⟨z, hz, hshows⟩ => absurd hshows (helseIfs.not_shows z hz)
    have helement := hcov.elements hl h (by simp [Stmt.lists]) hnone
    have hblock := hcov.last hl h
    have hchain := finds_chain (helseIfs.finds hl hf) (fun _ => helse.finds hl hf)
      (fun x hx => (helement x hx).cons _) (fun x hx => (hblock x hx).cons _) heldIn_self
    rw [sitesAll, sites, sitesAll, List.append_nil, gather_jumpsAt hf h (by simp [Stmt.lists])]
    simpa [Stmt.lists, Stmt.last?] using List.rel_append hbody hchain
  | .lineIf h _ hthen helse =>
    have hbody := (hthen.finds hl hf).own hthen hl hf h (by simp [Stmt.lists]) hcov
    have hother := (helse.finds hl hf).own helse hl hf h (by simp [Stmt.lists]) hcov
    rw [sitesAll, sites, sitesAll, List.append_nil, gather_jumpsAt hf h (by simp [Stmt.lists])]
    simpa [Stmt.lists, Stmt.last?] using List.rel_append hbody hother
  | .select h hs hcases helse =>
    have hnone : ∀ label, ListShows env.forest env.marksAt label _ →
        ∃ list ∈ around, holdsLabel label list = true :=
      fun label ⟨z, hz, hshows⟩ => absurd hshows (hcases.not_shows z hz)
    have hchain := finds_chain (hcases.finds hl hf) (fun _ => helse.finds hl hf)
      (hcov.elements hl h (by simp [Stmt.lists]) hnone) (hcov.last hl h) hheld.right
    rw [sitesAll_append, (quiet_selector hs).sitesAll, gather_jumpsAt hf h (by simp [Stmt.lists])]
    simpa [Stmt.lists, Stmt.last?] using hchain

/-- The jumps of a lowered list see what the lists around them in the source show. -/
theorem LowersAll.finds {routine : Routine} {env : Env} {ids : List Nat} {s t : BodyState}
    {out : List Target.Stmt} (h : LowersAll routine env ids s out t) (hl : env.forest.Linked)
    (hf : env.forest.Shaped) : env.FindsAll ids out := by
  intro around hcov hheld
  match h with
  | .nil => exact .nil
  | .cons h hs =>
    have hfirst := h.finds hl hf (hcov _ List.mem_cons_self) hheld.left.right
    have hrest := hs.finds hl hf _ (fun x hx => hcov x (List.mem_cons_of_mem _ hx)) hheld.right
    rw [sitesAll_append, sitesAll_append, (quiet_comments _).sitesAll, List.nil_append,
      List.flatMap_cons]
    exact List.rel_append hfirst hrest

theorem LowersBranches.finds {routine : Routine} {env : Env} {value : Option Target.Expr}
    {ids : List Nat} {s t : BodyState} {branches : List Branch}
    (h : LowersBranches routine env value ids s branches t) (hl : env.forest.Linked)
    (hf : env.forest.Shaped) :
    List.Forall₂ (fun id branch => ∀ around, env.Covered around id →
      List.Forall₂ env.Finds (env.forest.gather env.jumpsAt id)
        (sitesAll (branch.2 :: around) branch.2)) ids branches := by
  match h with
  | .nil => exact .nil
  | .cons h hb hs =>
    refine .cons ?_ (hs.finds hl hf)
    intro around hcov
    rw [h.hasList.gather_jumpsAt hf]
    obtain ⟨stmt, hstmt, _, hlists, _⟩ := h.hasList
    exact (hb.finds hl hf).own hb hl hf hstmt (by simp [hlists]) hcov

theorem LowersElse.finds {routine : Routine} {env : Env} {block : Option Nat} {s t : BodyState}
    {out : List Target.Stmt} (h : LowersElse routine env block s out t) (hl : env.forest.Linked)
    (hf : env.forest.Shaped) {around : List (List Target.Stmt)}
    (hcov : ∀ x, block = some x → env.Covered around x) (hheld : HeldIn around out) :
    List.Forall₂ env.Finds (block.toList.flatMap (env.forest.gather env.jumpsAt))
      (sitesAll around out) := by
  match h with
  | .none => exact .nil
  | .some h hb =>
    have helements := (hcov _ rfl).elements hl h (by simp [Stmt.lists]) (hb.heldIn hf hheld)
    have hbody := hb.finds hl hf _ helements hheld
    rw [Option.toList_some, List.flatMap_singleton, gather_jumpsAt hf h (by simp [Stmt.lists])]
    simpa [Stmt.lists, Stmt.last?] using hbody

end

/-! ## Routines -/

theorem exists_of_mem_right {α β : Type} {R : α → β → Prop} {as : List α} {bs : List β}
    (h : List.Forall₂ R as bs) {b : β} (hb : b ∈ bs) : ∃ a ∈ as, R a b := by
  induction h with
  | nil => cases hb
  | cons hab _ ih =>
    rcases List.mem_cons.1 hb with rfl | hb
    · exact ⟨_, List.mem_cons_self, hab⟩
    · obtain ⟨a, ha, hR⟩ := ih hb
      exact ⟨a, List.mem_cons_of_mem _ ha, hR⟩

/-- An element of a list of statements around a node defines the label. -/
def Env.Enclosed (env : Env) (id : Nat) (label : String) : Prop :=
  ∃ c ∈ env.forest.ancestors id, env.forest.kind c = .statementCollection ∧
    ∃ x ∈ env.forest.elements (some c), env.labelOf? .labelStatement x = some label

theorem label_mem_of_labelOf {env : Env} {x : Nat} {label : String}
    (h : env.labelOf? .labelStatement x = some label) : .label label ∈ env.marksAt x := by
  unfold Env.labelOf? at h
  split at h
  · next hstmt =>
    split at h
    · next hk =>
      cases h
      simp [Env.marksAt, hstmt, hk]
    · cases h
  · cases h

theorem Env.Covered.enclosed {env : Env} {around : List (List Target.Stmt)} {id : Nat}
    (h : env.Covered around id) {label : String} (hlabel : env.Enclosed id label) :
    ∃ list ∈ around, .label label ∈ list := by
  obtain ⟨c, hc, hk, x, hx, hx'⟩ := hlabel
  obtain ⟨list, hl, hheld⟩ :=
    h c hc hk label ⟨x, hx, x, .self x, label_mem_of_labelOf hx'⟩
  exact ⟨list, hl, holdsLabel_iff_mem.1 hheld⟩

/-- No list of statements is around a routine. -/
theorem HoldsStatements.not_in_list {f : Forest} {node c : Nat} {statements : Option Nat}
    (hl : f.Linked) (hf : f.Shaped) (h : HoldsStatements f node statements)
    (hc : c ∈ f.ancestors node) : f.kind c ≠ .statementCollection := fun hk =>
  h.not_below hf (Or.inr (Or.inl hk)) (hl.mem_descendants_of_mem_ancestors hc)

namespace RoutineBody

variable {forest : Forest} {settings : Settings} {body : List Target.Stmt}

/-- The jumps of the routine in the order of its text. -/
def jumps (r : RoutineBody forest settings body) : List (Nat × String) :=
  forest.gather r.env.jumpsAt r.node

variable (r : RoutineBody forest settings body) (hl : forest.Linked) (hf : forest.Shaped)
include hl hf

theorem finds : List.Forall₂ r.env.Finds r.jumps (jumpSites body) := by
  obtain ⟨front, out, back, s, t, hfront, hback, hbody, hlowers⟩ := r.lowersAll
  have hheld : HeldIn [body] out := by
    rw [hbody]
    exact heldIn_self.left.right
  have hsites : jumpSites body = sitesAll [body] out := by
    have hquiet : sitesAll [body] (front ++ out ++ back) = sitesAll [body] out := by
      rw [sitesAll_append, sitesAll_append, hfront.sitesAll, hback.sitesAll, List.nil_append,
        List.append_nil]
    rw [← hbody] at hquiet
    exact hquiet
  -- above the statements there are their list, which the body holds, and the routine
  have hcovered : ∀ x ∈ forest.elements r.statements, r.env.Covered [body] x := by
    intro x hx
    cases hstatements : r.statements with
    | none => rw [hstatements] at hx; cases hx
    | some c =>
      obtain ⟨hlist, _, d, hd⟩ := r.holds.list hf
      rw [hstatements] at hx
      intro d' hd' hk label hshows
      have hancestors : forest.ancestors x = c :: r.node :: forest.ancestors r.node := by
        rw [hl.ancestors_of_child (Forest.mem_children_of_elements hx),
          hl.ancestors_of_child (hlist c hstatements).1]
      replace hd' : d' ∈ forest.ancestors x := hd'
      rw [hancestors] at hd'
      rcases List.mem_cons.1 hd' with rfl | hd'
      · rw [hstatements] at hlowers
        exact hlowers.heldIn hf hheld label hshows
      · rcases List.mem_cons.1 hd' with rfl | hd'
        · exact absurd hshows (not_listShows_of_elements (elements_of_decl hd))
        · exact absurd hk (r.holds.not_in_list hl hf hd')
  have hnode := jumpsAt_eq_nil (r.marksAt_node hf)
  rw [jumps, r.gather_node hf (sparse_jumpsAt r.env hf) hnode, hsites]
  exact hlowers.finds hl hf [body] hcovered hheld

end RoutineBody

/-- In a lowered routine every jump stands in a list with each label that stands in a list around
it in the source, and that list takes the jump. A label that is around every jump to it is never
undefined. -/
theorem goto_finds_enclosing_label {tree : Tree} {settings : Settings} {body : List Target.Stmt}
    (hfinished : tree.Finished) (r : RoutineBody tree.toForest settings body) :
    (∀ id ∈ tree.descendants r.node, ∀ label, r.env.labelOf? .gotoStatement id = some label →
      (id, label) ∈ r.jumps) ∧
    List.Forall₂ (fun jump site => site.target = jump.2 ∧
      ∀ label, r.env.Enclosed jump.1 label →
        ∃ list ∈ site.lists, .label label ∈ list ∧ Takes label list) r.jumps (jumpSites body) ∧
    ∀ label, (∀ jump ∈ r.jumps, jump.2 = label → r.env.Enclosed jump.1 label) →
      ∀ limit state, ((runWithin limit body).run state).1 ≠ .error (.undefinedLabel label) := by
  have hfinds := r.finds hfinished.built.linked hfinished.built.shaped
  refine ⟨?_, ?_, ?_⟩
  · intro id hid label hgoto
    refine Forest.mem_gather.2 ⟨id, hid, ?_⟩
    unfold Env.labelOf? at hgoto
    split at hgoto
    · next hstmt =>
      split at hgoto
      · next hk =>
        cases hgoto
        simp [Env.jumpsAt, Env.marksAt, hstmt, hk, Mark.jump?]
      · cases hgoto
    · cases hgoto
  · refine hfinds.imp fun jump site h => ⟨h.1, fun label hlabel => ?_⟩
    obtain ⟨list, hl, hmem⟩ := h.2.enclosed hlabel
    exact ⟨list, hl, hmem, takes_of_mem hmem⟩
  · intro label hall
    refine not_undefined_of_sites fun site hs htarget => ?_
    obtain ⟨jump, hjump, htarget', hcovered⟩ := exists_of_mem_right hfinds hs
    exact hcovered.enclosed (hall jump hjump (htarget'.symm.trans htarget))

/-- A jump out of a `With` block in an `ElseIf` block, to a label behind the `If`. -/
def leapFile : List Call :=
  let span := Span.startingAt ⟨1, 1⟩
  [.alloc .simpleName span (.name (.simple "Main" none false)),
    .alloc .gotoStatement span (.stmt (.labelReference "Done" false)),
    .collection .statementCollection span [some 1] [],
    .alloc .booleanLiteralExpression span (.expr (.literal (.boolean true))),
    .alloc .withBlockStatement span (.stmt (.guarded 3 (some 2) none)),
    .collection .statementCollection span [some 4] [],
    .alloc .booleanLiteralExpression span (.expr (.literal (.boolean true))),
    .alloc .elseIfBlockStatement span (.stmt (.elseIfBlock 6 (some 5))),
    .collection .statementCollection span [some 7] [],
    .alloc .booleanLiteralExpression span (.expr (.literal (.boolean false))),
    .alloc .ifBlockStatement span (.stmt (.ifBlock 9 none (some 8) none none)),
    .alloc .labelStatement span (.stmt (.labelReference "Done" false)),
    .collection .statementCollection span [some 10, some 11] [],
    .alloc .subDeclaration span
      (.decl (.method ⟨none, none⟩ (.ofName 0) none none (some 12) none)),
    .collection .declarationCollection span [some 13] [],
    .alloc .file span (.file ⟨some 14⟩)]

theorem leap_accepted : (Forest.empty.after leapFile).size = leapFile.length := by
  decide +kernel

def leapBody : List Target.Stmt :=
  [.conditional (.bool false) [] [.conditional (.bool true) [.goto "Done"] []], .label "Done"]

def leapRoutine : RoutineBody (Tree.ofCalls leapFile 15).toForest .standard leapBody where
  options := Settings.standard.options
  node := 13
  name := "Main"
  returnType := .void
  statements := some 12
  holds := .method (by rw [Tree.ofCalls_eq_settled 15 leap_accepted]; rfl)
  lowered := by rw [Tree.ofCalls_eq_settled 15 leap_accepted]; with_unfolding_all rfl

theorem leap_finds_done : (Tree.ofCalls leapFile 15).Finished ∧
    leapRoutine.env.Enclosed 1 "Done" ∧
    (∃ site ∈ jumpSites leapBody, site.target = "Done" ∧
      ∃ list ∈ site.lists, .label "Done" ∈ list ∧ Takes "Done" list) ∧
    ∀ limit state,
      ((runWithin limit leapBody).run state).1 ≠ .error (.undefinedLabel "Done") := by
  have hfinished : (Tree.ofCalls leapFile 15).Finished := Tree.finished_of_last leap_accepted rfl
  have hdone : leapRoutine.env.Enclosed 1 "Done" :=
    ⟨12, by decide +kernel, by decide +kernel, 11, by decide +kernel, by decide +kernel⟩
  have hjumps : leapRoutine.jumps = [(1, "Done")] := by decide +kernel
  obtain ⟨-, hsites, hrun⟩ := goto_finds_enclosing_label hfinished leapRoutine
  refine ⟨hfinished, hdone, ?_, hrun "Done" ?_⟩
  · rw [hjumps] at hsites
    obtain ⟨site, rest, hsite, _, heq⟩ := List.forall₂_cons_left_iff.1 hsites
    rw [heq]
    exact ⟨site, List.mem_cons_self, hsite.1, hsite.2 "Done" hdone⟩
  · rw [hjumps]
    intro jump hjump _
    rw [List.mem_singleton.1 hjump]
    exact hdone

end StructuredBasic.Lowering
