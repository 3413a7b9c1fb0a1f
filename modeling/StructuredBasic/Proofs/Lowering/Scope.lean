import StructuredBasic.Proofs.Lowering.Jumps

/-!
# Scope of labels

Where a lowered list holds a label, and which jumps to it are in scope, can be read off the source.
`Shows` tells that a statement places a label in the list that it lowers into, and `Loose` that some
jump below it is in no list that holds the label (`LowersAll.holdsLabel_iff`,
`LowersAll.scoped_iff`).
-/

set_option autoImplicit false

namespace StructuredBasic.Lowering

open Syntax Machine

/-! ## Where labels are placed -/

/-- The statement `x` lowers into the list of `y`: it is `y`, or it stands in a `With` block or in
the `Case Else` of a `Select` without cases that lowers into that list. -/
inductive Surfaces (f : Forest) : Nat → Nat → Prop
  | self (y : Nat) : Surfaces f y y
  | within {y z x expression statements tail}
      (h : f.stmt? y = some (.guarded expression statements tail))
      (hz : z ∈ f.elements statements) (hx : Surfaces f z x) : Surfaces f y x
  | caseElse {y z x last expression cases tail statements}
      (h : f.stmt? y = some (.selectBlock expression cases (some last) tail))
      (hc : f.elements cases = []) (hl : f.stmt? last = some (.body statements))
      (hz : z ∈ f.elements statements) (hx : Surfaces f z x) : Surfaces f y x

/-- The statement `y` places the label `r` in the list that it lowers into. -/
def Shows (f : Forest) (g : Nat → List Mark) (r : String) (y : Nat) : Prop :=
  ∃ x, Surfaces f y x ∧ .label r ∈ g x

/-- The list of statements holds the label `r` when it is lowered. -/
def ListShows (f : Forest) (g : Nat → List Mark) (r : String) (list : Option Nat) : Prop :=
  ∃ z ∈ f.elements list, Shows f g r z

/-- Statements that may leave no list of their own behind. -/
def Stmt.mayDissolve : Stmt → Bool
  | .guarded .. | .selectBlock .. => true
  | _ => false

section Shows

variable {f : Forest} {g : Nat → List Mark} {r : String} {y : Nat}

theorem shows_iff {stmt : Stmt} (h : f.stmt? y = some stmt)
    (hs : Stmt.mayDissolve stmt = false) : Shows f g r y ↔ .label r ∈ g y := by
  constructor
  · rintro ⟨x, hx, hr⟩
    cases hx with
    | self => exact hr
    | within hy =>
      rw [h] at hy
      cases hy
      cases hs
    | caseElse hy =>
      rw [h] at hy
      cases hy
      cases hs
  · intro hr
    exact ⟨y, .self y, hr⟩

theorem shows_within {expression : Nat} {statements tail : Option Nat}
    (h : f.stmt? y = some (.guarded expression statements tail)) (hg : g y = []) :
    Shows f g r y ↔ ListShows f g r statements := by
  constructor
  · rintro ⟨x, hx, hr⟩
    cases hx with
    | self =>
      rw [hg] at hr
      cases hr
    | within hy hz hx =>
      rw [h] at hy
      cases hy
      exact ⟨_, hz, x, hx, hr⟩
    | caseElse hy =>
      rw [h] at hy
      cases hy
  · rintro ⟨z, hz, x, hx, hr⟩
    exact ⟨x, .within h hz hx, hr⟩

theorem shows_select {expression : Nat} {cases caseElse tail : Option Nat}
    (h : f.stmt? y = some (.selectBlock expression cases caseElse tail)) (hg : g y = []) :
    Shows f g r y ↔ f.elements cases = [] ∧ ∃ last statements, caseElse = some last ∧
      f.stmt? last = some (.body statements) ∧ ListShows f g r statements := by
  constructor
  · rintro ⟨x, hx, hr⟩
    cases hx with
    | self =>
      rw [hg] at hr
      cases hr
    | within hy =>
      rw [h] at hy
      cases hy
    | caseElse hy hc hl hz hx =>
      rw [h] at hy
      cases hy
      exact ⟨hc, _, _, rfl, hl, _, hz, x, hx, hr⟩
  · rintro ⟨hc, last, statements, rfl, hl, z, hz, x, hx, hr⟩
    exact ⟨x, .caseElse h hc hl hz hx, hr⟩

end Shows

/-- A block that keeps a list of its own shows no label. -/
theorem not_shows_of_lists {env : Env} {r : String} {id : Nat} {stmt : Stmt}
    (h : env.forest.stmt? id = some stmt) (hl : stmt.lists ≠ [])
    (hs : Stmt.mayDissolve stmt = false) : ¬ Shows env.forest env.marksAt r id := by
  rw [shows_iff h hs, marksAt_of_lists h hl]
  exact List.not_mem_nil

theorem LowersBranches.isEmpty_iff {routine : Routine} {env : Env} {value : Option Target.Expr}
    {ids : List Nat} {s t : BodyState} {branches : List Branch}
    (h : LowersBranches routine env value ids s branches t) :
    branches.isEmpty = true ↔ ids = [] := by
  cases h with
  | nil => exact ⟨fun _ => rfl, fun _ => rfl⟩
  | cons => exact ⟨fun h => (nomatch h), fun h => (nomatch h)⟩

theorem HasList.holdsLabel_iff {env : Env} {r : String} {id : Nat} {statements : Option Nat}
    {body out : List Target.Stmt} (h : HasList env.forest id statements) (hw : Wraps body out) :
    holdsLabel r out = true ↔ Shows env.forest env.marksAt r id := by
  obtain ⟨stmt, hstmt, hs, hlists, hlast⟩ := h
  rw [hw.holdsLabel_eq]
  refine ⟨fun h => (nomatch h), fun hshows => ?_⟩
  cases hd : Stmt.mayDissolve stmt with
  | false => exact absurd hshows (not_shows_of_lists hstmt (by simp [hlists]) hd)
  | true =>
    cases stmt <;> cases hd
    · cases hs
    · rw [shows_select hstmt (marksAt_of_lists hstmt (by simp [Stmt.lists]))] at hshows
      obtain ⟨_, last, _, hsome, _⟩ := hshows
      rw [Stmt.last?, hsome] at hlast
      cases hlast

theorem LowersPlain.mayDissolve {routine : Routine} {env : Env} {id : Nat} {s t : BodyState}
    {out : List Target.Stmt} (h : LowersPlain routine env id s out t) :
    ∃ stmt, env.forest.stmt? id = some stmt ∧ Stmt.mayDissolve stmt = false := by
  obtain ⟨stmt, hstmt, _, hlists, _⟩ := h.stmt
  refine ⟨stmt, hstmt, ?_⟩
  cases stmt <;> first
    | rfl
    | cases hlists

mutual

theorem Lowers.holdsLabel_iff {routine : Routine} {env : Env} {id : Nat} {s t : BodyState}
    {out : List Target.Stmt} {r : String} (h : Lowers routine env id s out t)
    (hf : env.forest.Shaped) :
    holdsLabel r out = true ↔ Shows env.forest env.marksAt r id := by
  match h with
  | .plain h =>
    obtain ⟨hleaf, hmarks⟩ := h.marksAll_eq hf
    obtain ⟨stmt, hstmt, hkeeps⟩ := h.mayDissolve
    rw [Machine.holdsLabel_iff hleaf, hmarks, shows_iff hstmt hkeeps]
  | .preTest h _ => exact h.hasList.holdsLabel_iff (wraps_preTestLoop _ _)
  | .postTest h _ _ _ =>
    have hlist : HasList env.forest id _ := ⟨_, h, rfl, rfl, rfl⟩
    exact hlist.holdsLabel_iff (wraps_postTestLoop _ _ _)
  | .counted h _ =>
    exact h.hasList.holdsLabel_iff (wraps_countedLoop (quiet_of_isPlain h.isPlain) _ _ _ _ _)
  | .element h _ =>
    exact h.hasList.holdsLabel_iff (wraps_elementLoop (quiet_of_isPlain h.isPlain) _ _ _ _ _)
  | .within h _ _ hb =>
    have hbody := hb.holdsLabel_iff (r := r) hf
    exact hbody.trans (shows_within h (marksAt_of_lists h (by simp [Stmt.lists]))).symm
  | .ifBlock h _ _ _ _ =>
    have hshows := not_shows_of_lists (r := r) h (by simp [Stmt.lists]) rfl
    rw [holdsLabel_of_isBlock rfl]
    exact ⟨fun h => (nomatch h), fun h => absurd h hshows⟩
  | .lineIf h _ _ _ =>
    have hshows := not_shows_of_lists (r := r) h (by simp [Stmt.lists]) rfl
    rw [holdsLabel_of_isBlock rfl]
    exact ⟨fun h => (nomatch h), fun h => absurd h hshows⟩
  | .select h hs hcases helse =>
    have hlast := helse.holdsLabel_iff (r := r) hf
    rw [holdsLabel_append, (quiet_selector hs).holdsLabel, Bool.false_or, holdsLabel_chain,
      Bool.and_eq_true, hcases.isEmpty_iff, hlast,
      shows_select h (marksAt_of_lists h (by simp [Stmt.lists]))]

theorem LowersAll.holdsLabel_iff {routine : Routine} {env : Env} {ids : List Nat}
    {s t : BodyState} {out : List Target.Stmt} {r : String}
    (h : LowersAll routine env ids s out t) (hf : env.forest.Shaped) :
    holdsLabel r out = true ↔ ∃ z ∈ ids, Shows env.forest env.marksAt r z := by
  match h with
  | .nil => simp [holdsLabel]
  | .cons h hs =>
    have hfirst := h.holdsLabel_iff (r := r) hf
    have hrest := hs.holdsLabel_iff (r := r) hf
    rw [holdsLabel_append, holdsLabel_append, (quiet_comments _).holdsLabel, Bool.false_or,
      Bool.or_eq_true, hfirst, hrest]
    simp

theorem LowersElse.holdsLabel_iff {routine : Routine} {env : Env} {block : Option Nat}
    {s t : BodyState} {out : List Target.Stmt} {r : String}
    (h : LowersElse routine env block s out t) (hf : env.forest.Shaped) :
    holdsLabel r out = true ↔ ∃ x statements, block = some x ∧
      env.forest.stmt? x = some (.body statements) ∧
      ListShows env.forest env.marksAt r statements := by
  match h with
  | .none => simp [holdsLabel]
  | .some h hb =>
    have hbody := hb.holdsLabel_iff (r := r) hf
    constructor
    · intro hh
      exact ⟨_, _, rfl, h, hbody.1 hh⟩
    · rintro ⟨x, statements, hx, hstmt, hshows⟩
      cases hx
      rw [h] at hstmt
      cases hstmt
      exact hbody.2 hshows

end

/-! ## Jumps out of scope -/

/-- Some jump to `r` at or below the statement is in no list, from the statement's own lists
inwards, that holds `r`. -/
inductive Loose (f : Forest) (g : Nat → List Mark) (r : String) : Nat → Prop
  | jump {y} (h : .jump r ∈ g y) : Loose f g r y
  | list {y stmt list z} (h : f.stmt? y = some stmt) (hl : list ∈ stmt.lists)
      (hs : ¬ ListShows f g r list) (hz : z ∈ f.elements list) (hx : Loose f g r z) : Loose f g r y
  | last {y stmt x} (h : f.stmt? y = some stmt) (hl : stmt.last? = some x) (hx : Loose f g r x) :
      Loose f g r y

/-- Some jump to `r` in the list is in no list, from this one inwards, that holds `r`. -/
def LooseList (f : Forest) (g : Nat → List Mark) (r : String) (list : Option Nat) : Prop :=
  ¬ ListShows f g r list ∧ ∃ z ∈ f.elements list, Loose f g r z

section Loose

variable {f : Forest} {g : Nat → List Mark} {r : String} {y : Nat}

theorem loose_iff {stmt : Stmt} (h : f.stmt? y = some stmt) : Loose f g r y ↔
    .jump r ∈ g y ∨ (∃ list ∈ stmt.lists, LooseList f g r list) ∨
      ∃ x, stmt.last? = some x ∧ Loose f g r x := by
  constructor
  · intro hloose
    cases hloose with
    | jump hj => exact Or.inl hj
    | list hy hl hs hz hx =>
      rw [h] at hy
      cases hy
      exact Or.inr (Or.inl ⟨_, hl, hs, _, hz, hx⟩)
    | last hy hl hx =>
      rw [h] at hy
      cases hy
      exact Or.inr (Or.inr ⟨_, hl, hx⟩)
  · rintro (hj | ⟨list, hl, hs, z, hz, hx⟩ | ⟨x, hl, hx⟩)
    · exact .jump hj
    · exact .list h hl hs hz hx
    · exact .last h hl hx

theorem inScope_iff {list : Option Nat} {body : List Target.Stmt}
    (hholds : holdsLabel r body = true ↔ ListShows f g r list)
    (hscoped : (∀ z ∈ f.elements list, ¬ Shows f g r z) →
      (ScopedAll r false body ↔ ∀ z ∈ f.elements list, ¬ Loose f g r z)) :
    InScope r false body ↔ ¬ LooseList f g r list := by
  by_cases hs : ListShows f g r list
  · rw [InScope, hholds.2 hs]
    exact ⟨fun _ h => h.1 hs, fun _ => scopedAll_true r body⟩
  · have hnone : holdsLabel r body = false := by
      rw [Bool.eq_false_iff, Ne, hholds]
      exact hs
    rw [InScope, hnone, Bool.false_or, hscoped fun z hz h => hs ⟨z, hz, h⟩]
    constructor
    · rintro h ⟨_, z, hz, hx⟩
      exact h z hz hx
    · intro h z hz hx
      exact h ⟨hs, z, hz, hx⟩

end Loose

section Blocks

variable {env : Env} {id : Nat} {r : String}

theorem loose_of_lists {stmt : Stmt} (h : env.forest.stmt? id = some stmt) (hl : stmt.lists ≠ []) :
    Loose env.forest env.marksAt r id ↔
      (∃ list ∈ stmt.lists, LooseList env.forest env.marksAt r list) ∨
        ∃ x, stmt.last? = some x ∧ Loose env.forest env.marksAt r x := by
  rw [loose_iff h, marksAt_of_lists h hl]
  simp

theorem HasList.loose_iff {statements : Option Nat} (h : HasList env.forest id statements) :
    Loose env.forest env.marksAt r id ↔ LooseList env.forest env.marksAt r statements := by
  obtain ⟨stmt, hstmt, _, hlists, hlast⟩ := h
  rw [loose_of_lists hstmt (by simp [hlists]), hlists, hlast]
  simp

end Blocks

theorem scopedAll_conditional {condition : Target.Expr} {thenBody elseBody : List Target.Stmt}
    {r : String} : ScopedAll r false [.conditional condition thenBody elseBody] ↔
      InScope r false thenBody ∧ InScope r false elseBody :=
  ⟨fun h => h.1, fun h => ⟨h, trivial⟩⟩

/-- The blocks of a chain show no label, so the list that they stand in is loose when one of them
is. -/
theorem LowersBranches.looseList_iff {routine : Routine} {env : Env} {value : Option Target.Expr}
    {list : Option Nat} {s t : BodyState} {branches : List Branch} {r : String}
    (h : LowersBranches routine env value (env.forest.elements list) s branches t) :
    LooseList env.forest env.marksAt r list ↔
      ∃ z ∈ env.forest.elements list, Loose env.forest env.marksAt r z := by
  have hnone : ∀ {ids : List Nat} {s : BodyState} {branches : List Branch},
      LowersBranches routine env value ids s branches t →
      ∀ z ∈ ids, ¬ Shows env.forest env.marksAt r z := by
    intro ids
    induction ids with
    | nil => exact fun _ _ hz => nomatch hz
    | cons id ids ih =>
      intro s branches h
      cases h with
      | cons h _ hs =>
        refine List.forall_mem_cons.2 ⟨?_, ih hs⟩
        cases h with
        | elseIf h => exact not_shows_of_lists h (by simp [Stmt.lists]) rfl
        | case h => exact not_shows_of_lists h (by simp [Stmt.lists]) rfl
  exact and_iff_right fun ⟨z, hz, hshows⟩ => hnone h z hz hshows

mutual

theorem Lowers.scoped_iff {routine : Routine} {env : Env} {id : Nat} {s t : BodyState}
    {out : List Target.Stmt} {r : String} (h : Lowers routine env id s out t)
    (hf : env.forest.Shaped) (hs : ¬ Shows env.forest env.marksAt r id) :
    ScopedAll r false out ↔ ¬ Loose env.forest env.marksAt r id := by
  match h with
  | .plain h =>
    obtain ⟨hleaf, hmarks⟩ := h.marksAll_eq hf
    obtain ⟨stmt, hstmt, _, hlists, hlast⟩ := h.stmt
    rw [scopedAll_false_iff hleaf, hmarks, loose_iff hstmt, hlists, hlast]
    simp
  | .preTest h hb =>
    have hbody := inScope_iff (hb.holdsLabel_iff (r := r) hf) (hb.scoped_iff hf)
    rw [(wraps_preTestLoop _ _).scoped_iff, hbody, h.hasList.loose_iff]
  | .postTest h _ hb _ =>
    have hbody := inScope_iff (hb.holdsLabel_iff (r := r) hf) (hb.scoped_iff hf)
    have hlist : HasList env.forest id _ := ⟨_, h, rfl, rfl, rfl⟩
    rw [(wraps_postTestLoop _ _ _).scoped_iff, hbody, hlist.loose_iff]
  | .counted h hb =>
    have hbody := inScope_iff (hb.holdsLabel_iff (r := r) hf) (hb.scoped_iff hf)
    rw [(wraps_countedLoop (quiet_of_isPlain h.isPlain) _ _ _ _ _).scoped_iff, hbody,
      h.hasList.loose_iff]
  | .element h hb =>
    have hbody := inScope_iff (hb.holdsLabel_iff (r := r) hf) (hb.scoped_iff hf)
    rw [(wraps_elementLoop (quiet_of_isPlain h.isPlain) _ _ _ _ _).scoped_iff, hbody,
      h.hasList.loose_iff]
  | .within h _ _ hb =>
    -- the block dissolves, so that its list, like the one around it, does not hold the label
    rw [shows_within h (marksAt_of_lists h (by simp [Stmt.lists]))] at hs
    have hbody : ScopedAll r false out ↔
        ∀ z ∈ env.forest.elements _, ¬ Loose env.forest env.marksAt r z :=
      hb.scoped_iff hf fun z hz hshows => hs ⟨z, hz, hshows⟩
    rw [hbody, loose_of_lists h (by simp [Stmt.lists])]
    simp only [Stmt.lists, List.mem_singleton, exists_eq_left, Stmt.last?, LooseList, hs,
      not_false_eq_true, true_and, reduceCtorEq, false_and, exists_false, or_false, not_exists,
      not_and]
  | .ifBlock h _ hthen helseIfs helse =>
    have hbody := inScope_iff (hthen.holdsLabel_iff (r := r) hf) (hthen.scoped_iff hf)
    have hbranches := helseIfs.scoped_iff (r := r) hf
    have hlast := helse.scoped_iff (r := r) hf
    rw [scopedAll_conditional, inScope_chain, hbody, hbranches, hlast,
      loose_of_lists h (by simp [Stmt.lists])]
    simp [Stmt.lists, Stmt.last?, helseIfs.looseList_iff, and_assoc]
  | .lineIf h _ hthen helse =>
    have hbody := inScope_iff (hthen.holdsLabel_iff (r := r) hf) (hthen.scoped_iff hf)
    have hlast := inScope_iff (helse.holdsLabel_iff (r := r) hf) (helse.scoped_iff hf)
    rw [scopedAll_conditional, hbody, hlast, loose_of_lists h (by simp [Stmt.lists])]
    simp [Stmt.lists, Stmt.last?]
  | .select h hsel hcases helse =>
    have hbranches := hcases.scoped_iff (r := r) hf
    have hlast := helse.scoped_iff (r := r) hf
    -- without cases the chain is the `Case Else` itself, so it must not hold the label either
    have hholds := (Lowers.select h hsel hcases helse).holdsLabel_iff (r := r) hf
    rw [holdsLabel_append, (quiet_selector hsel).holdsLabel, Bool.false_or] at hholds
    have hchain := Bool.eq_false_iff.2 fun h => hs (hholds.1 h)
    rw [scopedAll_append, and_iff_right (quiet_selector hsel).scopedAll, scopedAll_chain hchain,
      hbranches, hlast, loose_of_lists h (by simp [Stmt.lists])]
    simp [Stmt.lists, Stmt.last?, hcases.looseList_iff]

/-- Where the list around does not hold the label, lowered statements are in scope when no jump
below them is loose. -/
theorem LowersAll.scoped_iff {routine : Routine} {env : Env} {ids : List Nat} {s t : BodyState}
    {out : List Target.Stmt} {r : String} (h : LowersAll routine env ids s out t)
    (hf : env.forest.Shaped) (hs : ∀ z ∈ ids, ¬ Shows env.forest env.marksAt r z) :
    ScopedAll r false out ↔ ∀ z ∈ ids, ¬ Loose env.forest env.marksAt r z := by
  match h with
  | .nil => exact ⟨fun _ _ h => (nomatch h), fun _ => trivial⟩
  | .cons h hrest =>
    have hfirst := h.scoped_iff hf (hs _ List.mem_cons_self)
    have hrest := hrest.scoped_iff hf fun z hz => hs z (List.mem_cons_of_mem _ hz)
    rw [scopedAll_append, scopedAll_append, hfirst, hrest, List.forall_mem_cons]
    exact and_congr_left' (and_iff_right (quiet_comments _).scopedAll)

theorem LowersBranches.scoped_iff {routine : Routine} {env : Env} {value : Option Target.Expr}
    {ids : List Nat} {s t : BodyState} {branches : List Branch} {r : String}
    (h : LowersBranches routine env value ids s branches t) (hf : env.forest.Shaped) :
    (∀ branch ∈ branches, InScope r false branch.2) ↔
      ∀ z ∈ ids, ¬ Loose env.forest env.marksAt r z := by
  match h with
  | .nil => exact ⟨fun _ _ h => (nomatch h), fun _ _ h => (nomatch h)⟩
  | .cons h hb hs =>
    have hbody := inScope_iff (hb.holdsLabel_iff (r := r) hf) (hb.scoped_iff hf)
    have hrest := hs.scoped_iff (r := r) hf
    rw [List.forall_mem_cons, List.forall_mem_cons, hbody, hrest, h.hasList.loose_iff]

theorem LowersElse.scoped_iff {routine : Routine} {env : Env} {block : Option Nat}
    {s t : BodyState} {out : List Target.Stmt} {r : String}
    (h : LowersElse routine env block s out t) (hf : env.forest.Shaped) :
    InScope r false out ↔ ∀ x, block = some x → ¬ Loose env.forest env.marksAt r x := by
  match h with
  | .none => exact ⟨fun _ _ h => (nomatch h), fun _ => trivial⟩
  | .some h hb =>
    have hbody := inScope_iff (hb.holdsLabel_iff (r := r) hf) (hb.scoped_iff hf)
    rw [hbody]
    simp [loose_of_lists h (by simp [Stmt.lists]), Stmt.lists, Stmt.last?]

end

/-! ## Loose jumps by position -/

/-- Some jump to `r` at or below `y` is below no list, from `y` downwards, that holds `r`. -/
def Stray (f : Forest) (g : Nat → List Mark) (r : String) (y : Nat) : Prop :=
  ∃ j ∈ f.descendants y, .jump r ∈ g j ∧
    ∀ c ∈ f.descendants y, j ∈ f.descendants c → ¬ ListShows f g r (some c)

section Stray

variable {f : Forest} {g : Nat → List Mark} {r : String} {y : Nat}

theorem stray_iff (hf : f.Linked) : Stray f g r y ↔
    ¬ ListShows f g r (some y) ∧ (.jump r ∈ g y ∨ ∃ c ∈ f.children y, Stray f g r c) := by
  constructor
  · rintro ⟨j, hj, hjump, hfree⟩
    refine ⟨hfree y (Forest.mem_descendants_self f y) hj, ?_⟩
    rcases Forest.mem_descendants.1 hj with rfl | ⟨c, hc, hj⟩
    · exact Or.inl hjump
    · exact Or.inr ⟨c, hc, j, hj, hjump,
        fun d hd => hfree d (Forest.mem_descendants_of_child hc hd)⟩
  · rintro ⟨hy, hjump | ⟨c, hc, j, hj, hjump, hfree⟩⟩
    · refine ⟨y, Forest.mem_descendants_self f y, hjump, fun c hc hyc => ?_⟩
      have h1 := Forest.le_of_mem_descendants hc
      have h2 := Forest.le_of_mem_descendants hyc
      obtain rfl : c = y := by omega
      exact hy
    · refine ⟨j, Forest.mem_descendants_of_child hc hj, hjump, fun d hd hjd => ?_⟩
      rcases Forest.mem_descendants.1 hd with rfl | ⟨b, hb, hd⟩
      · exact hy
      · -- the list and the jump are below the same child
        have hjb := Forest.mem_descendants_trans hd hjd
        rw [hf.child_unique hb hc hjb hj] at hd
        exact hfree d hd hjd

theorem not_listShows_of_elements {list : Option Nat} (h : f.elements list = []) :
    ¬ ListShows f g r list := by
  rintro ⟨z, hz, _⟩
  rw [h] at hz
  cases hz

theorem elements_of_stmt {stmt : Stmt} (h : f.stmt? y = some stmt) : f.elements (some y) = [] := by
  simp only [Forest.elements, Option.bind_some, Forest.collection?, Forest.payload?_of_stmt? h]

theorem elements_of_decl {d : Decl} (h : f.decl? y = some d) : f.elements (some y) = [] := by
  simp only [Forest.elements, Option.bind_some, Forest.collection?, Forest.payload?_of_decl? h]

section Shaped

variable (hl : f.Linked) (hf : f.Shaped) (hg : f.Sparse g)
include hf hg

theorem not_inert_of_stray (h : Stray f g r y) : (f.kind y).isInert = false := by
  obtain ⟨j, hj, hjump, _⟩ := h
  rw [Bool.eq_false_iff]
  intro hinert
  rw [hg.inert j (hf.inert_of_mem_descendants hinert hj)] at hjump
  cases hjump

include hl

theorem looseList_iff_stray {c : Nat}
    (hc : (Expect.kind .statementCollection).admits (f.kind c) = true)
    (ih : ∀ z < c, (∃ s, f.stmt? z = some s) ∨ (f.kind z).isInert = true →
      (Loose f g r z ↔ Stray f g r z)) :
    LooseList f g r (some c) ↔ Stray f g r c := by
  have hsilent : g c = [] := by
    simp only [Expect.admits, Kind.isBad, Bool.or_eq_true, beq_iff_eq] at hc
    rcases hc with hbad | hk
    · exact hg.inert c (by rw [hbad]; rfl)
    · exact hg.statements c hk.symm
  have helement : ∀ z ∈ f.elements (some c), Loose f g r z ↔ Stray f g r z := fun z hz =>
    ih z (Forest.lt_of_mem_elements hz) (hf.stmt_of_element hc hz)
  rw [stray_iff hl, hsilent, LooseList]
  refine and_congr_right fun _ => ?_
  constructor
  · rintro ⟨z, hz, hx⟩
    exact Or.inr ⟨z, Forest.mem_children_of_elements hz, (helement z hz).1 hx⟩
  · rintro (hjump | ⟨z, hz, hx⟩)
    · cases hjump
    · have hinert := not_inert_of_stray hf hg hx
      have hkind : f.kind c = .statementCollection := by
        simp only [Expect.admits, Kind.isBad, Bool.or_eq_true, beq_iff_eq] at hc
        refine (hc.resolve_left fun hbad => ?_).symm
        rw [hf.inert_of_child (by rw [hbad]; rfl) hz] at hinert
        cases hinert
      have hz := hf.element_of_child hkind hz hinert
      exact ⟨z, hz, (helement z hz).2 hx⟩

theorem loose_iff_stray (hy : (∃ s, f.stmt? y = some s) ∨ (f.kind y).isInert = true) :
    Loose f g r y ↔ Stray f g r y := by
  induction y using Nat.strongRecOn with
  | ind y ih =>
    cases hstmt : f.stmt? y with
    | none =>
      have hinert : (f.kind y).isInert = true := by
        rcases hy with ⟨s, hs⟩ | hy
        · rw [hstmt] at hs; cases hs
        · exact hy
      constructor
      · intro hloose
        cases hloose with
        | jump hj => rw [hg.inert y hinert] at hj; cases hj
        | list h => rw [hstmt] at h; cases h
        | last h => rw [hstmt] at h; cases h
      · intro hstray
        rw [not_inert_of_stray hf hg hstray] at hinert
        cases hinert
    | some stmt =>
      have hnone := not_listShows_of_elements (g := g) (r := r) (elements_of_stmt hstmt)
      rw [loose_iff hstmt, stray_iff hl, and_iff_right hnone]
      refine or_congr_right ?_
      have hlist : ∀ c, some c ∈ stmt.lists → c ∈ f.children y ∧
          (LooseList f g r (some c) ↔ Stray f g r c) := by
        intro c hc
        have hchild := Forest.mem_children_of_list hstmt hc
        have hlt := Forest.lt_of_mem_children hchild
        exact ⟨hchild, looseList_iff_stray hl hf hg (hf.admits_of_list hstmt hc)
          fun z hz hs => ih z (by omega) hs⟩
      have hlast : ∀ x, stmt.last? = some x → x ∈ f.children y ∧
          (Loose f g r x ↔ Stray f g r x) := by
        intro x hx
        have hchild := Forest.mem_children_of_last hstmt hx
        exact ⟨hchild, ih _ (Forest.lt_of_mem_children hchild) (hf.stmt_of_last hstmt hx)⟩
      constructor
      · rintro (⟨list, hmem, hloose⟩ | ⟨x, hx, hloose⟩)
        · cases list with
          | none => obtain ⟨_, _, hz, _⟩ := hloose; cases hz
          | some c => exact ⟨c, (hlist c hmem).1, (hlist c hmem).2.1 hloose⟩
        · exact ⟨x, (hlast x hx).1, (hlast x hx).2.1 hloose⟩
      · rintro ⟨c, hc, hstray⟩
        rcases hf.part_of_child hstmt hc (not_inert_of_stray hf hg hstray) with hmem | hx
        · exact Or.inl ⟨some c, hmem, (hlist c hmem).2.2 hstray⟩
        · exact Or.inr ⟨c, hx, (hlast c hx).2.2 hstray⟩

end Shaped

end Stray

end StructuredBasic.Lowering
