import StructuredBasic.Proofs.Machine.Jumps

/-!
# Jumps and the lists around them

`jumpSites body` lists the jumps of a body in the order of its text, each with the lists that it
stands in. A list that holds a label takes every jump to it (`takes_of_mem`), and a body whose
jumps to a label all stand in a list with the label never ends with the label undefined
(`not_undefined_of_sites`).
-/

set_option autoImplicit false

namespace StructuredBasic.Machine

open Target (Expr Stmt)

/-- A jump: where it goes, and the lists of statements that it stands in, innermost first. -/
structure Site where
  target : String
  lists : List (List Stmt)

/-- Where a mark jumps to, if it is no label. -/
def Mark.jump? : Mark → Option String
  | .jump target => some target
  | .label _ => none

mutual

/-- The jumps of a statement that stands in the lists `around`. -/
def sites (around : List (List Stmt)) : Stmt → List Site
  | .goto label => [⟨label, around⟩]
  | .conditional _ thenBody elseBody =>
    sitesAll (thenBody :: around) thenBody ++ sitesAll (elseBody :: around) elseBody
  | .iteration init _ increment body =>
    sitesOptional around init ++ sitesOptional around increment ++ sitesAll (body :: around) body
  | _ => []

def sitesOptional (around : List (List Stmt)) : Option Stmt → List Site
  | none => []
  | some stmt => sites around stmt

def sitesAll (around : List (List Stmt)) : List Stmt → List Site
  | [] => []
  | stmt :: rest => sites around stmt ++ sitesAll around rest

end

/-- The jumps of a body in the order of its text. -/
def jumpSites (body : List Stmt) : List Site := sitesAll [body] body

/-! ## Sites of lists -/

theorem sitesAll_append (around : List (List Stmt)) (a b : List Stmt) :
    sitesAll around (a ++ b) = sitesAll around a ++ sitesAll around b := by
  induction a with
  | nil => rfl
  | cons stmt a ih => rw [List.cons_append, sitesAll, sitesAll, ih, List.append_assoc]

mutual

/-- The sites of a statement are its jumps, in order. -/
theorem targets_sites (around : List (List Stmt)) (stmt : Stmt) :
    (sites around stmt).map Site.target = (marks stmt).filterMap Mark.jump? := by
  match stmt with
  | .goto _ => rfl
  | .conditional _ thenBody elseBody =>
    rw [sites, marks, List.map_append, List.filterMap_append,
      targets_sitesAll (thenBody :: around) thenBody,
      targets_sitesAll (elseBody :: around) elseBody]
  | .iteration init _ increment body =>
    rw [sites, marks, List.map_append, List.map_append, List.filterMap_append,
      List.filterMap_append, targets_sitesOptional around init,
      targets_sitesOptional around increment, targets_sitesAll (body :: around) body]
  | .assign .. => rfl
  | .declare .. => rfl
  | .expression _ => rfl
  | .returns _ => rfl
  | .label _ => rfl
  | .breaks => rfl
  | .comment _ => rfl

theorem targets_sitesOptional (around : List (List Stmt)) (stmt : Option Stmt) :
    (sitesOptional around stmt).map Site.target =
      (marksOptional stmt).filterMap Mark.jump? := by
  match stmt with
  | none => rfl
  | some stmt => exact targets_sites around stmt

theorem targets_sitesAll (around : List (List Stmt)) (stmts : List Stmt) :
    (sitesAll around stmts).map Site.target = (marksAll stmts).filterMap Mark.jump? := by
  match stmts with
  | [] => rfl
  | stmt :: rest =>
    rw [sitesAll, marksAll, List.map_append, List.filterMap_append, targets_sites around stmt,
      targets_sitesAll around rest]

end

theorem sitesOptional_eq_nil {around : List (List Stmt)} {stmt : Option Stmt}
    (h : marksOptional stmt = []) : sitesOptional around stmt = [] := by
  have htargets := targets_sitesOptional around stmt
  rw [h] at htargets
  exact List.map_eq_nil_iff.1 htargets

theorem Quiet.sitesAll {around : List (List Stmt)} {stmts : List Stmt} (h : Quiet stmts) :
    sitesAll around stmts = [] := by
  have htargets := targets_sitesAll around stmts
  rw [h.marksAll] at htargets
  exact List.map_eq_nil_iff.1 htargets

/-- Statements without lists leave their jumps in the lists around them. -/
theorem sitesAll_of_leaves {around : List (List Stmt)} {stmts : List Stmt}
    (h : ∀ stmt ∈ stmts, isBlock stmt = false) :
    sitesAll around stmts =
      ((marksAll stmts).filterMap Mark.jump?).map fun label => ⟨label, around⟩ := by
  induction stmts with
  | nil => rfl
  | cons stmt stmts ih =>
    have hrest := ih fun s hs => h s (List.mem_cons_of_mem _ hs)
    have hstmt : sites around stmt =
        ((marks stmt).filterMap Mark.jump?).map fun label => ⟨label, around⟩ := by
      have hleaf := h stmt List.mem_cons_self
      cases stmt with
      | conditional => cases hleaf
      | iteration => cases hleaf
      | _ => rfl
    rw [Machine.sitesAll, marksAll, List.filterMap_append, List.map_append, hstmt, hrest]

/-! ## Jumps that are taken -/

theorem holdsLabel_iff_mem {r : String} {stmts : List Stmt} :
    holdsLabel r stmts = true ↔ .label r ∈ stmts := by
  rw [holdsLabel, List.any_eq_true]
  constructor
  · rintro ⟨stmt, hs, hlabel⟩
    cases stmt <;> simp [labelOf?] at hlabel
    rw [← hlabel]
    exact hs
  · intro h
    exact ⟨.label r, h, by simp [labelOf?]⟩

/-- A jump to the label ends in this list: the search of the list finds the label, so its block
never hands the jump on. -/
def Takes (r : String) (stmts : List Stmt) : Prop :=
  ∀ limit, (Run.afterLabel? r (actions limit stmts)).isSome = true ∧
    ∀ state, ((Run.block limit (actions limit stmts)).run state).1 ≠ .ok (.goto r)

theorem takes_of_mem {r : String} {stmts : List Stmt} (h : .label r ∈ stmts) :
    Takes r stmts := by
  have hheld := holdsLabel_iff_mem.2 h
  intro limit
  constructor
  · rw [Option.isSome_iff_ne_none]
    intro hnone
    rw [holdsLabel_of_afterLabel hnone] at hheld
    cases hheld
  · intro state hrun
    have hscope : ScopedAll r (false || holdsLabel r stmts) stmts := by
      rw [hheld]
      exact scopedAll_true r stmts
    have hblock := sat_inScope limit stmts hscope state trivial
    revert hblock
    cases hresult : (Run.block limit (actions limit stmts)).run state with
    | mk result t =>
      rw [hresult] at hrun
      cases hrun
      intro hlands
      cases hlands rfl

theorem held_of_around {r : String} {around : List (List Stmt)} {here : Bool}
    {stmts : List Stmt} (hhere : (∃ list ∈ around, .label r ∈ list) → here = true) :
    (∃ list ∈ stmts :: around, .label r ∈ list) → (here || holdsLabel r stmts) = true := by
  rintro ⟨list, hl, hr⟩
  rcases List.mem_cons.1 hl with rfl | hl
  · rw [holdsLabel_iff_mem.2 hr, Bool.or_true]
  · rw [hhere ⟨list, hl, hr⟩, Bool.true_or]

mutual

/-- Where every jump to `r` stands in a list with the label, the statement is in scope. -/
theorem scoped_of_sites {r : String} {around : List (List Stmt)} {here : Bool} (stmt : Stmt)
    (hhere : (∃ list ∈ around, .label r ∈ list) → here = true)
    (h : ∀ site ∈ sites around stmt, site.target = r → ∃ list ∈ site.lists, .label r ∈ list) :
    Scoped r here stmt := by
  match stmt with
  | .goto label => exact fun heq => hhere (h ⟨label, around⟩ (List.mem_singleton.2 rfl) heq)
  | .conditional _ thenBody elseBody =>
    rw [sites] at h
    have hthen := scopedAll_of_sites thenBody (held_of_around hhere) fun site hs =>
      h site (List.mem_append_left _ hs)
    have helse := scopedAll_of_sites elseBody (held_of_around hhere) fun site hs =>
      h site (List.mem_append_right _ hs)
    exact ⟨hthen, helse⟩
  | .iteration _ _ _ body =>
    rw [sites] at h
    exact scopedAll_of_sites body (held_of_around hhere) fun site hs =>
      h site (List.mem_append_right _ hs)
  | .assign .. => exact trivial
  | .declare .. => exact trivial
  | .expression _ => exact trivial
  | .returns _ => exact trivial
  | .label _ => exact trivial
  | .breaks => exact trivial
  | .comment _ => exact trivial

theorem scopedAll_of_sites {r : String} {around : List (List Stmt)} {here : Bool}
    (stmts : List Stmt) (hhere : (∃ list ∈ around, .label r ∈ list) → here = true)
    (h : ∀ site ∈ sitesAll around stmts, site.target = r →
      ∃ list ∈ site.lists, .label r ∈ list) : ScopedAll r here stmts := by
  match stmts with
  | [] => exact trivial
  | stmt :: rest =>
    rw [sitesAll] at h
    exact ⟨scoped_of_sites stmt hhere fun site hs => h site (List.mem_append_left _ hs),
      scopedAll_of_sites rest hhere fun site hs => h site (List.mem_append_right _ hs)⟩

end

theorem inScope_of_sites {r : String} {around : List (List Stmt)} {here : Bool}
    (stmts : List Stmt) (hhere : (∃ list ∈ around, .label r ∈ list) → here = true)
    (h : ∀ site ∈ sitesAll (stmts :: around) stmts, site.target = r →
      ∃ list ∈ site.lists, .label r ∈ list) : InScope r here stmts :=
  scopedAll_of_sites stmts (held_of_around hhere) h

theorem not_undefined_of_sites {r : String} {body : List Stmt}
    (h : ∀ site ∈ jumpSites body, site.target = r → ∃ list ∈ site.lists, .label r ∈ list)
    (limit : Nat) (state : State) :
    ((runWithin limit body).run state).1 ≠ .error (.undefinedLabel r) :=
  (inScope_of_sites body (fun ⟨_, hl, _⟩ => nomatch hl) h).sound limit state

end StructuredBasic.Machine
