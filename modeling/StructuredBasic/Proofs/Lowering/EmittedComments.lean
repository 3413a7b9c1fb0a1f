import StructuredBasic.Proofs.Lowering.Comments
import StructuredBasic.Proofs.Lowering.Support

/-!
# Comments of statements

Any statement and any declaration may carry comments, and its form decides whether lowering writes
them out (`Forest.emits`). A statement of a list is lowered by itself and emits its comments. The
blocks of a chain are taken apart by the statement around them, and the line that closes a block is
not looked at: their comments are lost, while those inside the blocks of a chain are not. So the
comments in a lowered list are those of the statements that emit theirs, in the order of the source
(`LowersAll.commentTexts_eq`).
-/

set_option autoImplicit false

namespace StructuredBasic.Syntax

/-! ## Nodes that emit their comments -/

/-- Whether a statement emits its comments; `listed` says that it is one of a list of statements. -/
def Stmt.emits (listed : Bool) : Stmt → Bool
  | .elseIfBlock .. | .caseBlock .. | .body _ => false
  | .loopEnd _ | .nextEnd _ => false
  | .endBlock _ => listed
  | _ => true

namespace Forest

variable (f : Forest)

/-- Whether a node is one of a list of statements. -/
def inStatements (id : Nat) : Bool :=
  (f.parent? id).any fun parent => f.kind parent == .statementCollection

/-- Whether a list of declarators names a variable. -/
def namesVariables (declarators : Nat) : Bool :=
  (f.elements (some declarators)).any fun declarator =>
    (f.declarator? declarator).any fun d => !(f.elements (some d.names)).isEmpty

/-- Whether a declaration emits its comments. A list of fields puts them on its first field. -/
def emitsDecl : Decl → Bool
  | .typeBlock .. | .method .. | .external .. | .property .. => true
  | .variableList _ declarators => f.namesVariables declarators
  | _ => false

/-- Whether lowering writes out the comments of a node that it comes to. -/
def emits (id : Nat) : Bool :=
  match f.payload? id with
  | some (.stmt s) => s.emits (f.inStatements id)
  | some (.decl d) => f.emitsDecl d
  | _ => false

def commentText? (id : Nat) : Option String :=
  match f.payload? id with
  | some (.comment value) => some value.text
  | _ => none

/-- The texts of the comments attached to a node. -/
def commentTexts (id : Nat) : List String := (f.comments id).filterMap f.commentText?

/-- The texts of the comments that a node emits. -/
def emittedAt (id : Nat) : List String := if f.emits id then f.commentTexts id else []

variable {f} {id : Nat}

theorem emits_of_stmt {s : Stmt} (h : f.stmt? id = some s) :
    f.emits id = s.emits (f.inStatements id) := by
  rw [emits, payload?_of_stmt? h]

theorem emits_of_decl {d : Decl} (h : f.decl? id = some d) : f.emits id = f.emitsDecl d := by
  rw [emits, payload?_of_decl? h]

theorem emittedAt_of_emits (h : f.emits id = true) : f.emittedAt id = f.commentTexts id :=
  if_pos h

theorem emittedAt_eq_nil (h : f.emits id = false) : f.emittedAt id = [] := by
  rw [emittedAt, h]
  rfl

theorem emits_of_emittedAt (h : f.emittedAt id ≠ []) : f.emits id = true := by
  by_contra hne
  exact h (emittedAt_eq_nil (Bool.not_eq_true _ ▸ hne))

theorem emits_cases (h : f.emits id = true) : (∃ s, f.stmt? id = some s) ∨
    ∃ d, f.decl? id = some d := by
  unfold emits at h
  split at h
  · next s hs => exact Or.inl ⟨s, by rw [stmt?, hs]⟩
  · next d hd => exact Or.inr ⟨d, by rw [decl?, hd]⟩
  · cases h

theorem Shaped.family_eq (hf : Shaped f) {payload : Payload} (h : f.payload? id = some payload) :
    (f.kind id).family = payload.family := by
  obtain ⟨n, hn, hp⟩ := Option.map_eq_some_iff.1 h
  have hfit := (Payload.fits_of_fault? (hf.payload id n hn)).1
  rw [Family.contains, beq_iff_eq] at hfit
  rw [kind, hn, ← hp]
  exact hfit

theorem Shaped.family_of_emits (hf : Shaped f) (h : f.emits id = true) :
    (f.kind id).family = .statement ∨ (f.kind id).family = .declaration := by
  rcases emits_cases h with ⟨s, hs⟩ | ⟨d, hd⟩
  · exact Or.inl (hf.family_eq (payload?_of_stmt? hs))
  · exact Or.inr (hf.family_eq (payload?_of_decl? hd))

/-- A declaration that emits its comments closes no block. -/
theorem Shaped.not_inert_of_emitsDecl (hf : Shaped f) {d : Decl} (h : f.decl? id = some d)
    (he : f.emitsDecl d = true) : (f.kind id).isInert = false := by
  have hall : d.kinds.all (fun k => !k.isInert) = true := by
    cases d <;> first
      | rfl
      | cases he
  simpa using Decl.of_kinds (hf.describes_decl h) hall

/-- Of the nodes that may stand at the end of a block, only those of a list emit comments. -/
theorem Shaped.inStatements_of_emits (hf : Shaped f) (h : f.emits id = true)
    (hi : (f.kind id).isInert = true) : f.inStatements id = true := by
  rcases emits_cases h with ⟨s, hs⟩ | ⟨d, hd⟩
  · rw [emits_of_stmt hs] at h
    cases hend : s.isEnd with
    | false =>
      rw [(Stmt.kind_of_describes (hf.describes_stmt hs) hend).1] at hi
      cases hi
    | true =>
      cases s with
      | endBlock => exact h
      | loopEnd => cases h
      | nextEnd => cases h
      | _ => cases hend
  · rw [emits_of_decl hd] at h
    rw [hf.not_inert_of_emitsDecl hd h] at hi
    cases hi

/-! ## Lists of statements -/

theorem inStatements_of_parent {p : Nat} (h : f.parent? id = some p) :
    f.inStatements id = (f.kind p == .statementCollection) := by
  rw [inStatements, h]
  rfl

theorem Linked.inStatements_of_child (hl : Linked f) {p : Nat} (h : id ∈ f.children p) :
    f.inStatements id = (f.kind p == .statementCollection) :=
  inStatements_of_parent ((hl.mem_children_iff p id).1 h)

/-- A place for a list that is filled with unparsed text holds no statements. -/
theorem inStatements_of_element (hl : Linked f) (hf : Shaped f) {c x : Nat}
    (h : (Expect.kind .statementCollection).admits (f.kind c) = true)
    (hx : x ∈ f.elements (some c)) : f.inStatements x = true := by
  rw [hl.inStatements_of_child (mem_children_of_elements hx), beq_iff_eq]
  simp only [Expect.admits, Kind.isBad, Bool.or_eq_true, beq_iff_eq] at h
  refine (h.resolve_left fun hbad => ?_).symm
  cases hvalue : f.collection? c with
  | none =>
    simp only [elements, Option.bind_some, hvalue] at hx
    cases hx
  | some value =>
    have hfamily := hf.family_eq (payload?_of_collection? hvalue)
    rw [hbad] at hfamily
    cases hfamily

theorem inStatements_of_list (hl : Linked f) (hf : Shaped f) {s : Stmt} (h : f.stmt? id = some s)
    {list : Option Nat} (hlist : list ∈ s.lists) :
    ∀ x ∈ f.elements list, f.inStatements x = true := by
  intro x hx
  cases list with
  | none => cases hx
  | some c => exact inStatements_of_element hl hf (hf.admits_of_list h hlist) hx

/-! ## Gathering comments -/

section Gather

variable {g : Nat → List String} (hl : Linked f) (hf : Shaped f)
  (hg : ∀ d, g d ≠ [] → f.emits d = true)

include hf hg in
theorem eq_nil_of_family (h : (f.kind id).family ≠ .statement)
    (h' : (f.kind id).family ≠ .declaration) : g id = [] := by
  by_contra hne
  exact (hf.family_of_emits (hg id hne)).elim h h'

include hl hf hg

theorem gather_eq_nil_of_inert (hi : (f.kind id).isInert = true) (hid : g id = []) :
    f.gather g id = [] := by
  -- below an inert node there are inert nodes only, and none of them stands in a list
  have hbelow : ∀ d ∈ f.descendants id, (f.kind d).isInert = true ∧
      (d = id ∨ f.inStatements d = false) := by
    refine descendants_induction ⟨hi, Or.inl rfl⟩ fun p hp c hc => ?_
    refine ⟨hf.inert_of_child hp.1 hc, Or.inr ?_⟩
    rw [hl.inStatements_of_child hc, beq_eq_false_iff_ne]
    intro hk
    rw [hk] at hp
    cases hp.1
  refine gather_eq_nil fun d hd => ?_
  obtain ⟨hinert, rfl | hout⟩ := hbelow d hd
  · exact hid
  · by_contra hne
    rw [hf.inStatements_of_emits (hg d hne) hinert] at hout
    cases hout

theorem scattered_of_emits : Scattered f g where
  slot id n hn slot hs hi := by
    have hinert := Expect.isInert_of_admits hi (hf.slots id n hn slot hs)
    refine gather_eq_nil_of_inert hl hf hg hinert ?_
    by_contra hne
    have hchild : slot.id ∈ f.children id := by
      rw [children, hn]
      exact List.mem_append_left _ (List.mem_map.2 ⟨slot, hs, rfl⟩)
    have hin := hf.inStatements_of_emits (hg _ hne) hinert
    rw [hl.inStatements_of_child hchild, beq_iff_eq] at hin
    -- a list of statements has no place for inert nodes
    obtain ⟨n', value, hn', hk, hvalue, -⟩ := hf.exists_collection hin
    cases hn.symm.trans hn'
    rw [hvalue, hk] at hs
    obtain ⟨_, _, rfl⟩ := List.mem_map.1 hs
    cases hi
  comment id n hn c hc := by
    have hadmits := hf.comments id n hn c hc
    refine gather_eq_nil_of_inert hl hf hg (Expect.isInert_of_admits rfl hadmits) ?_
    simp only [Expect.admits, Kind.isBad, Bool.or_eq_true, beq_iff_eq] at hadmits
    rcases hadmits with hk | hk
    · exact eq_nil_of_family hf hg (by rw [hk]; decide) (by rw [hk]; decide)
    · exact eq_nil_of_family hf hg (by rw [← hk]; decide) (by rw [← hk]; decide)
  bad d hd := by
    refine gather_eq_nil_of_inert hl hf hg (by rw [hd]; rfl) ?_
    exact eq_nil_of_family hf hg (by rw [hd]; decide) (by rw [hd]; decide)
  statements d hd := eq_nil_of_family hf hg (by rw [hd]; decide) (by rw [hd]; decide)
  declarations d hd := eq_nil_of_family hf hg (by rw [hd]; decide) (by rw [hd]; decide)

end Gather

end Forest

end StructuredBasic.Syntax

namespace StructuredBasic.Lowering

open Syntax
open Target.Stmt (commentTexts commentTextsAll commentTextsOptional commentTextsAll_append
  commentTextsAll_of_isSimple commentTextsAll_comments isSimple)

/-! ## Statements -/

theorem Env.comments_eq {env : Env} (h : env.emitComments = true) (id : Nat) :
    env.comments id = env.forest.commentTexts id :=
  if_pos h

section Shapes

theorem commentTextsAll_singleton (stmt : Target.Stmt) :
    commentTextsAll [stmt] = commentTexts stmt := by
  rw [commentTextsAll, commentTextsAll, List.append_nil]

theorem commentTexts_preTestLoop (test : Target.Expr) (body : List Target.Stmt) :
    commentTexts (preTestLoop test body) = commentTextsAll body := rfl

theorem commentTexts_postTestLoop (latch : String) (test : Target.Expr)
    (body : List Target.Stmt) :
    commentTexts (postTestLoop latch test body) = commentTextsAll body := by
  have hbody : commentTextsAll (body ++ [.assign (.ident latch) test]) = commentTextsAll body := by
    rw [commentTextsAll_append]
    exact List.append_nil _
  rw [postTestLoop, commentTexts, hbody]
  rfl

theorem commentTexts_countedLoop (control lower upper step : Target.Expr)
    (body : List Target.Stmt) :
    commentTexts (countedLoop control lower upper step body) = commentTextsAll body := rfl

theorem commentTexts_elementLoop (enumerator : String) (control collection : Target.Expr)
    (type : Target.Ty) (body : List Target.Stmt) :
    commentTexts (elementLoop enumerator control collection type body) = commentTextsAll body := rfl

theorem commentTextsAll_chain (branches : List Branch) (last : List Target.Stmt) :
    commentTextsAll (chain branches last) =
      branches.flatMap (fun branch => commentTextsAll branch.2) ++ commentTextsAll last := by
  induction branches with
  | nil => rfl
  | cons branch branches ih =>
    have hchain : chain (branch :: branches) last =
        [.conditional branch.1 branch.2 (chain branches last)] := rfl
    rw [hchain, commentTextsAll_singleton, commentTexts, ih, List.flatMap_cons, List.append_assoc]

theorem commentTextsAll_withShadow (shadow : Option String) (type : Target.Ty)
    (body : List Target.Stmt) :
    commentTextsAll (Env.withShadow shadow type body) = commentTextsAll body := by
  cases shadow with
  | none => rfl
  | some name =>
    have hlast : commentTextsAll (body ++ [.returns (some (.ident name))]) =
        commentTextsAll body := by
      rw [commentTextsAll_append]
      exact List.append_nil _
    exact hlast

/-- What stands in front of a loop or a chain holds no comments. -/
theorem commentTextsAll_behind {front : List Target.Stmt}
    (h : ∀ stmt ∈ front, stmt.isPlain = true) (rest : List Target.Stmt) :
    commentTextsAll (front ++ rest) = commentTextsAll rest := by
  rw [commentTextsAll_append, commentTextsAll_of_isSimple (isSimple_of_isPlain h), List.nil_append]

end Shapes

section Forms

variable {routine : Routine} {env : Env} {id : Nat} {s t : BodyState} {out : List Target.Stmt}

theorem LowersPlain.isSimple (h : LowersPlain routine env id s out t) :
    ∀ stmt ∈ out, isSimple stmt = true := by
  cases h with
  | empty => exact fun _ h => nomatch h
  | stop => exact List.forall_mem_singleton.2 rfl
  | halt => exact List.forall_mem_singleton.2 rfl
  | endBlock => exact fun _ h => nomatch h
  | label => exact List.forall_mem_singleton.2 rfl
  | goto => exact List.forall_mem_singleton.2 rfl
  | goSub => exact List.forall_mem_cons.2 ⟨rfl, List.forall_mem_singleton.2 rfl⟩
  | exit _ hs => exact List.forall_mem_singleton.2 (isSimple_lowerExit hs)
  | returns _ hs => exact List.forall_mem_singleton.2 (isSimple_lowerReturn hs)
  | raiseEvent => exact List.forall_mem_singleton.2 rfl
  | reDim _ hs => exact isSimple_of_isPlain (isPlain_lowerReDim hs)
  | erase => exact List.forall_mem_map.2 fun _ _ => rfl
  | call => exact List.forall_mem_singleton.2 rfl
  | assignment => exact List.forall_mem_singleton.2 rfl
  | compound _ hs =>
    obtain ⟨_, _, _, _, _, _, rfl⟩ := lowerCompound_ok hs
    exact List.forall_mem_singleton.2 rfl
  | mid _ hs =>
    obtain ⟨_, _, _, _, _, _, _, _, rfl⟩ := lowerMid_ok hs
    exact List.forall_mem_singleton.2 rfl
  | locals _ hs => exact isSimple_of_isPlain (isPlain_lowerLocals hs)

theorem LowersPlain.emits (h : LowersPlain routine env id s out t)
    (hin : env.forest.inStatements id = true) : env.forest.emits id = true := by
  cases h <;> (rw [Forest.emits_of_stmt (by assumption), hin]; rfl)

theorem LoopHead.emits {test : Target.Expr} {statements : Option Nat}
    (h : LoopHead env id test statements) : env.forest.emits id = true := by
  cases h <;> (rw [Forest.emits_of_stmt (by assumption)]; rfl)

theorem CountedHead.emits {declared : List Target.Stmt} {control lower upper step : Target.Expr}
    {statements : Option Nat}
    (h : CountedHead env id declared control lower upper step statements) :
    env.forest.emits id = true := by
  cases h with
  | forBlock h => rw [Forest.emits_of_stmt h]; rfl

theorem ElementHead.emits {declared : List Target.Stmt} {control collection : Target.Expr}
    {type : Target.Ty} {statements : Option Nat}
    (h : ElementHead env id declared control collection type statements) :
    env.forest.emits id = true := by
  cases h with
  | forEachBlock h => rw [Forest.emits_of_stmt h]; rfl

theorem Arm.not_emits {value : Option Target.Expr} {test : Target.Expr} {statements : Option Nat}
    (h : Arm env id value test statements) : env.forest.emits id = false := by
  cases h <;> (rw [Forest.emits_of_stmt (by assumption)]; rfl)

theorem scattered_emittedAt {f : Forest} (hl : f.Linked) (hf : f.Shaped) :
    f.Scattered f.emittedAt :=
  Forest.scattered_of_emits hl hf fun _ => Forest.emits_of_emittedAt

theorem HasList.gather_emittedAt {f : Forest} (hl : f.Linked) (hf : f.Shaped)
    {statements : Option Nat} (h : HasList f id statements) : f.gather f.emittedAt id =
      f.emittedAt id ++ (f.elements statements).flatMap (f.gather f.emittedAt) := by
  obtain ⟨stmt, hstmt, _, hlists, hlast⟩ := h
  rw [(scattered_emittedAt hl hf).gather_stmt hf hstmt, hlists, hlast]
  simp

theorem HasList.inStatements {f : Forest} (hl : f.Linked) (hf : f.Shaped)
    {statements : Option Nat} (h : HasList f id statements) :
    ∀ x ∈ f.elements statements, f.inStatements x = true := by
  obtain ⟨stmt, hstmt, _, hlists, _⟩ := h
  exact Forest.inStatements_of_list hl hf hstmt (by simp [hlists])

/-- A statement that emits its comments has them in front of those of its parts. -/
theorem gather_of_emits (hl : env.forest.Linked) (hf : env.forest.Shaped)
    (he : env.emitComments = true) {stmt : Stmt} (h : env.forest.stmt? id = some stmt)
    (hid : env.forest.emits id = true) : env.forest.gather env.forest.emittedAt id =
      env.comments id ++
        (stmt.lists.flatMap env.forest.elements).flatMap (env.forest.gather env.forest.emittedAt) ++
        stmt.last?.toList.flatMap (env.forest.gather env.forest.emittedAt) := by
  rw [(scattered_emittedAt hl hf).gather_stmt hf h, Forest.emittedAt_of_emits hid,
    Env.comments_eq he]

theorem HasList.commentTexts_eq (hl : env.forest.Linked) (hf : env.forest.Shaped)
    (he : env.emitComments = true) {statements : Option Nat}
    (h : HasList env.forest id statements) (hid : env.forest.emits id = true)
    {texts : List String}
    (hbody : texts = (env.forest.elements statements).flatMap
      (env.forest.gather env.forest.emittedAt)) :
    env.comments id ++ texts = env.forest.gather env.forest.emittedAt id := by
  rw [h.gather_emittedAt hl hf, Forest.emittedAt_of_emits hid, Env.comments_eq he, hbody]

end Forms

mutual

theorem Lowers.commentTexts_eq {routine : Routine} {env : Env} {id : Nat} {s t : BodyState}
    {out : List Target.Stmt} (h : Lowers routine env id s out t) (hl : env.forest.Linked)
    (hf : env.forest.Shaped) (he : env.emitComments = true)
    (hin : env.forest.inStatements id = true) :
    env.comments id ++ commentTextsAll out = env.forest.gather env.forest.emittedAt id := by
  match h with
  | .plain h =>
    obtain ⟨stmt, hstmt, _, hlists, hlast⟩ := h.stmt
    rw [gather_of_emits hl hf he hstmt (h.emits hin), hlists, hlast,
      commentTextsAll_of_isSimple h.isSimple]
    simp
  | .preTest h hb =>
    have hbody := hb.commentTexts_eq hl hf he (h.hasList.inStatements hl hf)
    rw [commentTextsAll_singleton, commentTexts_preTestLoop]
    exact h.hasList.commentTexts_eq hl hf he h.emits hbody
  | .postTest h ht hb hc =>
    have hlist : HasList env.forest id _ := ⟨_, h, rfl, rfl, rfl⟩
    have hbody := hb.commentTexts_eq hl hf he (hlist.inStatements hl hf)
    rw [commentTextsAll_singleton, commentTexts_postTestLoop]
    exact hlist.commentTexts_eq hl hf he (Forest.emits_of_stmt h) hbody
  | .counted h hb =>
    have hbody := hb.commentTexts_eq hl hf he (h.hasList.inStatements hl hf)
    rw [commentTextsAll_behind h.isPlain, commentTextsAll_singleton, commentTexts_countedLoop]
    exact h.hasList.commentTexts_eq hl hf he h.emits hbody
  | .element h hb =>
    have hbody := hb.commentTexts_eq hl hf he (h.hasList.inStatements hl hf)
    rw [commentTextsAll_behind h.isPlain, commentTextsAll_singleton, commentTexts_elementLoop]
    exact h.hasList.commentTexts_eq hl hf he h.emits hbody
  | @Lowers.within _ _ _ _ _ _ _ _ subject _ h hk hs hb =>
    have hin := Forest.inStatements_of_list hl hf h List.mem_cons_self
    have hl' : (env.within subject).forest.Linked := hl
    have hf' : (env.within subject).forest.Shaped := hf
    have hbody := hb.commentTexts_eq hl' hf' he hin
    rw [gather_of_emits hl hf he h (Forest.emits_of_stmt h), hbody]
    simp [Stmt.lists, Stmt.last?, Env.within]
  | .ifBlock h hc hthen helseIfs helse =>
    have hin := Forest.inStatements_of_list hl hf h List.mem_cons_self
    have hthen := hthen.commentTexts_eq hl hf he hin
    have helseIfs := helseIfs.commentTexts_eq hl hf he
    have helse := helse.commentTexts_eq hl hf he
    rw [gather_of_emits hl hf he h (Forest.emits_of_stmt h), commentTextsAll_singleton,
      commentTexts, commentTextsAll_chain, hthen, helseIfs, helse]
    simp [Stmt.lists, Stmt.last?]
  | .lineIf h hc hthen helse =>
    have hin := Forest.inStatements_of_list hl hf h List.mem_cons_self
    have hin' := Forest.inStatements_of_list hl hf h (List.mem_cons_of_mem _ List.mem_cons_self)
    have hthen := hthen.commentTexts_eq hl hf he hin
    have helse := helse.commentTexts_eq hl hf he hin'
    rw [gather_of_emits hl hf he h (Forest.emits_of_stmt h), commentTextsAll_singleton,
      commentTexts, hthen, helse]
    simp [Stmt.lists, Stmt.last?]
  | .select h hs hcases helse =>
    have hcases := hcases.commentTexts_eq hl hf he
    have helse := helse.commentTexts_eq hl hf he
    rw [gather_of_emits hl hf he h (Forest.emits_of_stmt h),
      commentTextsAll_behind (isPlain_lowerSelector hs), commentTextsAll_chain, hcases, helse]
    simp [Stmt.lists, Stmt.last?]

/-- The comments of a lowered list are those that its statements emit, in the order of the
source. -/
theorem LowersAll.commentTexts_eq {routine : Routine} {env : Env} {ids : List Nat}
    {s t : BodyState} {out : List Target.Stmt} (h : LowersAll routine env ids s out t)
    (hl : env.forest.Linked) (hf : env.forest.Shaped) (he : env.emitComments = true)
    (hin : ∀ x ∈ ids, env.forest.inStatements x = true) :
    commentTextsAll out = ids.flatMap (env.forest.gather env.forest.emittedAt) := by
  match h with
  | .nil => rfl
  | .cons h hs =>
    obtain ⟨hfirst, hrest⟩ := List.forall_mem_cons.1 hin
    have hhead := h.commentTexts_eq hl hf he hfirst
    have htail := hs.commentTexts_eq hl hf he hrest
    rw [commentTextsAll_append, commentTextsAll_append, commentTextsAll_comments, hhead, htail,
      List.flatMap_cons]

/-- The blocks of a chain keep the comments inside them and lose their own. -/
theorem LowersBranches.commentTexts_eq {routine : Routine} {env : Env}
    {value : Option Target.Expr} {ids : List Nat} {s t : BodyState} {branches : List Branch}
    (h : LowersBranches routine env value ids s branches t) (hl : env.forest.Linked)
    (hf : env.forest.Shaped) (he : env.emitComments = true) :
    branches.flatMap (fun branch => commentTextsAll branch.2) =
      ids.flatMap (env.forest.gather env.forest.emittedAt) := by
  match h with
  | .nil => rfl
  | .cons h hb hs =>
    have hbody := hb.commentTexts_eq hl hf he (h.hasList.inStatements hl hf)
    have htail := hs.commentTexts_eq hl hf he
    rw [List.flatMap_cons, List.flatMap_cons, htail, hbody, h.hasList.gather_emittedAt hl hf,
      Forest.emittedAt_eq_nil h.not_emits, List.nil_append]

theorem LowersElse.commentTexts_eq {routine : Routine} {env : Env} {block : Option Nat}
    {s t : BodyState} {out : List Target.Stmt} (h : LowersElse routine env block s out t)
    (hl : env.forest.Linked) (hf : env.forest.Shaped) (he : env.emitComments = true) :
    commentTextsAll out = block.toList.flatMap (env.forest.gather env.forest.emittedAt) := by
  match h with
  | .none => rfl
  | .some h hb =>
    have hin := Forest.inStatements_of_list hl hf h List.mem_cons_self
    have hbody := hb.commentTexts_eq hl hf he hin
    rw [Option.toList_some, List.flatMap_singleton, (scattered_emittedAt hl hf).gather_stmt hf h,
      Forest.emittedAt_eq_nil (Forest.emits_of_stmt h), hbody]
    simp [Stmt.lists, Stmt.last?]

end

end StructuredBasic.Lowering
