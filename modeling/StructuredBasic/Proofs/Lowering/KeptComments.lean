import Mathlib.Data.List.Perm.Basic
import StructuredBasic.Proofs.Lowering.EmittedComments
import StructuredBasic.Proofs.Lowering.Enclosing
import StructuredBasic.Proofs.Lowering.Independence

/-!
# The comments of a lowered file

Lowering does not keep every comment. It keeps those of the nodes that emit theirs, unless the node
stands in an accessor that a later one of its kind replaces (`Forest.keeps`); the comments of a
lowered file are these and no others, and no comment is lost exactly when every node with comments
is such a node (`comments_kept`). The comment of an `Else` block is lost (`elseComment_lost`).
-/

set_option autoImplicit false

namespace StructuredBasic.Syntax

def Kind.isAccessor : Kind → Bool
  | .getAccessorDeclaration | .setAccessorDeclaration => true
  | _ => false

def Decl.isAccessor : Decl → Bool
  | .accessor .. => true
  | _ => false

theorem Kind.isAccessor_of_describes {d : Decl} {kind : Kind} (h : d.describes kind = true) :
    kind.isAccessor = d.isAccessor := by
  have hall : d.kinds.all (fun k => k.isAccessor == d.isAccessor) = true := by
    cases d <;> rfl
  simpa using Decl.of_kinds h hall

namespace Forest

variable (f : Forest)

/-! ## Nodes that keep their comments -/

/-- The last node of a kind. -/
def lastOf? (ids : List Nat) (kind : Kind) : Option Nat :=
  (ids.filter fun id => f.kind id == kind).getLast?

/-- Whether an accessor stands in front of another one of its kind. -/
def isReplaced (id : Nat) : Bool :=
  (f.kind id).isAccessor && f.lastOf? (f.elements (f.parent? id)) (f.kind id) != some id

/-- Whether a node is a statement of an accessor that another one replaces. -/
def isDropped (id : Nat) : Bool :=
  (f.stmt? id).isSome && (f.enclosing? id Lowering.Env.isRoutine).any f.isReplaced

/-- Whether the comments of a node are in what the file becomes. -/
def keeps (id : Nat) : Bool := f.emits id && !f.isDropped id

/-- The texts of the comments that a node keeps. -/
def keptAt (id : Nat) : List String := if f.keeps id then f.commentTexts id else []

variable {f} {id : Nat}

theorem keptAt_eq_nil (h : f.keeps id = false) : f.keptAt id = [] := by
  rw [keptAt, h]
  rfl

theorem keptAt_of_not_emits (h : f.emits id = false) : f.keptAt id = [] :=
  keptAt_eq_nil (by rw [keeps, h]; rfl)

theorem keptAt_eq (h : f.isDropped id = false) : f.keptAt id = f.emittedAt id := by
  rw [keptAt, keeps, h, Bool.not_false, Bool.and_true]
  rfl

/-- Declarations are not dropped. -/
theorem keptAt_of_decl {d : Decl} (h : f.decl? id = some d) : f.keptAt id = f.emittedAt id := by
  refine keptAt_eq ?_
  have hstmt : f.stmt? id = none := by simp only [stmt?, payload?_of_decl? h]
  rw [isDropped, hstmt]
  rfl

theorem scattered_keptAt (hl : Linked f) (hf : Shaped f) : Scattered f f.keptAt := by
  refine scattered_of_emits hl hf fun d hd => ?_
  by_contra h
  exact hd (keptAt_of_not_emits (Bool.not_eq_true _ ▸ h))

theorem gather_keptAt_decl (hl : Linked f) (hf : Shaped f) {d : Decl} (h : f.decl? id = some d) :
    f.gather f.keptAt id = f.emittedAt id ++ (f.elements d.list?).flatMap (f.gather f.keptAt) := by
  rw [(scattered_keptAt hl hf).gather_decl hf h, keptAt_of_decl h]

/-- Nothing is kept of a declaration that emits nothing, unless others stand in it. -/
theorem gather_keptAt_eq_nil (hl : Linked f) (hf : Shaped f) {d : Decl} (h : f.decl? id = some d)
    (he : f.emitsDecl d = false) (hlist : ∀ x ∈ f.elements d.list?, f.gather f.keptAt x = []) :
    f.gather f.keptAt id = [] := by
  rw [gather_keptAt_decl hl hf h, emittedAt_eq_nil ((emits_of_decl h).trans he),
    List.flatMap_eq_nil_iff.2 hlist]
  rfl

theorem gather_keptAt_leaf (hl : Linked f) (hf : Shaped f) {d : Decl} (h : f.decl? id = some d)
    (he : f.emitsDecl d = false) (hd : d.list? = none) : f.gather f.keptAt id = [] := by
  refine gather_keptAt_eq_nil hl hf h he ?_
  rw [hd]
  exact fun _ hx => nomatch hx

/-! ## The last of a kind -/

theorem lastOf?_cons (x : Nat) (ids : List Nat) (kind : Kind) :
    f.lastOf? (x :: ids) kind =
      if f.kind x = kind then some ((f.lastOf? ids kind).getD x) else f.lastOf? ids kind := by
  rw [lastOf?, List.filter_cons]
  by_cases hk : f.kind x = kind
  · rw [if_pos (beq_iff_eq.2 hk), if_pos hk, List.getLast?_cons]
    rfl
  · rw [if_neg (by simpa using hk), if_neg hk]
    rfl

theorem lastOf?_eq_some {ids : List Nat} {kind : Kind} (h : f.lastOf? ids kind = some id) :
    id ∈ ids ∧ f.kind id = kind := by
  have hmem := List.mem_of_getLast? h
  rw [List.mem_filter] at hmem
  exact ⟨hmem.1, eq_of_beq hmem.2⟩

theorem Linked.nodup_elements (hl : Linked f) (list : Option Nat) : (f.elements list).Nodup := by
  cases list with
  | none => exact List.nodup_nil
  | some c =>
    cases hvalue : f.collection? c with
    | none => simp [elements, hvalue]
    | some value =>
      obtain ⟨n, hn, hp⟩ := Option.map_eq_some_iff.1 (payload?_of_collection? hvalue)
      have hchildren : f.children c = value.present ++ n.comments := by
        rw [children, hn]
        simp only [Node.children, hp, Payload.slots, List.map_map]
        exact congrArg (· ++ n.comments) (List.map_id _)
      have hnodup := hl.nodup c
      rw [hchildren] at hnodup
      rw [elements, Option.bind_some, hvalue]
      exact (List.nodup_append.1 hnodup).1

/-- Gathering from one node of a list alone. -/
theorem flatMap_single {α : Type} {l : List Nat} (hl : l.Nodup) {one : Option Nat}
    (hone : ∀ x, one = some x → x ∈ l) (g : Nat → List α) :
    (l.flatMap fun x => if one = some x then g x else []) = one.toList.flatMap g := by
  cases one with
  | none => exact List.flatMap_eq_nil_iff.2 fun _ _ => rfl
  | some y =>
    rw [Option.toList_some, List.flatMap_singleton]
    obtain ⟨before, after, rfl⟩ := List.append_of_mem (hone y rfl)
    rw [List.nodup_append] at hl
    obtain ⟨-, hafter, hapart⟩ := hl
    have hfront : (before.flatMap fun x => if some y = some x then g x else []) = [] := by
      refine List.flatMap_eq_nil_iff.2 fun x hx => if_neg fun h => ?_
      cases h
      exact hapart y hx y List.mem_cons_self rfl
    have hback : (after.flatMap fun x => if some y = some x then g x else []) = [] := by
      refine List.flatMap_eq_nil_iff.2 fun x hx => if_neg fun h => ?_
      cases h
      exact (List.nodup_cons.1 hafter).1 hx
    rw [List.flatMap_append, List.flatMap_cons, hfront, hback, if_pos rfl, List.append_nil,
      List.nil_append]

end Forest

/-- The comments attached to the nodes of a tree. -/
def Tree.attached (tree : Tree) : List Nat := (tree.descendants tree.root).flatMap tree.comments

end StructuredBasic.Syntax

namespace StructuredBasic.Lowering

open Syntax
open Target.Stmt (commentTextsAll)

theorem Result.exists_of_foldlM_ok {α β : Type} {g : β → α → Result β} {l : List α} {b c : β}
    (h : l.foldlM g b = .ok c) : ∀ x ∈ l, ∃ b c, g b x = .ok c := by
  induction l generalizing b with
  | nil => exact fun _ hx => nomatch hx
  | cons x l ih =>
    rw [List.foldlM_cons, bind_ok] at h
    obtain ⟨next, hnext, h⟩ := h
    exact List.forall_mem_cons.2 ⟨⟨b, next, hnext⟩, ih h⟩

/-! ## Routines -/

section Routines

variable {env : Env} {node : Nat} {statements : Option Nat} (hl : env.forest.Linked)
  (hf : env.forest.Shaped)
include hl hf

/-- The comments of a body are those that its statements emit. -/
theorem commentTexts_of_lowerRoutine (he : env.emitComments = true)
    (hs : HoldsStatements env.forest node statements) {name : String} {type : Target.Ty}
    {body : List Target.Stmt} (h : env.lowerRoutine node name type statements = .ok body) :
    env.forest.emittedAt node ++ commentTextsAll body =
      env.forest.gather env.forest.emittedAt node := by
  obtain ⟨out, state, hout, rfl⟩ := lowerRoutine_ok h
  have hin : ∀ x ∈ env.forest.elements statements, env.forest.inStatements x = true := by
    intro x hx
    cases hlist : statements with
    | none =>
      rw [hlist] at hx
      cases hx
    | some c =>
      rw [hlist] at hx
      exact Forest.inStatements_of_element hl hf ((hs.list hf).1 c hlist).2 hx
  rw [commentTextsAll_withShadow, (lowersAll_of_lowerBody hout).commentTexts_eq hl hf he hin]
  cases hs with
  | method h => exact ((scattered_emittedAt hl hf).gather_decl hf h).symm
  | accessor h => exact ((scattered_emittedAt hl hf).gather_decl hf h).symm

theorem gather_of_kept (hs : HoldsStatements env.forest node statements)
    (hr : env.forest.isReplaced node = false) :
    env.forest.gather env.forest.keptAt node = env.forest.gather env.forest.emittedAt node := by
  refine List.flatMap_congr fun d hd => ?_
  by_cases hne : d = node
  · obtain ⟨_, _, decl, hdecl⟩ := hs.list hf
    rw [hne]
    exact Forest.keptAt_of_decl hdecl
  · have hrouting : env.forest.enclosing? d Env.isRoutine = some node :=
      (inside_of_mem hl hf hs hd hne).2
    refine Forest.keptAt_eq ?_
    rw [Forest.isDropped, hrouting, Option.any_some, hr, Bool.and_false]

/-- Of an accessor that another one replaces nothing is kept. -/
theorem gather_of_replaced (hs : HoldsStatements env.forest node statements)
    (hn : env.forest.emits node = false) (hr : env.forest.isReplaced node = true) :
    env.forest.gather env.forest.keptAt node = [] := by
  refine Forest.gather_eq_nil fun d hd => ?_
  by_cases hne : d = node
  · rw [hne]
    exact Forest.keptAt_of_not_emits hn
  obtain ⟨hinside, hrouting⟩ := inside_of_mem hl hf hs hd hne
  cases hemits : env.forest.emits d with
  | false => exact Forest.keptAt_of_not_emits hemits
  | true =>
    refine Forest.keptAt_eq_nil ?_
    have hstmt : (env.forest.stmt? d).isSome = true := by
      rcases Forest.emits_cases hemits with ⟨s, hs⟩ | ⟨decl, hdecl⟩
      · rw [hs]
        rfl
      · -- no declaration stands in a routine but the line that closes it
        rw [Forest.emits_of_decl hdecl] at hemits
        have hnot := hf.not_inert_of_emitsDecl hdecl hemits
        have hfamily := hf.family_eq (Forest.payload?_of_decl? hdecl)
        rcases hinside with hi | hk | ⟨s, hs⟩
        · rw [hnot] at hi
          cases hi
        · rw [hk] at hfamily
          cases hfamily
        · rw [hs]
          rfl
    have hreplaced : (env.forest.enclosing? d Env.isRoutine).any env.forest.isReplaced = true := by
      have henclosing : env.forest.enclosing? d Env.isRoutine = some node := hrouting
      rw [henclosing]
      exact hr
    rw [Forest.keeps, Forest.isDropped, hstmt, hreplaced, hemits]
    rfl

end Routines

/-! ## Methods and fields -/

section Members

variable {env : Env} {id : Nat}

theorem commentTexts_of_lowerMethod {header : Header} {signature : Signature}
    {operator : Option Operator} {implements statements tail : Option Nat} {owner : String}
    {inModule : Bool} {method : Target.Method} (hl : env.forest.Linked) (hf : env.forest.Shaped)
    (he : env.emitComments = true)
    (hdecl : env.forest.decl? id =
      some (.method header signature operator implements statements tail))
    (h : env.lowerMethod id header signature statements owner inModule = .ok method) :
    method.commentTexts = env.forest.gather env.forest.keptAt id := by
  simp only [Env.lowerMethod, Result.bind_ok, Result.pure_ok] at h
  obtain ⟨_, _, _, _, _, _, body, hbody, _, _, rfl⟩ := h
  have hs : HoldsStatements env.forest id statements := .method hdecl
  have hkind := Kind.isAccessor_of_describes (hf.describes_decl hdecl)
  have hr : env.forest.isReplaced id = false := by
    rw [Forest.isReplaced, hkind]
    rfl
  rw [gather_of_kept hl hf hs hr, ← commentTexts_of_lowerRoutine hl hf he hs hbody,
    Forest.emittedAt_of_emits (Forest.emits_of_decl hdecl), ← Env.comments_eq he]
  rfl

theorem commentTexts_of_lowerExternal {header : Header} {signature : Signature}
    {entry : Target.Entry} {method : Target.Method}
    (h : env.lowerExternal id header signature entry = .ok method) :
    method.commentTexts = env.comments id := by
  unfold Env.lowerExternal at h
  split at h <;> simp only [Result.bind_ok, Result.pure_ok] at h
  · obtain ⟨_, _, _, _, _, _, rfl⟩ := h
    exact List.append_nil _
  · obtain ⟨_, _, _, _, _, _, rfl⟩ := h
    exact List.append_nil _

theorem comments_commentFirst (comments : List String) {fields : List Target.Field}
    (h : ∀ field ∈ fields, field.comments = []) :
    (Env.commentFirst comments fields).flatMap Target.Field.comments =
      if fields.isEmpty then [] else comments := by
  cases fields with
  | nil => rfl
  | cons field fields =>
    have hrest : fields.flatMap Target.Field.comments = [] :=
      List.flatMap_eq_nil_iff.2 fun x hx => h x (List.mem_cons_of_mem _ hx)
    rw [Env.commentFirst, List.flatMap_cons, hrest, List.append_nil]
    rfl

theorem comments_lowerField {modifiers : List Modifier} {inModule : Bool} {declarator : Nat}
    {v : DeclaredVariable} {field : Target.Field}
    (h : env.lowerField modifiers inModule declarator v = .ok field) : field.comments = [] := by
  unfold Env.lowerField at h
  split at h
  · exact absurd h unsupported_ne_ok
  · cases h
    rfl

theorem isEmpty_declaredVariables {declarator : Nat} {vs : List DeclaredVariable}
    (h : env.declaredVariables declarator = .ok vs) : vs.isEmpty =
      !((env.forest.declarator? declarator).any fun d =>
        !(env.forest.elements (some d.names)).isEmpty) := by
  unfold Env.declaredVariables at h
  split at h
  · next d hd =>
    have hlength := Result.length_of_mapM_ok h
    rw [hd, Option.any_some, Bool.not_not]
    cases vs <;> cases hnames : env.forest.elements (some d.names) <;> first
      | rfl
      | (rw [hnames] at hlength; cases hlength)
  · exact absurd h unsupported_ne_ok

/-- A list of fields keeps its comments if it names a field. -/
theorem comments_of_lowerFields {header : Header} {declarators : Nat} {inModule : Bool}
    {fields : List Target.Field} (h : env.lowerFields id header declarators inModule = .ok fields) :
    fields.flatMap Target.Field.comments =
      if env.forest.namesVariables declarators then env.comments id else [] := by
  simp only [Env.lowerFields, Result.bind_ok, Result.pure_ok] at h
  obtain ⟨lists, hlists, rfl⟩ := h
  have hnone : ∀ field ∈ lists.flatten, field.comments = [] := by
    rw [List.forall_mem_flatten]
    refine Result.forall_mapM_ok (fun declarator _ fields hfields => ?_) hlists
    rw [Result.bind_ok] at hfields
    obtain ⟨_, _, hfields⟩ := hfields
    exact Result.forall_mapM_ok (fun _ _ _ h => comments_lowerField h) hfields
  have hempty : lists.flatten.isEmpty = !env.forest.namesVariables declarators := by
    refine Result.mapM_ok (R := fun ids lists => lists.flatten.isEmpty = !(ids.any fun declarator =>
      (env.forest.declarator? declarator).any fun d =>
        !(env.forest.elements (some d.names)).isEmpty)) rfl ?_ _ hlists
    intro declarator ids fields lists hfields ih
    rw [Result.bind_ok] at hfields
    obtain ⟨vs, hvs, hfields⟩ := hfields
    have hlength := Result.length_of_mapM_ok hfields
    have hsame : fields.isEmpty = vs.isEmpty := by
      cases vs <;> cases fields <;> first
        | rfl
        | cases hlength
    rw [List.any_cons, Bool.not_or, ← isEmpty_declaredVariables hvs, ← ih, ← hsame,
      List.flatten_cons]
    cases fields <;> rfl
  rw [comments_commentFirst _ hnone, hempty]
  cases env.forest.namesVariables declarators <;> rfl

end Members

/-! ## Properties -/

/-- The comments of an accessor of a property. -/
def accessorTexts (property : Target.Property) : Kind → List String
  | .getAccessorDeclaration => property.getter.elim [] commentTextsAll
  | .setAccessorDeclaration => property.setter.elim [] commentTextsAll
  | _ => []

section Properties

variable {env : Env} {id : Nat}

/-- An accessor gives the property its comments in place of those of its kind so far. Anything else
among the accessors changes nothing and keeps no comments. -/
theorem addAccessor_texts (hl : env.forest.Linked) (hf : env.forest.Shaped)
    (he : env.emitComments = true) {p q : Target.Property} (h : env.addAccessor p id = .ok q) :
    ((∃ header parameters statements tail,
        env.forest.decl? id = some (.accessor header parameters statements tail)) ∧
      q.comments = p.comments ∧ ∀ kind, accessorTexts q kind =
        if env.forest.kind id = kind then env.forest.gather env.forest.emittedAt id
        else accessorTexts p kind) ∨
    (q = p ∧ (env.forest.kind id).isAccessor = false ∧
      env.forest.gather env.forest.keptAt id = []) := by
  unfold Env.addAccessor at h
  split at h
  case h_1 header parameters statements tail hdecl =>
    refine Or.inl ⟨⟨_, _, _, _, hdecl⟩, ?_⟩
    have htexts : ∀ {name type body}, env.lowerRoutine id name type statements = .ok body →
        commentTextsAll body = env.forest.gather env.forest.emittedAt id := by
      intro name type body hbody
      rw [← commentTexts_of_lowerRoutine hl hf he (.accessor hdecl) hbody,
        Forest.emittedAt_eq_nil (Forest.emits_of_decl hdecl), List.nil_append]
    split at h
    · next hk =>
      simp only [Result.bind_ok, Result.pure_ok] at h
      obtain ⟨body, hbody, rfl⟩ := h
      refine ⟨rfl, fun kind => ?_⟩
      rw [hk, ← htexts hbody]
      cases kind <;> rfl
    · next hk =>
      simp only [Result.bind_ok, Result.pure_ok] at h
      obtain ⟨_, _, body, hbody, rfl⟩ := h
      refine ⟨rfl, fun kind => ?_⟩
      rw [(kind_of_accessor hf hdecl).resolve_left hk, ← htexts hbody]
      cases kind <;> rfl
  case h_2 hdecl =>
    cases h
    exact Or.inr ⟨rfl, Kind.isAccessor_of_describes (hf.describes_decl hdecl),
      Forest.gather_keptAt_leaf hl hf hdecl rfl rfl⟩
  case h_3 hdecl =>
    cases h
    exact Or.inr ⟨rfl, Kind.isAccessor_of_describes (hf.describes_decl hdecl),
      Forest.gather_keptAt_leaf hl hf hdecl rfl rfl⟩
  case h_4 => exact absurd h unsupported_ne_ok

/-- Of the accessors of a kind the last one gives the property its comments. -/
theorem accessorTexts_of_foldlM (hl : env.forest.Linked) (hf : env.forest.Shaped)
    (he : env.emitComments = true) {ids : List Nat} {p q : Target.Property}
    (h : ids.foldlM env.addAccessor p = .ok q) :
    q.comments = p.comments ∧ ∀ kind, kind.isAccessor = true → accessorTexts q kind =
      (env.forest.lastOf? ids kind).elim (accessorTexts p kind)
        (env.forest.gather env.forest.emittedAt) := by
  induction ids generalizing p with
  | nil =>
    rw [List.foldlM_nil, Result.pure_ok] at h
    rw [h]
    exact ⟨rfl, fun _ _ => rfl⟩
  | cons x ids ih =>
    rw [List.foldlM_cons, Result.bind_ok] at h
    obtain ⟨next, hnext, h⟩ := h
    obtain ⟨hcomments, htexts⟩ := ih h
    rcases addAccessor_texts hl hf he hnext with ⟨_, hsame, hadded⟩ | ⟨rfl, hother, _⟩
    · refine ⟨hcomments.trans hsame, fun kind ha => ?_⟩
      rw [htexts kind ha, hadded, Forest.lastOf?_cons]
      by_cases hk : env.forest.kind x = kind
      · rw [if_pos hk, if_pos hk]
        cases env.forest.lastOf? ids kind <;> rfl
      · rw [if_neg hk, if_neg hk]
    · refine ⟨hcomments, fun kind ha => ?_⟩
      have hk : env.forest.kind x ≠ kind := by
        rintro rfl
        rw [hother] at ha
        cases ha
      rw [htexts kind ha, Forest.lastOf?_cons, if_neg hk]

/-- What the accessors of a property keep is what the last getter and the last setter emit. -/
theorem gather_accessor (hl : env.forest.Linked) (hf : env.forest.Shaped)
    (he : env.emitComments = true) {c : Nat} {p q : Target.Property}
    (hid : id ∈ env.forest.elements (some c)) (h : env.addAccessor p id = .ok q) :
    env.forest.gather env.forest.keptAt id =
      (if env.forest.lastOf? (env.forest.elements (some c)) .getAccessorDeclaration = some id then
        env.forest.gather env.forest.emittedAt id else []) ++
      (if env.forest.lastOf? (env.forest.elements (some c)) .setAccessorDeclaration = some id then
        env.forest.gather env.forest.emittedAt id else []) := by
  have hnot : ∀ kind, env.forest.kind id ≠ kind →
      env.forest.lastOf? (env.forest.elements (some c)) kind ≠ some id :=
    fun kind hk h => hk (Forest.lastOf?_eq_some h).2
  rcases addAccessor_texts hl hf he h with ⟨⟨_, _, _, _, hdecl⟩, _⟩ | ⟨_, hother, hnil⟩
  · have hs : HoldsStatements env.forest id _ := .accessor hdecl
    have hparent : env.forest.parent? id = some c :=
      (hl.mem_children_iff c id).1 (Forest.mem_children_of_elements hid)
    have hreplaced : (env.forest.kind id).isAccessor = true → env.forest.isReplaced id =
        (env.forest.lastOf? (env.forest.elements (some c)) (env.forest.kind id) != some id) := by
      intro ha
      rw [Forest.isReplaced, ha, hparent, Bool.true_and]
    have hgather : (env.forest.kind id).isAccessor = true →
        env.forest.gather env.forest.keptAt id =
          if env.forest.lastOf? (env.forest.elements (some c)) (env.forest.kind id) = some id then
            env.forest.gather env.forest.emittedAt id else [] := by
      intro ha
      split
      · next hlast =>
        exact gather_of_kept hl hf hs (by rw [hreplaced ha, hlast, bne_self_eq_false])
      · next hlast =>
        exact gather_of_replaced hl hf hs (Forest.emits_of_decl hdecl)
          (by rw [hreplaced ha, bne_iff_ne]; exact hlast)
    rcases kind_of_accessor hf hdecl with hk | hk
    · have hset := hnot .setAccessorDeclaration (by rw [hk]; decide)
      rw [hgather (by rw [hk]; rfl), hk, if_neg hset, List.append_nil]
    · have hget := hnot .getAccessorDeclaration (by rw [hk]; decide)
      rw [hgather (by rw [hk]; rfl), hk, if_neg hget, List.nil_append]
  · have hapart : ∀ kind, kind.isAccessor = true → env.forest.kind id ≠ kind := by
      rintro kind ha rfl
      rw [hother] at ha
      cases ha
    rw [hnil, if_neg (hnot _ (hapart _ rfl)), if_neg (hnot _ (hapart _ rfl))]
    rfl

/-- The comments of a property are its own and those of the accessors that stay. A setter in front
of the getter makes the order differ from that of the source. -/
theorem commentTexts_of_lowerProperty (hl : env.forest.Linked) (hf : env.forest.Shaped)
    (he : env.emitComments = true) {header : Header} {signature : Signature}
    {implements accessors tail : Option Nat} {inModule : Bool} {property : Target.Property}
    (hdecl : env.forest.decl? id = some (.property header signature implements accessors tail))
    (h : env.lowerProperty id header signature accessors inModule = .ok property) :
    property.commentTexts.Perm (env.forest.gather env.forest.keptAt id) := by
  simp only [Env.lowerProperty, Result.bind_ok] at h
  obtain ⟨_, _, _, _, _, _, h⟩ := h
  obtain ⟨hcomments, htexts⟩ := accessorTexts_of_foldlM hl hf he h
  have hparts : property.commentTexts = env.comments id ++
      (accessorTexts property .getAccessorDeclaration ++
        accessorTexts property .setAccessorDeclaration) := by
    rw [Target.Property.commentTexts, hcomments, List.append_assoc]
    rfl
  rw [hparts, Forest.gather_keptAt_decl hl hf hdecl,
    Forest.emittedAt_of_emits (Forest.emits_of_decl hdecl), ← Env.comments_eq he]
  refine List.Perm.append_left _ ?_
  have hlast : ∀ {kind : Kind}, kind.isAccessor = true → accessorTexts property kind =
      (env.forest.elements accessors).flatMap fun x =>
        if env.forest.lastOf? (env.forest.elements accessors) kind = some x then
          env.forest.gather env.forest.emittedAt x else [] := by
    intro kind ha
    rw [htexts kind ha, Forest.flatMap_single (hl.nodup_elements accessors)
      fun x hx => (Forest.lastOf?_eq_some hx).1]
    cases env.forest.lastOf? (env.forest.elements accessors) kind with
    | none => cases kind <;> rfl
    | some x => rw [Option.elim_some, Option.toList_some, List.flatMap_singleton]
  rw [hlast rfl, hlast rfl]
  refine (List.flatMap_append_perm _ _ _).trans (List.Perm.of_eq ?_)
  refine List.flatMap_congr fun x hx => ?_
  cases accessors with
  | none => cases hx
  | some c =>
    obtain ⟨p, q, hadd⟩ := Result.exists_of_foldlM_ok h x hx
    exact (gather_accessor hl hf he hx hadd).symm

end Properties

/-! ## Enumerations and types -/

section Enumerations

variable {env : Env} {id : Nat}

theorem not_kept_of_lowerEnumMember (hl : env.forest.Linked) (hf : env.forest.Shaped)
    {member : Option Target.EnumMember} (h : env.lowerEnumMember id = .ok member) :
    env.forest.gather env.forest.keptAt id = [] := by
  unfold Env.lowerEnumMember at h
  split at h
  case h_1 hdecl => exact Forest.gather_keptAt_leaf hl hf hdecl rfl rfl
  case h_2 hdecl => exact Forest.gather_keptAt_leaf hl hf hdecl rfl rfl
  case h_3 hdecl => exact Forest.gather_keptAt_leaf hl hf hdecl rfl rfl
  case h_4 => exact absurd h unsupported_ne_ok

/-- An enumeration has no room for comments. -/
theorem not_kept_of_lowerEnum (hl : env.forest.Linked) (hf : env.forest.Shaped) {header : Header}
    {name : Nat} {underlying members tail : Option Nat} {enumeration : Target.Enumeration}
    (hdecl : env.forest.decl? id = some (.enumBlock header name underlying members tail))
    (h : env.lowerEnum header name underlying members = .ok enumeration) :
    env.forest.gather env.forest.keptAt id = [] := by
  simp only [Env.lowerEnum, Result.bind_ok] at h
  obtain ⟨_, _, _, _, lowered, hlowered, _⟩ := h
  refine Forest.gather_keptAt_eq_nil hl hf hdecl rfl fun x hx => ?_
  obtain ⟨member, _, hmember⟩ := Result.exists_of_mapM_ok hlowered x hx
  exact not_kept_of_lowerEnumMember hl hf hmember

end Enumerations

mutual

theorem LowersType.commentTexts_perm {env : Env} {id : Nat} {type : Target.TypeDecl}
    (h : LowersType env id type) (hl : env.forest.Linked) (hf : env.forest.Shaped)
    (he : env.emitComments = true) :
    (Target.TypeDecl.commentTexts type).Perm (env.forest.gather env.forest.keptAt id) := by
  match h with
  | .block hk h hn hp ha =>
    rw [Forest.gather_keptAt_decl hl hf h, Forest.emittedAt_of_emits (Forest.emits_of_decl h),
      ← Env.comments_eq he]
    exact (ha.commentTexts_perm hl hf he).append_left _

theorem LowersAdditions.commentTexts_perm {env : Env} {owner : String} {inModule : Bool}
    {ids : List Nat} {additions : List Env.Addition}
    (h : LowersAdditions env owner inModule ids additions) (hl : env.forest.Linked)
    (hf : env.forest.Shaped) (he : env.emitComments = true) :
    ((Env.memberList additions).flatMap Target.Member.commentTexts).Perm
      (ids.flatMap (env.forest.gather env.forest.keptAt)) := by
  match h with
  | .nil => exact List.Perm.refl _
  | .bases h ht hs =>
    have htail := hs.commentTexts_perm hl hf he
    rw [List.flatMap_cons, Forest.gather_keptAt_leaf hl hf h rfl rfl, List.nil_append]
    exact htail
  | .members h hs =>
    have hhead := h.commentTexts_perm hl hf he
    have htail := hs.commentTexts_perm hl hf he
    rw [Env.memberList, List.flatMap_append, List.flatMap_cons]
    exact hhead.append htail

theorem LowersMembers.commentTexts_perm {env : Env} {owner : String} {inModule : Bool} {id : Nat}
    {members : List Target.Member} (h : LowersMembers env owner inModule id members)
    (hl : env.forest.Linked) (hf : env.forest.Shaped) (he : env.emitComments = true) :
    (members.flatMap Target.Member.commentTexts).Perm
      (env.forest.gather env.forest.keptAt id) := by
  match h with
  | .empty h => rw [Forest.gather_keptAt_leaf hl hf h rfl rfl]; exact List.Perm.refl _
  | .endBlock h => rw [Forest.gather_keptAt_leaf hl hf h rfl rfl]; exact List.Perm.refl _
  | @LowersMembers.fields _ _ _ _ _ declarators fields h hs =>
    have htexts : (fields.map Target.Member.field).flatMap Target.Member.commentTexts =
        fields.flatMap Target.Field.comments := List.flatMap_map ..
    have hgather : env.forest.gather env.forest.keptAt id =
        if env.forest.namesVariables declarators then env.comments id else [] := by
      rw [Forest.gather_keptAt_decl hl hf h, Env.comments_eq he, Forest.emittedAt,
        Forest.emits_of_decl h]
      exact List.append_nil _
    rw [htexts, comments_of_lowerFields hs, hgather]
  | .method h hs =>
    rw [List.flatMap_singleton, Target.Member.commentTexts,
      commentTexts_of_lowerMethod hl hf he h hs]
  | .external h hs =>
    rw [List.flatMap_singleton, Target.Member.commentTexts, commentTexts_of_lowerExternal hs,
      Forest.gather_keptAt_decl hl hf h, Forest.emittedAt_of_emits (Forest.emits_of_decl h),
      Env.comments_eq he]
    exact List.Perm.of_eq (List.append_nil _).symm
  | .property h hs =>
    rw [List.flatMap_singleton, Target.Member.commentTexts]
    exact commentTexts_of_lowerProperty hl hf he h hs
  | .enumeration h hs =>
    rw [not_kept_of_lowerEnum hl hf h hs]
    exact List.Perm.refl _
  | .type h =>
    rw [List.flatMap_singleton, Target.Member.commentTexts_type]
    exact h.commentTexts_perm hl hf he

end

/-! ## Files -/

section Files

variable {forest : Forest} {settings : Settings} {declarations : List Nat}

theorem not_kept_of_aside (hl : forest.Linked) (hf : forest.Shaped) {id : Nat}
    (h : Aside forest id) : forest.gather forest.keptAt id = [] := by
  cases h with
  | directive hdecl => exact Forest.gather_keptAt_leaf hl hf hdecl rfl rfl
  | imports hdecl => exact Forest.gather_keptAt_leaf hl hf hdecl rfl rfl
  | empty hdecl => exact Forest.gather_keptAt_leaf hl hf hdecl rfl rfl
  | endBlock hdecl => exact Forest.gather_keptAt_leaf hl hf hdecl rfl rfl

theorem gather_contents (hl : forest.Linked) (hf : forest.Shaped) (places : List (Nat × Nat)) :
    (contents forest places).flatMap (fun d => forest.gather forest.keptAt d.1) =
      places.flatMap fun d => forest.gather forest.keptAt d.1 := by
  induction places with
  | nil => rfl
  | cons d places ih =>
    rw [contents, List.filter_cons, List.flatMap_cons]
    by_cases hd : Aside forest d.1
    · rw [not_kept_of_aside hl hf hd, if_neg (by simpa using hd)]
      exact ih
    · rw [if_pos (by simpa using hd), List.flatMap_cons]
      exact congrArg (forest.gather forest.keptAt d.1 ++ ·) ih

theorem commentTexts_of_lowerApart (hl : forest.Linked) (hf : forest.Shaped)
    (hemit : settings.emitComments = true) {type : Target.TypeDecl}
    (h : lowerApart forest settings declarations = .ok type) :
    (Target.TypeDecl.commentTexts type).Perm
      (declarations.flatMap (forest.gather forest.keptAt)) := by
  have hall : declarations.flatMap (forest.gather forest.keptAt) =
      (contents forest declarations.zipIdx).flatMap fun d => forest.gather forest.keptAt d.1 := by
    rw [gather_contents hl hf, ← List.flatMap_map Prod.fst (forest.gather forest.keptAt),
      List.zipIdx_map_fst]
  rw [hall]
  unfold lowerApart at h
  split at h
  · next hsole =>
    rw [(soleBlock?_eq_some.1 hsole).1, List.flatMap_singleton]
    exact (lowersType_of_lowerTypeBlock (fun _ _ _ _ _ => lowersMembers_of_lowerMembers)
      h).commentTexts_perm hl hf hemit
  · simp only [Result.bind_ok, Result.pure_ok] at h
    obtain ⟨parts, hparts, rfl⟩ := h
    refine Result.mapM_ok (R := fun places parts =>
      (parts.flatten.flatMap Target.Member.commentTexts).Perm
        (places.flatMap fun d => forest.gather forest.keptAt d.1)) (List.Perm.refl _) ?_ _ hparts
    intro d places members parts hmembers ih
    rw [List.flatten_cons, List.flatMap_append, List.flatMap_cons]
    exact ((lowersMembers_of_lowerMembers hmembers).commentTexts_perm hl hf hemit).append ih

/-- The comments of a lowered file are those that the nodes of the file keep. -/
theorem commentTexts_of_lowerFile {tree : Tree} {program : Target.Program}
    (hfinished : tree.Finished) (hemit : settings.emitComments = true)
    (h : lowerFile tree settings = .ok program) :
    program.commentTexts.Perm (tree.gather tree.keptAt tree.root) := by
  have hl := hfinished.built.linked
  have hf := hfinished.built.shaped
  unfold lowerFile at h
  split at h
  · cases h
  · split at h
    · next file hfile =>
      have hroot : tree.keptAt tree.root = [] := by
        refine Forest.keptAt_of_not_emits ?_
        rw [Forest.emits, hfile]
      rw [(Forest.scattered_keptAt hl hf).gather_file hf hfile, hroot, List.nil_append]
      exact commentTexts_of_lowerApart hl hf hemit (apart_of_lowerDeclarations h).2
    · cases h

end Files

/-! ## Lost comments -/

/-- No comment of the tree is lost: each has its text in the program, and there are as many texts as
comments. -/
structure KeepsComments (tree : Tree) (program : Target.Program) : Prop where
  texts : ∀ comment ∈ tree.attached,
    ∃ text ∈ program.commentTexts, tree.commentText? comment = some text
  count : program.commentTexts.length = tree.attached.length

section Counts

variable {f : Forest}

theorem exists_commentText (hf : f.Shaped) (hgood : badNode? f = none) {id c : Nat}
    (hc : c ∈ f.comments id) : ∃ text, f.commentText? c = some text := by
  cases hn : f.node? id with
  | none =>
    rw [Forest.comments, hn] at hc
    cases hc
  | some n =>
    rw [Forest.comments, hn] at hc
    have hadmits := hf.comments id n hn c hc
    simp only [Expect.admits, Kind.isBad, Bool.or_eq_true, beq_iff_eq] at hadmits
    have hlt : c < f.size :=
      Nat.lt_trans (f.child_lt id n hn c (List.mem_append_right _ hc))
        (Array.getElem?_eq_some_iff.1 hn).1
    have hk : f.kind c = .comment :=
      (hadmits.resolve_left (badNode?_eq_none hgood c hlt)).symm
    have hne : f.kind c ≠ .syntaxError := by rw [hk]; decide
    obtain ⟨child, hchild, _, hfamily⟩ := hf.exists_node hne
    rw [hk] at hfamily
    have hpayload : f.payload? c = some child.payload := by rw [Forest.payload?, hchild]; rfl
    unfold Forest.commentText?
    rw [hpayload]
    cases hp : child.payload <;> rw [hp] at hfamily <;> first
      | exact ⟨_, rfl⟩
      | cases hfamily

theorem length_commentTexts (hf : f.Shaped) (hgood : badNode? f = none) (id : Nat) :
    (f.commentTexts id).length = (f.comments id).length := by
  rw [Forest.commentTexts, List.length_filterMap_eq_countP, List.countP_eq_length]
  intro c hc
  obtain ⟨text, htext⟩ := exists_commentText hf hgood hc
  rw [htext]
  rfl

theorem length_keptAt_le (hf : f.Shaped) (hgood : badNode? f = none) (id : Nat) :
    (f.keptAt id).length ≤ (f.comments id).length := by
  rw [← length_commentTexts hf hgood, Forest.keptAt]
  split
  · exact Nat.le_refl _
  · exact Nat.zero_le _

theorem length_keptAt_eq_iff (hf : f.Shaped) (hgood : badNode? f = none) {id : Nat} :
    (f.keptAt id).length = (f.comments id).length ↔ (f.comments id ≠ [] → f.keeps id = true) := by
  rw [← length_commentTexts hf hgood, Forest.keptAt]
  cases hkeeps : f.keeps id with
  | true => exact ⟨fun _ _ => rfl, fun _ => rfl⟩
  | false =>
    have hlength := length_commentTexts hf hgood id
    simp only [Bool.false_eq_true, if_false, List.length_nil, imp_false, not_not, hlength,
      eq_comm (a := 0), List.length_eq_zero_iff]

/-- Lists that are shorter one by one have the same length together when each pair has. -/
theorem length_flatMap_eq_iff {α β γ : Type} {g : α → List β} {h : α → List γ} {l : List α}
    (hle : ∀ x ∈ l, (g x).length ≤ (h x).length) :
    (l.flatMap g).length = (l.flatMap h).length ↔ ∀ x ∈ l, (g x).length = (h x).length := by
  have hall : ∀ {l : List α}, (∀ x ∈ l, (g x).length ≤ (h x).length) →
      (l.flatMap g).length ≤ (l.flatMap h).length := by
    intro l
    induction l with
    | nil => exact fun _ => Nat.le_refl _
    | cons x l ih =>
      intro hle
      obtain ⟨hx, hl⟩ := List.forall_mem_cons.1 hle
      rw [List.flatMap_cons, List.flatMap_cons, List.length_append, List.length_append]
      exact Nat.add_le_add hx (ih hl)
  induction l with
  | nil => exact ⟨fun _ _ hx => (nomatch hx), fun _ => rfl⟩
  | cons x l ih =>
    obtain ⟨hx, hl⟩ := List.forall_mem_cons.1 hle
    have hrest := hall hl
    rw [List.flatMap_cons, List.flatMap_cons, List.length_append, List.length_append,
      List.forall_mem_cons]
    constructor
    · intro hsum
      exact ⟨by omega, (ih hl).1 (by omega)⟩
    · rintro ⟨hfirst, hothers⟩
      rw [hfirst, (ih hl).2 hothers]

end Counts

/-- The comments of a lowered file are those that its nodes keep, and none is lost exactly when
every node that has comments keeps them. -/
theorem comments_kept {tree : Tree} {settings : Settings} {program : Target.Program}
    (hfinished : tree.Finished) (hemit : settings.emitComments = true)
    (h : lowerFile tree settings = .ok program) :
    program.commentTexts.Perm (tree.gather tree.keptAt tree.root) ∧
    (KeepsComments tree program ↔
      ∀ id ∈ tree.descendants tree.root, tree.comments id ≠ [] → tree.keeps id = true) := by
  have hf := hfinished.built.shaped
  have hgood := badNode?_of_lowerFile h
  have hperm := commentTexts_of_lowerFile hfinished hemit h
  have hcount : program.commentTexts.length = tree.attached.length ↔
      ∀ id ∈ tree.descendants tree.root, tree.comments id ≠ [] → tree.keeps id = true := by
    rw [hperm.length_eq, Forest.gather, Tree.attached,
      length_flatMap_eq_iff fun id _ => length_keptAt_le hf hgood id]
    exact forall₂_congr fun id _ => length_keptAt_eq_iff hf hgood
  refine ⟨hperm, fun h => hcount.1 h.count, fun hall => ⟨fun c hc => ?_, hcount.2 hall⟩⟩
  obtain ⟨id, hid, hc⟩ := List.mem_flatMap.1 hc
  obtain ⟨text, htext⟩ := exists_commentText hf hgood hc
  have hkept : text ∈ tree.keptAt id := by
    rw [Forest.keptAt, if_pos (hall id hid (List.ne_nil_of_mem hc))]
    exact List.mem_filterMap.2 ⟨c, hc, htext⟩
  exact ⟨text, hperm.mem_iff.2 (Forest.mem_gather.2 ⟨id, hid, hkept⟩), htext⟩

/-- A property with a setter in front of its getter, and comments on the property and in both. -/
def commentedProperty : List Call :=
  let span := Span.startingAt ⟨1, 1⟩
  [.alloc .simpleName span (.name (.simple "Total" none false)),
    .comment span "read" false,
    .alloc .booleanLiteralExpression span (.expr (.literal (.boolean true))),
    .allocWithComments .returnStatement span (.stmt (.returnValue (some 2))) [1],
    .collection .statementCollection span [some 3] [],
    .alloc .getAccessorDeclaration span (.decl (.accessor ⟨none, none⟩ none (some 4) none)),
    .comment span "write" false,
    .allocWithComments .emptyStatement span (.stmt .empty) [6],
    .collection .statementCollection span [some 7] [],
    .alloc .setAccessorDeclaration span (.decl (.accessor ⟨none, none⟩ none (some 8) none)),
    .collection .declarationCollection span [some 9, some 5] [],
    .comment span "total" false,
    .allocWithComments .propertyDeclaration span
      (.decl (.property ⟨none, none⟩ (.ofName 0) none (some 10) none)) [11],
    .collection .declarationCollection span [some 12] [],
    .alloc .file span (.file ⟨some 13⟩)]

theorem commentedProperty_kept : (Tree.ofCalls commentedProperty 14).Finished ∧
    Settings.standard.emitComments = true ∧
    ∃ program, lowerFile (.ofCalls commentedProperty 14) .standard = .ok program ∧
      program.commentTexts.Perm ["total", "write", "read"] ∧
      KeepsComments (.ofCalls commentedProperty 14) program := by
  have hlowers : (lowerFile (.ofCalls commentedProperty 14) .standard).isOk = true := by
    decide +kernel
  obtain ⟨program, h⟩ := Result.exists_of_isOk hlowers
  have hfinished : (Tree.ofCalls commentedProperty 14).Finished :=
    Tree.finished_ofCalls (by decide +kernel)
  have htexts : (Tree.ofCalls commentedProperty 14).gather
      (Tree.ofCalls commentedProperty 14).keptAt 14 = ["total", "write", "read"] := by
    decide +kernel
  have hall : ∀ id ∈ (Tree.ofCalls commentedProperty 14).descendants 14,
      (Tree.ofCalls commentedProperty 14).comments id ≠ [] →
      (Tree.ofCalls commentedProperty 14).keeps id = true := by decide +kernel
  obtain ⟨hperm, hkeeps⟩ := comments_kept hfinished rfl h
  rw [← htexts]
  exact ⟨hfinished, rfl, program, h, hperm, hkeeps.2 hall⟩

/-- An `If` whose `Else` line has a comment. -/
def commentedElse : List Call :=
  let span := Span.startingAt ⟨1, 1⟩
  [.alloc .simpleName span (.name (.simple "Main" none false)),
    .alloc .booleanLiteralExpression span (.expr (.literal (.boolean true))),
    .comment span "fallback" false,
    .alloc .returnStatement span (.stmt (.returnValue none)),
    .collection .statementCollection span [some 3] [],
    .allocWithComments .elseBlockStatement span (.stmt (.body (some 4))) [2],
    .alloc .ifBlockStatement span (.stmt (.ifBlock 1 none none (some 5) none)),
    .collection .statementCollection span [some 6] [],
    .alloc .subDeclaration span
      (.decl (.method ⟨none, none⟩ (.ofName 0) none none (some 7) none)),
    .collection .declarationCollection span [some 8] [],
    .alloc .file span (.file ⟨some 9⟩)]

/-- The comment of an `Else` line is lost. -/
theorem elseComment_lost : (Tree.ofCalls commentedElse 10).Finished ∧
    Settings.standard.emitComments = true ∧
    ∃ program, lowerFile (.ofCalls commentedElse 10) .standard = .ok program ∧
      program.commentTexts = [] ∧ ¬ KeepsComments (.ofCalls commentedElse 10) program := by
  have hlowers : (lowerFile (.ofCalls commentedElse 10) .standard).isOk = true := by
    decide +kernel
  obtain ⟨program, h⟩ := Result.exists_of_isOk hlowers
  have hfinished : (Tree.ofCalls commentedElse 10).Finished :=
    Tree.finished_ofCalls (by decide +kernel)
  have htexts : (Tree.ofCalls commentedElse 10).gather
      (Tree.ofCalls commentedElse 10).keptAt 10 = [] := by decide +kernel
  have hattached : (Tree.ofCalls commentedElse 10).attached.length = 1 := by decide +kernel
  have hperm := commentTexts_of_lowerFile hfinished rfl h
  have hnone : program.commentTexts = [] := List.perm_nil.1 (hperm.trans (List.Perm.of_eq htexts))
  refine ⟨hfinished, rfl, program, h, hnone, fun hkeeps => ?_⟩
  have hcount := hkeeps.count
  rw [hnone, hattached] at hcount
  cases hcount

end StructuredBasic.Lowering
