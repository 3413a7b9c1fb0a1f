import Mathlib.Data.List.Perm.Basic
import Mathlib.Data.List.Nodup
import StructuredBasic.Proofs.Lowering.ReturnPoints

/-!
# Labels of a lowered routine

Three kinds of labels share the names of a lowered body: labels as the source spells them, line
numbers with letters in front, and the return points of `GoSub`s. A return point never meets
another one, since a second `GoSub` to a label has no lowering (`LowersAll.visits`). Apart from
that nothing keeps the three apart, and `labels_nodup_iff` says exactly when they are: no label is
spelled like a line number with its letters, and none like a return point.
-/

set_option autoImplicit false

namespace StructuredBasic.Machine

/-- The label that a mark places, if it is no jump. -/
def Mark.placed? : Mark → Option String
  | .label name => some name
  | .jump _ => none

/-- The labels of a body in the order of its text. -/
def labels (body : List Target.Stmt) : List String := (marksAll body).filterMap Mark.placed?

end StructuredBasic.Machine

namespace StructuredBasic.Lowering

open Syntax Machine

/-! ## Labels that `GoSub`s have gone to -/

/-- From one state to the next the lowering has met `GoSub`s to the labels `gone`, in this order,
each for the first time. -/
structure Visits (s : BodyState) (gone : List String) (t : BodyState) : Prop where
  visited : t.visited = gone.reverse ++ s.visited
  nodup : gone.Nodup
  unvisited : ∀ label ∈ gone, label ∉ s.visited

namespace Visits

variable {s u t : BodyState} {a b : List String}

theorem of_eq (h : t.visited = s.visited) : Visits s [] t :=
  ⟨h, List.nodup_nil, fun _ hl => nomatch hl⟩

theorem trans (h1 : Visits s a u) (h2 : Visits u b t) : Visits s (a ++ b) t := by
  have hold : ∀ label ∈ b, label ∉ a ∧ label ∉ s.visited := by
    intro label hl
    have := h2.unvisited label hl
    rw [h1.visited, List.mem_append, List.mem_reverse, not_or] at this
    exact this
  refine ⟨?_, ?_, ?_⟩
  · rw [h2.visited, h1.visited, List.reverse_append, List.append_assoc]
  · refine List.nodup_append.2 ⟨h1.nodup, h2.nodup, ?_⟩
    rintro x hx y hy rfl
    exact (hold x hy).1 hx
  · intro label hl
    rcases List.mem_append.1 hl with hl | hl
    · exact h1.unvisited label hl
    · exact (hold label hl).2

/-- What changes the names in use only comes before a step without being seen. -/
theorem after (h : Visits u a t) (hs : u.visited = s.visited) : Visits s a t :=
  (of_eq hs).trans h

end Visits

section Statements

variable {routine : Routine} {env : Env} {id : Nat} {s t : BodyState}

theorem visited_of_lowerReDim {preserve : Bool} {arrays : Nat} {out : List Target.Stmt}
    (h : env.lowerReDim id preserve arrays s = .ok (out, t)) : t.visited = s.visited := by
  simp only [Env.lowerReDim, Lower.bind_ok, Lower.pure_ok] at h
  obtain ⟨lists, _, h, rfl, rfl⟩ := h
  refine Lower.mapM_ok (R := fun _ s _ t => t.visited = s.visited) (fun _ => rfl) ?_ h
  intro operand _ _ s b u _ t hoperand hrest
  rw [hrest]
  obtain ⟨_, _, _, _, _, _, _, _, _, ⟨_, _, rfl⟩ | ⟨_, _, _, _, _, rfl⟩⟩ :=
    lowerReDimOperand_ok hoperand <;> rfl

theorem visited_of_lowerSelector {expression : Nat} {declared : List Target.Stmt}
    {value : Target.Expr} (h : env.lowerSelector expression s = .ok ((declared, value), t)) :
    t.visited = s.visited := by
  obtain ⟨_, _, ⟨_, _, rfl⟩ | ⟨_, _, rfl⟩⟩ := lowerSelector_ok h <;> rfl

theorem goSubAt_eq_nil {stmt : Stmt} (h : env.forest.stmt? id = some stmt)
    (hs : ∀ name isLine, stmt ≠ .labelReference name isLine) : env.goSubAt id = [] := by
  refine List.eq_nil_iff_forall_not_mem.2 fun label hl => ?_
  obtain ⟨name, isLine, hstmt, _⟩ := mem_goSubAt.1 hl
  exact hs name isLine (Option.some.inj (h.symm.trans hstmt))

theorem goSubAt_of_kind {kind : Kind} (h : env.forest.kind id = kind)
    (hk : kind ≠ .goSubStatement) : env.goSubAt id = [] := by
  refine List.eq_nil_iff_forall_not_mem.2 fun label hl => ?_
  obtain ⟨_, _, _, hkind, _⟩ := mem_goSubAt.1 hl
  exact hk (h.symm.trans hkind)

theorem LowersPlain.visits {out : List Target.Stmt} (h : LowersPlain routine env id s out t)
    (hf : env.forest.Shaped) : Visits s (env.goSubAt id) t := by
  have other : ∀ {stmt : Stmt}, env.forest.stmt? id = some stmt →
      (∀ name isLine, stmt ≠ .labelReference name isLine) → t.visited = s.visited →
      Visits s (env.goSubAt id) t := by
    intro stmt hstmt hne hvisited
    rw [goSubAt_eq_nil hstmt hne]
    exact .of_eq hvisited
  cases h with
  | label h hk =>
    rw [goSubAt_of_kind hk (by decide)]
    exact .of_eq rfl
  | goto h hk =>
    rw [goSubAt_of_kind hk (by decide)]
    exact .of_eq rfl
  | @goSub name isLine h hl hg hfirst =>
    have hk := kind_of_goSub hf h hl hg
    have hgone : env.goSubAt id = [labelName name isLine] := by
      simp only [Env.goSubAt, Env.labelOf?, h, hk, if_true, Option.toList_some]
    rw [hgone]
    refine ⟨rfl, List.nodup_singleton _, ?_⟩
    intro label hlabel
    rw [List.mem_singleton.1 hlabel]
    exact hfirst
  | reDim h hs => exact other h (by rintro _ _ ⟨⟩) (visited_of_lowerReDim hs)
  | _ h => exact other h (by rintro _ _ ⟨⟩) rfl

/-- A statement that holds others goes to no label itself. -/
theorem gather_goSubAt (hf : env.forest.Shaped) {stmt : Stmt}
    (h : env.forest.stmt? id = some stmt) (hl : stmt.lists ≠ []) :
    env.forest.gather env.goSubAt id =
      (stmt.lists.flatMap env.forest.elements).flatMap (env.forest.gather env.goSubAt) ++
        stmt.last?.toList.flatMap (env.forest.gather env.goSubAt) := by
  rw [hf.gather_stmt (sparse_goSubAt env) h, goSubAt_of_lists h hl, List.nil_append]

theorem HasList.gather_goSubAt {statements : Option Nat} (h : HasList env.forest id statements)
    (hf : env.forest.Shaped) : env.forest.gather env.goSubAt id =
      (env.forest.elements statements).flatMap (env.forest.gather env.goSubAt) := by
  obtain ⟨stmt, hstmt, _, hlists, hlast⟩ := h
  rw [Lowering.gather_goSubAt hf hstmt (by simp [hlists]), hlists, hlast]
  simp

end Statements

mutual

theorem Lowers.visits {routine : Routine} {env : Env} {id : Nat} {s t : BodyState}
    {out : List Target.Stmt} (h : Lowers routine env id s out t) (hf : env.forest.Shaped) :
    Visits s (env.forest.gather env.goSubAt id) t := by
  match h with
  | .plain h =>
    have hvisits := h.visits hf
    obtain ⟨stmt, hstmt, _, hlists, hlast⟩ := h.stmt
    rw [hf.gather_stmt (sparse_goSubAt env) hstmt, hlists, hlast]
    simpa using hvisits
  | .preTest h hb =>
    rw [h.hasList.gather_goSubAt hf]
    exact hb.visits hf
  | .postTest h _ hb _ =>
    have hlist : HasList env.forest id _ := ⟨_, h, rfl, rfl, rfl⟩
    rw [hlist.gather_goSubAt hf]
    exact (hb.visits hf).after rfl
  | .counted h hb =>
    rw [h.hasList.gather_goSubAt hf]
    exact hb.visits hf
  | .element h hb =>
    rw [h.hasList.gather_goSubAt hf]
    exact (hb.visits hf).after rfl
  | @Lowers.within _ _ _ _ _ _ statements _ _ _ h _ _ hb =>
    have hbody : Visits s ((env.forest.elements statements).flatMap
        (env.forest.gather env.goSubAt)) t := hb.visits hf
    rw [gather_goSubAt hf h (by simp [Stmt.lists])]
    simpa [Stmt.lists, Stmt.last?] using hbody
  | .ifBlock h _ hthen helseIfs helse =>
    have hall := ((hthen.visits hf).trans (helseIfs.visits hf)).trans (helse.visits hf)
    rw [gather_goSubAt hf h (by simp [Stmt.lists])]
    simpa [Stmt.lists, Stmt.last?] using hall
  | .lineIf h _ hthen helse =>
    have hall := (hthen.visits hf).trans (helse.visits hf)
    rw [gather_goSubAt hf h (by simp [Stmt.lists])]
    simpa [Stmt.lists, Stmt.last?] using hall
  | .select h hs hcases helse =>
    have hall := ((hcases.visits hf).after (visited_of_lowerSelector hs)).trans (helse.visits hf)
    rw [gather_goSubAt hf h (by simp [Stmt.lists])]
    simpa [Stmt.lists, Stmt.last?] using hall

/-- Lowering a list goes to the labels of the `GoSub`s below it, each for the first time. -/
theorem LowersAll.visits {routine : Routine} {env : Env} {ids : List Nat} {s t : BodyState}
    {out : List Target.Stmt} (h : LowersAll routine env ids s out t) (hf : env.forest.Shaped) :
    Visits s (ids.flatMap (env.forest.gather env.goSubAt)) t := by
  match h with
  | .nil => exact .of_eq rfl
  | .cons h hs =>
    rw [List.flatMap_cons]
    exact (h.visits hf).trans (hs.visits hf)

theorem LowersBranches.visits {routine : Routine} {env : Env} {value : Option Target.Expr}
    {ids : List Nat} {s t : BodyState} {branches : List Branch}
    (h : LowersBranches routine env value ids s branches t) (hf : env.forest.Shaped) :
    Visits s (ids.flatMap (env.forest.gather env.goSubAt)) t := by
  match h with
  | .nil => exact .of_eq rfl
  | .cons h hb hs =>
    rw [List.flatMap_cons, h.hasList.gather_goSubAt hf]
    exact (hb.visits hf).trans (hs.visits hf)

theorem LowersElse.visits {routine : Routine} {env : Env} {block : Option Nat}
    {s t : BodyState} {out : List Target.Stmt} (h : LowersElse routine env block s out t)
    (hf : env.forest.Shaped) :
    Visits s (block.toList.flatMap (env.forest.gather env.goSubAt)) t := by
  match h with
  | .none => exact .of_eq rfl
  | .some h hb =>
    have hbody := hb.visits hf
    rw [Option.toList_some, List.flatMap_singleton, gather_goSubAt hf h (by simp [Stmt.lists])]
    simpa [Stmt.lists, Stmt.last?] using hbody

end

/-! ## Labels by where they come from -/

/-- The label that a statement of the source defines, as it is spelled, and whether it is a line
number. -/
def Env.labelAt (env : Env) (id : Nat) : List (String × Bool) :=
  match env.forest.stmt? id with
  | some (.labelReference name isLineNumber) =>
    if env.forest.kind id = .labelStatement then [(name, isLineNumber)] else []
  | _ => []

/-- The name that a label of the source gets. -/
def placedName (label : String × Bool) : String := labelName label.1 label.2

theorem placed_marksAt (env : Env) (id : Nat) : (env.marksAt id).filterMap Mark.placed? =
    (env.labelAt id).map placedName ++ (env.goSubAt id).map returnPoint := by
  cases hstmt : env.forest.stmt? id with
  | none => simp [Env.marksAt, Env.labelAt, Env.goSubAt, Env.labelOf?, hstmt]
  | some stmt =>
    cases stmt with
    | labelReference name isLine =>
      simp only [Env.marksAt, Env.labelAt, Env.goSubAt, Env.labelOf?, hstmt]
      split
      · next hk => simp [hk, Mark.placed?, placedName]
      · next hk => simp [hk, Mark.placed?]
      · next hk => simp [hk, Mark.placed?, List.filterMap_cons]
      · next h1 _ h2 =>
        rw [if_neg h1, if_neg h2]
        rfl
    | returnValue expression =>
      cases expression with
      | none =>
        simp only [Env.marksAt, Env.labelAt, Env.goSubAt, Env.labelOf?, hstmt]
        cases env.returnTarget? id <;> rfl
      | some expression => simp [Env.marksAt, Env.labelAt, Env.goSubAt, Env.labelOf?, hstmt]
    | _ => simp [Env.marksAt, Env.labelAt, Env.goSubAt, Env.labelOf?, hstmt]

namespace RoutineBody

variable {forest : Forest} {settings : Settings} {body : List Target.Stmt}

/-- The labels that the source of the routine defines. -/
def sourceLabels (r : RoutineBody forest settings body) : List (String × Bool) :=
  forest.gather r.env.labelAt r.node

/-- The labels that the `GoSub`s of the routine go to. -/
def goSubs (r : RoutineBody forest settings body) : List String :=
  forest.gather r.env.goSubAt r.node

variable (r : RoutineBody forest settings body) (hf : forest.Shaped)
include hf

/-- The labels of a body are those of its source and the return points of its `GoSub`s. -/
theorem labels_perm :
    (labels body).Perm (r.sourceLabels.map placedName ++ r.goSubs.map returnPoint) := by
  have hlabels : labels body = (forest.descendants r.node).flatMap fun id =>
      (r.env.labelAt id).map placedName ++ (r.env.goSubAt id).map returnPoint := by
    rw [labels, r.marksAll_eq hf, Forest.gather, List.filterMap_flatMap]
    exact List.flatMap_congr fun id _ => placed_marksAt r.env id
  rw [hlabels, sourceLabels, goSubs, Forest.gather, Forest.gather, List.map_flatMap,
    List.map_flatMap]
  exact (List.flatMap_append_perm _ _ _).symm

theorem nodup_goSubs : r.goSubs.Nodup := by
  obtain ⟨out, state, hout, _⟩ := lowerRoutine_ok r.lowered
  obtain ⟨_, _, d, hd⟩ := r.holds.list hf
  have hnode : r.env.goSubAt r.node = [] := by
    refine List.eq_nil_iff_forall_not_mem.2 fun label hl => ?_
    obtain ⟨_, _, hstmt, _⟩ := mem_goSubAt.1 hl
    cases (Forest.payload?_of_stmt? hstmt).symm.trans (Forest.payload?_of_decl? hd)
  rw [goSubs, r.gather_node hf (sparse_goSubAt r.env) hnode]
  exact ((lowersAll_of_lowerBody hout).visits hf).nodup

end RoutineBody

/-! ## When labels are distinct -/

theorem placedName_inj {a b : String × Bool} (h : a.2 = b.2)
    (hname : placedName a = placedName b) : a = b := by
  obtain ⟨name, isLine⟩ := a
  obtain ⟨other, isLine'⟩ := b
  cases h
  cases isLine with
  | false => simpa [placedName, labelName] using hname
  | true => simpa [placedName, labelName] using hname

/-- Labels of the source that differ in more than case get different names, unless one is a line
number and the other is spelled like it with its letters. -/
theorem nodup_placedNames {labels : List (String × Bool)}
    (h : (labels.map fun label => (label.1.toLower, label.2)).Nodup) :
    (labels.map placedName).Nodup ↔
      ∀ number, (number, true) ∈ labels → ("Line" ++ number, false) ∉ labels := by
  rw [List.nodup_map_iff_inj_on h.of_map]
  constructor
  · intro hinj number hnumber hname
    have hsame : placedName (number, true) = placedName ("Line" ++ number, false) := rfl
    have hflag := congrArg Prod.snd (hinj _ hnumber _ hname hsame)
    cases hflag
  · rintro hfree ⟨a, isLine⟩ ha ⟨b, isLine'⟩ hb hsame
    cases isLine with
    | false =>
      cases isLine' with
      | false => exact placedName_inj rfl hsame
      | true =>
        have hspelled : a = "Line" ++ b := hsame
        exact absurd (hspelled ▸ ha) (hfree b hb)
    | true =>
      cases isLine' with
      | true => exact placedName_inj rfl hsame
      | false =>
        have hspelled : "Line" ++ a = b := hsame
        exact absurd (hspelled ▸ hb) (hfree a ha)

/-- Where the source keeps its labels apart, a lowered routine does so exactly when no label is
spelled like a line number with its letters and none like a return point. Return points are apart
from each other in any case. -/
theorem labels_nodup_iff {tree : Tree} {settings : Settings} {body : List Target.Stmt}
    (hfinished : tree.Finished) (r : RoutineBody tree.toForest settings body)
    (hdistinct : (r.sourceLabels.map fun label => (label.1.toLower, label.2)).Nodup) :
    (r.goSubs.map returnPoint).Nodup ∧
    ((labels body).Nodup ↔
      (∀ number, (number, true) ∈ r.sourceLabels → ("Line" ++ number, false) ∉ r.sourceLabels) ∧
      ∀ label ∈ r.sourceLabels, ∀ target ∈ r.goSubs,
        labelName label.1 label.2 ≠ returnPoint target) := by
  have hf := hfinished.built.shaped
  have hpoints : (r.goSubs.map returnPoint).Nodup :=
    (r.nodup_goSubs hf).map fun _ _ h => returnPoint_injective h
  refine ⟨hpoints, ?_⟩
  rw [(r.labels_perm hf).nodup_iff, List.nodup_append, nodup_placedNames hdistinct]
  constructor
  · rintro ⟨hnumbers, _, hapart⟩
    refine ⟨hnumbers, fun label hl target ht => ?_⟩
    exact hapart _ (List.mem_map_of_mem hl) _ (List.mem_map_of_mem ht)
  · rintro ⟨hnumbers, hapart⟩
    refine ⟨hnumbers, hpoints, fun a ha b hb => ?_⟩
    obtain ⟨label, hl, rfl⟩ := List.mem_map.1 ha
    obtain ⟨target, ht, rfl⟩ := List.mem_map.1 hb
    exact hapart label hl target ht

theorem work_labels_nodup : (Tree.ofCalls workFile 8).Finished ∧
    (workRoutine.sourceLabels.map fun label => (label.1.toLower, label.2)).Nodup ∧
    (labels workBody).Nodup := by
  have hfinished : (Tree.ofCalls workFile 8).Finished := Tree.finished_of_last work_accepted rfl
  have hsource : workRoutine.sourceLabels = [("Work", false)] := by decide +kernel
  have htargets : workRoutine.goSubs = ["Work"] := by decide +kernel
  have hdistinct : (workRoutine.sourceLabels.map fun label =>
      (label.1.toLower, label.2)).Nodup := by
    rw [hsource]
    exact List.nodup_singleton _
  obtain ⟨-, hiff⟩ := labels_nodup_iff hfinished workRoutine hdistinct
  refine ⟨hfinished, hdistinct, hiff.2 ⟨?_, ?_⟩⟩
  · rw [hsource]
    simp
  · rw [hsource, htargets]
    decide +kernel

/-- A line number beside a label that is spelled like it with its letters. -/
def lineFile : List Call :=
  let span := Span.startingAt ⟨1, 1⟩
  [.alloc .simpleName span (.name (.simple "Main" none false)),
    .alloc .gotoStatement span (.stmt (.labelReference "10" true)),
    .alloc .labelStatement span (.stmt (.labelReference "Line10" false)),
    .alloc .integerLiteralExpression span (.expr (.literal (.integer 1 .decimal none))),
    .alloc .returnStatement span (.stmt (.returnValue (some 3))),
    .alloc .labelStatement span (.stmt (.labelReference "10" true)),
    .alloc .integerLiteralExpression span (.expr (.literal (.integer 2 .decimal none))),
    .alloc .returnStatement span (.stmt (.returnValue (some 6))),
    .collection .statementCollection span [some 1, some 2, some 4, some 5, some 7] [],
    .alloc .functionDeclaration span
      (.decl (.method ⟨none, none⟩ (.ofName 0) none none (some 8) none)),
    .collection .declarationCollection span [some 9] [],
    .alloc .file span (.file ⟨some 10⟩)]

theorem line_accepted : (Forest.empty.after lineFile).size = lineFile.length := by
  decide +kernel

def lineBody : List Target.Stmt :=
  [.goto "Line10", .label "Line10", .returns (some (.int 1)), .label "Line10",
    .returns (some (.int 2))]

def lineRoutine : RoutineBody (Tree.ofCalls lineFile 11).toForest .standard lineBody where
  options := Settings.standard.options
  node := 9
  name := "Main"
  returnType := .object
  statements := some 8
  holds := .method rfl
  lowered := by rw [Tree.ofCalls_eq_settled 11 line_accepted]; with_unfolding_all rfl

/-- A label of the source that is spelled like the return point of a `GoSub`. -/
def pointFile : List Call :=
  let span := Span.startingAt ⟨1, 1⟩
  [.alloc .simpleName span (.name (.simple "Main" none false)),
    .alloc .gotoStatement span (.stmt (.labelReference "Start" false)),
    .alloc .labelStatement span (.stmt (.labelReference "Work_return" false)),
    .alloc .integerLiteralExpression span (.expr (.literal (.integer 1 .decimal none))),
    .alloc .returnStatement span (.stmt (.returnValue (some 3))),
    .alloc .labelStatement span (.stmt (.labelReference "Start" false)),
    .alloc .goSubStatement span (.stmt (.labelReference "Work" false)),
    .alloc .integerLiteralExpression span (.expr (.literal (.integer 2 .decimal none))),
    .alloc .returnStatement span (.stmt (.returnValue (some 7))),
    .alloc .labelStatement span (.stmt (.labelReference "Work" false)),
    .alloc .returnStatement span (.stmt (.returnValue none)),
    .collection .statementCollection span
      [some 1, some 2, some 4, some 5, some 6, some 8, some 9, some 10] [],
    .alloc .functionDeclaration span
      (.decl (.method ⟨none, none⟩ (.ofName 0) none none (some 11) none)),
    .collection .declarationCollection span [some 12] [],
    .alloc .file span (.file ⟨some 13⟩)]

theorem point_accepted : (Forest.empty.after pointFile).size = pointFile.length := by
  decide +kernel

def pointBody : List Target.Stmt :=
  [.goto "Start", .label "Work_return", .returns (some (.int 1)), .label "Start", .goto "Work",
    .label "Work_return", .returns (some (.int 2)), .label "Work", .goto "Work_return"]

def pointRoutine : RoutineBody (Tree.ofCalls pointFile 14).toForest .standard pointBody where
  options := Settings.standard.options
  node := 12
  name := "Main"
  returnType := .object
  statements := some 11
  holds := .method rfl
  lowered := by rw [Tree.ofCalls_eq_settled 14 point_accepted]; with_unfolding_all rfl

/-- Labels that the source keeps apart meet in the lowered code, and jumps go to the first of
them: past `GoTo 10` to the label `Line10`, and from the `Return` to a label of the source. -/
theorem labels_collide :
    ((Tree.ofCalls lineFile 11).Finished ∧
      (lineRoutine.sourceLabels.map fun label => (label.1.toLower, label.2)).Nodup ∧
      ¬ (labels lineBody).Nodup ∧ (Machine.run lineBody .initial).1 = .ok (some (.int 1))) ∧
    ((Tree.ofCalls pointFile 14).Finished ∧
      (pointRoutine.sourceLabels.map fun label => (label.1.toLower, label.2)).Nodup ∧
      ¬ (labels pointBody).Nodup ∧ (Machine.run pointBody .initial).1 = .ok (some (.int 1))) := by
  exact ⟨⟨Tree.finished_of_last line_accepted rfl, by decide +kernel, by decide +kernel, rfl⟩,
    Tree.finished_of_last point_accepted rfl, by decide +kernel, by decide +kernel, rfl⟩

end StructuredBasic.Lowering
