import StructuredBasic.Proofs.Forest.Shapes
import StructuredBasic.Sketch.Members

/-!
# Lines of sketched nodes

A step of a sketch adds from none to a dozen nodes. `Aligned` says that the last line given out is
the number of nodes, and that the node with the number `n` has the line `n + 1`. To give out a line
and to add a node on it keeps the two in step (`leads_nextSpan`, `leads_attach`); every step is made
of such pairs, so any sequence of steps that is not refused keeps them in step, and a line tells
which node it belongs to (`lines_identify_nodes`).
-/

set_option autoImplicit false

namespace StructuredBasic.Sketch

open Syntax

/-! ## Steps -/

/-- What can be asked of a sketch, with the numbers of nodes that earlier steps have given. -/
inductive Step where
  | node (kind : Kind) (payload : Payload)
  | commented (kind : Kind) (payload : Payload) (text : String)
  | list (kind : Kind) (elements : List Nat)
  -- names and types
  | simpleName (text : String)
  | variableName (text : String)
  | arrayName (text : String) (bounds : List Nat)
  | intrinsic (type : Intrinsic)
  | namedType (text : String)
  -- expressions
  | name (text : String)
  | int (value : Int64)
  | string (text : String)
  | boolean (value : Bool)
  | binary (op : Operator) (left right : Nat)
  | unary (op : Operator) (operand : Nat)
  | parenthesized (operand : Nat)
  | member (qualifier : Option Nat) (text : String)
  | call (target : Nat) (args : List Nat)
  | arguments (expressions : List Nat)
  -- variables
  | declarator (names : List Nat) (type value : Option Nat)
  | modifiers (values : List Modifier)
  | locals (modifier : Modifier) (declarators : List Nat)
  | dim (text : String) (type : Intrinsic)
  | dimArray (text : String) (bounds : List Nat) (type : Intrinsic)
  -- statements
  | body (statements : List Nat)
  | assign (target source : Nat)
  | assignName (text : String) (source : Nat)
  | compound (op : Operator) (target source : Nat)
  | callStatement (target : Nat) (args : List Nat)
  | label (text : String)
  | goto (text : String)
  | goSub (text : String)
  | returnStatement (expression : Option Nat)
  | exit (block : Block)
  | endBlock (block : Block)
  | forBlock (control : String) (lower upper : Nat) (step : Option Nat) (statements : List Nat)
  | doLoop (top bottom : Option LoopCondition) (statements : List Nat)
  | ifBlock (condition : Nat) (statements : List Nat) (elseStatements : Option (List Nat))
  | caseIs (op : Option Operator) (operand : Nat)
  | caseRange (lower upper : Nat)
  | select (expression : Nat) (cases : List (List Nat × List Nat)) (caseElse : Option (List Nat))
  | withBlock (subject : Nat) (statements : List Nat)
  | reDim (preserve : Bool) (operands : List Nat)
  -- declarations
  | sub (text : String) (statements : List Nat)
  | function (text : String) (result : Option Intrinsic) (statements : List Nat)
  | property (text : String) (result : Intrinsic) (getter : List Nat)
  | moduleBlock (text : String) (members : List Nat)
  | directive (value : Directive)

/-- The part of a sketch that answers a step: with a node, or with nothing for a list of none. -/
def Step.answer : Step → Sketch (Option Nat)
  | .node kind payload => some <$> Sketch.node kind payload
  | .commented kind payload text => some <$> Sketch.commented kind payload text
  | .list kind elements => some <$> Sketch.list kind elements
  | .simpleName text => some <$> Sketch.simpleName text
  | .variableName text => some <$> Sketch.variableName text
  | .arrayName text bounds => some <$> Sketch.arrayName text bounds
  | .intrinsic type => some <$> Sketch.intrinsic type
  | .namedType text => some <$> Sketch.namedType text
  | .name text => some <$> Sketch.name text
  | .int value => some <$> Sketch.int value
  | .string text => some <$> Sketch.string text
  | .boolean value => some <$> Sketch.boolean value
  | .binary op left right => some <$> Sketch.binary op left right
  | .unary op operand => some <$> Sketch.unary op operand
  | .parenthesized operand => some <$> Sketch.parenthesized operand
  | .member qualifier text => some <$> Sketch.member qualifier text
  | .call target args => some <$> Sketch.call target args
  | .arguments expressions => Sketch.arguments expressions
  | .declarator names type value => some <$> Sketch.declarator names type value
  | .modifiers values => some <$> Sketch.modifiers values
  | .locals modifier declarators => some <$> Sketch.locals modifier declarators
  | .dim text type => some <$> Sketch.dim text type
  | .dimArray text bounds type => some <$> Sketch.dimArray text bounds type
  | .body statements => Sketch.body statements
  | .assign target source => some <$> Sketch.assign target source
  | .assignName text source => some <$> Sketch.assignName text source
  | .compound op target source => some <$> Sketch.compound op target source
  | .callStatement target args => some <$> Sketch.callStatement target args
  | .label text => some <$> Sketch.label text
  | .goto text => some <$> Sketch.goto text
  | .goSub text => some <$> Sketch.goSub text
  | .returnStatement expression => some <$> Sketch.returnStatement expression
  | .exit block => some <$> Sketch.exit block
  | .endBlock block => some <$> Sketch.endBlock block
  | .forBlock control lower upper step statements =>
    some <$> Sketch.forBlock control lower upper step statements
  | .doLoop top bottom statements => some <$> Sketch.doLoop top bottom statements
  | .ifBlock condition statements elseStatements =>
    some <$> Sketch.ifBlock condition statements elseStatements
  | .caseIs op operand => some <$> Sketch.caseIs op operand
  | .caseRange lower upper => some <$> Sketch.caseRange lower upper
  | .select expression cases caseElse => some <$> Sketch.select expression cases caseElse
  | .withBlock subject statements => some <$> Sketch.withBlock subject statements
  | .reDim preserve operands => some <$> Sketch.reDim preserve operands
  | .sub text statements => some <$> Sketch.sub text statements
  | .function text result statements => some <$> Sketch.function text result statements
  | .property text result getter => some <$> Sketch.property text result getter
  | .moduleBlock text members => some <$> Sketch.moduleBlock text members
  | .directive value => some <$> Sketch.directive value

/-- Steps in turn, up to the first that is refused. -/
def perform (steps : List Step) : Sketch (List (Option Nat)) := steps.mapM Step.answer

/-! ## Specification -/

/-- The node with the number `n` has the line `n + 1`. -/
def Numbered (f : Forest) : Prop :=
  ∀ id n, f.node? id = some n → n.span.start.line = id + 1

/-- Different nodes have different lines. -/
def LinesApart (f : Forest) : Prop :=
  ∀ i j m n, f.node? i = some m → f.node? j = some n → m.span.start.line = n.span.start.line → i = j

/-- The lines given out are those of the nodes. -/
structure Aligned (d : Draft) : Prop where
  line_eq : d.line = d.forest.size
  numbered : Numbered d.forest

/-- One more line is given out than there are nodes, and the span is on it. -/
structure Awaits (span : Span) (d : Draft) : Prop where
  line_eq : d.line = d.forest.size + 1
  start_eq : span.start.line = d.line
  numbered : Numbered d.forest

theorem Numbered.apart {f : Forest} (h : Numbered f) : LinesApart f := by
  intro i j m n hm hn heq
  rw [h i m hm, h j n hn] at heq
  exact Nat.succ.inj heq

/-! ## Sketches that lead from one property to another -/

/-- From a draft with `P` the sketch comes to an answer and a draft with `Q`, or it is refused. -/
def Leads {α : Type} (P : Draft → Prop) (m : Sketch α) (Q : α → Draft → Prop) : Prop :=
  ∀ d, P d → ∀ a e, m.run d = (.ok a, e) → Q a e

section Rules

variable {α β : Type} {P : Draft → Prop} {Q : α → Draft → Prop} {R : β → Draft → Prop}

theorem leads_pure {a : α} (h : ∀ d, P d → Q a d) : Leads P (pure a) Q := by
  rintro d hd _ _ ⟨⟩
  exact h d hd

theorem leads_throw {fault : BuildError} : Leads P (throw fault : Sketch α) Q := by
  rintro d hd _ _ ⟨⟩

theorem run_bind (m : Sketch α) (k : α → Sketch β) (d : Draft) :
    (m >>= k).run d = match m.run d with
      | (.ok a, e) => (k a).run e
      | (.error fault, e) => (.error fault, e) := by
  simp only [ExceptT.run, Bind.bind, ExceptT.bind, ExceptT.mk, StateT.bind, ExceptT.bindCont]
  cases m d with
  | mk result e => cases result <;> rfl

theorem Leads.bind {m : Sketch α} {k : α → Sketch β} (hm : Leads P m Q)
    (hk : ∀ a, Leads (Q a) (k a) R) : Leads P (m >>= k) R := by
  intro d hd b e h
  rw [run_bind] at h
  cases hfirst : m.run d with
  | mk result t =>
    rw [hfirst] at h
    cases result with
    | error fault => cases h
    | ok a => exact hk a t (hm d hd a t hfirst) b e h

theorem leads_get : Leads P (get : Sketch Draft) (fun d e => d = e ∧ P e) := by
  rintro d hd _ _ ⟨⟩
  exact ⟨rfl, hd⟩

end Rules

/-- A sketch that keeps the lines given out in step with the nodes. -/
def Aligns {α : Type} (m : Sketch α) : Prop := Leads Aligned m fun _ => Aligned

section Aligning

variable {α β : Type}

theorem aligns_pure (a : α) : Aligns (pure a) := leads_pure fun _ hd => hd

theorem Aligns.bind {m : Sketch α} {k : α → Sketch β} (hm : Aligns m) (hk : ∀ a, Aligns (k a)) :
    Aligns (m >>= k) :=
  Leads.bind hm hk

theorem Aligns.map {m : Sketch α} (f : α → β) (hm : Aligns m) : Aligns (f <$> m) := by
  rw [map_eq_pure_bind]
  exact hm.bind fun a => aligns_pure (f a)

theorem aligns_mapM {g : α → Sketch β} (h : ∀ x, Aligns (g x)) (l : List α) :
    Aligns (l.mapM g) := by
  induction l with
  | nil =>
    rw [List.mapM_nil]
    exact aligns_pure []
  | cons x l ih =>
    rw [List.mapM_cons]
    exact (h x).bind fun _ => ih.bind fun _ => aligns_pure _

theorem aligns_optional {g : α → Sketch β} (h : ∀ x, Aligns (g x)) (x : Option α) :
    Aligns (x.mapM g) := by
  cases x with
  | none => exact aligns_pure none
  | some x => exact (h x).map some

theorem aligns_get : Aligns (get : Sketch Draft) := by
  rintro d hd _ _ ⟨⟩
  exact hd

end Aligning

/-! ## One node -/

section Nodes

variable {kind : Kind} {payload : Payload} {comments : List Nat} {span : Span}

theorem leads_nextSpan : Leads Aligned nextSpan Awaits := by
  rintro d hd _ _ ⟨⟩
  exact ⟨congrArg (· + 1) hd.line_eq, rfl, hd.numbered⟩

/-- An addition gives the number of nodes so far to a node with the span, and leaves the spans of
the others as they are. -/
theorem alloc_ok {f g : Forest} {id : Nat} (h : f.alloc kind span payload comments = .ok (id, g)) :
    g.size = f.size + 1 ∧ ∀ i n, g.node? i = some n →
      i = f.size ∧ n.span = span ∨ ∃ m, f.node? i = some m ∧ n.span = m.span := by
  have hanswer : f.answer (.allocWithComments kind span payload comments) = (.ok id, g) := by
    simp only [Forest.answer, Call.kind, Call.span, Call.payload, Call.comments, h]
  rcases f.answer_cases (.allocWithComments kind span payload comments) with
    ⟨fault, hrefused⟩ | ⟨hadmitted, hpushed⟩
  · rw [hanswer] at hrefused
    cases hrefused
  · rw [hanswer] at hpushed
    cases hpushed
    refine ⟨Forest.size_push hadmitted.unadopted hadmitted.present, fun i n hn => ?_⟩
    rw [Forest.node?_push] at hn
    split at hn
    · next hi =>
      cases hn
      exact Or.inl ⟨hi, rfl⟩
    · obtain ⟨m, hm, rfl⟩ := Option.map_eq_some_iff.1 hn
      refine Or.inr ⟨m, hm, ?_⟩
      split <;> rfl

theorem leads_attach : Leads (Awaits span) (attach kind span payload comments)
    fun _ => Aligned := by
  unfold attach
  refine leads_get.bind fun draft => ?_
  split
  · next id forest halloc =>
    rintro _ ⟨rfl, hd⟩ _ _ ⟨⟩
    obtain ⟨hsize, hspans⟩ := alloc_ok halloc
    refine ⟨hd.line_eq.trans hsize.symm, fun i n hn => ?_⟩
    rcases hspans i n hn with ⟨rfl, hspan⟩ | ⟨m, hm, hspan⟩
    · rw [hspan, hd.start_eq, hd.line_eq]
    · rw [hspan, hd.numbered i m hm]
  · exact leads_throw

theorem aligns_node (kind : Kind) (payload : Payload) : Aligns (node kind payload) :=
  leads_nextSpan.bind fun _ => leads_attach

theorem aligns_commented (kind : Kind) (payload : Payload) (text : String) :
    Aligns (commented kind payload text) :=
  leads_nextSpan.bind fun _ => leads_attach.bind fun _ =>
    leads_nextSpan.bind fun _ => leads_attach

theorem aligns_list (kind : Kind) (elements : List Nat) : Aligns (list kind elements) := by
  refine leads_nextSpan.bind fun span => leads_get.bind fun draft => ?_
  rintro d ⟨-, hd⟩
  exact leads_attach d hd

theorem aligns_optionalList (kind : Kind) (elements : List Nat) :
    Aligns (optionalList kind elements) := by
  unfold optionalList
  split
  · exact aligns_pure none
  · exact (aligns_list kind elements).map some

end Nodes

/-! ## Every step -/

section Steps

theorem aligns_simpleName (text : String) : Aligns (simpleName text) := aligns_node _ _

theorem aligns_variableName (text : String) : Aligns (variableName text) :=
  (aligns_simpleName text).bind fun _ => aligns_node _ _

theorem aligns_name (text : String) : Aligns (name text) :=
  (aligns_simpleName text).bind fun _ => aligns_node _ _

theorem aligns_intrinsic (type : Intrinsic) : Aligns (intrinsic type) := aligns_node _ _

theorem aligns_arguments (expressions : List Nat) : Aligns (arguments expressions) :=
  (aligns_mapM (fun _ => aligns_node _ _) expressions).bind fun _ => aligns_optionalList _ _

theorem aligns_arrayName (text : String) (bounds : List Nat) : Aligns (arrayName text bounds) :=
  (aligns_simpleName text).bind fun _ => (aligns_arguments bounds).bind fun _ =>
    (aligns_node _ _).bind fun _ => aligns_node _ _

theorem aligns_declarator (names : List Nat) (type value : Option Nat) :
    Aligns (declarator names type value) :=
  (aligns_list _ names).bind fun _ =>
    (aligns_optional (fun _ => aligns_node _ _) value).bind fun _ => aligns_node _ _

theorem aligns_modifiers (values : List Modifier) : Aligns (modifiers values) :=
  (aligns_mapM (fun _ => aligns_node _ _) values).bind fun _ => aligns_list _ _

theorem aligns_locals (modifier : Modifier) (declarators : List Nat) :
    Aligns (locals modifier declarators) :=
  (aligns_modifiers [modifier]).bind fun _ =>
    (aligns_list _ declarators).bind fun _ => aligns_node _ _

theorem aligns_dimOf (declared : Nat) (type : Intrinsic) : Aligns (dimOf declared type) :=
  (aligns_intrinsic type).bind fun type =>
    (aligns_declarator [declared] (some type) none).bind fun declarator =>
      aligns_locals .dim [declarator]

theorem aligns_body (statements : List Nat) : Aligns (body statements) :=
  aligns_optionalList _ statements

theorem aligns_endBlock (block : Block) : Aligns (endBlock block) := aligns_node _ _

theorem aligns_elseBlock (kind : Kind) (statements : List Nat) :
    Aligns (elseBlock kind statements) :=
  (aligns_body statements).bind fun _ => aligns_node _ _

theorem aligns_caseBlock (clauses statements : List Nat) : Aligns (caseBlock clauses statements) :=
  (aligns_list _ clauses).bind fun _ => (aligns_body statements).bind fun _ => aligns_node _ _

theorem aligns_forBlock (control : String) (lower upper : Nat) (step : Option Nat)
    (statements : List Nat) : Aligns (forBlock control lower upper step statements) :=
  (aligns_name control).bind fun _ => (aligns_body statements).bind fun _ =>
    (aligns_node _ _).bind fun _ => aligns_node _ _

theorem aligns_doLoop (top bottom : Option LoopCondition) (statements : List Nat) :
    Aligns (doLoop top bottom statements) :=
  (aligns_body statements).bind fun _ => (aligns_node _ _).bind fun _ => aligns_node _ _

theorem aligns_ifBlock (condition : Nat) (statements : List Nat)
    (elseStatements : Option (List Nat)) : Aligns (ifBlock condition statements elseStatements) :=
  (aligns_body statements).bind fun _ =>
    (aligns_optional (aligns_elseBlock .elseBlockStatement) elseStatements).bind fun _ =>
      (aligns_endBlock _).bind fun _ => aligns_node _ _

theorem aligns_select (expression : Nat) (cases : List (List Nat × List Nat))
    (caseElse : Option (List Nat)) : Aligns (select expression cases caseElse) := by
  have hcases :=
    aligns_mapM (fun pair : List Nat × List Nat => aligns_caseBlock pair.1 pair.2) cases
  unfold select
  refine hcases.bind fun blocks => (aligns_body blocks).bind fun _ => ?_
  refine (aligns_optional (aligns_elseBlock .caseElseBlockStatement) caseElse).bind fun _ => ?_
  exact (aligns_endBlock _).bind fun _ => aligns_node _ _

theorem aligns_withBlock (subject : Nat) (statements : List Nat) :
    Aligns (withBlock subject statements) :=
  (aligns_body statements).bind fun _ => (aligns_endBlock _).bind fun _ => aligns_node _ _

theorem aligns_endDeclaration (block : Block) : Aligns (endDeclaration block) := aligns_node _ _

theorem aligns_method (kind : Kind) (text : String) (resultType : Option Nat)
    (statements : List Nat) (block : Block) :
    Aligns (method kind text resultType statements block) :=
  (aligns_simpleName text).bind fun _ => (aligns_body statements).bind fun _ =>
    (aligns_endDeclaration block).bind fun _ => aligns_node _ _

theorem aligns_property (text : String) (result : Intrinsic) (getter : List Nat) :
    Aligns (property text result getter) :=
  (aligns_simpleName text).bind fun _ => (aligns_intrinsic result).bind fun _ =>
    (aligns_body getter).bind fun _ => (aligns_endDeclaration _).bind fun _ =>
      (aligns_node _ _).bind fun accessor => (aligns_list _ [accessor]).bind fun _ =>
        (aligns_endDeclaration _).bind fun _ => aligns_node _ _

theorem aligns_moduleBlock (text : String) (members : List Nat) :
    Aligns (moduleBlock text members) :=
  (aligns_simpleName text).bind fun _ => (aligns_optionalList _ members).bind fun _ =>
    (aligns_endDeclaration _).bind fun _ => aligns_node _ _

theorem aligns_answer (step : Step) : Aligns step.answer := by
  cases step with
  | node kind payload => exact (aligns_node kind payload).map some
  | commented kind payload text => exact (aligns_commented kind payload text).map some
  | list kind elements => exact (aligns_list kind elements).map some
  | variableName text => exact (aligns_variableName text).map some
  | arrayName text bounds => exact (aligns_arrayName text bounds).map some
  | namedType text =>
    exact ((aligns_simpleName text).bind fun _ => aligns_node _ _).map some
  | name text => exact (aligns_name text).map some
  | binary => exact (aligns_get.bind fun _ => aligns_node _ _).map some
  | member qualifier text =>
    exact ((aligns_simpleName text).bind fun _ =>
      aligns_get.bind fun _ => aligns_node _ _).map some
  | call target args => exact ((aligns_arguments args).bind fun _ => aligns_node _ _).map some
  | arguments expressions => exact aligns_arguments expressions
  | declarator names type value => exact (aligns_declarator names type value).map some
  | modifiers values => exact (aligns_modifiers values).map some
  | locals modifier declarators => exact (aligns_locals modifier declarators).map some
  | dim text type =>
    exact ((aligns_variableName text).bind fun name => aligns_dimOf name type).map some
  | dimArray text bounds type =>
    exact ((aligns_arrayName text bounds).bind fun name => aligns_dimOf name type).map some
  | body statements => exact aligns_body statements
  | assignName text source => exact ((aligns_name text).bind fun _ => aligns_node _ _).map some
  | callStatement target args =>
    exact ((aligns_arguments args).bind fun _ => aligns_node _ _).map some
  | forBlock control lower upper step statements =>
    exact (aligns_forBlock control lower upper step statements).map some
  | doLoop top bottom statements => exact (aligns_doLoop top bottom statements).map some
  | ifBlock condition statements elseStatements =>
    exact (aligns_ifBlock condition statements elseStatements).map some
  | select expression cases caseElse => exact (aligns_select expression cases caseElse).map some
  | withBlock subject statements => exact (aligns_withBlock subject statements).map some
  | reDim preserve operands =>
    exact ((aligns_list _ operands).bind fun _ => aligns_node _ _).map some
  | sub text statements => exact (aligns_method _ text none statements _).map some
  | function text result statements =>
    exact ((aligns_optional aligns_intrinsic result).bind fun type =>
      aligns_method _ text type statements _).map some
  | property text result getter => exact (aligns_property text result getter).map some
  | moduleBlock text members => exact (aligns_moduleBlock text members).map some
  -- the other steps add one node
  | _ => exact (aligns_node _ _).map some

end Steps

/-! ## Finished trees -/

section Finished

/-- To finish a sketch keeps the numbering. -/
theorem leads_finishAt (root : Nat) :
    Leads Aligned (finishAt root) fun tree _ => Numbered tree.toForest := by
  unfold finishAt
  refine leads_get.bind fun draft => ?_
  split
  · next tree hfound =>
    rintro _ ⟨rfl, hd⟩ _ _ ⟨⟩
    rw [Forest.toForest_of_finish hfound]
    exact hd.numbered
  · exact leads_throw

theorem leads_finish (declarations : List Nat) :
    Leads Aligned (finish declarations) fun tree _ => Numbered tree.toForest :=
  Leads.bind (aligns_optionalList _ declarations) fun _ =>
    Leads.bind (aligns_node _ _) fun root => leads_finishAt root

theorem eq_ok_of_toOption {α : Type} {r : Except BuildError α × Draft} {a : α}
    (h : r.1.toOption = some a) : r = (.ok a, r.2) := by
  obtain ⟨fault | b, e⟩ := r
  · cases h
  · cases h
    rfl

theorem aligned_blank : Aligned blank := by
  refine ⟨rfl, fun id n hn => ?_⟩
  simp [blank, Forest.empty, Forest.node?] at hn

/-- After steps of which none was refused there are as many nodes as lines given out, and the node
with the number `n` has the line `n + 1`. The same holds of a tree that is finished from there, with
whatever root or declarations, and no two of its nodes have the same line. -/
theorem lines_identify_nodes {steps : List Step} {answers : List (Option Nat)} {d : Draft}
    (h : (perform steps).run blank = (.ok answers, d)) :
    (d.line = d.forest.size ∧ Numbered d.forest) ∧
    (∀ root tree e, (finishAt root).run d = (.ok tree, e) →
      Numbered tree.toForest ∧ LinesApart tree.toForest) ∧
    (∀ declarations tree e, (finish declarations).run d = (.ok tree, e) →
      Numbered tree.toForest ∧ LinesApart tree.toForest) := by
  have hd : Aligned d := aligns_mapM aligns_answer steps blank aligned_blank answers d h
  refine ⟨⟨hd.line_eq, hd.numbered⟩, fun root tree e hfinish => ?_,
    fun declarations tree e hfinish => ?_⟩
  · have hnumbered := leads_finishAt root d hd tree e hfinish
    exact ⟨hnumbered, hnumbered.apart⟩
  · have hnumbered := leads_finish declarations d hd tree e hfinish
    exact ⟨hnumbered, hnumbered.apart⟩

/-- A declaration, an assignment and a `Return` with a comment, for the body of a `Sub`. -/
def commentedSub : List Step :=
  [.dim "x" .integer, .int 1, .assignName "x" 9,
    .commented .returnStatement (.stmt (.returnValue none)) "done", .sub "Main" [8, 12, 14]]

theorem commentedSub_lines : ∃ d tree e,
    (perform commentedSub).run blank = (.ok [some 8, some 9, some 12, some 14, some 18], d) ∧
    (finish [18]).run d = (.ok tree, e) ∧ tree.size = 21 ∧ LinesApart tree.toForest := by
  let d := ((perform commentedSub).run blank).2
  have hanswers : ((perform commentedSub).run blank).1.toOption =
      some [some 8, some 9, some 12, some 14, some 18] := by decide +kernel
  have hsize : (((finish [18]).run d).1.toOption.map fun tree => tree.size) = some 21 := by
    decide +kernel
  obtain ⟨tree, htree, hsize⟩ := Option.map_eq_some_iff.1 hsize
  have hsteps := eq_ok_of_toOption hanswers
  have hfinish := eq_ok_of_toOption htree
  obtain ⟨-, -, hlines⟩ := lines_identify_nodes hsteps
  exact ⟨d, tree, _, hsteps, hfinish, hsize, (hlines [18] tree _ hfinish).2⟩

end Finished

end StructuredBasic.Sketch
