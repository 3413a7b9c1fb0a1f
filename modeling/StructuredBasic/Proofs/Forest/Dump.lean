import StructuredBasic.Proofs.Forest.Preorder
import StructuredBasic.Proofs.Forest.WellFormed
import StructuredBasic.Proofs.Text.Markup
import StructuredBasic.Syntax.Dump

/-!
# Dumps of finished trees

The text of a dump reads as one element, and this element is the subtree: `dump_faithful`. What the
attributes of a node have to say is written down in `Payload.Shows` and `ShowsPlace`, apart from
how they are written. Kinds and attributes have names that can be read, and a comment, the one node
with a text, has no children.
-/

set_option autoImplicit false

namespace StructuredBasic.Syntax

open Text (Element)
open Text.Markup (IsName isName_ofList document?)

/-! ## What attributes say -/

/-- The value attribute of a literal. -/
inductive Literal.Says : Literal → String → Prop
  | string (text : String) : Says (.string text) text
  | date (text : String) : Says (.date text) text
  | decimal (text : String) : Says (.decimal text) text
  | character (value : Char) : Says (.character value) (String.singleton value)
  | integer {value : Int64} {radix : Radix} {suffix : Option TypeSuffix} :
      Says (.integer value radix suffix) (toString value.toInt)
  | float {value : Float} {suffix : Option TypeSuffix} :
      Says (.float value suffix) (Decimal.plain.text value)
  | yes : Says (.boolean true) "true"
  | no : Says (.boolean false) "false"

/-- The test attribute of a loop. -/
inductive LoopCondition.Says : LoopCondition → String → Prop
  | whileTest {expression : Nat} : Says ⟨true, expression⟩ "While"
  | untilTest {expression : Nat} : Says ⟨false, expression⟩ "Until"

/-- An attribute of a node, by what the node holds besides its children. -/
inductive Payload.Shows : Payload → String → String → Prop
  | name {text suffix escaped} : Shows (.name (.simple text suffix escaped)) "name" text
  | typeCharacter {text suffix escaped} :
      Shows (.name (.simple text (some suffix) escaped)) "typeCharacter" suffix.text
  | escaped {text suffix} : Shows (.name (.simple text suffix true)) "escaped" "true"
  | special {which} : Shows (.name (.special which)) "name" (Named.name which)
  | intrinsic {type} : Shows (.type (.intrinsic type)) "type" (Named.name type)
  | rank {element rank bounds} : Shows (.type (.array element rank bounds)) "rank" (toString rank)
  | modifier {value} : Shows (.modifier value) "modifier" (Named.name value)
  | rem {text} : Shows (.comment ⟨text, true⟩) "isRem" "true"
  | literal {value text} (h : value.Says text) : Shows (.expr (.literal value)) "value" text
  | cast {target operand} : Shows (.expr (.intrinsicCast target operand)) "type" (Named.name target)
  | unary {op operand} : Shows (.expr (.unary op operand)) "operator" (Named.name op)
  | binary {op place left right} :
      Shows (.expr (.binary op place left right)) "operator" (Named.name op)
  | label {name isLineNumber} : Shows (.stmt (.labelReference name isLineNumber)) "label" name
  | lineNumber {name} : Shows (.stmt (.labelReference name true)) "isLineNumber" "true"
  | exit {block} : Shows (.stmt (.exit block)) "block" (Named.name block)
  | next {block} : Shows (.stmt (.next block)) "block" (Named.name block)
  | endBlock {block} : Shows (.stmt (.endBlock block)) "block" (Named.name block)
  | resume {form label} : Shows (.stmt (.resume form label)) "kind" (Named.name form)
  | resumeLabel {form label} : Shows (.stmt (.resume form (some label))) "label" label
  | onError {form label} : Shows (.stmt (.onError form label)) "kind" (Named.name form)
  | errorLabel {form label} : Shows (.stmt (.onError form (some label))) "label" label
  | preserve {arrays} : Shows (.stmt (.reDim true arrays)) "preserve" "true"
  | compound {op target source} :
      Shows (.stmt (.compoundAssignment op target source)) "operator" (Named.name op)
  | loopEnd {condition text} (h : condition.Says text) :
      Shows (.stmt (.loopEnd (some condition))) "test" text
  | doBlock {condition statements tail text} (h : condition.Says text) :
      Shows (.stmt (.doBlock (some condition) statements tail)) "test" text
  | endDeclaration {block} : Shows (.decl (.endBlock block)) "block" (Named.name block)
  | directive {line} : Shows (.decl (.directive line)) "option" line.text
  | operator {header signature op implements statements tail} :
      Shows (.decl (.method header signature (some op) implements statements tail)) "operator"
        (Named.name op)
  | charset {header signature charset library entryName} :
      Shows (.decl (.external header signature charset library entryName)) "charset"
        (Named.name charset)
  | library {header signature charset library entryName} :
      Shows (.decl (.external header signature charset library entryName)) "lib" library
  | entryName {header signature charset library entryName} :
      Shows (.decl (.external header signature charset library (some entryName))) "alias" entryName
  | clause {op operand} :
      Shows (.caseClause (.comparison (some op) operand)) "operator" (Named.name op)
  | isNew {names type arguments initializer} :
      Shows (.declarator ⟨names, type, true, arguments, initializer⟩) "isNew" "true"

/-- A place in real text. -/
def Known (l : Location) : Prop := l.line ≠ 0 ∧ l.column ≠ 0

/-- An attribute of a place: the line or the column of an end that is known. -/
inductive ShowsPlace (s : Span) : String → String → Prop
  | startLine (h : Known s.start) : ShowsPlace s "startLine" (toString s.start.line)
  | startColumn (h : Known s.start) : ShowsPlace s "startCol" (toString s.start.column)
  | endLine {l : Location} (hl : s.finish = some l) (h : Known l) :
      ShowsPlace s "endLine" (toString l.line)
  | endColumn {l : Location} (hl : s.finish = some l) (h : Known l) :
      ShowsPlace s "endCol" (toString l.column)

section Facts

variable {key value name : String}

theorem mem_flagged {on : Bool} :
    (key, value) ∈ flagged name on ↔ on = true ∧ key = name ∧ value = "true" := by
  cases on <;> simp [flagged]

theorem mem_valued {text : Option String} :
    (key, value) ∈ valued name text ↔ key = name ∧ text = some value := by
  cases text <;> simp [valued, eq_comm]

theorem Literal.says_iff {literal : Literal} : literal.Says value ↔ value = literal.text := by
  constructor
  · rintro (_ | _ | _ | _ | _ | _ | _ | _) <;> rfl
  · rintro rfl
    cases literal with
    | boolean on => cases on <;> constructor
    | _ => constructor

theorem LoopCondition.mem_facts {condition : Option LoopCondition} :
    (key, value) ∈ LoopCondition.facts condition ↔
      key = "test" ∧ ∃ c, condition = some c ∧ c.Says value := by
  rw [LoopCondition.facts, mem_valued]
  refine and_congr_right fun _ => Option.map_eq_some_iff.trans (exists_congr fun c => ?_)
  obtain ⟨isWhile, expression⟩ := c
  refine and_congr_right fun _ => ⟨?_, ?_⟩
  · rintro rfl
    cases isWhile <;> constructor
  · rintro (_ | _) <;> rfl

theorem mem_single {fact : String × String} :
    (key, value) ∈ [fact] ↔ key = fact.1 ∧ value = fact.2 := by
  simp [Prod.ext_iff]

theorem Name.mem_facts {n : Name} :
    (key, value) ∈ n.facts ↔ (Payload.name n).Shows key value := by
  constructor
  · intro h
    cases n with
    | simple text suffix escaped =>
      simp only [Name.facts, List.cons_append, List.mem_cons, List.mem_append, Prod.mk.injEq,
        mem_flagged, mem_valued, Option.map_eq_some_iff] at h
      rcases h with ⟨rfl, rfl⟩ | ⟨rfl, suffix, rfl, rfl⟩ | ⟨rfl, rfl, rfl⟩ <;> constructor
    | special which =>
      obtain ⟨rfl, rfl⟩ := mem_single.1 h
      constructor
    | _ => cases h
  · rintro (_ | _ | _ | _) <;> simp [Name.facts, mem_flagged, mem_valued]

theorem TypeName.mem_facts {t : TypeName} :
    (key, value) ∈ t.facts ↔ (Payload.type t).Shows key value := by
  constructor
  · intro h
    cases t <;> first
      | (obtain ⟨rfl, rfl⟩ := mem_single.1 h; constructor)
      | cases h
  · rintro (_ | _) <;> exact List.mem_singleton.2 rfl

theorem Expr.mem_facts {e : Expr} :
    (key, value) ∈ e.facts ↔ (Payload.expr e).Shows key value := by
  constructor
  · intro h
    cases e with
    | literal literal =>
      obtain ⟨rfl, hvalue⟩ := mem_single.1 h
      exact .literal (Literal.says_iff.2 hvalue)
    | intrinsicCast _ _ | unary _ _ | binary _ _ _ _ =>
      obtain ⟨rfl, rfl⟩ := mem_single.1 h
      constructor
    | _ => cases h
  · intro h
    cases h with
    | literal hvalue => exact mem_single.2 ⟨rfl, Literal.says_iff.1 hvalue⟩
    | _ => exact List.mem_singleton.2 rfl

theorem Stmt.mem_facts {s : Stmt} :
    (key, value) ∈ s.facts ↔ (Payload.stmt s).Shows key value := by
  constructor
  · intro h
    cases s with
    | labelReference name isLineNumber =>
      simp only [Stmt.facts, List.mem_cons, Prod.mk.injEq, mem_flagged] at h
      rcases h with ⟨rfl, rfl⟩ | ⟨rfl, rfl, rfl⟩ <;> constructor
    | exit _ | next _ | endBlock _ | compoundAssignment _ _ _ =>
      obtain ⟨rfl, rfl⟩ := mem_single.1 h
      constructor
    | resume _ _ | onError _ _ =>
      simp only [Stmt.facts, List.mem_cons, Prod.mk.injEq, mem_valued] at h
      rcases h with ⟨rfl, rfl⟩ | ⟨rfl, rfl⟩ <;> constructor
    | reDim _ _ =>
      obtain ⟨rfl, rfl, rfl⟩ := mem_flagged.1 h
      constructor
    | loopEnd _ | doBlock _ _ _ =>
      obtain ⟨rfl, c, rfl, hc⟩ := LoopCondition.mem_facts.1 h
      constructor
      exact hc
    | _ => cases h
  · intro h
    cases h with
    | loopEnd hc | doBlock hc => exact LoopCondition.mem_facts.2 ⟨rfl, _, rfl, hc⟩
    | _ => simp [Stmt.facts, mem_flagged, mem_valued]

theorem Decl.mem_facts {d : Decl} :
    (key, value) ∈ d.facts ↔ (Payload.decl d).Shows key value := by
  constructor
  · intro h
    cases d with
    | endBlock _ | directive _ =>
      obtain ⟨rfl, rfl⟩ := mem_single.1 h
      constructor
    | method _ _ _ _ _ _ =>
      simp only [Decl.facts, mem_valued, Option.map_eq_some_iff] at h
      obtain ⟨rfl, op, rfl, rfl⟩ := h
      constructor
    | external _ _ _ _ _ =>
      simp only [Decl.facts, List.cons_append, List.nil_append, List.mem_cons, Prod.mk.injEq,
        mem_valued] at h
      rcases h with ⟨rfl, rfl⟩ | ⟨rfl, rfl⟩ | ⟨rfl, rfl⟩ <;> constructor
    | _ => cases h
  · rintro (_ | _ | _ | _ | _ | _) <;> simp [Decl.facts, mem_valued]

/-- The attributes that are written for a payload are those that it shows. -/
theorem Payload.mem_facts {payload : Payload} :
    (key, value) ∈ payload.facts ↔ payload.Shows key value := by
  cases payload with
  | name n => exact Name.mem_facts
  | type t => exact TypeName.mem_facts
  | expr e => exact Expr.mem_facts
  | stmt s => exact Stmt.mem_facts
  | decl d => exact Decl.mem_facts
  | modifier m =>
    refine mem_single.trans ⟨?_, ?_⟩
    · rintro ⟨rfl, rfl⟩
      constructor
    · rintro (_ | _)
      exact ⟨rfl, rfl⟩
  | comment c =>
    obtain ⟨text, isRem⟩ := c
    refine mem_flagged.trans ⟨?_, ?_⟩
    · rintro ⟨rfl, rfl, rfl⟩
      constructor
    · rintro (_ | _)
      exact ⟨rfl, rfl, rfl⟩
  | declarator d =>
    obtain ⟨names, type, isNew, arguments, initializer⟩ := d
    refine mem_flagged.trans ⟨?_, ?_⟩
    · rintro ⟨rfl, rfl, rfl⟩
      constructor
    · rintro (_ | _)
      exact ⟨rfl, rfl, rfl⟩
  | caseClause c =>
    constructor
    · intro h
      cases c with
      | comparison op operand =>
        obtain ⟨rfl, hvalue⟩ := mem_valued.1 h
        obtain ⟨op, rfl, rfl⟩ := Option.map_eq_some_iff.1 hvalue
        constructor
      | range lower upper => cases h
    · rintro (_ | _)
      exact mem_valued.2 ⟨rfl, rfl⟩
  | _ =>
    constructor
    · intro h
      cases h
    · intro h
      cases h

theorem mem_placeFacts {s : Span} : (key, value) ∈ placeFacts s ↔ ShowsPlace s key value := by
  have hvalid (l : Location) : l.isValid = true ↔ Known l := by
    simp [Location.isValid, Known]
  constructor
  · intro h
    rcases List.mem_append.1 h with h | h
    · simp only [placeFacts.pair] at h
      split at h
      · next hs =>
        rw [hvalid] at hs
        simp only [List.mem_cons, Prod.mk.injEq, List.not_mem_nil, or_false] at h
        rcases h with ⟨rfl, rfl⟩ | ⟨rfl, rfl⟩
        · exact .startLine hs
        · exact .startColumn hs
      · cases h
    · cases hl : s.finish with
      | none => rw [hl] at h; cases h
      | some l =>
        rw [hl] at h
        simp only [placeFacts.pair] at h
        split at h
        · next hs =>
          rw [hvalid] at hs
          simp only [List.mem_cons, Prod.mk.injEq, List.not_mem_nil, or_false] at h
          rcases h with ⟨rfl, rfl⟩ | ⟨rfl, rfl⟩
          · exact .endLine hl hs
          · exact .endColumn hl hs
        · cases h
  · rintro (h | h | ⟨hl, h⟩ | ⟨hl, h⟩) <;> rw [← hvalid] at h <;>
      simp [placeFacts, placeFacts.pair, *]

end Facts

/-! ## Names -/

theorem Kind.isName_text (kind : Kind) : IsName kind.text := by
  cases kind <;> exact isName_ofList rfl

/-- Kinds have different names. -/
theorem Kind.text_injective {a b : Kind} (h : a.text = b.text) : a = b := by
  have hall (kind : Kind) : kind ∈ (Named.all : List Kind) := by
    cases kind <;> decide
  have hnodup : ((Named.all : List Kind).map Kind.text).Nodup := by decide +kernel
  exact List.inj_on_of_nodup_map hnodup (hall a) (hall b) h

/-- The names of attributes, in an order that every element keeps. -/
def attributeNames : List String :=
  ["startLine", "startCol", "endLine", "endCol", "name", "typeCharacter", "escaped", "type",
    "rank", "modifier", "isRem", "value", "operator", "kind", "label", "isLineNumber", "block",
    "preserve", "test", "option", "charset", "lib", "alias", "isNew"]

theorem isName_attributeNames : ∀ name ∈ attributeNames, IsName name := by
  repeat refine List.forall_mem_cons.2 ⟨isName_ofList rfl, ?_⟩
  exact List.forall_mem_nil _

theorem nodup_attributeNames : attributeNames.Nodup := by decide +kernel

theorem keys_flagged (name : String) (on : Bool) :
    ((flagged name on).map Prod.fst).Sublist [name] := by
  cases on
  · exact List.nil_sublist _
  · exact List.Sublist.refl _

theorem keys_valued (name : String) (value : Option String) :
    ((valued name value).map Prod.fst).Sublist [name] := by
  cases value
  · exact List.nil_sublist _
  · exact List.Sublist.refl _

theorem keys_placeFacts (s : Span) : ((placeFacts s).map Prod.fst).Sublist
    ["startLine", "startCol", "endLine", "endCol"] := by
  have hpair (line column : String) (l : Option Location) :
      ((placeFacts.pair line column l).map Prod.fst).Sublist [line, column] := by
    unfold placeFacts.pair
    repeat' split
    · exact List.Sublist.refl _
    · exact List.nil_sublist _
    · exact List.nil_sublist _
  rw [placeFacts, List.map_append]
  exact (hpair _ _ _).append (hpair _ _ _)

theorem Payload.keys_facts (payload : Payload) :
    (payload.facts.map Prod.fst).Sublist (attributeNames.drop 4) := by
  have one {name value : String} (h : [name].Sublist (attributeNames.drop 4)) :
      ([(name, value)].map Prod.fst).Sublist (attributeNames.drop 4) := h
  cases payload with
  | name value =>
    cases value with
    | simple text suffix escaped =>
      have h := ((keys_valued "typeCharacter" (suffix.map TypeSuffix.text)).append
        (keys_flagged "escaped" escaped)).cons_cons "name"
      rw [← List.map_append] at h
      exact h.trans (by decide)
    | special which => exact one (by decide)
    | _ => exact List.nil_sublist _
  | type value => cases value <;> first | exact List.nil_sublist _ | exact one (by decide)
  | expr value => cases value <;> first | exact List.nil_sublist _ | exact one (by decide)
  | modifier value => exact one (by decide)
  | comment value => exact (keys_flagged _ _).trans (by decide)
  | declarator value => exact (keys_flagged _ _).trans (by decide)
  | caseClause value =>
    cases value <;> first
      | exact List.nil_sublist _
      | exact (keys_valued _ _).trans (by decide)
  | stmt value =>
    cases value with
    | labelReference name isLineNumber =>
      exact ((keys_flagged "isLineNumber" isLineNumber).cons_cons "label").trans (by decide)
    | exit _ | next _ | endBlock _ | compoundAssignment _ _ _ => exact one (by decide)
    | resume _ label | onError _ label =>
      exact ((keys_valued "label" label).cons_cons "kind").trans (by decide)
    | reDim _ _ => exact (keys_flagged _ _).trans (by decide)
    | loopEnd condition | doBlock condition _ _ => exact (keys_valued _ _).trans (by decide)
    | _ => exact List.nil_sublist _
  | decl value =>
    cases value with
    | endBlock _ | directive _ => exact one (by decide)
    | method _ _ _ _ _ _ => exact (keys_valued _ _).trans (by decide)
    | external _ _ _ _ entryName =>
      exact (((keys_valued "alias" entryName).cons_cons "lib").cons_cons "charset").trans
        (by decide)
    | _ => exact List.nil_sublist _
  | _ => exact List.nil_sublist _

namespace Forest

variable {f : Forest}

/-! ## Elements of nodes -/

/-- The attributes of a node. -/
def attributes (f : Forest) (positions : Bool) (id : Nat) : List (String × String) :=
  (if positions then placeFacts (f.span id) else []) ++ ((f.payload? id).map Payload.facts).getD []

/-- Elements keep their attributes in one order, so no two of them have one name. -/
theorem keys_attributes (f : Forest) (positions : Bool) (id : Nat) :
    ((f.attributes positions id).map Prod.fst).Sublist attributeNames := by
  have hplace : ((if positions then placeFacts (f.span id) else []).map Prod.fst).Sublist
      (attributeNames.take 4) := by
    cases positions
    · exact List.nil_sublist _
    · exact keys_placeFacts _
  have hown : ((((f.payload? id).map Payload.facts).getD []).map Prod.fst).Sublist
      (attributeNames.drop 4) := by
    cases f.payload? id with
    | none => exact List.nil_sublist _
    | some payload => exact payload.keys_facts
  rw [attributes, List.map_append]
  exact (hplace.append hown).trans (List.take_append_drop 4 attributeNames ▸ List.Sublist.refl _)

theorem mem_attributes {f : Forest} {positions : Bool} {id : Nat} {key value : String} :
    (key, value) ∈ f.attributes positions id ↔
      positions = true ∧ ShowsPlace (f.span id) key value ∨
        ∃ payload, f.payload? id = some payload ∧ payload.Shows key value := by
  rw [attributes, List.mem_append]
  refine or_congr ?_ ?_
  · cases positions <;> simp [mem_placeFacts]
  · cases f.payload? id <;> simp [Payload.mem_facts]

/-- The text of a comment. -/
def text? (f : Forest) (id : Nat) : Option String := (f.payload? id).bind Payload.text?

theorem text?_eq_some {f : Forest} {id : Nat} {text : String} :
    f.text? id = some text ↔ ∃ isRem, f.payload? id = some (.comment ⟨text, isRem⟩) := by
  rw [text?, Option.bind_eq_some_iff]
  constructor
  · rintro ⟨payload, hp, h⟩
    cases payload with
    | comment value => cases h; exact ⟨value.isRem, hp⟩
    | _ => cases h
  · rintro ⟨isRem, hp⟩
    exact ⟨_, hp, rfl⟩

theorem element_eq (f : Forest) (positions : Bool) (id : Nat) :
    f.element positions id = .mk (f.kind id).text (f.attributes positions id) (f.text? id)
      ((f.children id).map (f.element positions)) := by
  rw [element, List.map_attach_eq_pmap, List.pmap_eq_map]
  rfl

/-- A comment has no children. -/
theorem Shaped.text_or_children (hf : Shaped f) (id : Nat) :
    f.text? id = none ∨ f.children id = [] := by
  cases hn : f.node? id with
  | none => simp [text?, payload?, hn]
  | some n =>
    have hfits := hf.fits hn
    cases hp : n.payload with
    | comment value =>
      right
      have hcomments : n.comments = [] := by
        by_contra h
        have := hfits.comments h
        have := hfits.family
        simp_all [Payload.family]
      simp [children, hn, Node.children, hp, hcomments, Payload.slots]
    | _ => simp [text?, payload?, hn, hp, Payload.text?]

theorem Shaped.readable (hf : Shaped f) (positions : Bool) (id : Nat) :
    (f.element positions id).Readable := by
  induction id using Nat.strongRecOn with
  | ind id ih =>
    rw [element_eq]
    refine .mk (Kind.isName_text _) ?_ ?_ ?_
    · intro fact hfact
      exact isName_attributeNames _
        ((f.keys_attributes positions id).subset (List.mem_map_of_mem hfact))
    · simpa using hf.text_or_children id
    · intro child hchild
      obtain ⟨c, hc, rfl⟩ := List.mem_map.mp hchild
      exact ih c (lt_of_mem_children hc)

theorem names_element (f : Forest) (positions : Bool) (id : Nat) :
    (f.element positions id).names = (f.preorder id).map fun n => (f.kind n).text := by
  have hall (children : List Nat) (h : ∀ c ∈ children, (f.element positions c).names =
      (f.preorder c).map fun n => (f.kind n).text) :
      Element.namesOfAll (children.map (f.element positions)) =
        (children.flatMap f.preorder).map fun n => (f.kind n).text := by
    induction children with
    | nil => rfl
    | cons c children ih =>
      obtain ⟨hc, hchildren⟩ := List.forall_mem_cons.mp h
      rw [List.map_cons, Element.namesOfAll, hc, ih hchildren, List.flatMap_cons, List.map_append]
  induction id using Nat.strongRecOn with
  | ind id ih =>
    rw [element_eq, preorder_eq, Element.names, hall _ fun c hc => ih c (lt_of_mem_children hc)]
    rfl

end Forest

/-- Every dump of a finished tree is one element with closed elements in it, and this element is the
subtree: each node under the name of its kind, with its own attributes and text and with its
children in order, so the names come in pre-order. The attributes of a node, no two of one name, say
its place where positions are asked for and what its payload shows, names, literals and labels as
they are; only comments have a text, which is theirs. Attributes and texts read back as they were,
and the marks that open and close elements and attributes are those of a dump with empty texts. -/
theorem dump_faithful {tree : Tree} (hfinished : tree.Finished) (options : DumpOptions) (id : Nat) :
    document? (tree.dump options id) = some (tree.element options.positions id) ∧
    (∀ n, tree.element options.positions n =
      .mk (tree.kind n).text (tree.attributes options.positions n) (tree.text? n)
        ((tree.children n).map (tree.element options.positions))) ∧
    (∀ a b : Kind, a.text = b.text → a = b) ∧
    (∀ n, ((tree.attributes options.positions n).map Prod.fst).Nodup ∧
      ∀ key value, (key, value) ∈ tree.attributes options.positions n ↔
        options.positions = true ∧ ShowsPlace (tree.span n) key value ∨
          ∃ payload, tree.payload? n = some payload ∧ payload.Shows key value) ∧
    (∀ n text, tree.text? n = some text ↔
      ∃ isRem, tree.payload? n = some (.comment ⟨text, isRem⟩)) ∧
    (tree.element options.positions id).names =
      (tree.descendants id).map (fun n => (tree.kind n).text) ∧
    Element.marks (tree.dump options id) =
      Element.marks ((tree.element options.positions id).blank.render options.indent 0) ∧
    ∀ t : String, Text.unescapeMarkup (Text.escapeMarkup t) = t ∧
      ∀ c ∈ (Text.escapeMarkup t).toList, c ≠ '<' ∧ c ≠ '>' ∧ c ≠ '"' ∧ c ≠ '\'' := by
  have hreadable := hfinished.built.shaped.readable options.positions id
  refine ⟨hreadable.document?_render options.indent, tree.element_eq options.positions,
    fun _ _ => Kind.text_injective, fun n => ⟨?_, fun _ _ => Forest.mem_attributes⟩,
    fun _ _ => Forest.text?_eq_some, ?_, Element.marks_render _ _ _,
    fun t => ⟨Text.unescapeMarkup_escapeMarkup t, fun c hc => ?_⟩⟩
  · exact (tree.keys_attributes options.positions n).nodup nodup_attributeNames
  · rw [Forest.names_element, Forest.descendants_eq_preorder]
  · simpa [Text.isMark, and_assoc] using Text.isMark_escapeMarkup hc

/-- `Return x` under a comment that looks like the end of the statement. -/
def forgedReturn : List Call :=
  let span := Span.startingAt ⟨1, 1⟩
  [.alloc .simpleName span (.name (.simple "x\" y=\"" none false)),
    .alloc .simpleNameExpression span (.expr (.simpleName 0)),
    .comment span "</Comment></ReturnStatement> &lt;" false,
    .allocWithComments .returnStatement span (.stmt (.returnValue (some 1))) [2]]

theorem forgedReturn_dump :
    (Tree.ofCalls forgedReturn 3).Finished ∧
    document? ((Tree.ofCalls forgedReturn 3).dump ⟨true, 2⟩ 3) =
      some ((Tree.ofCalls forgedReturn 3).element true 3) ∧
    (Tree.ofCalls forgedReturn 3).text? 2 = some "</Comment></ReturnStatement> &lt;" ∧
    ("name", "x\" y=\"") ∈ (Tree.ofCalls forgedReturn 3).attributes true 0 ∧
    ((Tree.ofCalls forgedReturn 3).element true 3).names =
      ["ReturnStatement", "SimpleNameExpression", "SimpleName", "Comment"] := by
  have hfinished : (Tree.ofCalls forgedReturn 3).Finished :=
    Tree.finished_ofCalls (by decide +kernel)
  obtain ⟨hread, -, -, hshown, htexts, hnames, -⟩ := dump_faithful hfinished ⟨true, 2⟩ 3
  have htext := (htexts 2 "</Comment></ReturnStatement> &lt;").2 ⟨false, rfl⟩
  have hname := ((hshown 0).2 "name" "x\" y=\"").2 (Or.inr ⟨_, rfl, .name⟩)
  have hwalk : (Tree.ofCalls forgedReturn 3).descendants 3 = [3, 1, 0, 2] := by decide +kernel
  refine ⟨hfinished, hread, htext, hname, hnames.trans ?_⟩
  rw [hwalk]
  rfl

end StructuredBasic.Syntax
