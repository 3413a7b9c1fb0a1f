import StructuredBasic.Lowering.File
import StructuredBasic.Proofs.Forest.Gather

/-!
# The declarator of a reference

A reference names a text, under its parentheses and calls (`Refers`). The declarators around it
stand in a list, those of the nearest scope first (`declaratorsAround`), and the reference resolves
to the first of them that declares the text. Lowering reads the same text off the reference and
takes its type from a variable of that text (`nearest_declarator_wins`).
-/

set_option autoImplicit false

namespace StructuredBasic

namespace Syntax.Forest

/-! ## Specification -/

/-- The expression is a simple name of this text, under any number of parentheses and calls. -/
inductive Refers (f : Forest) (text : String) : Nat → Prop where
  | name {id name : Nat} (h : f.expr? id = some (.simpleName name))
      (htext : f.nameText? name = some text) : Refers f text id
  | parenthetical {id operand : Nat} (h : f.expr? id = some (.parenthetical operand))
      (hoperand : Refers f text operand) : Refers f text id
  | callOrIndex {id target : Nat} {arguments declarator : Option Nat}
      (h : f.expr? id = some (.callOrIndex target arguments declarator))
      (htarget : Refers f text target) : Refers f text id

/-- `x` is the first element of a list with the property. -/
def IsFirst (P : Nat → Prop) (xs : List Nat) (x : Nat) : Prop :=
  ∃ before after, xs = before ++ x :: after ∧ P x ∧ ∀ e ∈ before, ¬ P e

variable (f : Forest)

/-- One of the variables of a declarator has this text. -/
def Declares (text : String) (id : Nat) : Prop :=
  ∃ declarator, f.declarator? id = some declarator ∧
    ∃ v ∈ f.elements (some declarator.names), f.nameText? v = some text

/-- The declarators that a child of a scope brings in, in order. -/
def declaratorsOf (child : Nat) : List Nat :=
  match f.kind child with
  | .variableDeclarator => [child]
  | .variableDeclaratorCollection => f.elements (some child)
  | .localDeclarationStatement | .variableListDeclaration => f.elements (f.declaratorList? child)
  | _ => []

/-- The declarators around a node, those of the nearest scope first. -/
def declaratorsAround (id : Nat) : List Nat :=
  (f.ancestors id).flatMap fun scope => (f.children scope).flatMap f.declaratorsOf

/-! ## The search -/

variable {f}

theorem isFirst_iff {P : Nat → Prop} {p : Nat → Bool} (hp : ∀ e, p e = true ↔ P e) {xs : List Nat}
    {x : Nat} : xs.find? p = some x ↔ IsFirst P xs x := by
  rw [List.find?_eq_some_iff_append]
  constructor
  · rintro ⟨hx, before, after, hsplit, hbefore⟩
    refine ⟨before, after, hsplit, (hp x).1 hx, fun e he hP => ?_⟩
    have hnot : p e = false := by simpa using hbefore e he
    rw [(hp e).2 hP] at hnot
    cases hnot
  · rintro ⟨before, after, hsplit, hx, hbefore⟩
    refine ⟨(hp x).2 hx, before, after, hsplit, fun e he => ?_⟩
    have hnot : ¬ p e = true := fun h => hbefore e he ((hp e).1 h)
    simpa using hnot

theorem declares_iff {id : Nat} {text : String} :
    f.declares id text = true ↔ f.Declares text id := by
  unfold declares Declares
  cases hd : f.declarator? id with
  | none => simp
  | some declarator => simp

/-- A child brings in the first of its declarators that declares the text. -/
theorem introduced?_eq (child : Nat) (text : String) :
    f.introduced? child text = (f.declaratorsOf child).find? (f.declares · text) := by
  unfold introduced?
  split
  · next hk => simp only [declaratorsOf, hk, findDeclarator?]
  · next hk => simp only [declaratorsOf, hk, List.find?_singleton]
  · next hk =>
    simp only [declaratorsOf, hk]
    cases f.declaratorList? child <;> rfl
  · next hk =>
    simp only [declaratorsOf, hk]
    cases f.declaratorList? child <;> rfl
  · next hlist hdeclarator hlocal hfields =>
    have hnone : f.declaratorsOf child = [] := by
      unfold declaratorsOf
      split
      · exact absurd ‹_› hdeclarator
      · exact absurd ‹_› hlist
      · exact absurd ‹_› hlocal
      · exact absurd ‹_› hfields
      · rfl
    rw [hnone, List.find?_nil]

/-- The search from the inside out is one search through the declarators around the reference. -/
theorem resolve?_eq (id : Nat) :
    f.resolve? id = (f.referenceText? id).bind fun text =>
      (f.declaratorsAround id).find? (f.declares · text) := by
  unfold resolve? declaratorsAround
  congr 1
  funext text
  rw [List.find?_flatMap]
  congr 1
  funext scope
  rw [scopeDeclarator?, List.find?_flatMap]
  congr 1
  funext child
  exact introduced?_eq child text

theorem referenceText?_eq_some {id : Nat} {text : String} :
    f.referenceText? id = some text ↔ f.Refers text id := by
  constructor
  · intro h
    fun_induction referenceText? f id with
    | case1 id name hexpr => exact .name hexpr h
    | case2 id operand hexpr ih => exact .parenthetical hexpr (ih h)
    | case3 id target arguments declarator hexpr ih => exact .callOrIndex hexpr (ih h)
    | case4 => cases h
  · intro h
    induction h with
    | name hexpr htext =>
      rw [referenceText?.eq_def]
      split <;> simp_all
    | parenthetical hexpr _ ih =>
      rw [referenceText?.eq_def]
      split <;> simp_all
    | callOrIndex hexpr _ ih =>
      rw [referenceText?.eq_def]
      split <;> simp_all

/-! ## Fields -/

theorem Shaped.fields_of_kind (hf : f.Shaped) {owner : Nat}
    (h : f.kind owner = .variableListDeclaration) :
    ∃ header list, f.decl? owner = some (.variableList header list) := by
  obtain ⟨n, hn, _, hfamily⟩ := hf.exists_node (by rw [h]; decide)
  obtain ⟨d, hd⟩ : ∃ d, f.decl? owner = some d := by
    rw [h] at hfamily
    cases hp : n.payload with
    | decl d => exact ⟨d, by simp [decl?, payload?, hn, hp]⟩
    | _ => rw [hp] at hfamily; cases hfamily
  have hkind := hf.mem_kinds_decl hd
  rw [h] at hkind
  cases d <;> first
    | exact ⟨_, _, hd⟩
    | exact absurd hkind (by simp [Decl.kinds])

theorem Shaped.kind_of_fields (hf : f.Shaped) {owner list : Nat} {header : Header}
    (h : f.decl? owner = some (.variableList header list)) :
    f.kind owner = .variableListDeclaration := by
  simpa [Decl.kinds] using hf.mem_kinds_decl h

/-- A list of declarators below a declaration of fields is the list of that declaration. -/
theorem Shaped.list_of_fields (hf : f.Shaped) {owner list child : Nat} {header : Header}
    (h : f.decl? owner = some (.variableList header list)) (hc : child ∈ f.children owner)
    (hchild : f.kind child = .variableDeclaratorCollection) : child = list := by
  obtain ⟨n, hn, hp⟩ := Option.map_eq_some_iff.1 (payload?_of_decl? h)
  rcases hf.admits_of_mem_children hn hc with ⟨slot, hslot, rfl, ha⟩ | ⟨_, ha⟩
  · rw [hchild] at ha
    rw [hp] at hslot
    rcases List.mem_append.1 hslot with hslot | hslot
    · simp only [Header.slots, List.mem_append, Slot.mem_opt] at hslot
      rcases hslot with ⟨_, _, rfl⟩ | ⟨_, _, rfl⟩ <;> cases ha
    · rw [List.mem_singleton.1 hslot]
  · rw [hchild] at ha
    cases ha

/-- A declarator among the children of a list is one of its elements. -/
theorem Shaped.element_of_declarator (hf : f.Shaped) {list id : Nat}
    (hlist : f.kind list = .variableDeclaratorCollection) (hc : id ∈ f.children list)
    (hid : f.kind id = .variableDeclarator) : id ∈ f.elements (some list) := by
  obtain ⟨n, hn, _, hfamily⟩ := hf.exists_node (by rw [hlist]; decide)
  rw [hlist] at hfamily
  obtain ⟨value, hvalue⟩ := Payload.exists_collection hfamily
  rcases hf.admits_of_mem_children hn hc with ⟨slot, hslot, rfl, _⟩ | ⟨_, hcomment⟩
  · rw [hvalue] at hslot
    obtain ⟨x, hx, rfl⟩ := List.mem_map.1 hslot
    simpa [elements, collection?, payload?, hn, hvalue] using hx
  · rw [hid] at hcomment
    cases hcomment

/-- The list of a declaration of fields is unparsed text or of the kind of such lists. Unparsed
text has no elements. -/
theorem Shaped.kind_of_element (hf : f.Shaped) {owner list id : Nat} {header : Header}
    (h : f.decl? owner = some (.variableList header list)) (hid : id ∈ f.elements (some list)) :
    f.kind list = .variableDeclaratorCollection := by
  obtain ⟨n, hn, hp⟩ := Option.map_eq_some_iff.1 (payload?_of_decl? h)
  have ha := hf.slots owner n hn ⟨"declarators", list, .kind .variableDeclaratorCollection⟩ (by
    rw [hp]
    exact List.mem_append_right _ (List.mem_singleton.2 rfl))
  simp only [Expect.admits, Kind.isBad, Bool.or_eq_true, beq_iff_eq] at ha
  rcases ha with hbad | hk
  · obtain ⟨c, hc⟩ : ∃ c, f.collection? list = some c := by
      cases hc : f.collection? list with
      | some c => exact ⟨c, rfl⟩
      | none => simp [elements, hc] at hid
    obtain ⟨m, hm, hvalue⟩ := Option.map_eq_some_iff.1 (payload?_of_collection? hc)
    have hfit := (Payload.fits_of_fault? (hf.payload list m hm)).1
    rw [hvalue, ← show f.kind list = m.kind by rw [Forest.kind, hm], hbad] at hfit
    cases hfit
  · exact hk.symm

/-- The declarators of fields are the elements of the lists of fields. -/
theorem Shaped.isField_iff (hl : f.Linked) (hf : f.Shaped) {id : Nat}
    (hid : f.kind id = .variableDeclarator) :
    f.isField id = true ↔ ∃ owner header list, f.decl? owner = some (.variableList header list) ∧
      id ∈ f.elements (some list) := by
  constructor
  · intro h
    unfold isField at h
    split at h
    · next list hparent =>
      rw [Bool.and_eq_true, beq_iff_eq] at h
      obtain ⟨hlist, h⟩ := h
      split at h
      · next owner howner =>
        obtain ⟨header, declarators, hdecl⟩ := hf.fields_of_kind (beq_iff_eq.1 h)
        cases hf.list_of_fields hdecl ((hl.mem_children_iff _ _).2 howner) hlist
        exact ⟨owner, header, _, hdecl,
          hf.element_of_declarator hlist ((hl.mem_children_iff _ _).2 hparent) hid⟩
      · cases h
    · cases h
  · rintro ⟨owner, header, list, hdecl, h⟩
    have hparent := (hl.mem_children_iff _ _).1 (mem_children_of_elements h)
    have howner : f.parent? list = some owner :=
      (hl.mem_children_iff _ _).1 (mem_children_of_decl hdecl (by simp [Decl.slots, Slot.one]))
    simp [isField, hparent, howner, hf.kind_of_fields hdecl, hf.kind_of_element hdecl h]

end Syntax.Forest

namespace Lowering

open Syntax Forest

/-- The type of a text in a declarator that declares it is the type of its first variable of that
text. -/
theorem declaratorType_of_declares (env : Env) {d : Nat} {text : String}
    (h : env.forest.Declares text d) : ∃ declarator v,
      env.forest.declarator? d = some declarator ∧
      IsFirst (fun declared => env.forest.nameText? declared = some text)
        (env.forest.elements (some declarator.names)) v ∧
      env.declaratorType d text = env.variableType v declarator.type := by
  obtain ⟨declarator, hd, v, hmem, htext⟩ := h
  have hfound : ((env.forest.elements (some declarator.names)).find? fun declared =>
      env.forest.nameText? declared == some text).isSome := by
    rw [List.find?_isSome]
    exact ⟨v, hmem, by rw [htext]; exact beq_self_eq_true _⟩
  obtain ⟨first, hfirst⟩ := Option.isSome_iff_exists.1 hfound
  refine ⟨declarator, first, hd, (isFirst_iff fun v => beq_iff_eq).1 hfirst, ?_⟩
  simp only [Env.declaratorType, hd, hfirst]

/-- A reference resolves to the nearest declarator of the text that it names, the first one of the
scope. Lowering reads the same text off it, and the type it takes from a declarator of the text is
that of a variable with the text. -/
theorem nearest_declarator_wins (env : Env) (r d : Nat) :
    (env.forest.resolve? r = some d ↔ ∃ text, env.forest.Refers text r ∧
      IsFirst (env.forest.Declares text) (env.forest.declaratorsAround r) d) ∧
    (∀ text, env.referenceText? r = some text ↔ env.forest.Refers text r) ∧
    ∀ text, env.forest.Declares text d → ∃ declarator v,
      env.forest.declarator? d = some declarator ∧
      IsFirst (fun declared => env.forest.nameText? declared = some text)
        (env.forest.elements (some declarator.names)) v ∧
      env.declaratorType d text = env.variableType v declarator.type := by
  refine ⟨?_, fun text => ?_, fun text => declaratorType_of_declares env⟩
  · rw [resolve?_eq, Option.bind_eq_some_iff]
    constructor
    · rintro ⟨text, htext, hfind⟩
      exact ⟨text, referenceText?_eq_some.1 htext, (isFirst_iff fun _ => declares_iff).1 hfind⟩
    · rintro ⟨text, htext, hfirst⟩
      exact ⟨text, referenceText?_eq_some.2 htext, (isFirst_iff fun _ => declares_iff).2 hfirst⟩
  · rw [Env.referenceText?_eq]
    exact referenceText?_eq_some

/-- A field `x`, and a `Sub` that declares `x As Integer` and calls `(x)`. -/
def shadowedFile : List Call :=
  let span := Span.startingAt ⟨1, 1⟩
  [.alloc .simpleName span (.name (.simple "x" none false)),
    .alloc .variableName span (.name (.declared 0 none)),
    .collection .variableNameCollection span [some 1] [],
    .alloc .variableDeclarator span (.declarator ⟨2, none, false, none, none⟩),
    .collection .variableDeclaratorCollection span [some 3] [],
    .alloc .variableListDeclaration span (.decl (.variableList ⟨none, none⟩ 4)),
    .alloc .simpleName span (.name (.simple "x" none false)),
    .alloc .variableName span (.name (.declared 6 none)),
    .collection .variableNameCollection span [some 7] [],
    .alloc .intrinsicType span (.type (.intrinsic .integer)),
    .alloc .variableDeclarator span (.declarator ⟨8, some 9, false, none, none⟩),
    .collection .variableDeclaratorCollection span [some 10] [],
    .alloc .modifier span (.modifier .dim),
    .collection .modifierCollection span [some 12] [],
    .alloc .localDeclarationStatement span (.stmt (.localDeclaration 13 11)),
    .alloc .simpleName span (.name (.simple "x" none false)),
    .alloc .simpleNameExpression span (.expr (.simpleName 15)),
    .alloc .parentheticalExpression span (.expr (.parenthetical 16)),
    .alloc .callStatement span (.stmt (.call 17 none)),
    .collection .statementCollection span [some 14, some 18] [],
    .alloc .simpleName span (.name (.simple "Main" none false)),
    .alloc .subDeclaration span
      (.decl (.method ⟨none, none⟩ (.ofName 20) none none (some 19) none)),
    .collection .declarationCollection span [some 5, some 21] [],
    .alloc .file span (.file ⟨some 22⟩)]

def shadowedEnv : Env :=
  Env.atTop (Tree.ofCalls shadowedFile 23).toForest .standard Settings.standard.options

theorem local_wins_over_field : (Tree.ofCalls shadowedFile 23).Finished ∧
    shadowedEnv.forest.declaratorsAround 17 = [10, 3] ∧
    shadowedEnv.forest.Declares "x" 3 ∧
    shadowedEnv.forest.resolve? 17 = some 10 ∧
    shadowedEnv.referenceText? 17 = some "x" ∧
    ∃ declarator v, shadowedEnv.forest.declarator? 10 = some declarator ∧
      shadowedEnv.forest.nameText? v = some "x" ∧
      shadowedEnv.declaratorType 10 "x" = shadowedEnv.variableType v declarator.type := by
  have hfinished : (Tree.ofCalls shadowedFile 23).Finished :=
    Tree.finished_ofCalls (by decide +kernel)
  obtain ⟨hresolve, htext, htype⟩ := nearest_declarator_wins shadowedEnv 17 10
  have hrefers : shadowedEnv.forest.Refers "x" 17 :=
    referenceText?_eq_some.1 (by decide +kernel)
  have haround : shadowedEnv.forest.declaratorsAround 17 = [10, 3] := by
    decide +kernel
  have hfield : shadowedEnv.forest.Declares "x" 3 := declares_iff.1 (by decide +kernel)
  have hlocal : shadowedEnv.forest.Declares "x" 10 := declares_iff.1 (by decide +kernel)
  have hfirst : IsFirst (shadowedEnv.forest.Declares "x")
      (shadowedEnv.forest.declaratorsAround 17) 10 :=
    ⟨[], [3], haround, hlocal, by simp⟩
  obtain ⟨declarator, v, hd, ⟨_, _, _, hv, _⟩, heq⟩ := htype "x" hlocal
  exact ⟨hfinished, haround, hfield, hresolve.2 ⟨"x", hrefers, hfirst⟩, (htext "x").2 hrefers,
    declarator, v, hd, hv, heq⟩

end Lowering

end StructuredBasic
