import StructuredBasic.Proofs.Lowering.Locals
import StructuredBasic.Proofs.Machine.Apart

/-!
# Every statement is lowered where its names are in use

A statement at any depth of a routine is lowered on its own, and what it becomes stands somewhere in
the lowered body (`RoutineBody.reaches`). When that happens every name that its lowering may mention
is in use (`InUse`), so a name made up there is in neither the expressions nor the statements that
come from its parts (`LowersAll.omits`).
-/

set_option autoImplicit false

namespace StructuredBasic.Lowering

open Syntax Machine
open Target.Stmt (declared declaredOptional declaredAll mentioned mentionedOptional mentionedAll)

/-! ## Statements inside lists -/

/-- The statement stands in the list or in a list inside it. -/
inductive Inside (stmt : Target.Stmt) : List Target.Stmt → Prop
  | here {list : List Target.Stmt} (h : stmt ∈ list) : Inside stmt list
  | thenBody {list thenBody elseBody : List Target.Stmt} {condition : Target.Expr}
      (hm : .conditional condition thenBody elseBody ∈ list) (h : Inside stmt thenBody) :
      Inside stmt list
  | elseBody {list thenBody elseBody : List Target.Stmt} {condition : Target.Expr}
      (hm : .conditional condition thenBody elseBody ∈ list) (h : Inside stmt elseBody) :
      Inside stmt list
  | loop {list body : List Target.Stmt} {init increment : Option Target.Stmt}
      {test : Target.Expr} (hm : .iteration init test increment body ∈ list)
      (h : Inside stmt body) : Inside stmt list

section Lists

variable {stmt : Target.Stmt} {list more : List Target.Stmt}

theorem Inside.mono (h : Inside stmt list) (hsub : ∀ x ∈ list, x ∈ more) : Inside stmt more := by
  cases h with
  | here h => exact .here (hsub _ h)
  | thenBody hm h => exact .thenBody (hsub _ hm) h
  | elseBody hm h => exact .elseBody (hsub _ hm) h
  | loop hm h => exact .loop (hsub _ hm) h

theorem Inside.append_left (h : Inside stmt list) (rest : List Target.Stmt) :
    Inside stmt (list ++ rest) :=
  h.mono fun _ hx => List.mem_append_left _ hx

theorem Inside.append_right (h : Inside stmt list) (front : List Target.Stmt) :
    Inside stmt (front ++ list) :=
  h.mono fun _ hx => List.mem_append_right _ hx

theorem inside_chain_branch {branches : List Branch} {branch : Branch} (hb : branch ∈ branches)
    (h : Inside stmt branch.2) (last : List Target.Stmt) : Inside stmt (chain branches last) := by
  induction branches with
  | nil => cases hb
  | cons first branches ih =>
    rcases List.mem_cons.1 hb with rfl | hb
    · exact .thenBody List.mem_cons_self h
    · exact .elseBody List.mem_cons_self (ih hb)

theorem inside_chain_last (branches : List Branch) (h : Inside stmt list) :
    Inside stmt (chain branches list) := by
  induction branches with
  | nil => exact h
  | cons first branches ih => exact .elseBody List.mem_cons_self ih

end Lists

/-! ## Names in use -/

theorem Spells.mono {P Q : String → Prop} {env : Env} {node : Nat} (h : Spells P env node)
    (hPQ : ∀ n, P n → Q n) : Spells Q env node :=
  ⟨fun d hd text suffix escaped hname => hPQ _ (h.names d hd text suffix escaped hname),
    fun e he n hn => hPQ _ (h.subjects e he n hn)⟩

/-- What lowering below `node` may mention is in use: the names of the source, those of the subjects
in effect, and the local that holds the result. -/
structure InUse (routine : Routine) (env : Env) (node : Nat) (s : BodyState) : Prop where
  spells : Spells (fun n => n.toLower ∈ s.taken) env node
  shadow : ∀ name, routine.shadow = some name → name.toLower ∈ s.taken

section Names

variable {routine : Routine} {env : Env} {node id : Nat} {s t : BodyState}

theorem InUse.grows (h : InUse routine env node s) (hg : Grows s t) : InUse routine env node t := by
  obtain ⟨made, htaken, -⟩ := hg
  have hsub : ∀ name ∈ s.taken, name ∈ t.taken := by
    intro name hname
    rw [htaken]
    exact List.mem_append_right _ hname
  exact ⟨h.spells.mono fun n hn => hsub _ hn, fun name hname => hsub _ (h.shadow name hname)⟩

theorem InUse.within (h : InUse routine env node s) {expression : Nat} {subject : Target.Expr}
    (hid : expression ∈ env.forest.descendants node)
    (hs : env.lowerExpr expression = .ok subject) : InUse routine (env.within subject) node s :=
  ⟨h.spells.within (h.spells.lowerExpr hid hs), h.shadow⟩

/-- A name that is not in use is foreign to what is lowered. -/
theorem InUse.foreign (h : InUse routine env node s) {n : String} (hn : n.toLower ∉ s.taken) :
    Foreign routine env node n := by
  refine ⟨h.spells.mono ?_, ?_⟩
  · rintro name hname rfl
    exact hn hname
  · intro hshadow
    exact hn (h.shadow n hshadow)

theorem inUse_routine (env : Env) (hsubjects : env.subjects = []) (node : Nat) (name : String)
    (returnType : Target.Ty) :
    InUse ⟨name, (env.routineShadow node name returnType).1, returnType⟩ env node
      ⟨(env.routineShadow node name returnType).2, []⟩ := by
  have hsource : InUse ⟨name, none, returnType⟩ env node ⟨env.namesUnder node, []⟩ := by
    refine ⟨⟨fun d hd text suffix escaped hname => mem_namesUnder hd hname, ?_⟩, ?_⟩
    · rw [hsubjects]
      exact fun e he => nomatch he
    · exact fun _ h => nomatch h
  have hgrown := hsource.grows (grows_routineShadow env node name returnType)
  refine ⟨hgrown.spells, fun shadow hshadow => ?_⟩
  unfold Env.routineShadow at hshadow ⊢
  dsimp only at hshadow ⊢
  split at hshadow
  · next hassigned =>
    cases hshadow
    rw [if_pos hassigned]
    exact List.mem_cons_self
  · cases hshadow

/-- A local that a statement declares under its own name is named in the source. -/
theorem Spells.variablesOf {P : String → Prop} (h : Spells P env node) {declarator : Nat}
    (hid : declarator ∈ env.forest.descendants node) {name : String}
    (hname : .named name ∈ env.variablesOf declarator) : P name := by
  unfold Env.variablesOf at hname
  split at hname
  · next d hd =>
    obtain ⟨text, htext, heq⟩ := List.mem_map.1 hname
    cases heq
    obtain ⟨x, hx, htext⟩ := List.mem_filterMap.1 htext
    obtain ⟨y, hy, suffix, escaped, hsimple⟩ := simple_of_nameText htext
    have hbelow : x ∈ env.forest.descendants node :=
      Forest.mem_descendants_child (Forest.mem_descendants_child hid
        (mem_children_of_declarator hd (by simp [Declarator.slots, Slot.one])))
        (Forest.mem_children_of_elements hx)
    exact h.names y (Forest.mem_descendants_trans hbelow hy) _ _ _ hsimple
  · cases hname

theorem Spells.localsAt {P : String → Prop} (h : Spells P env node)
    (hid : id ∈ env.forest.descendants node) {name : String}
    (hname : .named name ∈ env.localsAt id) : P name := by
  unfold Env.localsAt at hname
  split at hname
  · next stmt hstmt =>
    have part : ∀ {declarator : Option Nat}, (∀ c, declarator = some c →
        c ∈ stmt.slots.map Slot.id) →
        .named name ∈ declarator.toList.flatMap env.variablesOf → P name := by
      intro declarator hslot hmem
      obtain ⟨c, hc, hmem⟩ := List.mem_flatMap.1 hmem
      have hchild := Forest.mem_children_of_stmt hstmt (hslot c (by simpa using hc))
      exact h.variablesOf (Forest.mem_descendants_child hid hchild) hmem
    unfold Env.localsOf at hname
    split at hname
    case h_1 modifiers declarators =>
      obtain ⟨declarator, hdeclarator, hmem⟩ := List.mem_flatMap.1 hname
      have hlist := Forest.mem_children_of_stmt hstmt (c := declarators)
        (by simp [Stmt.slots, Slot.one])
      exact h.variablesOf (Forest.mem_descendants_child (Forest.mem_descendants_child hid hlist)
        (Forest.mem_children_of_elements hdeclarator)) hmem
    case h_2 => split at hname <;> simp at hname
    case h_3 => exact part (by rintro c rfl; simp [Stmt.slots, Slot.opt]) hname
    case h_4 =>
      rcases List.mem_append.1 hname with hname | hname
      · exact part (by rintro c rfl; simp [Stmt.slots, Slot.opt]) hname
      · simp at hname
    case h_5 => unfold Env.selectorLocal at hname; split at hname <;> simp at hname
    case h_6 =>
      obtain ⟨operand, -, hmem⟩ := List.mem_flatMap.1 hname
      unfold Env.copyLocal at hmem
      split at hmem <;> simp at hmem
    case h_7 => cases hname
  · cases hname

/-- A settled name is a name of the source, or was not in use. -/
theorem settled_cases {taken : List String} {locals : List Local} {n : String}
    (h : n ∈ (settle taken locals).map Prod.snd) : .named n ∈ locals ∨ n.toLower ∉ taken := by
  induction locals generalizing taken with
  | nil => cases h
  | cons first locals ih =>
    cases first with
    | named name =>
      rcases List.mem_cons.1 h with rfl | h
      · exact Or.inl List.mem_cons_self
      · exact (ih h).imp_left (List.mem_cons_of_mem _)
    | made base =>
      rcases List.mem_cons.1 h with rfl | h
      · exact Or.inr (fresh_not_taken taken base)
      · refine (ih h).imp (List.mem_cons_of_mem _) fun hnot htaken => ?_
        exact hnot (List.mem_cons_of_mem _ htaken)

end Names

/-! ## Names that are mentioned nowhere -/

theorem declares_eq_false {n : String} {stmt : Target.Stmt} (hn : n ∉ declared stmt) :
    declares n stmt = false := by
  cases stmt with
  | declare name type init =>
    have hne : name ≠ n := fun h => hn (h ▸ List.mem_singleton_self name)
    simpa [declares] using hne
  | _ => rfl

theorem declaredAfter_eq_false {n : String} {stmt : Target.Stmt} (hn : n ∉ declared stmt) :
    declaredAfter n false false stmt = false := by
  have hdeclares := declares_eq_false hn
  cases stmt <;> first
    | rfl
    | exact hdeclares

mutual

/-- A name that every mention comes behind a declaration of is mentioned only if it is declared. -/
theorem not_mentioned_of_covered {n : String} (stmt : Target.Stmt) (h : Covered n false stmt)
    (hn : n ∉ declared stmt) : n ∉ mentioned stmt := by
  have clear : ∀ {names : List String}, Clear n false names → n ∉ names :=
    fun h => h.resolve_left (fun h => nomatch h)
  match stmt with
  | .declare name _ init =>
    exact List.not_mem_cons_of_ne_of_not_mem (List.ne_of_not_mem_cons hn) (clear h)
  | .assign target value =>
    exact List.not_mem_append (clear h.1) (clear h.2)
  | .conditional condition thenBody elseBody =>
    obtain ⟨hthen, helse⟩ := not_or.1 (mt List.mem_append.2 hn)
    have hthen := not_mentionedAll_of_covered thenBody h.2.1 hthen
    have helse := not_mentionedAll_of_covered elseBody h.2.2 helse
    exact List.not_mem_append (List.not_mem_append (clear h.1) hthen) helse
  | .iteration init test increment body =>
    obtain ⟨hn, hincrement⟩ := not_or.1 (mt List.mem_append.2 hn)
    obtain ⟨hinit, hbody⟩ := not_or.1 (mt List.mem_append.2 hn)
    have hany : init.any (declares n) = false := by
      cases init with
      | none => rfl
      | some stmt => exact declares_eq_false hinit
    obtain ⟨hcinit, hctest, hcincrement, hcbody⟩ := h
    rw [hany, Bool.or_false] at hctest hcincrement hcbody
    have hinit := not_mentionedOptional_of_covered init hcinit hinit
    have hincrement := not_mentionedOptional_of_covered increment hcincrement hincrement
    have hbody := not_mentionedAll_of_covered body hcbody hbody
    exact List.not_mem_append (List.not_mem_append (List.not_mem_append hinit (clear hctest))
      hincrement) hbody
  | .expression e => exact clear h
  | .returns value => exact clear h
  | .goto _ => exact List.not_mem_nil
  | .breaks => exact List.not_mem_nil
  | .label _ => exact List.not_mem_nil
  | .comment _ => exact List.not_mem_nil

theorem not_mentionedOptional_of_covered {n : String} (stmt : Option Target.Stmt)
    (h : CoveredOptional n false stmt) (hn : n ∉ declaredOptional stmt) :
    n ∉ mentionedOptional stmt := by
  match stmt with
  | none => exact List.not_mem_nil
  | some stmt => exact not_mentioned_of_covered stmt h hn

theorem not_mentionedAll_of_covered {n : String} (stmts : List Target.Stmt)
    (h : CoveredList n false false stmts) (hn : n ∉ declaredAll stmts) :
    n ∉ mentionedAll stmts := by
  match stmts with
  | [] => exact List.not_mem_nil
  | stmt :: rest =>
    obtain ⟨hstmt, hrest⟩ := not_or.1 (mt List.mem_append.2 hn)
    obtain ⟨hcstmt, hcrest⟩ := h
    rw [declaredAfter_eq_false hstmt] at hcrest
    have hstmt := not_mentioned_of_covered stmt hcstmt hstmt
    have hrest := not_mentionedAll_of_covered rest hcrest hrest
    exact List.not_mem_append hstmt hrest

end

/-- A name that is not in use when statements are lowered, but is from then on, is not mentioned in
what they become. -/
theorem LowersAll.omits {routine : Routine} {env : Env} {node : Nat} {ids : List Nat} {n : String}
    {s u t : BodyState} {out : List Target.Stmt} (h : LowersAll routine env ids u out t)
    (hf : env.forest.Shaped) (hs : InUse routine env node s) (hn : n.toLower ∉ s.taken)
    (hu : n.toLower ∈ u.taken) (hids : ∀ id ∈ ids, id ∈ env.forest.descendants node) :
    n ∉ mentionedAll out := by
  have hforeign := hs.foreign hn
  refine not_mentionedAll_of_covered out (h.covers hforeign hids false false) fun hdeclared => ?_
  rw [(h.declares hf).names] at hdeclared
  rcases settled_cases hdeclared with hnamed | hnot
  · obtain ⟨id, hid, hmem⟩ := List.mem_flatMap.1 hnamed
    obtain ⟨d, hd, hlocal⟩ := Forest.mem_gather.1 hmem
    exact hforeign.spells.localsAt (Forest.mem_descendants_trans (hids id hid) hd) hlocal rfl
  · exact hnot hu

/-! ## Statements of the source -/

/-- Statements that are lowered on their own. The others are blocks of a chain, or close a block. -/
def isWhole : Stmt → Bool
  | .elseIfBlock .. | .caseBlock .. | .body _ => false
  | stmt => !stmt.isEnd

/-- The node itself where it is a statement that is lowered on its own. -/
def wholeAt (f : Forest) (id : Nat) : List Nat :=
  match f.stmt? id with
  | some stmt => if isWhole stmt then [id] else []
  | none => []

section Whole

variable {f : Forest} {id x : Nat} {stmt : Stmt}

theorem wholeAt_of (h : f.stmt? id = some stmt) :
    wholeAt f id = if isWhole stmt then [id] else [] := by
  rw [wholeAt, h]

theorem sparse_wholeAt (hf : f.Shaped) : f.Sparse (wholeAt f) := by
  refine hf.sparse_of_stmt fun id hne => ?_
  cases hstmt : f.stmt? id with
  | none => exact absurd (by rw [wholeAt, hstmt]) hne
  | some stmt =>
    refine ⟨stmt, rfl, ?_⟩
    rw [wholeAt_of hstmt] at hne
    cases stmt <;> first
      | rfl
      | exact absurd rfl hne

/-- What is gathered at a statement comes from itself, from its lists, or from its last block. -/
theorem mem_gather_stmt {α : Type} {g : Nat → List α} {a : α} (hf : f.Shaped)
    (hg : f.Sparse g) (h : f.stmt? id = some stmt) (ha : a ∈ f.gather g id) : a ∈ g id ∨
      (∃ list ∈ stmt.lists, a ∈ (f.elements list).flatMap (f.gather g)) ∨
      ∃ y, stmt.last? = some y ∧ a ∈ f.gather g y := by
  rw [hf.gather_stmt hg h, List.mem_append, List.mem_append, or_assoc] at ha
  refine ha.imp_right (Or.imp (fun ha => ?_) fun ha => ?_)
  · obtain ⟨y, hy, ha⟩ := List.mem_flatMap.1 ha
    obtain ⟨list, hlist, hy⟩ := List.mem_flatMap.1 hy
    exact ⟨list, hlist, List.mem_flatMap.2 ⟨y, hy, ha⟩⟩
  · obtain ⟨y, hy, ha⟩ := List.mem_flatMap.1 ha
    exact ⟨y, by simpa using hy, ha⟩

theorem Arm.wholeAt {env : Env} {value : Option Target.Expr} {test : Target.Expr}
    {statements : Option Nat} (h : Arm env id value test statements) :
    wholeAt env.forest id = [] := by
  cases h with
  | elseIf h => exact wholeAt_of h
  | case h => exact wholeAt_of h

end Whole

/-- The statement `x` was lowered when the names below `node` were in use, and what it became stands
in the list. -/
def Reached (routine : Routine) (f : Forest) (node x : Nat) (out : List Target.Stmt) : Prop :=
  ∃ env s core t, env.forest = f ∧ InUse routine env node s ∧ Lowers routine env x s core t ∧
    ∀ stmt ∈ core, Inside stmt out

theorem Reached.mono {routine : Routine} {f : Forest} {node x : Nat}
    {out more : List Target.Stmt} (h : Reached routine f node x out)
    (hsub : ∀ stmt, Inside stmt out → Inside stmt more) : Reached routine f node x more := by
  obtain ⟨env, s, core, t, hforest, hinUse, hlowers, hcore⟩ := h
  exact ⟨env, s, core, t, hforest, hinUse, hlowers, fun stmt hstmt => hsub stmt (hcore stmt hstmt)⟩

theorem mem_wholeAt {f : Forest} {id x : Nat} (h : x ∈ wholeAt f id) : x = id := by
  unfold wholeAt at h
  split at h
  · split at h
    · exact List.mem_singleton.1 h
    · cases h
  · cases h

theorem HasList.mem_gather {f : Forest} (hf : f.Shaped) {α : Type} {g : Nat → List α}
    (hg : f.Sparse g) {id : Nat} {statements : Option Nat} {a : α} (h : HasList f id statements)
    (ha : a ∈ f.gather g id) : a ∈ g id ∨ a ∈ (f.elements statements).flatMap (f.gather g) := by
  rwa [h.gather hf hg, List.mem_append] at ha

mutual

theorem Lowers.reaches {routine : Routine} {env : Env} {node id x : Nat} {s t : BodyState}
    {out : List Target.Stmt} (h : Lowers routine env id s out t) (hf : env.forest.Shaped)
    (hs : InUse routine env node s) (hid : id ∈ env.forest.descendants node)
    (hx : x ∈ env.forest.gather (wholeAt env.forest) id) :
    Reached routine env.forest node x out := by
  have hg := sparse_wholeAt hf
  have self : x ∈ wholeAt env.forest id → Reached routine env.forest node x out := by
    intro hx
    obtain rfl := mem_wholeAt hx
    exact ⟨env, s, out, t, rfl, hs, h, fun stmt hstmt => .here hstmt⟩
  match h with
  | .plain h =>
    obtain ⟨stmt, hstmt, _, hlists, hlast⟩ := h.stmt
    rcases mem_gather_stmt hf hg hstmt hx with hx | ⟨list, hl, _⟩ | ⟨y, hy, _⟩
    · exact self hx
    · rw [hlists] at hl
      cases hl
    · rw [hlast] at hy
      cases hy
  | .preTest h hb =>
    have hbody := hb.reaches (x := x) hf hs (h.hasList.below hid)
    rcases h.hasList.mem_gather hf hg hx with hx | hx
    · exact self hx
    · exact (hbody hx).mono fun stmt h => .loop List.mem_cons_self h
  | .postTest h _ hb _ =>
    have hlist : HasList env.forest id _ := ⟨_, h, rfl, rfl, rfl⟩
    have hbody := hb.reaches (x := x) hf (hs.grows (Grows.fresh s "latch")) (hlist.below hid)
    rcases hlist.mem_gather hf hg hx with hx | hx
    · exact self hx
    · exact (hbody hx).mono fun stmt h => .loop List.mem_cons_self (h.append_left _)
  | .counted h hb =>
    have hbody := hb.reaches (x := x) hf hs (h.hasList.below hid)
    rcases h.hasList.mem_gather hf hg hx with hx | hx
    · exact self hx
    · exact (hbody hx).mono fun stmt h => .append_right (.loop List.mem_cons_self h) _
  | .element h hb =>
    have hbody := hb.reaches (x := x) hf (hs.grows (Grows.fresh s "enumerator"))
      (h.hasList.below hid)
    rcases h.hasList.mem_gather hf hg hx with hx | hx
    · exact self hx
    · exact (hbody hx).mono fun stmt h =>
        .append_right (.loop List.mem_cons_self (.append_right h [_])) _
  | .within h _ hsubject hb =>
    have hwithin := hs.within (Forest.mem_descendants_child hid
      (Forest.mem_children_of_stmt h (by simp [Stmt.slots, Slot.expr, Slot.one]))) hsubject
    have hbody := hb.reaches (x := x) hf hwithin
      (Forest.elements_below hid h (by simp [Stmt.lists]))
    rcases mem_gather_stmt hf hg h hx with hx | ⟨list, hl, hx⟩ | ⟨y, hy, _⟩
    · exact self hx
    · cases List.mem_singleton.1 hl
      exact hbody hx
    · cases hy
  | .ifBlock h _ hthen helseIfs helse =>
    have hu := hs.grows hthen.grows
    have hbody := hthen.reaches (x := x) hf hs (Forest.elements_below hid h (by simp [Stmt.lists]))
    have hbranches := helseIfs.reaches (x := x) hf hu
      (Forest.elements_below hid h (by simp [Stmt.lists]))
    have hlast := helse.reaches (x := x) hf (hu.grows helseIfs.grows) (Forest.last_below hid h)
    rcases mem_gather_stmt hf hg h hx with hx | ⟨list, hl, hx⟩ | ⟨y, hy, hx⟩
    · exact self hx
    · rcases hl with _ | ⟨_, _ | ⟨_, hl⟩⟩
      · exact (hbody hx).mono fun stmt h => .thenBody List.mem_cons_self h
      · obtain ⟨branch, hbranch, hreached⟩ := hbranches hx
        exact hreached.mono fun stmt h =>
          .elseBody List.mem_cons_self (inside_chain_branch hbranch h _)
      · cases hl
    · exact (hlast y hy hx).mono fun stmt h =>
        .elseBody List.mem_cons_self (inside_chain_last _ h)
  | .lineIf h _ hthen helse =>
    have hbody := hthen.reaches (x := x) hf hs (Forest.elements_below hid h (by simp [Stmt.lists]))
    have hlast := helse.reaches (x := x) hf (hs.grows hthen.grows)
      (Forest.elements_below hid h (by simp [Stmt.lists]))
    rcases mem_gather_stmt hf hg h hx with hx | ⟨list, hl, hx⟩ | ⟨y, hy, _⟩
    · exact self hx
    · rcases hl with _ | ⟨_, _ | ⟨_, hl⟩⟩
      · exact (hbody hx).mono fun stmt h => .thenBody List.mem_cons_self h
      · exact (hlast hx).mono fun stmt h => .elseBody List.mem_cons_self h
      · cases hl
    · cases hy
  | .select h hselector hcases helse =>
    have hu := hs.grows (grows_of_lowerSelector hselector)
    have hbranches := hcases.reaches (x := x) hf hu
      (Forest.elements_below hid h (by simp [Stmt.lists]))
    have hlast := helse.reaches (x := x) hf (hu.grows hcases.grows) (Forest.last_below hid h)
    rcases mem_gather_stmt hf hg h hx with hx | ⟨list, hl, hx⟩ | ⟨y, hy, hx⟩
    · exact self hx
    · cases List.mem_singleton.1 hl
      obtain ⟨branch, hbranch, hreached⟩ := hbranches hx
      exact hreached.mono fun stmt h => .append_right (inside_chain_branch hbranch h _) _
    · exact (hlast y hy hx).mono fun stmt h => .append_right (inside_chain_last _ h) _

/-- Every statement below a list is reached when the list is lowered. -/
theorem LowersAll.reaches {routine : Routine} {env : Env} {node x : Nat} {ids : List Nat}
    {s t : BodyState} {out : List Target.Stmt} (h : LowersAll routine env ids s out t)
    (hf : env.forest.Shaped) (hs : InUse routine env node s)
    (hids : ∀ id ∈ ids, id ∈ env.forest.descendants node)
    (hx : x ∈ ids.flatMap (env.forest.gather (wholeAt env.forest))) :
    Reached routine env.forest node x out := by
  match h with
  | .nil => cases hx
  | .cons h hrest =>
    have hfirst := h.reaches (x := x) hf hs (hids _ List.mem_cons_self)
    have hrest := hrest.reaches (x := x) hf (hs.grows h.grows)
      fun id hid => hids id (List.mem_cons_of_mem _ hid)
    rw [List.flatMap_cons, List.mem_append] at hx
    rcases hx with hx | hx
    · exact (hfirst hx).mono fun stmt h => (h.append_right _).append_left _
    · exact (hrest hx).mono fun stmt h => h.append_right _

theorem LowersBranches.reaches {routine : Routine} {env : Env} {value : Option Target.Expr}
    {node x : Nat} {ids : List Nat} {s t : BodyState} {branches : List Branch}
    (h : LowersBranches routine env value ids s branches t) (hf : env.forest.Shaped)
    (hs : InUse routine env node s) (hids : ∀ id ∈ ids, id ∈ env.forest.descendants node)
    (hx : x ∈ ids.flatMap (env.forest.gather (wholeAt env.forest))) :
    ∃ branch ∈ branches, Reached routine env.forest node x branch.2 := by
  match h with
  | .nil => cases hx
  | .cons harm hb hrest =>
    have hg := sparse_wholeAt hf
    have hbody := hb.reaches (x := x) hf hs (harm.hasList.below (hids _ List.mem_cons_self))
    have hrest := hrest.reaches (x := x) hf (hs.grows hb.grows)
      fun id hid => hids id (List.mem_cons_of_mem _ hid)
    rw [List.flatMap_cons, List.mem_append] at hx
    rcases hx with hx | hx
    · rcases harm.hasList.mem_gather hf hg hx with hx | hx
      · rw [harm.wholeAt] at hx
        cases hx
      · exact ⟨_, List.mem_cons_self, hbody hx⟩
    · obtain ⟨branch, hbranch, hreached⟩ := hrest hx
      exact ⟨branch, List.mem_cons_of_mem _ hbranch, hreached⟩

theorem LowersElse.reaches {routine : Routine} {env : Env} {block : Option Nat} {node x : Nat}
    {s t : BodyState} {out : List Target.Stmt} (h : LowersElse routine env block s out t)
    (hf : env.forest.Shaped) (hs : InUse routine env node s)
    (hblock : ∀ y, block = some y → y ∈ env.forest.descendants node) (y : Nat)
    (hy : block = some y) (hx : x ∈ env.forest.gather (wholeAt env.forest) y) :
    Reached routine env.forest node x out := by
  match h with
  | .none => cases hy
  | .some h hb =>
    have hbody := hb.reaches (x := x) hf hs
      (Forest.elements_below (hblock _ rfl) h (by simp [Stmt.lists]))
    cases hy
    rcases mem_gather_stmt hf (sparse_wholeAt hf) h hx with hx | ⟨list, hl, hx⟩ | ⟨y, hy, _⟩
    · rw [wholeAt_of h] at hx
      cases hx
    · cases List.mem_singleton.1 hl
      exact hbody hx
    · cases hy

end

/-! ## Routines -/

theorem inside_withShadow {stmt : Target.Stmt} {out : List Target.Stmt} (h : Inside stmt out)
    (shadow : Option String) (returnType : Target.Ty) :
    Inside stmt (Env.withShadow shadow returnType out) := by
  cases shadow with
  | none => exact h
  | some name => exact (h.append_right [_]).append_left _

namespace RoutineBody

variable {forest : Forest} {settings : Settings} {body : List Target.Stmt}

theorem wholeAt_node (r : RoutineBody forest settings body) (hf : forest.Shaped) :
    wholeAt forest r.node = [] := by
  obtain ⟨_, _, d, hd⟩ := r.holds.list hf
  have hstmt : forest.stmt? r.node = none := by
    have hpayload : forest.payload? r.node = some (.decl d) := Forest.payload?_of_decl? hd
    simp only [Forest.stmt?, hpayload]
  rw [wholeAt, hstmt]

/-- Every statement of a routine is reached when the routine is lowered. -/
theorem reaches (r : RoutineBody forest settings body) (hf : forest.Shaped) {x : Nat} {stmt : Stmt}
    (hx : x ∈ forest.descendants r.node) (hstmt : forest.stmt? x = some stmt)
    (hwhole : isWhole stmt = true) : Reached r.routine forest r.node x body := by
  obtain ⟨out, state, hout, hbody⟩ := lowerRoutine_ok r.lowered
  have hmem : x ∈ forest.gather (wholeAt forest) r.node := by
    refine Forest.mem_gather.2 ⟨x, hx, ?_⟩
    rw [wholeAt_of hstmt, hwhole]
    exact List.mem_singleton_self x
  rw [r.gather_node hf (sparse_wholeAt hf) (r.wholeAt_node hf)] at hmem
  have hreached := (lowersAll_of_lowerBody hout).reaches hf
    (inUse_routine r.env rfl r.node r.name r.returnType) r.holds.below hmem
  refine hreached.mono fun stmt h => ?_
  rw [hbody]
  exact inside_withShadow h _ _

end RoutineBody

end StructuredBasic.Lowering
