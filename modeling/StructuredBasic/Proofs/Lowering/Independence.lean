import StructuredBasic.Proofs.Forest.Accepted
import StructuredBasic.Proofs.Lowering.Declarations

/-!
# Independence of declarations

The declarations of a file are lowered in one pass, which keeps the options that directives set so
far. `lowerApart` lowers each declaration by itself instead, under the initial options changed by
the directives in front of it. A file that lowers gets the type that `lowerApart` gives
(`declarations_lower_apart`), so a directive reaches what follows it only, and nothing else passes
from one declaration to another.
-/

set_option autoImplicit false

namespace StructuredBasic.Lowering

open Syntax

/-! ## Declarations by themselves -/

/-- The directive that a declaration is. -/
def directive? (forest : Forest) (id : Nat) : Option Directive :=
  match forest.decl? id with
  | some (.directive directive) => some directive
  | _ => none

/-- The initial options, changed by the directives among declarations. -/
def optionsAfter (forest : Forest) (settings : Settings) (declarations : List Nat) :
    Target.SourceOptions :=
  (declarations.filterMap (directive? forest)).foldl applyDirective settings.options

/-- The surroundings of the declaration at a place, which are all that it knows of the others. -/
def envAt (forest : Forest) (settings : Settings) (declarations : List Nat) (place : Nat) : Env :=
  Env.atTop forest settings (optionsAfter forest settings (declarations.take place))

/-- A declaration that stands aside of the members of a file. -/
inductive Aside (forest : Forest) (id : Nat) : Prop
  | directive {directive : Directive} (h : forest.decl? id = some (.directive directive))
  | imports {clauses : Nat} (h : forest.decl? id = some (.imports clauses))
  | empty (h : forest.decl? id = some .empty)
  | endBlock {kind : Block} (h : forest.decl? id = some (.endBlock kind))

theorem aside_iff {forest : Forest} {id : Nat} :
    Aside forest id ↔ isDirective (forest.decl? id) = true := by
  constructor
  · rintro (h | h | h | h) <;> rw [h] <;> rfl
  · intro h
    unfold isDirective at h
    split at h
    · next hdecl => exact .directive hdecl
    · next hdecl => exact .imports hdecl
    · next hdecl => exact .empty hdecl
    · next hdecl => exact .endBlock hdecl
    · cases h

instance (forest : Forest) : DecidablePred (Aside forest) := fun _ =>
  decidable_of_iff' _ aside_iff

/-- The declarations that do not stand aside, out of declarations with their places. -/
def contents (forest : Forest) (declarations : List (Nat × Nat)) : List (Nat × Nat) :=
  declarations.filter fun d => ¬ Aside forest d.1

/-- The type block that a file consists of, with its place. -/
def soleBlock? (forest : Forest) (declarations : List Nat) : Option (Nat × Nat) :=
  match contents forest declarations.zipIdx with
  | [d] =>
    match forest.decl? d.1 with
    | some (.typeBlock ..) => some d
    | _ => none
  | _ => none

/-- The type that a file becomes, with each declaration lowered by itself. -/
def lowerApart (forest : Forest) (settings : Settings) (declarations : List Nat) :
    Result Target.TypeDecl :=
  match soleBlock? forest declarations with
  | some (id, place) => (envAt forest settings declarations place).lowerTypeBlock id
  | none => do
    let parts ← (contents forest declarations.zipIdx).mapM fun d =>
      (envAt forest settings declarations d.2).lowerMembers d.1 settings.className true
    return wrapper settings parts.flatten

section Options

variable {forest : Forest} {settings : Settings}

theorem optionsAfter_concat (done : List Nat) (id : Nat) :
    optionsAfter forest settings (done ++ [id]) =
      (directive? forest id).toList.foldl applyDirective (optionsAfter forest settings done) := by
  rw [optionsAfter, List.filterMap_append, List.foldl_append, optionsAfter]
  cases h : directive? forest id with
  | none => rw [List.filterMap_cons_none h]; rfl
  | some directive => rw [List.filterMap_cons_some h]; rfl

theorem envAt_length (done ids : List Nat) :
    envAt forest settings (done ++ ids) done.length =
      Env.atTop forest settings (optionsAfter forest settings done) := by
  rw [envAt, List.take_left]

end Options

/-! ## One pass over the declarations -/

section Pass

variable {forest : Forest} {settings : Settings} {sole : Option Nat} {id : Nat}
  {state next last : FileState}

/-- A declaration changes the options by the directive that it is. Unless it is a directive, it
gives the type of the file or more members, under the options so far. -/
theorem lowerDeclaration_ok (h : lowerDeclaration forest settings sole state id = .ok next) :
    next.options = (directive? forest id).toList.foldl applyDirective state.options ∧
      if isDirective (forest.decl? id) then
        next.type = state.type ∧ next.members = state.members
      else if sole = some id then
        ∃ type, (Env.atTop forest settings state.options).lowerTypeBlock id = .ok type ∧
          next.type = some type
      else
        ∃ members, (Env.atTop forest settings state.options).lowerMembers id settings.className
            true = .ok members ∧
          next.type = state.type ∧ next.members = state.members ++ members := by
  unfold lowerDeclaration at h
  dsimp only at h
  split at h
  case h_1 hdecl =>
    cases h
    simp [directive?, isDirective, hdecl]
  case h_2 hdecl =>
    simp only [Result.bind_ok, Result.pure_ok] at h
    obtain ⟨imports, _, rfl⟩ := h
    simp [directive?, isDirective, hdecl]
  case h_3 hdecl =>
    cases h
    simp [directive?, isDirective, hdecl]
  case h_4 hdecl =>
    cases h
    simp [directive?, isDirective, hdecl]
  case h_5 hdirective himports hempty hend =>
    have hcontent : isDirective (forest.decl? id) = false := by
      unfold isDirective
      split <;> simp_all
    have hnone : directive? forest id = none := by
      unfold directive?
      split <;> simp_all
    rw [hcontent, hnone]
    split at h <;> simp only [Result.bind_ok, Result.pure_ok] at h
    · next hsole =>
      obtain ⟨type, htype, rfl⟩ := h
      simp [hsole, htype]
    · next hsole =>
      obtain ⟨members, hmembers, rfl⟩ := h
      simp [hsole, hmembers]

/-- The pass gives the options behind all declarations and, where the sole type is not among them,
the members that they have by themselves. -/
theorem apart_of_foldlM (done : List Nat) {ids : List Nat}
    (h : ids.foldlM (lowerDeclaration forest settings sole) state = .ok last)
    (hoptions : state.options = optionsAfter forest settings done)
    (hsole : ∀ id ∈ ids, sole = some id → isDirective (forest.decl? id) = true) :
    last.options = optionsAfter forest settings (done ++ ids) ∧ last.type = state.type ∧
      ∃ parts, (contents forest (ids.zipIdx done.length)).mapM (fun d =>
          (envAt forest settings (done ++ ids) d.2).lowerMembers d.1 settings.className true) =
          .ok parts ∧
        last.members = state.members ++ parts.flatten := by
  -- the declarations in `done` have been passed: they fix the options and the places of the rest
  induction ids generalizing done state with
  | nil =>
    rw [List.foldlM_nil, Result.pure_ok] at h
    subst h
    exact ⟨by rw [List.append_nil, hoptions], rfl, [], rfl, by simp⟩
  | cons id ids ih =>
    rw [List.foldlM_cons, Result.bind_ok] at h
    obtain ⟨next, hnext, h⟩ := h
    obtain ⟨hfirst, hrest⟩ := List.forall_mem_cons.1 hsole
    obtain ⟨hchanged, hgives⟩ := lowerDeclaration_ok hnext
    rw [hoptions, ← optionsAfter_concat] at hchanged
    obtain ⟨hlast, htype, parts, hparts, hmembers⟩ := ih (done ++ [id]) h hchanged hrest
    rw [List.length_append, List.length_singleton] at hparts
    rw [List.append_cons, List.zipIdx_cons, contents, List.filter_cons]
    refine ⟨hlast, ?_⟩
    split at hgives
    · next hdirective =>
      rw [if_neg (by simp [aside_iff, hdirective])]
      exact ⟨htype.trans hgives.1, parts, hparts, by rw [hmembers, hgives.2]⟩
    · next hdirective =>
      rw [if_neg fun h => hdirective (hfirst h)] at hgives
      obtain ⟨members, hlowered, hsame, hadded⟩ := hgives
      rw [if_pos (by simp [aside_iff, hdirective]), List.mapM_cons]
      rw [hoptions, ← envAt_length done ([id] ++ ids), ← List.append_assoc] at hlowered
      refine ⟨htype.trans hsame, members :: parts, ?_, ?_⟩
      · rw [hlowered]
        simp only [contents] at hparts
        simp only [hparts]
        rfl
      · rw [hmembers, hadded, List.flatten_cons, List.append_assoc]

end Pass

/-! ## Files -/

/-- A block that is lowered as a member is of one of the kinds that become types. -/
theorem typeKind_of_lowerMembers {env : Env} {owner : String} {inModule : Bool} {id : Nat}
    {members : List Target.Member} {header : Header} {name : Nat}
    {parameters declarations tail : Option Nat}
    (hdecl : env.forest.decl? id = some (.typeBlock header name parameters declarations tail))
    (h : env.lowerMembers id owner inModule = .ok members) :
    ∃ kind, typeKind? (env.forest.kind id) = some kind := by
  cases lowersMembers_of_lowerMembers h with
  | type ht =>
    obtain ⟨hkind, _, _, _, _⟩ := ht
    exact ⟨_, hkind⟩
  | empty hother => cases hdecl.symm.trans hother
  | endBlock hother => cases hdecl.symm.trans hother
  | fields hother => cases hdecl.symm.trans hother
  | method hother => cases hdecl.symm.trans hother
  | external hother => cases hdecl.symm.trans hother
  | property hother => cases hdecl.symm.trans hother
  | enumeration hother => cases hdecl.symm.trans hother

section Files

variable {forest : Forest} {settings : Settings} {declarations : List Nat}

theorem contents_map_fst (forest : Forest) (places : List (Nat × Nat)) :
    (contents forest places).map Prod.fst =
      (places.map Prod.fst).filter fun id => !isDirective (forest.decl? id) := by
  rw [List.filter_map, contents]
  refine congrArg (List.map Prod.fst) (List.filter_congr fun d _ => ?_)
  rw [decide_not]
  exact congrArg (! ·) (Bool.eq_iff_iff.2 (decide_eq_true_iff.trans aside_iff))

theorem contents_eq_nil {places : List (Nat × Nat)} :
    contents forest places = [] ↔ ∀ d ∈ places, Aside forest d.1 := by
  simp [contents, List.filter_eq_nil_iff]

/-- The sole type of a file stands between declarations that stand aside. -/
theorem soleType_ok {id : Nat} (h : soleType? forest declarations = some id) :
    ∃ before after, declarations = before ++ id :: after ∧ ¬ Aside forest id ∧
      (∀ x ∈ before, Aside forest x) ∧ ∀ x ∈ after, Aside forest x := by
  simp only [aside_iff]
  unfold soleType? at h
  split at h
  · next sole hfilter =>
    split at h <;> cases h
    obtain ⟨before, after, hsplit, hbefore, hcontent, hafter⟩ :=
      List.filter_eq_cons_iff.1 hfilter
    rw [List.filter_eq_nil_iff] at hafter
    exact ⟨before, after, hsplit, by simpa using hcontent, by simpa using hbefore,
      by simpa using hafter⟩
  · cases h

theorem contents_between {before after : List Nat} {id : Nat} (hcontent : ¬ Aside forest id)
    (hbefore : ∀ x ∈ before, Aside forest x) (hafter : ∀ x ∈ after, Aside forest x) :
    contents forest (before ++ id :: after).zipIdx = [(id, before.length)] := by
  have hfront : contents forest before.zipIdx = [] :=
    contents_eq_nil.2 fun d hd => hbefore d.1 (List.fst_mem_of_mem_zipIdx hd)
  have hback : contents forest (after.zipIdx (before.length + 1)) = [] :=
    contents_eq_nil.2 fun d hd => hafter d.1 (List.fst_mem_of_mem_zipIdx hd)
  rw [List.zipIdx_append, List.zipIdx_cons, Nat.zero_add]
  unfold contents at hfront hback ⊢
  rw [List.filter_append, hfront, List.filter_cons_of_pos (by simpa using hcontent), hback,
    List.nil_append]

/-- The type block that a file consists of is its only content. -/
theorem soleBlock?_eq_some {id place : Nat} :
    soleBlock? forest declarations = some (id, place) ↔
      contents forest declarations.zipIdx = [(id, place)] ∧
        ∃ header name parameters members tail,
          forest.decl? id = some (.typeBlock header name parameters members tail) := by
  unfold soleBlock?
  constructor
  · intro h
    split at h
    · next hcontents =>
      split at h
      · next hdecl =>
        cases h
        exact ⟨hcontents, _, _, _, _, _, hdecl⟩
      · cases h
    · cases h
  · rintro ⟨hcontents, _, _, _, _, _, hdecl⟩
    simp only [hcontents, hdecl]

theorem apart_of_sole {id : Nat} {last : FileState}
    (hsole : soleType? forest declarations = some id)
    (h : declarations.foldlM (lowerDeclaration forest settings (some id))
      ⟨settings.options, [], none, []⟩ = .ok last) :
    last.options = optionsAfter forest settings declarations ∧
      ∃ type, last.type = some type ∧ lowerApart forest settings declarations = .ok type := by
  obtain ⟨before, after, rfl, hcontent, hbefore, hafter⟩ := soleType_ok hsole
  rw [List.foldlM_append, Result.bind_ok] at h
  obtain ⟨first, hfirst, h⟩ := h
  rw [List.foldlM_cons, Result.bind_ok] at h
  obtain ⟨next, hnext, h⟩ := h
  have hfront := apart_of_foldlM [] hfirst rfl fun x hx _ => aside_iff.1 (hbefore x hx)
  rw [List.nil_append] at hfront
  obtain ⟨hchanged, hgives⟩ := lowerDeclaration_ok hnext
  rw [hfront.1, ← optionsAfter_concat] at hchanged
  rw [if_neg (mt aside_iff.2 hcontent), if_pos rfl, hfront.1] at hgives
  obtain ⟨type, hlowered, htype⟩ := hgives
  obtain ⟨hoptions, hsame, -⟩ :=
    apart_of_foldlM _ h hchanged fun x hx _ => aside_iff.1 (hafter x hx)
  rw [← List.append_cons] at hoptions
  refine ⟨hoptions, type, hsame.trans htype, ?_⟩
  -- the sole type lowers, so it is a block, and the only content of the file
  obtain ⟨hkind, hdecl, _, _, _⟩ :=
    lowersType_of_lowerTypeBlock (fun _ _ _ _ _ => lowersMembers_of_lowerMembers) hlowered
  have hblock : soleBlock? forest (before ++ id :: after) = some (id, before.length) :=
    soleBlock?_eq_some.2 ⟨contents_between hcontent hbefore hafter, _, _, _, _, _, hdecl⟩
  unfold lowerApart
  rw [hblock]
  dsimp only
  rw [envAt_length]
  exact hlowered

/-- Without a sole type there is no sole block: the one content of the file is lowered as a member,
and of the blocks only those of a kind that becomes a type are. -/
theorem soleBlock?_eq_none {parts : List (List Target.Member)}
    (hsole : soleType? forest declarations = none)
    (hparts : (contents forest declarations.zipIdx).mapM (fun d =>
      (envAt forest settings declarations d.2).lowerMembers d.1 settings.className true) =
        .ok parts) : soleBlock? forest declarations = none := by
  cases hblock : soleBlock? forest declarations with
  | none => rfl
  | some d =>
    obtain ⟨hcontents, _, _, _, _, _, hdecl⟩ := soleBlock?_eq_some.1 hblock
    rw [hcontents, List.mapM_cons, Result.bind_ok] at hparts
    obtain ⟨members, hmembers, -⟩ := hparts
    obtain ⟨kind, hkind : typeKind? (forest.kind d.1) = some kind⟩ :=
      typeKind_of_lowerMembers hdecl hmembers
    have hids := contents_map_fst forest declarations.zipIdx
    rw [hcontents, List.zipIdx_map_fst, List.map_singleton] at hids
    unfold soleType? at hsole
    rw [← hids] at hsole
    simp [hkind] at hsole

theorem apart_of_lowerDeclarations {program : Target.Program}
    (h : lowerDeclarations forest settings declarations = .ok program) :
    program.options = optionsAfter forest settings declarations ∧
      lowerApart forest settings declarations = .ok program.type := by
  simp only [lowerDeclarations, Result.bind_ok, Result.pure_ok] at h
  obtain ⟨last, hlast, rfl⟩ := h
  cases hsole : soleType? forest declarations with
  | none =>
    rw [hsole] at hlast
    have hnotSole : ∀ id ∈ declarations, none = some id →
        isDirective (forest.decl? id) = true := by
      intro id _ h
      cases h
    obtain ⟨hoptions, htype, parts, hparts, hmembers⟩ := apart_of_foldlM [] hlast rfl hnotSole
    have hnone : last.type = none := htype
    have hall : last.members = parts.flatten := hmembers
    have hblock := soleBlock?_eq_none hsole hparts
    refine ⟨hoptions, ?_⟩
    unfold lowerApart
    rw [hblock]
    dsimp only
    rw [Result.bind_ok]
    exact ⟨parts, hparts, by rw [hnone, hall]; rfl⟩
  | some id =>
    rw [hsole] at hlast
    obtain ⟨hoptions, type, htype, hlowered⟩ := apart_of_sole hsole hlast
    exact ⟨hoptions, by rw [htype]; exact hlowered⟩

end Files

/-- A `Like` in front of an `Option Compare Text` and one behind it. -/
def likeFile : List Call :=
  let span := Span.startingAt ⟨1, 1⟩
  [.alloc .simpleName span (.name (.simple "First" none false)),
    .alloc .stringLiteralExpression span (.expr (.literal (.string "a"))),
    .alloc .stringLiteralExpression span (.expr (.literal (.string "A"))),
    .alloc .binaryOperatorExpression span (.expr (.binary .like ⟨1, 1⟩ 1 2)),
    .alloc .whileBlockStatement span (.stmt (.whileBlock 3 none none)),
    .collection .statementCollection span [some 4] [],
    .alloc .subDeclaration span
      (.decl (.method ⟨none, none⟩ (.ofName 0) none none (some 5) none)),
    .alloc .optionDeclaration span (.decl (.directive .compareText)),
    .alloc .simpleName span (.name (.simple "Second" none false)),
    .alloc .stringLiteralExpression span (.expr (.literal (.string "a"))),
    .alloc .stringLiteralExpression span (.expr (.literal (.string "A"))),
    .alloc .binaryOperatorExpression span (.expr (.binary .like ⟨1, 1⟩ 9 10)),
    .alloc .whileBlockStatement span (.stmt (.whileBlock 11 none none)),
    .collection .statementCollection span [some 12] [],
    .alloc .subDeclaration span
      (.decl (.method ⟨none, none⟩ (.ofName 8) none none (some 13) none)),
    .collection .declarationCollection span [some 6, some 7, some 14] [],
    .alloc .file span (.file ⟨some 15⟩)]

theorem like_accepted : (Forest.empty.after likeFile).size = likeFile.length := by
  decide +kernel

def likeMethod (name : String) (mode : Target.CompareMode) : Target.Method where
  name := name
  kind := .normal
  visibility := .publicAccess
  isStatic := true
  typeParameters := []
  parameters := []
  returnType := .void
  body := [preTestLoop (.staticCall "LikeOperator" "LikeString"
    [.literal (.string "a"), .literal (.string "A"), compareArgument mode]) []]
  entry := none
  comments := []

def likeProgram : Target.Program where
  nameSpace := none
  imports := []
  options := { Settings.standard.options with compare := .text }
  type := wrapper .standard [.method (likeMethod "First" .binary),
    .method (likeMethod "Second" .text)]

end StructuredBasic.Lowering
