import StructuredBasic.Pipeline
import StructuredBasic.Proofs.Lowering.Refusals

/-!
# What stands in the way of a program

A tree with unparsed text anywhere in it is refused for the first such node, before any other node
is looked at. Past that, lowering blames a node of the tree or calls the tree malformed, and no node
that it could blame holds unparsed text (`refusals_name_nodes`). A parsed file with errors is
refused without a look at its tree.
-/

set_option autoImplicit false

namespace StructuredBasic

open Syntax Lowering

/-! ## Unparsed text -/

section BadNodes

variable {f : Forest}

theorem badNode?_eq_some {id : Nat} (h : badNode? f = some id) :
    id < f.size ∧ f.kind id = .syntaxError ∧ ∀ other < id, f.kind other ≠ .syntaxError := by
  unfold badNode? Forest.ids at h
  obtain ⟨hbad, hmem, hfirst⟩ := List.find?_range_eq_some.1 h
  refine ⟨List.mem_range.1 hmem, eq_of_beq hbad, fun other hlt heq => ?_⟩
  have hother := hfirst other hlt
  rw [heq] at hother
  cases hother

/-- Without unparsed text, the error of a node says what and where the node is. -/
theorem unsupported_of_blames (h : badNode? f = none) {e : LowerError} (he : Blames f e) :
    ∃ id < f.size, e = .unsupported (f.kind id) (f.span id) ∧ f.kind id ≠ .syntaxError := by
  obtain ⟨id, hid, rfl⟩ := he
  have hgood := badNode?_eq_none h id hid
  refine ⟨id, hid, ?_, hgood⟩
  rw [Lowering.unsupported, if_neg]
  exact fun hbad => hgood (eq_of_beq hbad)

end BadNodes

/-! ## Lowering -/

section Lowering

variable {tree : Tree} {settings : Settings}

theorem lowerFile_of_badNode {id : Nat} (h : badNode? tree.toForest = some id) :
    lowerFile tree settings = .error (.badNode (tree.span id)) := by
  rw [lowerFile, h]

/-- Past the search for unparsed text, an error blames a node or calls the tree malformed. -/
theorem lowerFile_fails (hfinished : tree.Finished) (h : badNode? tree.toForest = none) :
    (lowerFile tree settings).Fails fun e =>
      Blames tree.toForest e ∨ ∃ reason, e = .malformed reason := by
  rw [lowerFile, h]
  dsimp only
  split
  · next file hfile =>
    unfold lowerDeclarations
    refine Result.Fails.bind (Result.fails_foldlM (I := fun _ => True) ?_ trivial) fun _ =>
      Result.fails_ok
    intro id hid state _
    obtain ⟨hpresent, houtside⟩ := declarations_outside hfinished hfile id hid
    have hl := hfinished.built.linked
    have hf := hfinished.built.shaped
    refine ⟨(explained_lowerDeclaration hl hf hpresent houtside state).mono ?_, fun _ _ => trivial⟩
    rintro e (hblames | ⟨reason, rfl, _⟩)
    · exact .inl hblames
    · exact .inr ⟨reason, rfl⟩
  · exact Result.fails_error (.inr ⟨_, rfl⟩)

theorem lowerFile_eq_badNode (hfinished : tree.Finished) {span : Span}
    (h : lowerFile tree settings = .error (.badNode span)) :
    ∃ id, badNode? tree.toForest = some id ∧ span = tree.span id := by
  cases hbad : badNode? tree.toForest with
  | some id =>
    rw [lowerFile_of_badNode hbad] at h
    cases h
    exact ⟨id, rfl, rfl⟩
  | none =>
    rcases lowerFile_fails hfinished hbad _ h with hblames | ⟨_, heq⟩
    · obtain ⟨_, _, heq, _⟩ := unsupported_of_blames hbad hblames
      cases heq
    · cases heq

theorem lowerFile_eq_unsupported (hfinished : tree.Finished) {kind : Kind} {span : Span}
    (h : lowerFile tree settings = .error (.unsupported kind span)) :
    kind ≠ .syntaxError ∧ ∃ id < tree.size, kind = tree.kind id ∧ span = tree.span id := by
  cases hbad : badNode? tree.toForest with
  | some id =>
    rw [lowerFile_of_badNode hbad] at h
    cases h
  | none =>
    rcases lowerFile_fails hfinished hbad _ h with hblames | ⟨_, heq⟩
    · obtain ⟨id, hid, heq, hgood⟩ := unsupported_of_blames hbad hblames
      cases heq
      exact ⟨hgood, id, hid, rfl, rfl⟩
    · cases heq

end Lowering

/-! ## Parsed files -/

section Files

variable {file : ParsedFile} {settings : Settings}

theorem transpile_eq_ok {program : Target.Program} (h : transpile file settings = .ok program) :
    file.errorCount = 0 ∧ ∀ id < file.tree.size, file.tree.kind id ≠ .syntaxError := by
  unfold transpile at h
  split at h
  · next hcount =>
    refine ⟨hcount, ?_⟩
    cases hbad : badNode? file.tree.toForest with
    | some id =>
      rw [lowerFile_of_badNode hbad] at h
      cases h
    | none => exact badNode?_eq_none hbad
  · cases h

theorem transpile_eq_parseErrors {name : String} {count : Nat} :
    transpile file settings = .error (.parseErrors name count) ↔
      0 < file.errorCount ∧ name = file.name ∧ count = file.errorCount := by
  unfold transpile
  by_cases hcount : file.errorCount = 0
  · rw [if_pos hcount]
    constructor
    · intro h
      split at h <;> cases h
    · rintro ⟨hpos, _⟩
      omega
  · rw [if_neg hcount]
    constructor
    · rintro ⟨⟩
      exact ⟨Nat.pos_of_ne_zero hcount, rfl, rfl⟩
    · rintro ⟨_, rfl, rfl⟩
      rfl

end Files

/-- `Sub Main` with a `Try` in line 3, which has no lowering. -/
def attemptFile : List Call :=
  let span := Span.startingAt ⟨1, 1⟩
  [.alloc .simpleName span (.name (.simple "Main" none false)),
    .alloc .tryBlockStatement (.startingAt ⟨3, 1⟩) (.stmt (.tryBlock none none none none)),
    .collection .statementCollection span [some 1] [],
    .alloc .subDeclaration span
      (.decl (.method ⟨none, none⟩ (.ofName 0) none none (some 2) none)),
    .collection .declarationCollection span [some 3] [],
    .alloc .file span (.file ⟨some 4⟩)]

/-- The same file beside unparsed text in line 9 that nothing has adopted. -/
def garbledFile : List Call :=
  attemptFile ++ [.alloc .syntaxError (.startingAt ⟨9, 1⟩) .syntaxError]

end StructuredBasic
