import StructuredBasic.Proofs.Forest.Accepted
import StructuredBasic.Proofs.Lowering.Independence
import StructuredBasic.Proofs.Machine.Numbers

/-!
# Lengths of arrays

A bound between literals becomes a literal length, in two additions that are each checked to fit in
64 bits. The first one stops a length that would fit where the upper bound is the greatest word, or
where a range spans one less than the least word; everywhere else the length is exact
(`literal_length_exact_iff`). Any other bound is turned into a length at run time. Where both ways
are open they give the same number (`runtime_length_agrees`).
-/

set_option autoImplicit false

namespace StructuredBasic.Lowering

open Syntax Machine

/-! ## Checked arithmetic -/

section Checked

variable {l u : Int64} {base : Nat}

theorem toInt_ofInt_base (hbase : base < 256) : (Int64.ofInt base).toInt = base := by
  apply Fits.toInt_ofInt
  rw [fits_iff]
  omega

/-- A range has a length if both the span and the length fit. -/
theorem rangeLength?_eq :
    rangeLength? l u =
      if Fits (u.toInt - l.toInt) then word? (u.toInt - l.toInt + 1) else none := by
  rw [rangeLength?, subInt?]
  split
  · next hspan =>
    rw [word?_of_fits hspan, Option.bind_some, addInt?, hspan.toInt_ofInt]
    rfl
  · next hspan =>
    rw [word?_of_not_fits hspan, Option.bind_none]

theorem plainLength?_eq (hbase : base < 256) :
    plainLength? u base = if Fits (u.toInt + 1) then word? (u.toInt + 1 - base) else none := by
  rw [plainLength?, addInt?, Int64.toInt_one]
  split
  · next hcount =>
    rw [word?_of_fits hcount, Option.bind_some, subInt?, hcount.toInt_ofInt, toInt_ofInt_base hbase]
  · next hcount =>
    rw [word?_of_not_fits hcount, Option.bind_none]

end Checked

/-! ## Literal lengths -/

section Literal

variable {env : Env} {bound : Nat}

/-- The length of the bound is the literal `k`, or an overflow if `k` does not fit. -/
def Measures (env : Env) (bound : Nat) (k : Int) : Prop :=
  (Fits k → ∃ length : Int64, length.toInt = k ∧ env.boundLength bound = .ok (.int length)) ∧
    (¬ Fits k → env.boundLength bound =
      .error (.malformed (.boundOverflow (env.forest.span bound))))

/-- A bound with literals, the number that is computed first, and the number of elements that the
bound states. -/
inductive States (env : Env) (bound : Nat) : Int → Int → Prop
  | range {place left right l u}
      (h : env.forest.expr? bound = some (.binary .to place left right))
      (hl : env.literalInt? left = some l) (hu : env.literalInt? right = some u) :
      States env bound (u.toInt - l.toInt) (u.toInt - l.toInt + 1)
  | upper {u} (hu : env.literalInt? bound = some u) :
      States env bound (u.toInt + 1) (u.toInt + 1 - env.base)

/-- A range is no literal by itself. -/
theorem literalInt?_range {place : Location} {left right : Nat}
    (h : env.forest.expr? bound = some (.binary .to place left right)) :
    env.literalInt? bound = none := by
  rw [Env.literalInt?]
  split <;> simp_all

theorem boundLength_of_range {place : Location} {left right : Nat} {l u : Int64}
    (h : env.forest.expr? bound = some (.binary .to place left right))
    (hl : env.literalInt? left = some l) (hu : env.literalInt? right = some u) :
    env.boundLength bound = env.literalLength bound (rangeLength? l u) := by
  rw [Env.boundLength, h]
  dsimp only
  rw [hl, hu]

theorem boundLength_of_upper {u : Int64} (hu : env.literalInt? bound = some u) :
    env.boundLength bound = env.literalLength bound (plainLength? u env.base) := by
  rw [Env.boundLength]
  split
  · next h => rw [literalInt?_range h] at hu; cases hu
  · rw [hu]

/-- A literal length is computed in two steps, and each of them must fit. -/
theorem boundLength_of_states {first k : Int} (hbase : env.base < 256)
    (h : States env bound first k) :
    env.boundLength bound =
      env.literalLength bound (if Fits first then word? k else none) := by
  cases h with
  | range h hl hu => rw [boundLength_of_range h hl hu, rangeLength?_eq]
  | upper hu => rw [boundLength_of_upper hu, plainLength?_eq hbase]

/-- The bound is measured exactly unless the first step alone leaves 64 bits. -/
theorem measures_iff {first k : Int} (hbase : env.base < 256) (h : States env bound first k) :
    Measures env bound k ↔ (Fits k → Fits first) := by
  have hlength := boundLength_of_states hbase h
  constructor
  · intro hmeasures hk
    refine Decidable.byContradiction fun hfirst => ?_
    obtain ⟨length, -, hok⟩ := hmeasures.1 hk
    rw [hlength, if_neg hfirst, Env.literalLength] at hok
    cases hok
  · intro hfirst
    constructor
    · intro hk
      refine ⟨Int64.ofInt k, hk.toInt_ofInt, ?_⟩
      rw [hlength, if_pos (hfirst hk), word?_of_fits hk, Env.literalLength]
    · intro hk
      rw [hlength, word?_of_not_fits hk, ite_self, Env.literalLength]

/-- A literal length is exact, and an overflow is reported just where it does not fit. The two
places where the first step alone overflows are an upper bound that is the greatest word, under a
base of at least one, and a range whose span is one below the least word. -/
theorem literal_length_exact_iff (env : Env) (hbase : env.base < 256) (bound : Nat) :
    (∀ u, env.literalInt? bound = some u →
      (Measures env bound (u.toInt + 1 - env.base) ↔ u ≠ Int64.maxValue ∨ env.base = 0) ∧
        (u = Int64.maxValue → env.boundLength bound =
          .error (.malformed (.boundOverflow (env.forest.span bound))))) ∧
    ∀ place left right l u, env.forest.expr? bound = some (.binary .to place left right) →
      env.literalInt? left = some l → env.literalInt? right = some u →
      (Measures env bound (u.toInt - l.toInt + 1) ↔
        u.toInt - l.toInt ≠ Int64.minValue.toInt - 1) ∧
        (u.toInt - l.toInt = Int64.minValue.toInt - 1 → env.boundLength bound =
          .error (.malformed (.boundOverflow (env.forest.span bound)))) := by
  have hmin : Int64.minValue.toInt = -9223372036854775808 := rfl
  have hmax : Int64.maxValue.toInt = 9223372036854775807 := rfl
  have hover : ∀ {first k : Int}, States env bound first k → ¬ Fits first →
      env.boundLength bound =
        .error (.malformed (.boundOverflow (env.forest.span bound))) := by
    intro first k hstates hfirst
    rw [boundLength_of_states hbase hstates, if_neg hfirst, Env.literalLength]
  constructor
  · intro u hu
    have hfits := fits_toInt u
    have hgreatest : u = Int64.maxValue ↔ u.toInt = Int64.maxValue.toInt := Int64.toInt_inj.symm
    rw [fits_iff] at hfits
    constructor
    · rw [measures_iff hbase (.upper hu), fits_iff, fits_iff, ne_eq, hgreatest, hmax]
      omega
    · intro hlast
      apply hover (.upper hu)
      rw [fits_iff, hgreatest.1 hlast, hmax]
      omega
  · intro place left right l u h hl hu
    constructor
    · rw [measures_iff hbase (.range h hl hu), fits_iff, fits_iff, hmin]
      have hl := fits_iff.1 (fits_toInt l)
      have hu := fits_iff.1 (fits_toInt u)
      omega
    · intro hspan
      apply hover (.range h hl hu)
      rw [fits_iff, hspan, hmin]
      omega

end Literal

/-- `Option Base 1`, and a `Sub` with `Dim a(-3 To 7)` and `Dim b(9223372036854775807)`. -/
def boundsFile : List Call :=
  let span := Span.startingAt ⟨1, 1⟩
  [.alloc .simpleName span (.name (.simple "a" none false)),
    .alloc .integerLiteralExpression span (.expr (.literal (.integer 3 .decimal none))),
    .alloc .unaryOperatorExpression span (.expr (.unary .negate 1)),
    .alloc .integerLiteralExpression span (.expr (.literal (.integer 7 .decimal none))),
    .alloc .binaryOperatorExpression span (.expr (.binary .to ⟨1, 1⟩ 2 3)),
    .alloc .argument span (.argument ⟨none, 4⟩),
    .collection .argumentCollection span [some 5] [],
    .alloc .arrayType span (.type (.array none 1 (some 6))),
    .alloc .variableName span (.name (.declared 0 (some 7))),
    .collection .variableNameCollection span [some 8] [],
    .alloc .variableDeclarator span (.declarator ⟨9, none, false, none, none⟩),
    .collection .variableDeclaratorCollection span [some 10] [],
    .alloc .modifier span (.modifier .dim),
    .collection .modifierCollection span [some 12] [],
    .alloc .localDeclarationStatement span (.stmt (.localDeclaration 13 11)),
    .alloc .simpleName span (.name (.simple "b" none false)),
    .alloc .integerLiteralExpression span
      (.expr (.literal (.integer Int64.maxValue .decimal none))),
    .alloc .argument span (.argument ⟨none, 16⟩),
    .collection .argumentCollection span [some 17] [],
    .alloc .arrayType span (.type (.array none 1 (some 18))),
    .alloc .variableName span (.name (.declared 15 (some 19))),
    .collection .variableNameCollection span [some 20] [],
    .alloc .variableDeclarator span (.declarator ⟨21, none, false, none, none⟩),
    .collection .variableDeclaratorCollection span [some 22] [],
    .alloc .modifier span (.modifier .dim),
    .collection .modifierCollection span [some 24] [],
    .alloc .localDeclarationStatement span (.stmt (.localDeclaration 25 23)),
    .collection .statementCollection span [some 14, some 26] [],
    .alloc .simpleName span (.name (.simple "Main" none false)),
    .alloc .subDeclaration span
      (.decl (.method ⟨none, none⟩ (.ofName 28) none none (some 27) none)),
    .alloc .optionDeclaration span (.decl (.directive (.base 1))),
    .collection .declarationCollection span [some 30, some 29] [],
    .alloc .file span (.file ⟨some 31⟩)]

def boundsTree : Tree := .ofCalls boundsFile 32

/-- What the declaration behind the directive is lowered under. -/
def boundsEnv : Env := envAt boundsTree.toForest .standard [30, 29] 1

theorem bounds_accepted : (Forest.empty.after boundsFile).size = boundsFile.length := by
  decide +kernel

theorem boundsTree_settled :
    boundsTree = { Forest.settled boundsFile bounds_accepted with root := 32 } :=
  Tree.ofCalls_eq_settled 32 bounds_accepted

theorem bounds_finished : boundsTree.Finished := Tree.finished_of_last bounds_accepted rfl

theorem bounds_base : boundsEnv.base = 1 := by
  rw [boundsEnv, boundsTree_settled]
  decide +kernel

/-- The bound of `a` is a range between literals. -/
theorem bounds_range :
    boundsEnv.forest.expr? 4 = some (.binary .to ⟨1, 1⟩ 2 3) ∧
      boundsEnv.literalInt? 2 = some (-3) ∧ boundsEnv.literalInt? 3 = some 7 := by
  rw [boundsEnv, boundsTree_settled]
  exact ⟨rfl, by decide +kernel, by decide +kernel⟩

theorem range_measured : boundsTree.Finished ∧ boundsEnv.base = 1 ∧
    boundsEnv.literalInt? 2 = some (-3) ∧ boundsEnv.literalInt? 3 = some 7 ∧
    Measures boundsEnv 4 11 := by
  have hbase := bounds_base
  obtain ⟨hrange, hl, hu⟩ := bounds_range
  refine ⟨bounds_finished, hbase, hl, hu, ?_⟩
  have hmeasures := (literal_length_exact_iff boundsEnv (by omega) 4).2 _ _ _ _ _ hrange hl hu
  exact hmeasures.1.2 (by decide)

/-- The array of all words from 1 on has a length that fits, and is refused for an overflow. -/
theorem full_array_refused : boundsTree.Finished ∧ boundsEnv.base = 1 ∧
    boundsEnv.literalInt? 16 = some Int64.maxValue ∧
    Fits (Int64.maxValue.toInt + 1 - boundsEnv.base) ∧
    ¬ Measures boundsEnv 16 (Int64.maxValue.toInt + 1 - boundsEnv.base) ∧
    lowerFile boundsTree .standard =
      .error (.malformed (.boundOverflow (Span.startingAt ⟨1, 1⟩))) := by
  have hbase := bounds_base
  have hu : boundsEnv.literalInt? 16 = some Int64.maxValue := by
    rw [boundsEnv, boundsTree_settled]
    decide +kernel
  have hfits : Fits (Int64.maxValue.toInt + 1 - boundsEnv.base) := by
    rw [hbase]
    decide
  refine ⟨bounds_finished, hbase, hu, hfits, fun hmeasures => ?_, ?_⟩
  · have hfirst := (measures_iff (by omega) (.upper hu)).1 hmeasures hfits
    exact absurd hfirst (by decide)
  · rw [boundsTree_settled]
    with_unfolding_all rfl

/-! ## Lengths at run time -/

section Runtime

variable {env : Env} {bound : Nat}

/-- What a bound becomes that is not between literals: a length that is computed at run time. -/
def Env.runtimeLength (env : Env) (bound : Nat) : Result Target.Expr :=
  match env.forest.expr? bound with
  | some (.binary .to _ _ _) => return .binary .add (← env.lowerExpr bound) (.int 1)
  | _ => return env.shiftedLength (← env.lowerExpr bound)

theorem runtimeLength_of_range {place : Location} {left right : Nat}
    (h : env.forest.expr? bound = some (.binary .to place left right)) :
    env.runtimeLength bound =
      (env.lowerExpr bound).map fun length => .binary .add length (.int 1) := by
  rw [Env.runtimeLength, h]
  cases env.lowerExpr bound <;> rfl

theorem runtimeLength_of_upper
    (h : ∀ place left right, env.forest.expr? bound ≠ some (.binary .to place left right)) :
    env.runtimeLength bound = (env.lowerExpr bound).map env.shiftedLength := by
  rw [Env.runtimeLength]
  split
  · next hexpr => exact absurd hexpr (h _ _ _)
  · cases env.lowerExpr bound <;> rfl

theorem boundLength_eq_runtimeLength (h : ∀ first k, ¬ States env bound first k) :
    env.boundLength bound = env.runtimeLength bound := by
  rw [Env.boundLength]
  split
  · next hexpr =>
    rw [runtimeLength_of_range hexpr]
    split
    · next hl hu => exact absurd (.range hexpr hl hu) (h _ _)
    · cases env.lowerExpr bound <;> rfl
  · next hexpr =>
    rw [runtimeLength_of_upper hexpr]
    split
    · next hu => exact absurd (.upper hu) (h _ _)
    · cases env.lowerExpr bound <;> rfl

/-- A range lowers to its span where it is a bound of an array type, and nowhere else. -/
theorem lowerExpr_range {place : Location} {left right : Nat} {lower upper : Target.Expr}
    (h : env.forest.expr? bound = some (.binary .to place left right))
    (hl : env.lowerExpr left = .ok lower) (hu : env.lowerExpr right = .ok upper) :
    env.lowerExpr bound =
      if env.isArrayBound bound then .ok (.binary .subtract upper lower)
      else env.unsupported bound := by
  rw [Env.lowerExpr, h]
  dsimp only
  rw [if_pos rfl, hl, hu]
  rfl

/-- A literal, under any parentheses and negations, evaluates to its value in every state. -/
theorem eval_literal {id : Nat} {n : Int64} (h : env.literalInt? id = some n) :
    ∃ e, env.lowerExpr id = .ok e ∧ ∀ locals, eval locals e = .ok (.int n) := by
  induction id using Env.literalInt?.induct env generalizing n with
  | case1 id value base suffix hexpr =>
    rw [Env.literalInt?, hexpr] at h
    cases h
    refine ⟨.int value, ?_, fun locals => rfl⟩
    rw [Env.lowerExpr, hexpr]
    rfl
  | case2 id operand hexpr ih =>
    rw [Env.literalInt?, hexpr] at h
    obtain ⟨e, hlower, heval⟩ := ih h
    refine ⟨e, ?_, heval⟩
    rw [Env.lowerExpr, hexpr]
    exact hlower
  | case3 id operand hexpr ih =>
    rw [Env.literalInt?, hexpr] at h
    obtain ⟨m, hm, hneg⟩ := Option.bind_eq_some_iff.1 h
    obtain ⟨e, hlower, heval⟩ := ih hm
    refine ⟨.unary .negate e, ?_, fun locals => ?_⟩
    · rw [Env.lowerExpr, hexpr]
      dsimp only [unaryOp?]
      rw [hlower]
      rfl
    · rw [eval, heval]
      exact fit_of_toInt (word?_eq_some_iff.1 hneg)
  | case4 id h1 h2 h3 =>
    rw [Env.literalInt?] at h
    split at h <;> simp_all

/-- Shifting an upper bound by the array base gives the length that is counted from it. -/
theorem eval_shiftedLength {locals : Locals} {upper : Target.Expr} {u length : Int64}
    (hbase : env.base < 256) (hupper : eval locals upper = .ok (.int u))
    (hlength : length.toInt = u.toInt + 1 - env.base) :
    eval locals (env.shiftedLength upper) = .ok (.int length) := by
  rw [Env.shiftedLength]
  split
  · next hone =>
    have hsame : length = u := by
      apply Int64.toInt_inj.1
      omega
    rw [hsame, hupper]
  · have hoffset : (Int64.ofInt (1 - (env.base : Int))).toInt = 1 - env.base := by
      apply Fits.toInt_ofInt
      rw [fits_iff]
      omega
    apply eval_exact hupper rfl rfl
    rw [hoffset, hlength]
    omega

/-- A length that is literal came from a first step that fits. -/
theorem literal_of_boundLength {first k : Int} {length : Int64} (hbase : env.base < 256)
    (h : States env bound first k) (hlength : env.boundLength bound = .ok (.int length)) :
    Fits first ∧ length.toInt = k := by
  rw [boundLength_of_states hbase h] at hlength
  by_cases hfirst : Fits first
  · refine ⟨hfirst, ?_⟩
    rw [if_pos hfirst] at hlength
    cases hk : word? k with
    | none =>
      rw [hk] at hlength
      cases hlength
    | some value =>
      rw [hk] at hlength
      cases hlength
      exact word?_eq_some_iff.1 hk
  · rw [if_neg hfirst] at hlength
    cases hlength

/-- A literal evaluates to its value, and where a bound has a literal length, the length that would
be computed at run time evaluates to the same number in every state. -/
theorem runtime_length_agrees (env : Env) (hbase : env.base < 256) :
    (∀ id n, env.literalInt? id = some n →
      ∃ e, env.lowerExpr id = .ok e ∧ ∀ locals, eval locals e = .ok (.int n)) ∧
    (∀ bound, (∀ first k, ¬ States env bound first k) →
      env.boundLength bound = env.runtimeLength bound) ∧
    (∀ bound u length, env.literalInt? bound = some u →
      env.boundLength bound = .ok (.int length) →
      ∃ upper, env.lowerExpr bound = .ok upper ∧
        env.runtimeLength bound = .ok (env.shiftedLength upper) ∧
        ∀ locals, eval locals (env.shiftedLength upper) = .ok (.int length)) ∧
    ∀ bound place left right l u length,
      env.forest.expr? bound = some (.binary .to place left right) →
      env.literalInt? left = some l → env.literalInt? right = some u →
      env.boundLength bound = .ok (.int length) →
      ∃ lower upper, env.lowerExpr left = .ok lower ∧ env.lowerExpr right = .ok upper ∧
        (env.runtimeLength bound = if env.isArrayBound bound then
            .ok (.binary .add (.binary .subtract upper lower) (.int 1))
          else env.unsupported bound) ∧
        ∀ locals, eval locals (.binary .add (.binary .subtract upper lower) (.int 1)) =
          .ok (.int length) := by
  refine ⟨fun id n => eval_literal, fun bound => boundLength_eq_runtimeLength, ?_, ?_⟩
  · intro bound u length hu hlength
    obtain ⟨upper, hupper, heval⟩ := eval_literal hu
    obtain ⟨-, hk⟩ := literal_of_boundLength hbase (.upper hu) hlength
    refine ⟨upper, hupper, ?_, fun locals => eval_shiftedLength hbase (heval locals) hk⟩
    have hexpr : ∀ place left right,
        env.forest.expr? bound ≠ some (.binary .to place left right) := by
      intro place left right h
      rw [literalInt?_range h] at hu
      cases hu
    rw [runtimeLength_of_upper hexpr, hupper]
    rfl
  · intro bound place left right l u length h hl hu hlength
    obtain ⟨lower, hlower, hevalLower⟩ := eval_literal hl
    obtain ⟨upper, hupper, hevalUpper⟩ := eval_literal hu
    obtain ⟨hspan, hk⟩ := literal_of_boundLength hbase (.range h hl hu) hlength
    refine ⟨lower, upper, hlower, hupper, ?_, fun locals => ?_⟩
    · rw [runtimeLength_of_range h, lowerExpr_range h hlower hupper]
      split <;> rfl
    · have hdifference : eval locals (.binary .subtract upper lower) =
          .ok (.int (Int64.ofInt (u.toInt - l.toInt))) :=
        eval_exact (hevalUpper locals) (hevalLower locals) rfl hspan.toInt_ofInt
      apply eval_exact hdifference rfl rfl
      rw [hspan.toInt_ofInt, hk]
      rfl

end Runtime

theorem range_length_agrees : boundsTree.Finished ∧
    boundsEnv.boundLength 4 = .ok (.int 11) ∧
    boundsEnv.runtimeLength 4 = .ok (.binary .add
      (.binary .subtract (.int 7) (.unary .negate (.int 3))) (.int 1)) ∧
    ∀ locals, eval locals (.binary .add
      (.binary .subtract (.int 7) (.unary .negate (.int 3))) (.int 1)) = .ok (.int 11) := by
  have hbase := bounds_base
  obtain ⟨hrange, hl, hu⟩ := bounds_range
  have hlower : boundsEnv.lowerExpr 2 = .ok (.unary .negate (.int 3)) := by
    rw [boundsEnv, boundsTree_settled]
    with_unfolding_all rfl
  have hupper : boundsEnv.lowerExpr 3 = .ok (.int 7) := by
    rw [boundsEnv, boundsTree_settled]
    with_unfolding_all rfl
  have harray : boundsEnv.isArrayBound 4 = true := by
    rw [boundsEnv, boundsTree_settled]
    decide +kernel
  have hlength : boundsEnv.boundLength 4 = .ok (.int 11) := by
    rw [boundLength_of_range hrange hl hu]
    rfl
  obtain ⟨-, -, -, hranges⟩ := runtime_length_agrees boundsEnv (by omega)
  obtain ⟨lower, upper, hlower', hupper', hruntime, heval⟩ :=
    hranges _ _ _ _ _ _ _ hrange hl hu hlength
  cases hlower.symm.trans hlower'
  cases hupper.symm.trans hupper'
  rw [harray, if_pos rfl] at hruntime
  exact ⟨bounds_finished, hlength, hruntime, heval⟩

end StructuredBasic.Lowering
