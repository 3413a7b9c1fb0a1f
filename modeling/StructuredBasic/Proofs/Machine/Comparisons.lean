import StructuredBasic.Proofs.Machine.Numbers

/-!
# Comparisons of integers

Whether two integers are equal is asked of the integers, and how they are ordered of the integers as
they are rounded to 53 bits. The two agree unless different integers are rounded to the same one
(`Merged`), and then no relation of the three holds between them (`integers_ordered_iff`).
-/

set_option autoImplicit false

namespace StructuredBasic.Machine

open Target (BinaryOp)

/-! ## Specification -/

/-- The comparisons of `a` and `b` answer as `x` and `y` are ordered. -/
structure ComparesAs (a b : Int64) (x y : Int) : Prop where
  less : binary .less (.int a) (.int b) = .ok (.bool (decide (x < y)))
  lessEqual : binary .lessEqual (.int a) (.int b) = .ok (.bool (decide (x ≤ y)))
  greater : binary .greater (.int a) (.int b) = .ok (.bool (decide (y < x)))
  greaterEqual : binary .greaterEqual (.int a) (.int b) = .ok (.bool (decide (y ≤ x)))

/-- The operator is one of the three relations of which an order has exactly one, and it holds. -/
def Related (op : BinaryOp) (a b : Int64) : Prop :=
  op ∈ [.less, .equal, .greater] ∧ binary op (.int a) (.int b) = .ok (.bool true)

/-- Different integers that are rounded to the same one. -/
def Merged (a b : Int64) : Prop := a ≠ b ∧ rounded a.toInt = rounded b.toInt

/-! ## Rounded integers -/

section Rounded

variable {a b : Int64} {x y x' y' : Int}

theorem comparesAs_rounded (a b : Int64) :
    ComparesAs a b (rounded a.toInt) (rounded b.toInt) := by
  have hbool : ∀ {p : Bool} {q : Prop} [Decidable q], (p = true ↔ q) →
      (Except.ok (.bool p) : Except Fault Value) = .ok (.bool (decide q)) := by
    intro p q _ h
    rw [Bool.eq_iff_iff.2 (h.trans decide_eq_true_iff.symm)]
  constructor
  · show ordered Ordering.isLT _ _ = _
    rw [ordered_int]
    exact hbool (Ordering.isLT_iff_eq_lt.trans Int.compare_eq_lt)
  · show ordered Ordering.isLE _ _ = _
    rw [ordered_int]
    exact hbool Int.isLE_compare
  · show ordered Ordering.isGT _ _ = _
    rw [ordered_int]
    exact hbool (Ordering.isGT_iff_eq_gt.trans Int.compare_eq_gt)
  · show ordered Ordering.isGE _ _ = _
    rw [ordered_int]
    exact hbool Int.isGE_compare

/-- What the comparisons answer fixes the order. -/
theorem ComparesAs.congr (h : ComparesAs a b x y) :
    ComparesAs a b x' y' ↔ (x < y ↔ x' < y') ∧ (y < x ↔ y' < x') := by
  constructor
  · intro h'
    have hless := h.less.symm.trans h'.less
    have hgreater := h.greater.symm.trans h'.greater
    rw [Except.ok.injEq, Value.bool.injEq, decide_eq_decide] at hless hgreater
    exact ⟨hless, hgreater⟩
  · rintro ⟨hlt, hgt⟩
    have hle : x ≤ y ↔ x' ≤ y' := by rw [← not_lt, ← not_lt, hgt]
    have hge : y ≤ x ↔ y' ≤ x' := by rw [← not_lt, ← not_lt, hlt]
    refine ⟨?_, ?_, ?_, ?_⟩
    · rw [h.less, decide_eq_decide.2 hlt]
    · rw [h.lessEqual, decide_eq_decide.2 hle]
    · rw [h.greater, decide_eq_decide.2 hgt]
    · rw [h.greaterEqual, decide_eq_decide.2 hge]

theorem binary_equal_int : binary .equal (.int a) (.int b) = .ok (.bool true) ↔ a = b := by
  show Except.ok (Value.bool (a == b)) = _ ↔ _
  rw [Except.ok.injEq, Value.bool.injEq, beq_iff_eq]

theorem related_iff {op : BinaryOp} : Related op a b ↔
    op = .less ∧ rounded a.toInt < rounded b.toInt ∨ op = .equal ∧ a = b ∨
      op = .greater ∧ rounded b.toInt < rounded a.toInt := by
  have h := comparesAs_rounded a b
  rw [Related, List.mem_cons, List.mem_cons, List.mem_singleton]
  constructor
  · rintro ⟨rfl | rfl | rfl, hop⟩
    · rw [h.less, Except.ok.injEq, Value.bool.injEq, decide_eq_true_iff] at hop
      exact Or.inl ⟨rfl, hop⟩
    · exact Or.inr (Or.inl ⟨rfl, binary_equal_int.1 hop⟩)
    · rw [h.greater, Except.ok.injEq, Value.bool.injEq, decide_eq_true_iff] at hop
      exact Or.inr (Or.inr ⟨rfl, hop⟩)
  · rintro (⟨rfl, hlt⟩ | ⟨rfl, heq⟩ | ⟨rfl, hgt⟩)
    · exact ⟨Or.inl rfl, by rw [h.less, decide_eq_true hlt]⟩
    · exact ⟨Or.inr (Or.inl rfl), binary_equal_int.2 heq⟩
    · exact ⟨Or.inr (Or.inr rfl), by rw [h.greater, decide_eq_true hgt]⟩

theorem not_merged_iff :
    ¬ Merged a b ↔ a.toInt = b.toInt ∨ rounded a.toInt ≠ rounded b.toInt := by
  rw [Merged, not_and_or, not_not, Int64.toInt_inj]

theorem Merged.symm (h : Merged a b) : Merged b a := ⟨h.1.symm, h.2.symm⟩

theorem Merged.large (h : Merged a b) : 2 ^ 53 ≤ a.toInt.natAbs := by
  by_contra hsmall
  exact rounded_ne_of_lt (not_le.1 hsmall) (Int64.toInt_inj.not.2 h.1) h.2

/-- Of merged integers neither is less than the other, and they are not equal. -/
theorem Merged.not_related (h : Merged a b) (op : BinaryOp) : ¬ Related op a b := by
  rw [related_iff]
  rintro (⟨-, hlt⟩ | ⟨-, heq⟩ | ⟨-, hgt⟩)
  · exact hlt.ne h.2
  · exact h.1 heq
  · exact hgt.ne h.2.symm

theorem existsUnique_related (h : ¬ Merged a b) : ∃! op, Related op a b := by
  simp only [related_iff]
  rcases not_merged_iff.1 h with heq | hne
  · refine ⟨.equal, Or.inr (Or.inl ⟨rfl, Int64.toInt_inj.1 heq⟩), ?_⟩
    rintro op (⟨-, hlt⟩ | ⟨rfl, -⟩ | ⟨-, hgt⟩)
    · rw [heq] at hlt
      exact absurd hlt (lt_irrefl _)
    · rfl
    · rw [heq] at hgt
      exact absurd hgt (lt_irrefl _)
  · have hdiffer : a ≠ b := fun heq => hne (by rw [heq])
    rcases lt_or_gt_of_ne hne with hlt | hgt
    · refine ⟨.less, Or.inl ⟨rfl, hlt⟩, ?_⟩
      rintro op (⟨rfl, -⟩ | ⟨-, heq⟩ | ⟨-, hgt⟩)
      · rfl
      · exact absurd heq hdiffer
      · exact absurd hgt hlt.asymm
    · refine ⟨.greater, Or.inr (Or.inr ⟨rfl, hgt⟩), ?_⟩
      rintro op (⟨-, hlt⟩ | ⟨-, heq⟩ | ⟨rfl, -⟩)
      · exact absurd hlt hgt.asymm
      · exact absurd heq hdiffer
      · rfl

end Rounded

/-! ## The order of integers -/

/-- Integers are ordered as they are rounded. This is their own order, and exactly one of the three
relations holds between them, exactly if they are not merged. Merged integers are both `2 ^ 53` or
more in magnitude. -/
theorem integers_ordered_iff (a b : Int64) :
    ComparesAs a b (rounded a.toInt) (rounded b.toInt) ∧
    (ComparesAs a b a.toInt b.toInt ↔ ¬ Merged a b) ∧
    ((∃! op, Related op a b) ↔ ¬ Merged a b) ∧
    (Merged a b → 2 ^ 53 ≤ a.toInt.natAbs ∧ 2 ^ 53 ≤ b.toInt.natAbs) := by
  refine ⟨comparesAs_rounded a b, ?_, ?_, fun h => ⟨h.large, h.symm.large⟩⟩
  · rw [(comparesAs_rounded a b).congr]
    constructor
    · rintro ⟨hlt, hgt⟩ ⟨hdiffer, hsame⟩
      have hne := Int64.toInt_inj.not.2 hdiffer
      omega
    · intro h
      have hapart := not_merged_iff.1 h
      exact ⟨rounded_lt_iff hapart, rounded_lt_iff (hapart.imp Eq.symm Ne.symm)⟩
  · constructor
    · rintro ⟨op, hop, -⟩ h
      exact h.not_related op hop
    · exact existsUnique_related

/-- `2 ^ 53` is less than the next integer, and none of the three relations says how they are
ordered. -/
theorem neighbours_merged : (9007199254740992 : Int64) < 9007199254740993 ∧
    binary .less (.int 9007199254740992) (.int 9007199254740993) = .ok (.bool false) ∧
    binary .greaterEqual (.int 9007199254740992) (.int 9007199254740993) = .ok (.bool true) ∧
    ∀ op, ¬ Related op 9007199254740992 9007199254740993 := by
  have hmerged : Merged 9007199254740992 9007199254740993 := ⟨by decide, by decide⟩
  have h := comparesAs_rounded 9007199254740992 9007199254740993
  rw [← hmerged.2] at h
  refine ⟨by decide, ?_, ?_, hmerged.not_related⟩
  · rw [h.less, decide_eq_false (lt_irrefl _)]
  · rw [h.greaterEqual, decide_eq_true (le_refl _)]

end StructuredBasic.Machine
