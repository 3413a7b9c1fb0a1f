import StructuredBasic.Position

/-!
# Merged spans

A span without a valid finish is open: it holds everything from its start on. A merged span takes
the later of the finishes that are written in its operands. A finish of one operand may so cut the
open end of the other one (`Span.Cuts`), and may even precede the start that is taken from there
(`Span.Reverses`). Apart from these, a merged span is in order and covers its operands
(`Span.merge_sound_iff`).
-/

set_option autoImplicit false

namespace StructuredBasic

/-! ## The order of locations -/

namespace Location

variable {a b c : Location}

theorem lt_def : a < b ↔ a.line < b.line ∨ a.line = b.line ∧ a.column < b.column := Iff.rfl

theorem le_def : a ≤ b ↔ a.line < b.line ∨ a.line = b.line ∧ a.column ≤ b.column := Iff.rfl

theorem not_lt : ¬ a < b ↔ b ≤ a := by
  rw [lt_def, le_def]
  omega

theorem le_refl (a : Location) : a ≤ a := Or.inr ⟨rfl, Nat.le_refl _⟩

theorem le_of_lt (h : a < b) : a ≤ b := h.imp_right fun h => ⟨h.1, Nat.le_of_lt h.2⟩

theorem le_trans (hab : a ≤ b) (hbc : b ≤ c) : a ≤ c := by
  rw [le_def] at *
  omega

theorem lt_of_lt_of_le (hab : a < b) (hbc : b ≤ c) : a < c := by
  rw [lt_def] at *
  rw [le_def] at hbc
  omega

theorem le_antisymm (hab : a ≤ b) (hba : b ≤ a) : a = b := by
  rw [le_def] at *
  have hline : a.line = b.line := by omega
  have hcolumn : a.column = b.column := by omega
  cases a
  cases b
  subst hline hcolumn
  rfl

theorem le_later_left (a b : Location) : a ≤ a.later b := by
  unfold later
  split
  · exact le_refl a
  · next h => exact not_lt.1 h

theorem le_later_right (a b : Location) : b ≤ a.later b := by
  unfold later
  split
  · next h => exact le_of_lt h
  · exact le_refl b

/-- The later of two locations is the one that the other does not follow. -/
theorem later_eq_iff : a.later b = c ↔ b = c ∧ a ≤ c ∨ a = c ∧ b ≤ c := by
  constructor
  · rintro rfl
    unfold later
    split
    · next h => exact Or.inr ⟨rfl, le_of_lt h⟩
    · next h => exact Or.inl ⟨rfl, not_lt.1 h⟩
  · unfold later
    rintro (⟨rfl, hle⟩ | ⟨rfl, hle⟩)
    · rw [if_neg (not_lt.2 hle)]
    · split
      · rfl
      · next h => exact le_antisymm hle (not_lt.1 h)

end Location

namespace Span

/-! ## Specification -/

/-- The spans that the operations on spans give. -/
inductive Obtained : Span → Prop
  | unknown : Obtained .unknown
  | startingAt (start : Location) : Obtained (.startingAt start)
  | between {start finish : Location} {s : Span} (h : between start finish = .ok s) : Obtained s
  | merge {a b : Span} (ha : Obtained a) (hb : Obtained b) : Obtained (a.merge b)

/-- A span with valid ends does not finish before it starts. -/
def InOrder (s : Span) : Prop :=
  ∀ finish, s.finish = some finish → s.isValid = true → finish.isValid = true → s.start ≤ finish

/-- The span holds every location of the two others. -/
def Covers (s a b : Span) : Prop :=
  ∀ l, a.contains l = true ∨ b.contains l = true → s.contains l = true

/-- The span has no valid finish. -/
def Open (s : Span) : Prop := ∀ finish, s.finish = some finish → finish.isValid = false

/-- The second span has this finish, and the first has none or one that is not later. -/
def FinishesLast (a b : Span) (finish : Location) : Prop :=
  b.finish = some finish ∧ ∀ other, a.finish = some other → other ≤ finish

/-- The first span is open, and when the two are merged a valid finish of the second takes the
place of its end. -/
structure Cuts (a b : Span) (finish : Location) : Prop where
  isOpen : a.Open
  isValid : finish.isValid = true
  last : FinishesLast a b finish

/-- The finish that is taken when the spans are merged precedes every valid start of the two. -/
structure Reverses (a b : Span) (finish : Location) : Prop where
  isValid : finish.isValid = true
  last : FinishesLast a b finish ∨ FinishesLast b a finish
  starts : a.isValid = true ∨ b.isValid = true
  left : a.isValid = true → finish < a.start
  right : b.isValid = true → finish < b.start

/-! ## Ends of merged spans -/

section Ends

variable {a b : Location} {x y : Option Location} {finish : Location}

theorem isValid_mergeStart :
    (mergeStart a b).isValid = true ↔ a.isValid = true ∨ b.isValid = true := by
  unfold mergeStart
  cases ha : a.isValid <;> cases hb : b.isValid <;> simp [ha, hb]
  split <;> assumption

theorem mergeStart_le_left (h : a.isValid = true) : mergeStart a b ≤ a := by
  unfold mergeStart
  rw [h, Bool.not_true, Bool.false_or]
  split
  · next hb => exact Location.le_of_lt (of_decide_eq_true (Bool.and_eq_true_iff.1 hb).2)
  · exact Location.le_refl a

theorem mergeStart_le_right (h : b.isValid = true) : mergeStart a b ≤ b := by
  unfold mergeStart
  rw [h, Bool.true_and]
  split
  · exact Location.le_refl b
  · next ha =>
    rw [Bool.or_eq_true, not_or] at ha
    exact Location.not_lt.1 fun hlt => ha.2 (decide_eq_true hlt)

/-- A merged start is one of the two, and a valid one if there is one. -/
theorem mergeStart_cases (h : a.isValid = true ∨ b.isValid = true) :
    a.isValid = true ∧ mergeStart a b = a ∨ b.isValid = true ∧ mergeStart a b = b := by
  unfold mergeStart
  split
  · next hb => exact Or.inr ⟨(Bool.and_eq_true_iff.1 hb).1, rfl⟩
  · next hb =>
    refine Or.inl ⟨?_, rfl⟩
    cases ha : a.isValid with
    | true => rfl
    | false =>
      have hvalid : b.isValid = true := h.resolve_left (Bool.eq_false_iff.1 ha)
      rw [ha, hvalid] at hb
      exact absurd rfl hb

theorem lt_mergeStart_iff (h : a.isValid = true ∨ b.isValid = true) :
    finish < mergeStart a b ↔
      (a.isValid = true → finish < a) ∧ (b.isValid = true → finish < b) := by
  constructor
  · exact fun hlt => ⟨fun ha => Location.lt_of_lt_of_le hlt (mergeStart_le_left ha),
      fun hb => Location.lt_of_lt_of_le hlt (mergeStart_le_right hb)⟩
  · rintro ⟨hleft, hright⟩
    rcases mergeStart_cases h with ⟨ha, heq⟩ | ⟨hb, heq⟩
    · rw [heq]
      exact hleft ha
    · rw [heq]
      exact hright hb

theorem mergeFinish_eq_some : mergeFinish x y = some finish ↔
    (y = some finish ∧ ∀ other, x = some other → other ≤ finish) ∨
      (x = some finish ∧ ∀ other, y = some other → other ≤ finish) := by
  cases x <;> cases y <;> simp [mergeFinish, Location.later_eq_iff]

end Ends

/-! ## Merged spans -/

section Merged

variable {a b s : Span} {l finish : Location}

theorem contains_iff : s.contains l = true ↔
    s.start ≤ l ∧ ∀ finish, s.finish = some finish → finish.isValid = true → l < finish := by
  unfold contains
  cases s.finish with
  | none => simp
  | some finish => cases hvalid : finish.isValid <;> simp [hvalid]

theorem finish_merge : (a.merge b).finish = some finish ↔
    FinishesLast a b finish ∨ FinishesLast b a finish := mergeFinish_eq_some

theorem Reverses.symm (h : Reverses a b finish) : Reverses b a finish :=
  ⟨h.isValid, h.last.symm, h.starts.symm, h.right, h.left⟩

theorem inOrder_merge_iff : (a.merge b).InOrder ↔ ∀ finish, ¬ Reverses a b finish := by
  constructor
  · intro h finish hreverses
    have hstart : (a.merge b).isValid = true := isValid_mergeStart.2 hreverses.starts
    have hle := h finish (finish_merge.2 hreverses.last) hstart hreverses.isValid
    have hlt := (lt_mergeStart_iff hreverses.starts).2 ⟨hreverses.left, hreverses.right⟩
    exact Location.not_lt.2 hle hlt
  · intro h finish hfinish hstart hvalid
    have hstarts := isValid_mergeStart.1 hstart
    refine Location.not_lt.1 fun hlt => h finish ?_
    obtain ⟨hleft, hright⟩ := (lt_mergeStart_iff hstarts).1 hlt
    exact ⟨hvalid, finish_merge.1 hfinish, hstarts, hleft, hright⟩

/-- In front of the start of a span in order comes only a finish that cuts its open end, from a
span whose start is not known. -/
theorem Reverses.cuts (h : Reverses a b finish) (ha : a.InOrder) (hb : b.InOrder)
    (hlast : FinishesLast a b finish) :
    Cuts a b finish ∧ a.isValid = true ∧ b.isValid = false ∧ finish < a.start := by
  have hbstart : b.isValid ≠ true := fun hstart =>
    Location.not_lt.2 (hb finish hlast.1 hstart h.isValid) (h.right hstart)
  have hastart : a.isValid = true := h.starts.resolve_right hbstart
  refine ⟨⟨fun other hother => ?_, h.isValid, hlast⟩, hastart, Bool.eq_false_iff.2 hbstart,
    h.left hastart⟩
  refine Bool.eq_false_iff.2 fun hvalid => ?_
  have hle := Location.le_trans (ha other hother hastart hvalid) (hlast.2 other hother)
  exact Location.not_lt.2 hle (h.left hastart)

theorem Cuts.reverses (h : Cuts a b finish) (ha : a.isValid = true) (hb : b.isValid = false)
    (hlt : finish < a.start) : Reverses a b finish :=
  ⟨h.isValid, Or.inl h.last, Or.inl ha, fun _ => hlt,
    fun hstart => absurd hstart (Bool.eq_false_iff.1 hb)⟩

theorem reverses_iff (ha : a.InOrder) (hb : b.InOrder) : Reverses a b finish ↔
    (Cuts a b finish ∧ a.isValid = true ∧ b.isValid = false ∧ finish < a.start) ∨
      (Cuts b a finish ∧ b.isValid = true ∧ a.isValid = false ∧ finish < b.start) := by
  constructor
  · intro h
    exact h.last.imp (h.cuts ha hb) (h.symm.cuts hb ha)
  · rintro (⟨hcuts, hstart, hother, hlt⟩ | ⟨hcuts, hstart, hother, hlt⟩)
    · exact hcuts.reverses hstart hother hlt
    · exact (hcuts.reverses hstart hother hlt).symm

/-- An open span holds a location behind every other one. -/
theorem Open.exceeds (h : a.Open) (finish : Location) :
    ∃ l, a.contains l = true ∧ finish ≤ l := by
  refine ⟨a.start.later finish, contains_iff.2 ⟨Location.le_later_left _ _, ?_⟩,
    Location.le_later_right _ _⟩
  intro other hother hvalid
  rw [h other hother] at hvalid
  cases hvalid

/-- A span holds the locations of an operand that starts no earlier, unless its finish, taken from
the other operand, cuts the end of this one. -/
theorem contains_of_not_cuts (hstart : s.start ≤ a.start)
    (hlast : ∀ finish, s.finish = some finish → FinishesLast a b finish ∨ FinishesLast b a finish)
    (hcuts : ∀ finish, ¬ Cuts a b finish) (hl : a.contains l = true) : s.contains l = true := by
  obtain ⟨hle, hfinish⟩ := contains_iff.1 hl
  refine contains_iff.2 ⟨Location.le_trans hstart hle, fun finish hs hvalid => ?_⟩
  rcases hlast finish hs with h | h
  · -- the other operand finishes last, so the end of this one is known
    have hopen : ¬ a.Open := fun hopen => hcuts finish ⟨hopen, hvalid, h⟩
    simp only [Open, Classical.not_forall, Bool.not_eq_false] at hopen
    obtain ⟨other, hknown, hother⟩ := hopen
    exact Location.lt_of_lt_of_le (hfinish other hknown hother) (h.2 other hknown)
  · exact hfinish finish h.1 hvalid

theorem covers_merge_iff (ha : a.isValid = true) (hb : b.isValid = true) :
    (a.merge b).Covers a b ↔ ∀ finish, ¬ Cuts a b finish ∧ ¬ Cuts b a finish := by
  constructor
  · intro h finish
    constructor
    · intro hcuts
      obtain ⟨l, hl, hle⟩ := hcuts.isOpen.exceeds finish
      have hmerged := contains_iff.1 (h l (Or.inl hl))
      have hlt := hmerged.2 finish (finish_merge.2 (Or.inl hcuts.last)) hcuts.isValid
      exact Location.not_lt.2 hle hlt
    · intro hcuts
      obtain ⟨l, hl, hle⟩ := hcuts.isOpen.exceeds finish
      have hmerged := contains_iff.1 (h l (Or.inr hl))
      have hlt := hmerged.2 finish (finish_merge.2 (Or.inr hcuts.last)) hcuts.isValid
      exact Location.not_lt.2 hle hlt
  · rintro h l (hl | hl)
    · exact contains_of_not_cuts (mergeStart_le_left ha) (fun _ => finish_merge.1)
        (fun finish => (h finish).1) hl
    · exact contains_of_not_cuts (mergeStart_le_right hb) (fun _ hs => (finish_merge.1 hs).symm)
        (fun finish => (h finish).2) hl

/-- Merging gives every span, those out of order too. -/
theorem obtained (s : Span) : Obtained s := by
  obtain ⟨start, finish⟩ := s
  cases finish with
  | none => exact .startingAt start
  | some finish =>
    by_cases hback : (start.isValid && finish.isValid && decide (finish < start)) = true
    · have hvalid : start.isValid = true := by
        rw [Bool.and_assoc] at hback
        exact (Bool.and_eq_true_iff.1 hback).1
      have hbetween : between .unknown finish = .ok ⟨.unknown, some finish⟩ := rfl
      have hmerged : merge ⟨.unknown, some finish⟩ (.startingAt start) = ⟨start, some finish⟩ := by
        have hstart : mergeStart .unknown start = start := by
          rw [mergeStart, hvalid]
          rfl
        rw [merge, startingAt, hstart]
        rfl
      rw [← hmerged]
      exact (Obtained.between hbetween).merge (.startingAt start)
    · exact .between (by rw [between, if_neg hback])

end Merged

/-! ## When merging goes wrong -/

/-- A merged span is in order unless the finish that it takes precedes the valid starts of its
operands; if these are in order, that is a finish which cuts an open end and comes from a span
whose start is not known. With valid starts it covers its operands exactly if no finish of one cuts
the open end of the other. This is so for all spans, since every span can be obtained. -/
theorem merge_sound_iff (a b : Span) : (Obtained a ∧ Obtained b) ∧
    ((a.merge b).InOrder ↔ ∀ finish, ¬ Reverses a b finish) ∧
    (a.InOrder → b.InOrder → ∀ finish, Reverses a b finish ↔
      (Cuts a b finish ∧ a.isValid = true ∧ b.isValid = false ∧ finish < a.start) ∨
        (Cuts b a finish ∧ b.isValid = true ∧ a.isValid = false ∧ finish < b.start)) ∧
    (a.isValid = true → b.isValid = true →
      ((a.merge b).Covers a b ↔ ∀ finish, ¬ Cuts a b finish ∧ ¬ Cuts b a finish)) :=
  ⟨⟨obtained a, obtained b⟩, inOrder_merge_iff, fun ha hb _ => reverses_iff ha hb,
    covers_merge_iff⟩

/-- A span with known ends cuts one that is open, and an end whose start is not known is taken for
that of a later start: neither merged span is what merging is for. -/
theorem merge_cuts_open_end :
    let opened : Span := .startingAt ⟨1, 1⟩
    let closed : Span := ⟨⟨1, 1⟩, some ⟨1, 5⟩⟩
    let tail : Span := ⟨.unknown, some ⟨1, 5⟩⟩
    let later : Span := .startingAt ⟨3, 1⟩
    (between ⟨1, 1⟩ ⟨1, 5⟩ = .ok closed ∧ between .unknown ⟨1, 5⟩ = .ok tail) ∧
    (opened.isValid = true ∧ closed.isValid = true ∧ opened.merge closed = closed ∧
      ¬ (opened.merge closed).Covers opened closed) ∧
    tail.merge later = ⟨⟨3, 1⟩, some ⟨1, 5⟩⟩ ∧ ¬ (tail.merge later).InOrder := by
  refine ⟨⟨rfl, rfl⟩, ⟨rfl, rfl, by decide, fun h => ?_⟩, by decide, fun h => ?_⟩
  · exact absurd (h ⟨2, 1⟩ (Or.inl (by decide))) (by decide)
  · exact absurd (h ⟨1, 5⟩ (by decide) (by decide) (by decide)) (by decide)

end Span

end StructuredBasic
