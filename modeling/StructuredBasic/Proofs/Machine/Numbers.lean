import StructuredBasic.Machine.Eval
import StructuredBasic.Proofs.Machine.Rounding

/-!
# Whole numbers

Arithmetic on integers is exact or stops the run (`eval_exact`). A comparison of integers is one of
floats. The float of an integer is the integer rounded to 53 bits (`stands_nearestFloat`). Such an
integer has a mantissa of 53 bits and the exponent that makes up for it, and the mantissas and
exponents are ordered as the integers are. So integers are compared as they are rounded
(`compareValues_int`).
-/

set_option autoImplicit false

namespace StructuredBasic.Machine

open Float.Model Float.Model.UnpackedFloat

/-! ## Exact arithmetic -/

section Exact

variable {n : Int} {c : Int64}

theorem fit_of_toInt (h : c.toInt = n) : fit n = .ok (.int c) := by
  rw [fit, word?_eq_some_iff.2 h]

/-- An operation on two integers gives the integer that it stands for, if there is one. -/
theorem eval_exact {locals : Locals} {op : Target.BinaryOp} {left right : Target.Expr}
    {a b : Int64} (hleft : eval locals left = .ok (.int a))
    (hright : eval locals right = .ok (.int b)) (hop : binary op (.int a) (.int b) = fit n)
    (hc : c.toInt = n) : eval locals (.binary op left right) = .ok (.int c) := by
  rw [eval, hleft, hright]
  show binary op (.int a) (.int b) = _
  rw [hop, fit_of_toInt hc]

end Exact

/-! ## Magnitudes -/

/-- The positive integer `k` is the mantissa `m`, which has 53 bits, with the exponent `e - 52`. -/
structure Magnitude (k m e : Nat) : Prop where
  scaled : m * 2 ^ e = k * 2 ^ 52
  least : 2 ^ 52 ≤ m
  most : m < 2 ^ 53

namespace Magnitude

variable {k l m n d e : Nat}

theorem log2 (h : Magnitude k m e) : m.log2 = 52 :=
  (Nat.log2_eq_iff (by have := h.least; omega)).2 ⟨h.least, h.most⟩

/-- A greater exponent belongs to a greater integer. -/
theorem lt_of_exponent (h : Magnitude k m d) (h' : Magnitude l n e) (hlt : d < e) : k < l := by
  have hpow : 2 ^ (d + 1) ≤ 2 ^ e := Nat.pow_le_pow_right (by decide) hlt
  have hscaled : k * 2 ^ 52 < l * 2 ^ 52 := by
    calc k * 2 ^ 52 = m * 2 ^ d := h.scaled.symm
      _ < 2 ^ 53 * 2 ^ d := Nat.mul_lt_mul_of_pos_right h.most (Nat.two_pow_pos d)
      _ = 2 ^ 52 * 2 ^ (d + 1) := by ring
      _ ≤ 2 ^ 52 * 2 ^ e := Nat.mul_le_mul_left _ hpow
      _ ≤ n * 2 ^ e := Nat.mul_le_mul_right _ h'.least
      _ = l * 2 ^ 52 := h'.scaled
  exact Nat.lt_of_mul_lt_mul_right hscaled

theorem lt_of_mantissa (h : Magnitude k m e) (h' : Magnitude l n e) (hlt : m < n) : k < l := by
  have hscaled : k * 2 ^ 52 < l * 2 ^ 52 := by
    rw [← h.scaled, ← h'.scaled]
    exact Nat.mul_lt_mul_of_pos_right hlt (Nat.two_pow_pos e)
  exact Nat.lt_of_mul_lt_mul_right hscaled

theorem eq_of_mantissa (h : Magnitude k m e) (h' : Magnitude l m e) : k = l := by
  have hscaled : k * 2 ^ 52 = l * 2 ^ 52 := by rw [← h.scaled, ← h'.scaled]
  exact Nat.eq_of_mul_eq_mul_right (Nat.two_pow_pos 52) hscaled

/-- Positive floats are compared by their exponents first and then by their mantissas. -/
theorem compare_eq (h : Magnitude k m d) (h' : Magnitude l n e) :
    (compare ((d : Int) - 52) ((e : Int) - 52)).then (compare m n) = compare (k : Int) l := by
  rcases Nat.lt_trichotomy d e with hlt | rfl | hlt
  · have hless := h.lt_of_exponent h' hlt
    rw [Int.compare_eq_lt.2 (by omega : (d : Int) - 52 < e - 52), Int.compare_eq_lt.2 (by omega)]
    rfl
  · rw [Int.compare_eq_eq.2 rfl]
    rcases Nat.lt_trichotomy m n with hlt | rfl | hlt
    · have hless := h.lt_of_mantissa h' hlt
      rw [Nat.compare_eq_lt.2 hlt, Int.compare_eq_lt.2 (by omega)]
      rfl
    · rw [Nat.compare_eq_eq.2 rfl, h.eq_of_mantissa h', Int.compare_eq_eq.2 rfl]
      rfl
    · have hless := h'.lt_of_mantissa h hlt
      rw [Nat.compare_eq_gt.2 hlt, Int.compare_eq_gt.2 (by omega)]
      rfl
  · have hless := h'.lt_of_exponent h hlt
    rw [Int.compare_eq_gt.2 (by omega : (e : Int) - 52 < d - 52), Int.compare_eq_gt.2 (by omega)]
    rfl

theorem pos (h : Magnitude k m e) : 0 < k := by
  have hscaled := h.scaled
  have hleft : 0 < m * 2 ^ e :=
    Nat.mul_pos (Nat.lt_of_lt_of_le (by decide) h.least) (Nat.two_pow_pos e)
  omega

end Magnitude

/-! ## Packing -/

theorem unpackSign_packComponents {spec : Float.Model.Format} {s : Sign}
    {e : BitVec spec.exponentBits} {m : BitVec spec.mantissaBitsWithoutImplicit} :
    unpackSign (packComponents spec s e m) = s.toBitVec := by
  apply BitVec.eq_of_getLsbD_eq
  intro i hi
  obtain rfl : i = 0 := by omega
  delta unpackSign packComponents
  simp [BitVec.getLsbD_append, BitVec.getElem_append]

theorem ofBitVec_toBitVec (s : Sign) : Sign.ofBitVec s.toBitVec = s := by
  cases s <;> rfl

/-- The bit that is not stored is the greatest one of the mantissa. -/
theorem toNat_implicit {m : Nat} (hleast : 2 ^ 52 ≤ m) (hmost : m < 2 ^ 53) :
    (1#1 ++ BitVec.ofNat 52 m).toNat = m := by
  rw [BitVec.toNat_append, ← Nat.shiftLeft_add_eq_or_of_lt (BitVec.isLt _)]
  simp only [BitVec.toNat_ofNat, Nat.shiftLeft_eq]
  omega

/-- Packing loses nothing of a float with a mantissa of 53 bits. -/
theorem unpack_pack {s : Sign} {k m e : Nat} (h : Magnitude k m e) (he : e ≤ 64) (hpos : 0 < m) :
    (Float.Model.pack (.finite s m ((e : Int) - 52) hpos)).unpack =
      .finite s m ((e : Int) - 52) hpos := by
  have hbiased : ((e : Int) - 52 + (Format.binary64.exponentBias : Nat) + (52 : Nat)).toNat =
      e + 1023 := by
    have hbias : Format.binary64.exponentBias = 1023 := rfl
    omega
  have hexponent : (BitVec.ofNat 11 (e + 1023)).toNat = e + 1023 := by
    rw [BitVec.toNat_ofNat, Nat.mod_eq_of_lt (by omega)]
  have hzero : BitVec.ofNat 11 (e + 1023) ≠ 0#11 := by
    intro heq
    have hnat := congrArg BitVec.toNat heq
    rw [hexponent] at hnat
    simp at hnat
  have hones : BitVec.ofNat 11 (e + 1023) ≠ -1#11 := by
    intro heq
    have hnat := congrArg BitVec.toNat heq
    rw [hexponent] at hnat
    simp at hnat
    omega
  have hpacked : UnpackedFloat.pack Format.binary64 (.finite s m ((e : Int) - 52) hpos) =
      packComponents Format.binary64 s (BitVec.ofNat 11 (e + 1023)) (BitVec.ofNat 52 m) := by
    delta UnpackedFloat.pack
    dsimp only
    rw [hbiased, if_neg (by omega), h.log2]
    rfl
  show UnpackedFloat.unpack Format.binary64 (UnpackedFloat.pack Format.binary64 _) = _
  rw [hpacked]
  unfold UnpackedFloat.unpack
  dsimp only
  rw [unpackExponent_packComponents, if_neg hones, if_neg hzero, unpackSign_packComponents,
    ofBitVec_toBitVec, hexponent, UnpackedFloat.finite.injEq, unpackMantissa_packComponents]
  refine ⟨rfl, toNat_implicit h.least h.most, ?_⟩
  have hbias : Format.binary64.exponentBias = 1023 := rfl
  have hbits : Format.binary64.mantissaBitsWithoutImplicit = 52 := rfl
  omega

/-! ## Integers as floats -/

/-- The float is the integer. -/
inductive Stands : UnpackedFloat → Int → Prop
  | zero : Stands (.zero .positive) 0
  | positive {k m e} (h : Magnitude k m e) (hpos : 0 < m) :
      Stands (.finite .positive m ((e : Int) - 52) hpos) k
  | negative {k m e} (h : Magnitude k m e) (hpos : 0 < m) :
      Stands (.finite .negative m ((e : Int) - 52) hpos) (-k)

/-- A mantissa from which the last `s` bits of `k` were taken. The two bits of the accuracy compare
what was taken with one half. -/
structure Truncated (em : ExtendedMantissa) (k s : Nat) : Prop where
  mantissa : em.mantissa = k / 2 ^ s
  round : em.roundBit = true ↔ 2 ^ s ≤ 2 * (k % 2 ^ s)
  sticky : em.stickyBit = true ↔ k % 2 ^ s ≠ 0 ∧ 2 * (k % 2 ^ s) ≠ 2 ^ s

theorem Truncated.shiftRightOne {em : ExtendedMantissa} {k s : Nat} (h : Truncated em k s) :
    Truncated em.shiftRightOne k (s + 1) := by
  have hmod : k % 2 ^ (s + 1) = k % 2 ^ s + 2 ^ s * (k / 2 ^ s % 2) := by
    rw [Nat.pow_succ, Nat.mod_mul]
  have hlt : k % 2 ^ s < 2 ^ s := Nat.mod_lt _ (Nat.two_pow_pos s)
  have hpow : 2 ^ (s + 1) = 2 * 2 ^ s := by rw [Nat.pow_succ, Nat.mul_comm]
  have hbit : 2 ^ s * (k / 2 ^ s % 2) = 0 ∧ k / 2 ^ s % 2 = 0 ∨
      2 ^ s * (k / 2 ^ s % 2) = 2 ^ s ∧ k / 2 ^ s % 2 = 1 := by
    rcases Nat.mod_two_eq_zero_or_one (k / 2 ^ s) with h | h <;> rw [h] <;> simp
  refine ⟨?_, ?_, ?_⟩
  · show em.mantissa / 2 = _
    rw [h.mantissa, Nat.div_div_eq_div_mul, ← Nat.pow_succ]
  · show (em.mantissa % 2 != 0) = true ↔ _
    rw [h.mantissa, bne_iff_ne, hmod, hpow]
    omega
  · show (em.roundBit || em.stickyBit) = true ↔ _
    rw [Bool.or_eq_true, h.round, h.sticky, hmod, hpow]
    omega

theorem truncated_shiftRight (k s : Nat) :
    Truncated (ExtendedMantissa.mk k false false >>> s) k s := by
  show Truncated (Nat.repeat ExtendedMantissa.shiftRightOne s _) k s
  induction s with
  | zero => exact ⟨(Nat.div_one k).symm, by simp [Nat.repeat, Nat.mod_one],
      by simp [Nat.repeat, Nat.mod_one]⟩
  | succ s ih => exact ih.shiftRightOne

theorem Truncated.roundedMantissa {em : ExtendedMantissa} {k s : Nat} (h : Truncated em k s) :
    em.roundedMantissa = roundedQuotient k s := by
  obtain ⟨m, r, t⟩ := em
  obtain ⟨rfl, hr, ht⟩ := h
  have hpos := Nat.two_pow_pos s
  unfold roundedQuotient
  cases r <;> cases t <;>
    simp only [Bool.false_eq_true, false_iff, true_iff, not_and, not_not] at hr ht
  · rw [if_pos (Or.inl (by omega))]
    rfl
  · rw [if_pos (Or.inl (by omega))]
    rfl
  · show k / 2 ^ s + k / 2 ^ s % 2 = _
    split <;> omega
  · rw [if_neg (by omega)]
    rfl

/-- A mantissa of `53 + s` bits is rounded to 53 bits. Where this gives `2 ^ 53`, one more bit is
taken away. -/
theorem roundWithAccuracy_exact {k s : Nat} {e : Int} (hlog : k.log2 = 52 + s)
    (he : -1074 ≤ e) : ∃ m d : Nat, ∃ hpos : 0 < m,
      roundWithAccuracy Format.binary64 .positive k e .exact =
        .finite .positive m (e + s + d) hpos ∧
      m * 2 ^ d = roundedQuotient k s ∧ 2 ^ 52 ≤ m ∧ m < 2 ^ 53 ∧ d ≤ 1 := by
  have hshift : ∀ {k s : Nat} {e : Int}, k.log2 = 52 + s → -1074 ≤ e →
      shiftToTargetExponent Format.binary64 k e .exact =
        (ExtendedMantissa.mk k false false >>> s, e + s) := by
    intro k s e hlog he
    have htarget : Format.binary64.targetExponent (totalExponent k e) = e + s := by
      rw [Format.targetExponent, totalExponent, hlog]
      have hbits : (Format.binary64.mantissaBits : Int) = 53 := rfl
      have hmin : Format.binary64.minExponent = -1074 := rfl
      omega
    have hamount : (e + s - e).toNat = s := by omega
    rw [shiftToTargetExponent, htarget, shiftToExponent, hamount]
    rfl
  have hrounded := (truncated_shiftRight k s).roundedMantissa
  obtain ⟨hleast, hmost⟩ := roundedQuotient_bounds hlog
  rw [roundWithAccuracy, hshift hlog he]
  dsimp only
  rw [hrounded]
  rcases Nat.lt_or_eq_of_le hmost with hlt | heq
  · have hlog' : (roundedQuotient k s).log2 = 52 + 0 :=
      (Nat.log2_eq_iff (by omega)).2 ⟨hleast, hlt⟩
    have hsame : (ExtendedMantissa.mk (roundedQuotient k s) false false >>> 0).mantissa =
        roundedQuotient k s := rfl
    refine ⟨roundedQuotient k s, 0, by omega, ?_, by omega, hleast, hlt, by omega⟩
    rw [hshift hlog' (by omega : -1074 ≤ e + s)]
    dsimp only
    rw [hsame, dif_neg (by omega)]
  · have hlog' : (2 ^ 53).log2 = 52 + 1 := by decide
    have hhalf : (ExtendedMantissa.mk (2 ^ 53) false false >>> 1).mantissa = 2 ^ 52 := rfl
    refine ⟨2 ^ 52, 1, by decide, ?_, by rw [heq]; rfl, by decide, by decide, by decide⟩
    rw [heq, hshift hlog' (by omega : -1074 ≤ e + s)]
    dsimp only
    rw [hhalf, dif_neg (by decide)]

/-- A positive integer is shifted left until it has 53 bits, and then rounded. -/
theorem ofNat_eq {k : Nat} (hpos : 0 < k) : UnpackedFloat.ofNat Format.binary64 k =
    roundWithAccuracy Format.binary64 .positive (k <<< (52 - k.log2))
      (-((52 - k.log2 : Nat) : Int)) .exact := by
  have htarget : Format.binary64.targetExponent (totalExponent k 0) = (k.log2 : Int) - 52 := by
    rw [Format.targetExponent, totalExponent]
    have hbits : (Format.binary64.mantissaBits : Int) = 53 := rfl
    have hmin : Format.binary64.minExponent = -1074 := rfl
    omega
  have hamount : (0 - ((k.log2 : Int) - 52)).toNat = 52 - k.log2 := by omega
  have hgreater : compare (k : Int) 0 = .gt := Int.compare_eq_gt.2 (by omega)
  rw [UnpackedFloat.ofNat, UnpackedFloat.ofInt, Float.Model.UnpackedFloat.normalize, hgreater]
  dsimp only
  rw [Int.toNat_natCast, UnpackedFloat.round, htarget, decreaseExponent, hamount]
  dsimp only
  rw [Int.zero_sub]

/-- A positive integer below `2 ^ 53` with 53 bits. -/
theorem magnitude_shifted {k : Nat} (hpos : 0 < k) (hlt : k < 2 ^ 53) :
    Magnitude k (k <<< (52 - k.log2)) k.log2 := by
  have hlog : k.log2 ≤ 52 := by
    have hbits := (Nat.log2_lt (by omega)).2 hlt
    omega
  have hleast : 2 ^ k.log2 ≤ k := Nat.log2_self_le (by omega)
  have hmost : k < 2 ^ (k.log2 + 1) := Nat.lt_log2_self
  have hsplit : 2 ^ (52 - k.log2) * 2 ^ k.log2 = 2 ^ 52 := by
    rw [← Nat.pow_add, Nat.sub_add_cancel hlog]
  rw [Nat.shiftLeft_eq]
  refine ⟨?_, ?_, ?_⟩
  · rw [Nat.mul_assoc, hsplit]
  · calc 2 ^ 52 = 2 ^ k.log2 * 2 ^ (52 - k.log2) := by rw [Nat.mul_comm, hsplit]
      _ ≤ k * 2 ^ (52 - k.log2) := Nat.mul_le_mul_right _ hleast
  · calc k * 2 ^ (52 - k.log2) < 2 ^ (k.log2 + 1) * 2 ^ (52 - k.log2) :=
          Nat.mul_lt_mul_of_pos_right hmost (Nat.two_pow_pos _)
      _ = 2 ^ (52 - k.log2) * 2 ^ k.log2 * 2 := by ring
      _ = 2 ^ 53 := by rw [hsplit]; rfl

/-- The float of a positive integer is the integer rounded to 53 bits. -/
theorem exists_magnitude {k : Nat} (hpos : 0 < k) (hlt : k < 2 ^ 64) :
    ∃ m e, ∃ hm : 0 < m, Magnitude (roundedNat k) m e ∧ e ≤ 64 ∧
      UnpackedFloat.ofNat Format.binary64 k = .finite .positive m ((e : Int) - 52) hm := by
  rw [ofNat_eq hpos]
  rcases Nat.lt_or_ge k (2 ^ 53) with hsmall | hlarge
  · have hmagnitude := magnitude_shifted hpos hsmall
    have hlog : k.log2 ≤ 52 := by
      have hbits := (Nat.log2_lt (by omega)).2 hsmall
      omega
    obtain ⟨m, d, hm, hround, hquotient, hleast, hmost, hd⟩ :=
      roundWithAccuracy_exact (e := -((52 - k.log2 : Nat) : Int)) (s := 0) hmagnitude.log2
        (by omega)
    rw [roundedQuotient_zero] at hquotient
    have hexponent : -((52 - k.log2 : Nat) : Int) + (0 : Nat) + d = (k.log2 + d : Nat) - 52 := by
      omega
    refine ⟨m, k.log2 + d, hm, ⟨?_, hleast, hmost⟩, by omega, ?_⟩
    · rw [roundedNat_of_lt hsmall, ← hmagnitude.scaled, ← hquotient, Nat.pow_add]
      ring
    · rw [hround, hexponent]
  · have hlog := log2_of_le hlarge
    have hbits : k.log2 < 64 := (Nat.log2_lt (by omega)).2 hlt
    have hshift : 52 - k.log2 = 0 := by omega
    obtain ⟨m, d, hm, hround, hquotient, hleast, hmost, hd⟩ :=
      roundWithAccuracy_exact (e := 0) hlog (by decide)
    have hexponent : (0 : Int) + excess k + d = (52 + excess k + d : Nat) - 52 := by omega
    rw [hshift, Nat.shiftLeft_zero, Nat.cast_zero, Int.neg_zero]
    refine ⟨m, 52 + excess k + d, hm, ⟨?_, hleast, hmost⟩, by omega, ?_⟩
    · rw [roundedNat, ← hquotient, Nat.pow_add, Nat.pow_add]
      ring
    · rw [hround, hexponent]

/-- The float nearest to an integer is the integer rounded to 53 bits. -/
theorem stands_nearestFloat (n : Int64) :
    Stands (nearestFloat n).toModel.unpack (rounded n.toInt) := by
  have hbound : n.toInt.natAbs < 2 ^ 64 := by
    have hleast := n.le_toInt
    have hmost := n.toInt_lt
    omega
  have hsize : (n.toInt.natAbs.toUInt64).toNat = n.toInt.natAbs :=
    UInt64.toNat_ofNat_of_lt' hbound
  have hfloat : (n.toInt.natAbs.toUInt64.toFloat).toModel =
      Float.Model.pack (UnpackedFloat.ofNat Format.binary64 n.toInt.natAbs) := by
    show Float.Model.pack (UnpackedFloat.ofNat Format.binary64 n.toInt.natAbs.toUInt64.toNat) = _
    rw [hsize]
  rw [nearestFloat, rounded]
  split
  · next hneg =>
    obtain ⟨m, e, hm, hmagnitude, he, hof⟩ :=
      exists_magnitude (k := n.toInt.natAbs) (by omega) hbound
    show Stands (Float.Model.pack (UnpackedFloat.neg
      (n.toInt.natAbs.toUInt64.toFloat).toModel.unpack)).unpack _
    rw [hfloat, hof, unpack_pack hmagnitude he]
    show Stands (Float.Model.pack (.finite .negative _ _ _)).unpack _
    rw [unpack_pack hmagnitude he]
    exact .negative hmagnitude hm
  · next hnonneg =>
    rw [hfloat]
    rcases Nat.eq_zero_or_pos n.toInt.natAbs with hzero | hpos
    · rw [hzero]
      exact .zero
    · obtain ⟨m, e, hm, hmagnitude, he, hof⟩ := exists_magnitude hpos hbound
      rw [hof, unpack_pack hmagnitude he]
      exact .positive hmagnitude hm

/-! ## Comparison -/

section Comparison

variable {a b : Int64}

theorem compare_neg (k l : Int) : compare (-k) (-l) = (compare k l).swap := by
  rcases Int.lt_trichotomy k l with hlt | rfl | hlt
  · rw [Int.compare_eq_lt.2 hlt, Int.compare_eq_gt.2 (by omega)]
    rfl
  · rw [Int.compare_eq_eq.2 rfl, Int.compare_eq_eq.2 rfl]
    rfl
  · rw [Int.compare_eq_gt.2 hlt, Int.compare_eq_lt.2 (by omega)]
    rfl

/-- Floats that are integers are ordered as the integers. -/
theorem Stands.compare_eq {x y : UnpackedFloat} {k l : Int} (hx : Stands x k) (hy : Stands y l) :
    x.compare y = some (compare k l) := by
  cases hx with
  | zero =>
    cases hy with
    | zero => rfl
    | positive h =>
      have hpos := h.pos
      rw [Int.compare_eq_lt.2 (by omega)]
      rfl
    | negative h =>
      have hpos := h.pos
      rw [Int.compare_eq_gt.2 (by omega)]
      rfl
  | positive h =>
    have hpos := h.pos
    cases hy with
    | zero =>
      rw [Int.compare_eq_gt.2 (by omega)]
      rfl
    | positive h' => exact congrArg some (h.compare_eq h')
    | negative h' =>
      have hpos' := h'.pos
      rw [Int.compare_eq_gt.2 (by omega)]
      rfl
  | negative h =>
    have hpos := h.pos
    cases hy with
    | zero =>
      rw [Int.compare_eq_lt.2 (by omega)]
      rfl
    | positive h' =>
      have hpos' := h'.pos
      rw [Int.compare_eq_lt.2 (by omega)]
      rfl
    | negative h' =>
      show some ((compare _ _).then (compare _ _)).swap = _
      rw [h.compare_eq h', compare_neg]

theorem compareFloats?_of_compare {x y : Float} {k l : Int}
    (hxy : x.toModel.unpack.compare y.toModel.unpack = some (compare k l))
    (hyx : y.toModel.unpack.compare x.toModel.unpack = some (compare l k)) :
    compareFloats? x y = some (compare k l) := by
  have hless : x < y ↔ compare k l = .lt := by
    show decide ((x.toModel.unpack.compare y.toModel.unpack == some .lt) = true) = true ↔ _
    rw [hxy, decide_eq_true_iff, beq_iff_eq, Option.some.injEq]
  have hgreater : y < x ↔ compare k l = .gt := by
    show decide ((y.toModel.unpack.compare x.toModel.unpack == some .lt) = true) = true ↔ _
    rw [hyx, decide_eq_true_iff, beq_iff_eq, Option.some.injEq, ← Int.compare_swap,
      Ordering.swap_eq_lt]
  have hequal : (x == y) = true ↔ compare k l = .eq := by
    show (x.toModel.unpack.compare y.toModel.unpack == some .eq) = true ↔ _
    rw [hxy, beq_iff_eq, Option.some.injEq]
  unfold compareFloats?
  cases horder : compare k l with
  | lt => rw [if_pos (hless.2 horder)]
  | gt => rw [if_neg (by rw [hless, horder]; decide), if_pos (hgreater.2 horder)]
  | eq =>
    rw [if_neg (by rw [hless, horder]; decide), if_neg (by rw [hgreater, horder]; decide),
      if_pos (hequal.2 horder)]

/-- Integers are compared as they are rounded. -/
theorem compareValues_int :
    compareValues (.int a) (.int b) = .ok (compare (rounded a.toInt) (rounded b.toInt)) := by
  have hstands := stands_nearestFloat a
  have hstands' := stands_nearestFloat b
  have horder : compareFloats? (nearestFloat a) (nearestFloat b) =
      some (compare (rounded a.toInt) (rounded b.toInt)) :=
    compareFloats?_of_compare (hstands.compare_eq hstands') (hstands'.compare_eq hstands)
  unfold compareValues Value.number
  simp only [bind, Except.bind, horder]
  rfl

/-- A comparison of integers asks the order of what they are rounded to. -/
theorem ordered_int (holds : Ordering → Bool) : ordered holds (.int a) (.int b) =
    .ok (.bool (holds (compare (rounded a.toInt) (rounded b.toInt)))) := by
  rw [ordered, compareValues_int]
  rfl

theorem lessEqual_int (ha : a.toInt.natAbs ≤ 2 ^ 53) (hb : b.toInt.natAbs ≤ 2 ^ 53) :
    binary .lessEqual (.int a) (.int b) = .ok (.bool (decide (a.toInt ≤ b.toInt))) := by
  show ordered Ordering.isLE (.int a) (.int b) = _
  rw [ordered_int, rounded_of_le ha, rounded_of_le hb]
  have hle : (compare a.toInt b.toInt).isLE = decide (a.toInt ≤ b.toInt) := by
    rw [Bool.eq_iff_iff, decide_eq_true_iff, Int.isLE_compare]
  rw [hle]

end Comparison

end StructuredBasic.Machine
