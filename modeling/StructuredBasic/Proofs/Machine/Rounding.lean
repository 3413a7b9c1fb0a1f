import Mathlib.Tactic.Ring

/-!
# Rounding to 53 bits

`rounded n` is the integer nearest to `n` among those of 53 binary digits with zeros behind them. Of
two that are equally near it is the one whose last digit is even (`rounded_nearest`). Rounding keeps
the order (`rounded_mono`) and everything up to `2 ^ 53` (`rounded_of_le`), and merges no integer
below `2 ^ 53` with another one (`rounded_ne_of_lt`).
-/

set_option autoImplicit false

namespace StructuredBasic.Machine

/-! ## Quotients -/

/-- The integer nearest to `k / 2 ^ s`, ties to even. -/
def roundedQuotient (k s : Nat) : Nat :=
  if 2 * (k % 2 ^ s) < 2 ^ s ∨ 2 * (k % 2 ^ s) = 2 ^ s ∧ k / 2 ^ s % 2 = 0 then k / 2 ^ s
  else k / 2 ^ s + 1

section Quotients

variable {k l s : Nat}

theorem roundedQuotient_zero (k : Nat) : roundedQuotient k 0 = k := by
  rw [roundedQuotient, Nat.pow_zero, Nat.mod_one, Nat.div_one]
  exact if_pos (Or.inl (by decide))

theorem le_roundedQuotient (k s : Nat) : k / 2 ^ s ≤ roundedQuotient k s := by
  unfold roundedQuotient
  split <;> omega

theorem roundedQuotient_le (k s : Nat) : roundedQuotient k s ≤ k / 2 ^ s + 1 := by
  unfold roundedQuotient
  split <;> omega

theorem roundedQuotient_mono (h : k ≤ l) : roundedQuotient k s ≤ roundedQuotient l s := by
  have hdiv : k / 2 ^ s ≤ l / 2 ^ s := Nat.div_le_div_right h
  rcases Nat.lt_or_eq_of_le hdiv with hlt | heq
  · calc roundedQuotient k s ≤ k / 2 ^ s + 1 := roundedQuotient_le k s
      _ ≤ l / 2 ^ s := hlt
      _ ≤ roundedQuotient l s := le_roundedQuotient l s
  · have hk := Nat.div_add_mod k (2 ^ s)
    have hl := Nat.div_add_mod l (2 ^ s)
    have hmod : k % 2 ^ s ≤ l % 2 ^ s := by
      rw [heq] at hk
      omega
    unfold roundedQuotient
    rw [heq]
    split <;> split <;> omega

/-- Without its last `s` digits, a number of `53 + s` digits has 53. -/
theorem quotient_bounds (h : k.log2 = 52 + s) : 2 ^ 52 ≤ k / 2 ^ s ∧ k / 2 ^ s < 2 ^ 53 := by
  have hne : k ≠ 0 := by
    rintro rfl
    rw [Nat.log2_zero] at h
    omega
  have hleast : 2 ^ k.log2 ≤ k := Nat.log2_self_le hne
  have hmost : k < 2 ^ (k.log2 + 1) := Nat.lt_log2_self
  have hpos : 0 < 2 ^ s := Nat.two_pow_pos s
  constructor
  · rw [Nat.le_div_iff_mul_le hpos, ← Nat.pow_add, ← h]
    exact hleast
  · have hsum : 53 + s = k.log2 + 1 := by omega
    rw [Nat.div_lt_iff_lt_mul hpos, ← Nat.pow_add, hsum]
    exact hmost

theorem roundedQuotient_bounds (h : k.log2 = 52 + s) :
    2 ^ 52 ≤ roundedQuotient k s ∧ roundedQuotient k s ≤ 2 ^ 53 := by
  have hbounds := quotient_bounds h
  have hleast := le_roundedQuotient k s
  have hmost := roundedQuotient_le k s
  omega

/-- No multiple of `2 ^ s` is nearer. -/
theorem roundedQuotient_nearest (k s q : Nat) :
    ((k : Int) - (roundedQuotient k s * 2 ^ s : Nat)).natAbs ≤
      ((k : Int) - (q * 2 ^ s : Nat)).natAbs := by
  have hsplit := Nat.div_add_mod k (2 ^ s)
  have hlt : k % 2 ^ s < 2 ^ s := Nat.mod_lt _ (Nat.two_pow_pos s)
  have hnext : (k / 2 ^ s + 1) * 2 ^ s = 2 ^ s * (k / 2 ^ s) + 2 ^ s := by ring
  have hsame : k / 2 ^ s * 2 ^ s = 2 ^ s * (k / 2 ^ s) := Nat.mul_comm _ _
  -- every multiple is at or below the quotient, or at or above the next one
  have hother : q * 2 ^ s ≤ 2 ^ s * (k / 2 ^ s) ∨ 2 ^ s * (k / 2 ^ s) + 2 ^ s ≤ q * 2 ^ s := by
    rcases Nat.lt_or_ge (k / 2 ^ s) q with hq | hq
    · exact Or.inr (hnext ▸ Nat.mul_le_mul_right _ hq)
    · exact Or.inl (hsame ▸ Nat.mul_le_mul_right _ hq)
  unfold roundedQuotient
  split
  · rw [hsame]
    omega
  · rw [hnext]
    omega

end Quotients

/-! ## Natural numbers -/

/-- How many digits of `k` are behind the first 53. -/
def excess (k : Nat) : Nat := k.log2 - 52

/-- The number nearest to `k` among those of 53 digits with zeros behind them. -/
def roundedNat (k : Nat) : Nat := roundedQuotient k (excess k) * 2 ^ excess k

section Naturals

variable {k l : Nat}

theorem excess_of_lt (h : k < 2 ^ 53) : excess k = 0 := by
  have hlog : k.log2 < 53 := by
    rcases Nat.eq_zero_or_pos k with rfl | hpos
    · decide
    · exact (Nat.log2_lt (by omega)).2 h
  rw [excess]
  omega

theorem roundedNat_of_lt (h : k < 2 ^ 53) : roundedNat k = k := by
  rw [roundedNat, excess_of_lt h, roundedQuotient_zero, Nat.pow_zero, Nat.mul_one]

/-- A number from `2 ^ 53` on has 53 digits and the excess. -/
theorem log2_of_le (h : 2 ^ 53 ≤ k) : k.log2 = 52 + excess k := by
  have hlog : 53 ≤ k.log2 := (Nat.le_log2 (by omega)).2 h
  rw [excess]
  omega

/-- Rounding does not leave the range of numbers with as many digits, up to and with the power of
two above it. -/
theorem roundedNat_bounds (h : 2 ^ 53 ≤ k) :
    2 ^ k.log2 ≤ roundedNat k ∧ roundedNat k ≤ 2 ^ (k.log2 + 1) := by
  have hlog := log2_of_le h
  obtain ⟨hleast, hmost⟩ := roundedQuotient_bounds hlog
  have hsum : k.log2 + 1 = 53 + excess k := by omega
  rw [roundedNat, hsum, hlog, Nat.pow_add, Nat.pow_add]
  exact ⟨Nat.mul_le_mul_right _ hleast, Nat.mul_le_mul_right _ hmost⟩

theorem le_roundedNat (h : 2 ^ 53 ≤ k) : 2 ^ 53 ≤ roundedNat k := by
  have hlog : 53 ≤ k.log2 := (Nat.le_log2 (by omega)).2 h
  calc 2 ^ 53 ≤ 2 ^ k.log2 := Nat.pow_le_pow_right (by decide) hlog
    _ ≤ roundedNat k := (roundedNat_bounds h).1

theorem roundedNat_mono (h : k ≤ l) : roundedNat k ≤ roundedNat l := by
  rcases Nat.lt_or_ge k (2 ^ 53) with hk | hk
  · rw [roundedNat_of_lt hk]
    rcases Nat.lt_or_ge l (2 ^ 53) with hl | hl
    · rwa [roundedNat_of_lt hl]
    · exact Nat.le_trans (Nat.le_of_lt hk) (le_roundedNat hl)
  · have hl : 2 ^ 53 ≤ l := Nat.le_trans hk h
    have hlog : k.log2 ≤ l.log2 := by
      rw [Nat.le_log2 (by omega)]
      exact Nat.le_trans (Nat.log2_self_le (by omega)) h
    rcases Nat.lt_or_eq_of_le hlog with hlt | heq
    · calc roundedNat k ≤ 2 ^ (k.log2 + 1) := (roundedNat_bounds hk).2
        _ ≤ 2 ^ l.log2 := Nat.pow_le_pow_right (by decide) hlt
        _ ≤ roundedNat l := (roundedNat_bounds hl).1
    · have hexcess : excess k = excess l := by rw [excess, excess, heq]
      rw [roundedNat, roundedNat, hexcess]
      exact Nat.mul_le_mul_right _ (roundedQuotient_mono h)

end Naturals

/-! ## Integers -/

/-- The integer nearest to `n` among those of 53 digits with zeros behind them. -/
def rounded (n : Int) : Int := if n < 0 then -(roundedNat n.natAbs : Int) else roundedNat n.natAbs

section Integers

variable {m n : Int}

/-- No integer with zeros in the place of the excess is nearer. -/
theorem rounded_nearest (n q : Int) :
    (n - rounded n).natAbs ≤ (n - q * (2 ^ excess n.natAbs : Nat)).natAbs := by
  have hnear := roundedQuotient_nearest n.natAbs (excess n.natAbs) q.natAbs
  have hzero := roundedQuotient_nearest n.natAbs (excess n.natAbs) 0
  rw [← roundedNat] at hnear hzero
  have hmul : (q * (2 ^ excess n.natAbs : Nat)).natAbs = q.natAbs * 2 ^ excess n.natAbs := by
    rw [Int.natAbs_mul, Int.natAbs_natCast]
  unfold rounded
  split <;> omega

theorem rounded_of_lt (h : n.natAbs < 2 ^ 53) : rounded n = n := by
  rw [rounded, roundedNat_of_lt h]
  split <;> omega

theorem rounded_mono (h : m ≤ n) : rounded m ≤ rounded n := by
  unfold rounded
  split
  · split
    · have hmono : roundedNat n.natAbs ≤ roundedNat m.natAbs := roundedNat_mono (by omega)
      omega
    · omega
  · split
    · omega
    · have hmono : roundedNat m.natAbs ≤ roundedNat n.natAbs := roundedNat_mono (by omega)
      omega

theorem le_natAbs_rounded (h : 2 ^ 53 ≤ n.natAbs) : 2 ^ 53 ≤ (rounded n).natAbs := by
  have hle := le_roundedNat h
  unfold rounded
  split <;> omega

theorem rounded_of_le (h : n.natAbs ≤ 2 ^ 53) : rounded n = n := by
  rcases Nat.lt_or_eq_of_le h with hlt | heq
  · exact rounded_of_lt hlt
  · have hpower : roundedNat (2 ^ 53) = 2 ^ 53 := by decide
    rw [rounded, heq, hpower]
    split <;> omega

/-- An integer below `2 ^ 53` in magnitude is rounded to what no other integer is rounded to. -/
theorem rounded_ne_of_lt (hm : m.natAbs < 2 ^ 53) (hne : m ≠ n) : rounded m ≠ rounded n := by
  rw [rounded_of_lt hm]
  rcases Nat.lt_or_ge n.natAbs (2 ^ 53) with hn | hn
  · rwa [rounded_of_lt hn]
  · have hle := le_natAbs_rounded hn
    omega

/-- Integers that are rounded apart are rounded in their order. -/
theorem rounded_lt_iff (h : m = n ∨ rounded m ≠ rounded n) : rounded m < rounded n ↔ m < n := by
  constructor
  · intro hlt
    by_contra hge
    have hmono := rounded_mono (not_lt.1 hge)
    omega
  · intro hlt
    have hmono := rounded_mono hlt.le
    rcases h with rfl | hne
    · exact absurd hlt (lt_irrefl m)
    · omega

end Integers

end StructuredBasic.Machine
