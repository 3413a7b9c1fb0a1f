/-!
# Integers of 64 bits

Arithmetic is done on unbounded integers; a result that does not fit in 64 bits has no word.
-/

set_option autoImplicit false

namespace StructuredBasic

/-- The 64-bit integer with this value, if there is one. -/
def word? (n : Int) : Option Int64 :=
  if Int64.minValue.toInt ≤ n ∧ n ≤ Int64.maxValue.toInt then some (Int64.ofInt n) else none

/-- The integer fits in 64 bits. -/
def Fits (n : Int) : Prop := Int64.minValue.toInt ≤ n ∧ n ≤ Int64.maxValue.toInt

instance (n : Int) : Decidable (Fits n) := inferInstanceAs (Decidable (_ ∧ _))

theorem fits_iff {n : Int} : Fits n ↔ -9223372036854775808 ≤ n ∧ n ≤ 9223372036854775807 :=
  Iff.rfl

theorem fits_toInt (w : Int64) : Fits w.toInt := ⟨w.minValue_le_toInt, w.toInt_le⟩

theorem Fits.toInt_ofInt {n : Int} (h : Fits n) : (Int64.ofInt n).toInt = n :=
  Int64.toInt_ofInt_of_le h.1 (Int.lt_add_one_of_le h.2)

theorem word?_of_fits {n : Int} (h : Fits n) : word? n = some (Int64.ofInt n) := if_pos h

theorem word?_of_not_fits {n : Int} (h : ¬ Fits n) : word? n = none := if_neg h

theorem word?_eq_some_iff {n : Int} {w : Int64} : word? n = some w ↔ w.toInt = n := by
  constructor
  · intro h
    by_cases hfits : Fits n
    · rw [word?_of_fits hfits] at h
      cases h
      exact hfits.toInt_ofInt
    · rw [word?_of_not_fits hfits] at h
      cases h
  · rintro rfl
    rw [word?_of_fits (fits_toInt w), Int64.ofInt_toInt]

end StructuredBasic
