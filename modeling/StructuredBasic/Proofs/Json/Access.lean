import StructuredBasic.Proofs.Json.RoundTrip

/-!
# Reading back parts of serialized values

Each accessor gives back what was put in: integers, names of variants, fields, lists and values
that may be missing. Every part of a value nests less deep than the value.
-/

set_option autoImplicit false

namespace StructuredBasic.Json

/-! ## Integers -/

theorem digits?_toDigits (n : Nat) : int?.digits? (Nat.toDigits 10 n) = some n := by
  have hdigits : (Nat.toDigits 10 n).all Char.isDigit = true :=
    List.all_eq_true.mpr fun c hc => Nat.isDigit_of_mem_toDigits (by decide) (by decide) hc
  have hvalue : Decimal.digitsValue (Nat.toDigits 10 n) = n := Nat.ofDigitChars_ten_toDigits
  simp [int?.digits?, hdigits, hvalue, Nat.toDigits_ne_nil]

theorem toList_ofNat (n : Nat) : (toString (Int.ofNat n)).toList = Nat.toDigits 10 n :=
  Nat.toList_repr

theorem toList_negSucc (n : Nat) :
    (toString (Int.negSucc n)).toList = '-' :: Nat.toDigits 10 (n + 1) := by
  simp [Int.toString_eq_repr, Int.repr, Nat.toList_repr]

@[simp] theorem int?_ofInt (n : Int) : (ofInt n).int? = some n := by
  cases n with
  | ofNat n =>
    have hsign (ds : List Char) : Nat.toDigits 10 n ≠ '-' :: ds := fun h =>
      absurd (Nat.isDigit_of_mem_toDigits (b := 10) (n := n) (c := '-') (by decide) (by decide)
        (by simp [h])) (by decide)
    simp only [ofInt, int?, toList_ofNat]
    rw [digits?_toDigits]
    rfl
  | negSucc n =>
    simp only [ofInt, int?, toList_negSucc, digits?_toDigits]
    rfl

theorem natBelow?_ofInt {bound n : Nat} (h : n < bound) : (ofInt n).natBelow? bound = some n := by
  simp [natBelow?, h]

@[simp] theorem int64?_ofInt (n : Int64) : (ofInt n.toInt).int64? = some n := by
  have hfits : Int64.minValue.toInt ≤ n.toInt ∧ n.toInt ≤ Int64.maxValue.toInt :=
    ⟨Int64.minValue_le_toInt n, Int64.toInt_le n⟩
  rw [int64?, int?_ofInt, Option.bind_some, word?, if_pos hfits, Int64.ofInt_toInt]

theorem numeral_int (n : Int) : Numeral (toString n) := by
  have hdigit (m : Nat) : ∀ c ∈ Nat.toDigits 10 m, isNumberChar c := fun c hc => by
    simp [isNumberChar, Nat.isDigit_of_mem_toDigits (by decide) (by decide) hc]
  cases n with
  | ofNat n =>
    constructor <;> rw [toList_ofNat]
    · exact Nat.toDigits_ne_nil
    · exact hdigit n
  | negSucc n =>
    constructor <;> rw [toList_negSucc]
    · simp
    · exact List.forall_mem_cons.mpr ⟨by decide, hdigit (n + 1)⟩

/-! ## Variants, fields and lists -/

section

variable {α : Type} {encode : α → Json} {decode : Json → Option α}

theorem list?_cons {j : Json} {js : List Json} {x : α} {xs : List α} (hj : decode j = some x)
    (hjs : (array js).list? decode = some xs) :
    (array (j :: js)).list? decode = some (x :: xs) := by
  simp only [list?] at hjs
  simp [list?, hj, hjs]

theorem list?_map {xs : List α} (h : ∀ x ∈ xs, decode (encode x) = some x) :
    (array (xs.map encode)).list? decode = some xs := by
  induction xs with
  | nil => rfl
  | cons x xs ih => exact list?_cons (h x (by simp)) (ih fun y hy => h y (by simp [hy]))

theorem option?_some {j : Json} {x : α} (hnull : j ≠ .null) (hj : decode j = some x) :
    j.option? decode = some (some x) := by
  cases j with
  | null => exact absurd rfl hnull
  | _ => simp [option?, hj]

theorem option?_ofOption {x : Option α} (hnull : ∀ a, encode a ≠ .null)
    (h : ∀ a ∈ x, decode (encode a) = some a) : (ofOption encode x).option? decode = some x := by
  cases x with
  | none => rfl
  | some a => exact option?_some (hnull a) (h a rfl)

end

@[simp] theorem string?_string (text : String) : (string text).string? = some text := rfl

@[simp] theorem bool?_bool (flag : Bool) : (bool flag).bool? = some flag := rfl

@[simp] theorem variant?_tagged (name : String) (content : Json) :
    (tagged name content).variant? = some (name, content) := rfl

@[simp] theorem bareVariant?_string (name : String) : (string name).bareVariant? = some name := rfl

/-- A variant with content may look like one without, in front of `null`; its name tells. -/
@[simp] theorem bareVariant?_tagged {α : Type} {ofName : String → Option α} {name : String}
    (h : ofName name = none) (content : Json) :
    (tagged name content).bareVariant?.bind ofName = none := by
  cases content <;> simp [tagged, bareVariant?, h]

@[simp] theorem field_cons (key name : String) (content : Json) (fields : List (String × Json)) :
    (object ((name, content) :: fields)).field key =
      if name = key then content else (object fields).field key := by
  by_cases h : name = key <;> simp [field, h]

/-! ## Nesting -/

@[simp] theorem depth_tagged (name : String) (content : Json) :
    (tagged name content).depth = content.depth + 1 := by
  simp [tagged, depth, depthOfFields]

@[simp] theorem numeric_null : null.Numeric := by simp [Numeric, numbers]

@[simp] theorem numeric_bool (flag : Bool) : (bool flag).Numeric := by simp [Numeric, numbers]

@[simp] theorem numeric_string (text : String) : (string text).Numeric := by
  simp [Numeric, numbers]

@[simp] theorem numeric_ofInt (n : Int) : (ofInt n).Numeric := by
  intro text htext
  obtain rfl : text = toString n := by simpa [ofInt, numbers] using htext
  exact numeral_int n

@[simp] theorem numeric_tagged {name : String} {content : Json} :
    (tagged name content).Numeric ↔ content.Numeric := by
  simp [tagged, numeric_object]

end StructuredBasic.Json
