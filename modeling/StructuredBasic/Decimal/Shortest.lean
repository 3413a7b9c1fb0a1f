/-!
# Shortest decimals

The fewest decimal digits that read back as a given binary floating-point number, and among those
the nearest to it; where two are equally near, a rule for ties decides. A finite number is a sign
and a magnitude `mantissa · 2 ^ exponent`; the reals that round to it form an interval, whose ends
belong to it exactly when the mantissa is even.
-/

set_option autoImplicit false

namespace StructuredBasic.Decimal

/-! ## Binary numbers -/

/-- A magnitude `mantissa · 2 ^ exponent`. At the lower edge of a binade the number below is only
half as far away as the one above. -/
structure Binary where
  mantissa : Nat
  exponent : Int
  atEdge : Bool

inductive Class where
  | nan
  | infinite
  | finite (magnitude : Binary)

/-- The 64-bit layout: sign, eleven exponent bits, fifty-two fraction bits. -/
def isNegative (bits : UInt64) : Bool := bits.toNat / Nat.pow 2 63 == 1

def classify (bits : UInt64) : Class :=
  let biased : Nat := bits.toNat / Nat.pow 2 52 % Nat.pow 2 11
  let fraction : Nat := bits.toNat % Nat.pow 2 52
  if biased = 2047 then
    if fraction = 0 then .infinite else .nan
  else if biased = 0 then
    .finite ⟨fraction, -1074, false⟩
  else
    .finite ⟨fraction + Nat.pow 2 52, (biased : Int) - 1075, fraction == 0 && decide (1 < biased)⟩

/-! ## Decimal grids -/

/-- A positive rational number. -/
structure Ratio where
  num : Nat
  den : Nat

/-- `n · 2 ^ e`. -/
def Ratio.scaleTwo (n : Nat) (e : Int) : Ratio :=
  if 0 ≤ e then ⟨n * Nat.pow 2 e.toNat, 1⟩ else ⟨n, Nat.pow 2 (-e).toNat⟩

/-- `r / 10 ^ e`. -/
def Ratio.overTen (r : Ratio) (e : Int) : Ratio :=
  if 0 ≤ e then ⟨r.num, r.den * Nat.pow 10 e.toNat⟩
  else ⟨r.num * Nat.pow 10 (-e).toNat, r.den⟩

/-- The decimal exponent of a positive number below `10 ^ (start + 1)`: the greatest `e` with
`10 ^ e ≤ r`, searched downwards from `start` for at most `steps` places. -/
def decimalExponent (r : Ratio) (start : Int) : Nat → Int
  | 0 => start
  | steps + 1 =>
    let scaled := r.overTen start
    if scaled.den ≤ scaled.num then start else decimalExponent r (start - 1) steps

/-- A decimal `value · 10 ^ unit`. -/
structure Digits where
  value : Nat
  unit : Int

/-- Whether `candidate · 10 ^ unit` lies in the rounding interval of a magnitude. The ends of the
interval are counted in quarters of the last binary place. -/
def rounds (b : Binary) (candidate : Nat) (unit : Int) : Bool :=
  let gap := if b.atEdge then 1 else 2
  let low := (Ratio.scaleTwo (4 * b.mantissa - gap) (b.exponent - 2)).overTen unit
  let high := (Ratio.scaleTwo (4 * b.mantissa + 2) (b.exponent - 2)).overTen unit
  if b.mantissa % 2 = 0 then
    decide (low.num ≤ candidate * low.den) && decide (candidate * high.den ≤ high.num)
  else
    decide (low.num < candidate * low.den) && decide (candidate * high.den < high.num)

/-- Which of two equally near decimals is taken: the greater one, or the one that ends in an even
digit. -/
inductive Tie where
  | up | even
deriving DecidableEq

/-- The neighbours of a magnitude on the grid of `10 ^ unit`, the preferred one first. -/
def neighbours (tie : Tie) (b : Binary) (unit : Int) : List Nat :=
  let scaled := (Ratio.scaleTwo b.mantissa b.exponent).overTen unit
  let below := scaled.num / scaled.den
  let rest := 2 * (scaled.num % scaled.den)
  let takesBelow :=
    if rest = scaled.den then tie == .even && below % 2 == 0 else decide (rest < scaled.den)
  if takesBelow then [below, below + 1] else [below + 1, below]

/-- Tries the grid of `10 ^ unit` and then finer ones, at most `steps` of them. -/
def search (tie : Tie) (b : Binary) (unit : Int) : Nat → Digits
  | 0 => ⟨0, unit⟩
  | steps + 1 =>
    match (neighbours tie b unit).find? fun candidate => rounds b candidate unit with
    | some candidate => ⟨candidate, unit⟩
    | none => search tie b (unit - 1) steps

/-- Moves zeros at the end into the unit; `fuel` bounds the number of digits. -/
def Digits.trim (d : Digits) : Nat → Digits
  | 0 => d
  | fuel + 1 =>
    if d.value ≠ 0 ∧ d.value % 10 = 0 then trim ⟨d.value / 10, d.unit + 1⟩ fuel else d

/-- The shortest digits of a nonzero magnitude; seventeen places always suffice, and every
magnitude lies below `10 ^ 309`. -/
def shortest (tie : Tie) (b : Binary) : Digits :=
  let exponent := decimalExponent (Ratio.scaleTwo b.mantissa b.exponent) 308 640
  (search tie b exponent 17).trim 18

end StructuredBasic.Decimal
