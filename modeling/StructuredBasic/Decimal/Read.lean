/-!
# Reading decimal numbers

A decimal number is read by as many of its digits as make a number of 64 bits, which is then
multiplied or divided by a power of ten. Short numbers are read as the nearest floating-point
value; a long one may miss it by the rounding of these steps.
-/

set_option autoImplicit false

namespace StructuredBasic.Decimal

/-- The number that decimal digits stand for. -/
def digitsValue (ds : List Char) : Nat := ds.foldl (fun n c => 10 * n + (c.toNat - '0'.toNat)) 0

/-- Decimal text in its parts. -/
structure Numeral where
  negative : Bool
  whole : List Char
  fraction : List Char
  exponent : Int

/-- An exponent behind its mark, none at the end of the text. -/
def exponent? : List Char → Option Int
  | [] => some 0
  | mark :: rest =>
    if mark = 'e' ∨ mark = 'E' then
      match rest with
      | '+' :: ds => digits? ds
      | '-' :: ds => (digits? ds).map fun n => -n
      | ds => digits? ds
    else none
where
  digits? (ds : List Char) : Option Int :=
    if !ds.isEmpty && ds.all Char.isDigit then some (digitsValue ds) else none

/-- The digits behind a point, none without a point, and what follows them. -/
def fraction? : List Char → Option (List Char × List Char)
  | '.' :: rest =>
    match rest.takeWhile Char.isDigit with
    | [] => none
    | ds => some (ds, rest.dropWhile Char.isDigit)
  | rest => some ([], rest)

def unsigned? (negative : Bool) (cs : List Char) : Option Numeral :=
  match cs.takeWhile Char.isDigit with
  | [] => none
  | whole => do
    let (fraction, rest) ← fraction? (cs.dropWhile Char.isDigit)
    let exponent ← exponent? rest
    return ⟨negative, whole, fraction, exponent⟩

def numeral? (text : String) : Option Numeral :=
  match text.toList with
  | '-' :: cs => unsigned? true cs
  | cs => unsigned? false cs

/-! ## Values -/

/-- Appends digits to a number while it fits in 64 bits, and gives the digits that are left. -/
def absorb (n : Nat) : List Char → Nat × List Char
  | [] => (n, [])
  | c :: rest =>
    let next := 10 * n + (c.toNat - '0'.toNat)
    if next < 18446744073709551616 then absorb next rest else (n, c :: rest)

/-- The floating-point value nearest to a power of ten. -/
def powerOfTen (n : Nat) : Float := Float.ofScientific 1 false n

/-- Divides by a power of ten, of which floats hold the first 308. -/
def scaledDown (x : Float) (places : Nat) : Float :=
  if places ≤ 308 then x / powerOfTen places
  else if places ≤ 616 then x / powerOfTen 308 / powerOfTen (places - 308)
  else 0

/-- Multiplies by a power of ten, if the product is finite. -/
def scaledUp? (x : Float) (places : Nat) : Option Float :=
  if x == 0 then some x
  else if 308 < places then none
  else
    let y := x * powerOfTen places
    if y.isFinite then some y else none

/-- The value of a numeral, if it is finite. Digits of the whole part that are left out still count
as places. -/
def Numeral.value? (n : Numeral) : Option Float := do
  let (whole, leftOut) := absorb 0 n.whole
  let (digits, ignored) := absorb whole n.fraction
  let read := n.fraction.length - ignored.length
  let scale := n.exponent + (leftOut.length : Int) - (read : Int)
  let x := (UInt64.ofNat digits).toFloat
  let magnitude ← if 0 ≤ scale then scaledUp? x scale.toNat else some (scaledDown x scale.natAbs)
  return if n.negative then -magnitude else magnitude

/-- The least magnitude that is nearer to infinity than to a finite value: it lies halfway between
the largest finite value and the power of two behind it. -/
def infinityStart : Nat := (Nat.pow 2 54 - 1) * Nat.pow 2 970

/-- Whether the magnitude of a numeral is nearest to infinity. The number of digits before the point
decides but for one case. -/
def Numeral.isBeyond (n : Numeral) : Bool :=
  let digits := (n.whole ++ n.fraction).dropWhile fun c => c == '0'
  let scale := n.exponent - (n.fraction.length : Int)
  let places := (digits.length : Int) + scale
  if digits.isEmpty || decide (places < 309) then false
  else if 309 < places then true
  else if 0 ≤ scale then decide (infinityStart ≤ digitsValue digits * Nat.pow 10 scale.toNat)
  else decide (infinityStart * Nat.pow 10 scale.natAbs ≤ digitsValue digits)

/-- Reads a finite number; the whole text has to be one. -/
def read? (text : String) : Option Float := (numeral? text).bind Numeral.value?

end StructuredBasic.Decimal
