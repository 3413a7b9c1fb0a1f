import StructuredBasic.Decimal.Shortest

/-!
# Layouts of floating-point text

A layout decides how the shortest digits of a number are set out: in positional notation or with an
exponent, with or without `.0` on whole numbers, with or without a plus sign in the exponent.
-/

set_option autoImplicit false

namespace StructuredBasic.Decimal

structure Layout where
  /-- Whether a number whose first digit stands at this power of ten is written positionally. -/
  positional : Int → Bool
  /-- Whole numbers in positional notation end in `.0`. -/
  keepsPoint : Bool
  /-- Exponents above zero carry a plus sign. -/
  signsExponent : Bool
  tie : Tie

/-- Digits with a point after the one at `10 ^ 0`, filled up with zeros on either side. -/
def positionalText (digits : List Char) (first : Int) (keepsPoint : Bool) : String :=
  if first < 0 then
    "0." ++ String.ofList (List.replicate (-first - 1).toNat '0' ++ digits)
  else
    let whole := digits.take (first.toNat + 1)
    let fraction := digits.drop (first.toNat + 1)
    let padding := List.replicate (first.toNat + 1 - digits.length) '0'
    let tail := if fraction.isEmpty then (if keepsPoint then ".0" else "")
      else "." ++ String.ofList fraction
    String.ofList (whole ++ padding) ++ tail

/-- One digit, the others after a point, and the exponent. -/
def scientificText (digits : List Char) (first : Int) (signsExponent : Bool) : String :=
  let fraction := digits.drop 1
  let tail := if fraction.isEmpty then "" else "." ++ String.ofList fraction
  let sign := if signsExponent && decide (0 ≤ first) then "+" else ""
  String.ofList (digits.take 1) ++ tail ++ "e" ++ sign ++ toString first

def Layout.magnitudeText (layout : Layout) (b : Binary) : String :=
  if b.mantissa = 0 then
    positionalText ['0'] 0 layout.keepsPoint
  else
    let d := shortest layout.tie b
    let digits := (toString d.value).toList
    let first := d.unit + (digits.length : Int) - 1
    if layout.positional first then positionalText digits first layout.keepsPoint
    else scientificText digits first layout.signsExponent

/-- The text of a finite number; `none` for infinities and for values that are no numbers. -/
def Layout.finiteText? (layout : Layout) (value : Float) : Option String :=
  match classify value.toBits with
  | .finite b =>
    some ((if isNegative value.toBits then "-" else "") ++ layout.magnitudeText b)
  | _ => none

/-- The text of any value, with `inf`, `-inf` and `NaN`. -/
def Layout.text (layout : Layout) (value : Float) : String :=
  match layout.finiteText? value with
  | some text => text
  | none =>
    match classify value.toBits with
    | .nan => "NaN"
    | _ => if isNegative value.toBits then "-inf" else "inf"

/-- Plain text: never an exponent, and whole numbers without a point. -/
def plain : Layout := ⟨fun _ => true, false, false, .up⟩

/-- Source text: an exponent below `10 ^ -4` and from `10 ^ 16` on. -/
def source : Layout :=
  ⟨fun first => decide (-4 ≤ first) && decide (first < 16), true, false, .up⟩

/-- Serialized text: an exponent below `10 ^ -5` and from `10 ^ 16` on, always with its sign. -/
def serialized : Layout :=
  ⟨fun first => decide (-5 ≤ first) && decide (first < 16), true, true, .even⟩

end StructuredBasic.Decimal
