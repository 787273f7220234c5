import FortranSemantics.Number.Dyadic

/-!
# Shortest decimal text

A real is written with the fewest significant digits that read back as the same real. All arithmetic
is exact: a candidate is accepted when it lies in the interval of numbers that round to the real.
-/

namespace FortranSemantics.Number

/-- Which of two equally near decimals is taken. -/
inductive Tie where
  | up
  | toEven
deriving DecidableEq, Repr

/-- The layout of a decimal number. -/
structure DecimalStyle where
  /-- Least power of ten of the leading digit that is written positionally. -/
  leastPositional : Int
  /-- Greatest power of ten of the leading digit that is written positionally. -/
  greatestPositional : Int
  /-- The choice between two equally near shortest decimals. -/
  tie : Tie
deriving DecidableEq, Repr

/-- The digits of a decimal `0.d₁d₂… · 10 ^ point`. -/
structure Digits where
  /-- The significant digits as one number. -/
  significand : Nat
  /-- How many digits it has. -/
  count : Nat
  /-- Position of the decimal point relative to the first digit. -/
  point : Int
deriving DecidableEq, Repr

namespace Digits

/-- The positive number `mantissa · 2 ^ exponent` as a fraction. -/
def fraction (mantissa : Nat) (exponent : Int) : Nat × Nat :=
  if 0 ≤ exponent then (mantissa * Nat.pow 2 exponent.toNat, 1)
  else (mantissa, Nat.pow 2 (-exponent).toNat)

/-- How many decimal digits a natural number has. -/
def length (value : Nat) : Nat :=
  (Nat.toDigits 10 value).length

/-- The number of digits before the decimal point of a fraction not below `10 ^ -400`; it is
negative when zeros follow the point. -/
def pointOf (numerator denominator : Nat) : Int :=
  (length (numerator * Nat.pow 10 400 / denominator) : Int) - 400

/-- Whether a decimal on the grid `10 ^ grid` rounds to the double `mantissa · 2 ^ exponent`. -/
def roundsTo (mantissa : Nat) (exponent : Int) (candidate : Nat) (grid : Int) : Bool :=
  let narrow := mantissa = 0x10000000000000 ∧ exponent ≠ -1074
  let low := fraction (4 * mantissa - (if narrow then 1 else 2)) (exponent - 2)
  let high := fraction (4 * mantissa + 2) (exponent - 2)
  let decimal : Nat × Nat :=
    if 0 ≤ grid then
      (candidate * Nat.pow 10 grid.toNat, 1) else (candidate, Nat.pow 10 (-grid).toNat)
  let fromLow := low.1 * decimal.2
  let value := decimal.1 * low.2
  let fromHigh := high.1 * decimal.2
  let valueHigh := decimal.1 * high.2
  if mantissa % 2 = 0 then fromLow ≤ value && valueHigh ≤ fromHigh
  else fromLow < value && valueHigh < fromHigh

/-- The nearest decimal with the given number of digits that reads back, when there is one. -/
def withCount? (tie : Tie) (mantissa : Nat) (exponent point : Int) (count : Nat) : Option Nat :=
  let value := fraction mantissa exponent
  let grid := point - count
  let scaled : Nat × Nat :=
    if 0 ≤ grid then (value.1, value.2 * Nat.pow 10 grid.toNat)
    else (value.1 * Nat.pow 10 (-grid).toNat, value.2)
  let below := scaled.1 / scaled.2
  let rest := scaled.1 % scaled.2
  let lowOk := roundsTo mantissa exponent below grid
  let highOk := rest != 0 && roundsTo mantissa exponent (below + 1) grid
  if lowOk && highOk then
    if 2 * rest < scaled.2 then some below
    else if scaled.2 < 2 * rest then some (below + 1)
    else
      match tie with
      | .up => some (below + 1)
      | .toEven => some (if below % 2 = 0 then below else below + 1)
  else if lowOk then some below
  else if highOk then some (below + 1)
  else none

/-- A significand without its trailing zeros. -/
def stripZeros (significand : Nat) : Nat :=
  if significand = 0 then 0
  else if significand % 10 = 0 then stripZeros (significand / 10)
  else significand
termination_by significand

/-- The shortest digits of the positive double `mantissa · 2 ^ exponent`. -/
def shortest (tie : Tie) (mantissa : Nat) (exponent : Int) : Digits :=
  let value := fraction mantissa exponent
  let point := pointOf value.1 value.2
  let found := (List.range 17).findSome? fun step =>
    (withCount? tie mantissa exponent point (step + 1)).map fun digits => (step + 1, digits)
  match found with
  | none => ⟨0, 1, 0⟩
  | some (count, digits) =>
    let carried : Int := if length digits = count then point else point + 1
    let significand := stripZeros digits
    ⟨significand, length significand, carried⟩

def zeros (count : Nat) : String :=
  String.ofList (List.replicate count '0')

/-- The text of some digits in the given layout. -/
def render (style : DecimalStyle) (digits : Digits) : String :=
  let text := toString digits.significand
  let count : Int := digits.count
  let lead := digits.point - 1
  if style.leastPositional ≤ lead ∧ lead ≤ style.greatestPositional then
    if count ≤ digits.point then text ++ zeros (digits.point - count).toNat ++ ".0"
    else if 0 < digits.point then
      let whole := digits.point.toNat
      String.ofList (text.toList.take whole) ++ "." ++ String.ofList (text.toList.drop whole)
    else "0." ++ zeros (-digits.point).toNat ++ text
  else if digits.count = 1 then text ++ "e" ++ toString lead
  else
    String.ofList (text.toList.take 1) ++ "." ++ String.ofList (text.toList.drop 1) ++ "e"
      ++ toString lead

end Digits

/-- The text of a real: its shortest digits in the given layout, and words for the values that are
not finite. -/
def realText (style : DecimalStyle) (value : Float) : String :=
  if value.isNaN then "NaN"
  else
    let sign := if value.toBits < 0x8000000000000000 then "" else "-"
    match Dyadic.ofFloat? value with
    | none => sign ++ "inf"
    | some exact =>
      if exact.mantissa = 0 then sign ++ "0.0"
      else sign ++ (Digits.shortest style.tie exact.mantissa.natAbs exact.exponent).render style

end FortranSemantics.Number
