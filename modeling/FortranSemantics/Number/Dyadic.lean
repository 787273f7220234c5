import FortranSemantics.Number.Integer

/-!
# Exact values of reals

A finite real constant is an integer times a power of two. Truncation, floor and remainder are
computed on that exact value, so they are the mathematical operations and owe nothing to
floating-point rounding. The remaining operations round: reals of kind 4 are rounded to single
precision, and the hypotenuse is a square root followed by one correction step.
-/

namespace FortranSemantics.Number

/-- The number `mantissa · 2 ^ exponent`. -/
structure Dyadic where
  mantissa : Int
  exponent : Int
deriving DecidableEq, Repr

namespace Dyadic

/-- The exact value of a float, when it is finite. -/
def ofFloat? (value : Float) : Option Dyadic :=
  let bits : Nat := value.toBits.toNat
  let fraction : Nat := bits % 0x10000000000000
  let scale : Nat := bits / 0x10000000000000 % 0x800
  let signed (magnitude : Nat) : Int :=
    if bits < 0x8000000000000000 then magnitude else -(magnitude : Int)
  if scale = 2047 then none
  else if scale = 0 then some ⟨signed fraction, -1074⟩
  else some ⟨signed (0x10000000000000 + fraction), (scale : Int) - 1075⟩

/-- The integer part, dropping the fraction towards zero. -/
def truncate (value : Dyadic) : Int :=
  if 0 ≤ value.exponent then value.mantissa * Int.pow 2 value.exponent.toNat
  else value.mantissa.tdiv (Int.pow 2 (-value.exponent).toNat)

/-- The largest integer not above the value. -/
def floor (value : Dyadic) : Int :=
  if 0 ≤ value.exponent then value.mantissa * Int.pow 2 value.exponent.toNat
  else value.mantissa.fdiv (Int.pow 2 (-value.exponent).toNat)

end Dyadic

variable (kind : Nat)

/-- Largest value that a real is compared with before it becomes an integer of the given kind: the
largest integer of the kind, rounded to a double. -/
def integerCeiling : Int :=
  if integerBits kind = 64 then 0x8000000000000000 else integerMax kind

/-- An integer part as a value of the given kind; the ceiling itself becomes the largest integer. -/
def integerOfPart? (part : Int) : Option Int :=
  if integerMin kind ≤ part ∧ part ≤ integerCeiling kind then some (min part (integerMax kind))
  else none

/-- A real truncated towards zero to an integer of the given kind, when it is in range. -/
def truncateReal? (value : Float) (kind : Nat) : Option Int := do
  integerOfPart? kind (← Dyadic.ofFloat? value).truncate

/-- The floor of a real as an integer of the given kind, when it is in range. -/
def floorReal? (value : Float) (kind : Nat) : Option Int := do
  integerOfPart? kind (← Dyadic.ofFloat? value).floor

/-- The power of two with the given exponent, for exponents from -1074 to 1023. -/
def powerOfTwo (exponent : Int) : Float :=
  if -1022 ≤ exponent then Float.ofBits (UInt64.ofNat ((exponent + 1023).toNat * 0x10000000000000))
  else Float.ofBits (UInt64.ofNat (Nat.pow 2 (exponent + 1074).toNat))

def realOfInteger (value : Int) : Float :=
  Float.ofInt value

/-- A real rounded to the precision of its kind: kind 4 is single precision. -/
def roundReal (value : Float) (kind : Nat) : Float :=
  if kind = 4 then value.toFloat32.toFloat else value

/-- The largest finite real of the given kind. -/
def realMax : Float :=
  if kind = 4 then Float.ofBits 0x47EFFFFFE0000000 else Float.ofBits 0x7FEFFFFFFFFFFFFF

/-- The smallest positive normal real of the given kind. -/
def realTiny : Float :=
  if kind = 4 then Float.ofBits 0x3810000000000000 else Float.ofBits 0x0010000000000000

/-- Remainder of a division truncated towards zero; it has the sign of the dividend and is exact. -/
def remainder (dividend divisor : Float) : Float :=
  match Dyadic.ofFloat? dividend, Dyadic.ofFloat? divisor with
  | some a, some p =>
    if p.mantissa = 0 then 0.0 / 0.0
    else
      let exponent := min a.exponent p.exponent
      let scaled (value : Dyadic) : Int :=
        value.mantissa * Int.pow 2 (value.exponent - exponent).toNat
      let rest := (scaled a).tmod (scaled p)
      if rest = 0 then (if dividend.toBits < 0x8000000000000000 then 0.0 else -0.0)
      else realOfInteger rest * powerOfTwo exponent
  | some _, none => if divisor.isNaN then 0.0 / 0.0 else dividend
  | none, _ => 0.0 / 0.0

/-- The length of the hypotenuse over the legs `long ≥ short ≥ 0`, neither of them extreme: the
rounded square root, corrected once by the residual of its square. -/
def correctedHypotenuse (long short : Float) : Float :=
  let root := Float.sqrt (long * long + short * short)
  let residual :=
    if root ≤ 2.0 * short then
      let delta := root - short
      long * (2.0 * delta - long) + (delta - 2.0 * (long - short)) * delta
    else
      let delta := root - long
      2.0 * delta * (long - 2.0 * short) + ((4.0 * delta - short) * short + delta * delta)
  root - residual / (2.0 * root)

/-- The square root of the sum of two squares, without overflow or underflow of the squares. -/
def hypotenuse (x y : Float) : Float :=
  if x.isInf || y.isInf then 1.0 / 0.0
  else if x.isNaN || y.isNaN then 0.0 / 0.0
  else
    let long := if x.abs < y.abs then y.abs else x.abs
    let short := if x.abs < y.abs then x.abs else y.abs
    let scale := powerOfTwo (-600)
    let negligible := powerOfTwo (-54)
    if powerOfTwo 511 < long then
      if short ≤ long * negligible then long + short
      else correctedHypotenuse (long * scale) (short * scale) / scale
    else if short < powerOfTwo (-459) then
      if short / negligible ≤ long then long + short
      else correctedHypotenuse (long / scale) (short / scale) * scale
    else if short ≤ long * negligible then long + short
    else correctedHypotenuse long short

end FortranSemantics.Number
