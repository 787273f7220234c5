import FortranSemantics.Number.Integer

/-!
# Reading decimal reals

A real literal is a sign, digits with an optional point, and an optional exponent; the words `inf`,
`infinity` and `nan` are accepted in any case. The result is the double nearest to the decimal.
-/

namespace FortranSemantics.Number

/-- A decimal number as written: `significand · 10 ^ exponent`. -/
structure ScientificText where
  significand : Nat
  exponent : Int
deriving DecidableEq, Repr

def digitsValue (digits : List Char) : Nat :=
  digits.foldl (fun total char => total * 10 + (char.toNat - '0'.toNat)) 0

/-- The exponent part of a number: nothing, or a mark, a sign and digits up to the end. -/
def readExponent? : List Char → Option Int
  | [] => some 0
  | mark :: rest =>
    if mark = 'e' ∨ mark = 'E' then
      match rest with
      | '-' :: digits => (digits? digits).map fun magnitude => -(magnitude : Int)
      | '+' :: digits => (digits? digits).map fun magnitude => (magnitude : Int)
      | digits => (digits? digits).map fun magnitude => (magnitude : Int)
    else none

/-- Reads an unsigned decimal with at least one digit before the exponent. -/
def readScientific? (chars : List Char) : Option ScientificText :=
  let whole := chars.takeWhile Char.isDigit
  let afterWhole := chars.dropWhile Char.isDigit
  let (part, rest) :=
    match afterWhole with
    | '.' :: tail => (tail.takeWhile Char.isDigit, tail.dropWhile Char.isDigit)
    | _ => ([], afterWhole)
  if whole.isEmpty && part.isEmpty then none
  else (readExponent? rest).map fun exponent =>
    ⟨digitsValue (whole ++ part), exponent - part.length⟩

/-- The double nearest to a decimal. Exponents beyond every double are decided without computing the
power. -/
def ScientificText.toFloat (decimal : ScientificText) : Float :=
  let digits : Int := (Nat.toDigits 10 decimal.significand).length
  if decimal.significand = 0 then 0.0
  else if 400 < decimal.exponent + digits then 1.0 / 0.0
  else if decimal.exponent + digits < -400 then 0.0
  else if 0 ≤ decimal.exponent then
    Float.ofScientific decimal.significand false decimal.exponent.toNat
  else Float.ofScientific decimal.significand true (-decimal.exponent).toNat

def readMagnitude? (chars : List Char) : Option Float :=
  let word := chars.map Char.toLower
  if word = "inf".toList ∨ word = "infinity".toList then some (1.0 / 0.0)
  else if word = "nan".toList then some (0.0 / 0.0)
  else (readScientific? chars).map ScientificText.toFloat

def readReal? (text : String) : Option Float :=
  match text.toList with
  | '-' :: rest => (readMagnitude? rest).map fun magnitude => -magnitude
  | '+' :: rest => readMagnitude? rest
  | chars => readMagnitude? chars

end FortranSemantics.Number
