/-!
# Integer kinds

An integer kind is its number of bytes. Values are mathematical integers; an operation of kind `k`
gives the exact result brought back into the signed range of `8k` bits, which is what two's
complement hardware does. Any kind other than 1, 2 and 4 is held in 64 bits.
-/

namespace FortranSemantics.Number

/-- Number of bits that hold an integer of the given kind. -/
def integerBits : Nat → Nat
  | 1 => 8
  | 2 => 16
  | 4 => 32
  | _ => 64

variable (kind : Nat)

/-- The least integer of the given kind. -/
def integerMin : Int :=
  -(Nat.pow 2 (integerBits kind - 1) : Nat)

/-- The greatest integer of the given kind. -/
def integerMax : Int :=
  (Nat.pow 2 (integerBits kind - 1) : Nat) - 1

/-- Whether an integer lies in the range of the given kind. -/
def fitsInteger (value : Int) : Bool :=
  integerMin kind ≤ value && value ≤ integerMax kind

/-- The representative of an integer, modulo the size of the kind, that lies in its signed range. -/
def wrapInteger (value : Int) : Int :=
  value.bmod (Nat.pow 2 (integerBits kind))

/-- The representative of an integer in the signed 64-bit range. -/
def wrapWord (value : Int) : Int :=
  wrapInteger 8 value

/-- Power by repeated squaring, wrapped to 64 bits at every step. -/
def wordPower (base : Int) (exponent : Nat) : Int :=
  if exponent = 0 then 1
  else
    let half := wordPower base (exponent / 2)
    let square := wrapWord (half * half)
    if exponent % 2 = 0 then square else wrapWord (square * base)
termination_by exponent

/-- Integer power: a negative exponent gives the truncated reciprocal, which zero does not have, and
an exponent of more than 32 bits has no constant result. -/
def integerPower? (base exponent : Int) : Option Int :=
  if exponent < 0 then
    if base = 1 then some 1
    else if base = -1 then some (if exponent.tmod 2 = 0 then 1 else -1)
    else if base = 0 then none
    else some 0
  else if exponent < 0x100000000 then some (wordPower base exponent.toNat)
  else none

/-- The value of a nonempty run of decimal digits. -/
def digits? (chars : List Char) : Option Nat :=
  if chars.isEmpty then none
  else chars.foldlM (fun total char =>
    if char.isDigit then some (total * 10 + (char.toNat - '0'.toNat)) else none) 0

/-- Reads a decimal integer with an optional sign that lies in the signed 64-bit range. -/
def readInteger? (text : String) : Option Int := do
  let value : Int ←
    match text.toList with
    | '-' :: digits => (digits? digits).map fun magnitude => -(magnitude : Int)
    | '+' :: digits => (digits? digits).map fun magnitude => (magnitude : Int)
    | digits => (digits? digits).map fun magnitude => (magnitude : Int)
  if fitsInteger 8 value then some value else none

end FortranSemantics.Number
