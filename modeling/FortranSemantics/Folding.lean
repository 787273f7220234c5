import FortranSemantics.Arena.Expression

/-!
# Constant folding

Operations on compile-time values. An operation without a well-defined constant result (a division
by zero, an overflow to infinity, operands of the wrong shape) gives none, and the expression is
then left without a value.
-/

namespace FortranSemantics.Folding

open Number

/-- A number, if it is finite. -/
def finite? (value : Float) : Option Float :=
  if value.isFinite then some value else none

/-- Applies an operation to arrays of equal length element by element, and to a scalar and every
element of an array. -/
def elementwise (operation : Constant → Constant → Option Constant) (left right : Constant) :
    Option Constant :=
  match left, right with
  | .array lefts, .array rights =>
    if lefts.length = rights.length then
      .array <$> (lefts.zip rights).mapM fun (left, right) => operation left right
    else none
  | .array lefts, right => .array <$> lefts.mapM fun left => operation left right
  | left, .array rights => .array <$> rights.mapM fun right => operation left right
  | left, right => operation left right

variable (op : ArithmeticOperator)

/-- Arithmetic on 64-bit words: what does not fit into a word wraps around. -/
def wordArithmetic? (left right : Int) : Option Int :=
  match op with
  | .add => some (wrapWord (left + right))
  | .sub => some (wrapWord (left - right))
  | .mul => some (wrapWord (left * right))
  | .div => if right = 0 then none else some (wrapWord (left.tdiv right))
  | .pow => integerPower? left right

/-- Arithmetic on integers of a kind: on words, and then wrapped into the range of the kind. -/
def integerArithmetic (kind : Nat) (left right : Int) : Option Int :=
  (wordArithmetic? op left right).map (wrapInteger kind)

/-- Arithmetic in double precision. -/
def doubleArithmetic (left right : Float) : Float :=
  match op with
  | .add => left + right
  | .sub => left - right
  | .mul => left * right
  | .div => left / right
  | .pow => Float.pow left right

/-- Arithmetic in single precision. -/
def singleArithmetic (left right : Float32) : Float32 :=
  match op with
  | .add => left + right
  | .sub => left - right
  | .mul => left * right
  | .div => left / right
  | .pow => Float32.pow left right

/-- Arithmetic on reals of a kind, carried out in the precision of the kind. -/
def realArithmetic (kind : Nat) (left right : Float) : Option Float :=
  if kind = 4 then finite? (singleArithmetic op left.toFloat32 right.toFloat32).toFloat
  else finite? (doubleArithmetic op left right)

/-- The quotient of two complex numbers, unless the squared modulus of the divisor is zero. -/
def complexQuotient? (left right : Float × Float) : Option (Float × Float) :=
  let modulus := right.1 * right.1 + right.2 * right.2
  if modulus == 0.0 then none
  else some ((left.1 * right.1 + left.2 * right.2) / modulus,
    (left.2 * right.1 - left.1 * right.2) / modulus)

/-- The power of two complex numbers, by the exponential of the exponent times the logarithm of the
base. The power of zero is one for exponent zero and zero when the exponent has a positive real
part. -/
def complexPower? (base exponent : Float × Float) : Option (Float × Float) :=
  if base.1 == 0.0 && base.2 == 0.0 then
    if exponent.1 == 0.0 && exponent.2 == 0.0 then some (1.0, 0.0)
    else if 0.0 < exponent.1 then some (0.0, 0.0)
    else none
  else
    let logarithm := (hypotenuse base.1 base.2).log
    let angle := Float.atan2 base.2 base.1
    let real := exponent.1 * logarithm - exponent.2 * angle
    let imaginary := exponent.1 * angle + exponent.2 * logarithm
    let modulus := real.exp
    some (modulus * imaginary.cos, modulus * imaginary.sin)

/-- Arithmetic on complex numbers of a kind: computed in double precision, then rounded. -/
def complexArithmetic (kind : Nat) (left right : Float × Float) : Option (Float × Float) := do
  let (re, im) ←
    match op with
    | .add => some (left.1 + right.1, left.2 + right.2)
    | .sub => some (left.1 - right.1, left.2 - right.2)
    | .mul => some (left.1 * right.1 - left.2 * right.2, left.1 * right.2 + left.2 * right.1)
    | .div => complexQuotient? left right
    | .pow => complexPower? left right
  return (roundReal (← finite? re) kind, roundReal (← finite? im) kind)

/-- Arithmetic on scalars of an element type; both operands already have it. -/
def scalarArithmetic (type : Ty) (left right : Constant) : Option Constant := do
  match type with
  | .integer kind => .integer <$> integerArithmetic op kind (← left.integer?) (← right.integer?)
  | .real kind => .real <$> realArithmetic op kind (← left.real?) (← right.real?)
  | .complex kind =>
    let (re, im) ← complexArithmetic op kind (← left.complex?) (← right.complex?)
    return .complex re im
  | _ => none

/-- Folds an arithmetic operation whose result has the given type. -/
def arithmetic (type : Ty) (left right : Constant) : Option Constant :=
  elementwise (scalarArithmetic op type.element) left right

/-- The order of two texts, code point by code point. Both are padded with blanks to as many
characters as the longer one has bytes. -/
def comparePadded (left right : String) : Ordering :=
  let width := max left.utf8ByteSize right.utf8ByteSize
  List.compareLex (compareOn Char.toNat) (left.toList.rightpad width ' ')
    (right.toList.rightpad width ' ')

/-- The order of two reals; a NaN has none. -/
def compareReals? (left right : Float) : Option Ordering :=
  if left < right then some .lt
  else if right < left then some .gt
  else if left == right then some .eq
  else none

/-- Whether a relational operator holds of values in the given order. -/
def holds (op : Comparison) (order : Ordering) : Bool :=
  match op with
  | .eq => order == .eq
  | .notEq => order != .eq
  | .lt => order == .lt
  | .ltE => order != .gt
  | .gt => order == .gt
  | .gtE => order != .lt

/-- Compares scalars that already have a common type. Complex numbers can only be equal or
different. -/
def scalarCompare (op : Comparison) (left right : Constant) : Option Bool := do
  match left, right with
  | .integer left, .integer right => return holds op (compare left right)
  | .text left, .text right => return holds op (comparePadded left right)
  | .complex .., _ | _, .complex .. =>
    let (leftRe, leftIm) ← left.complex?
    let (rightRe, rightIm) ← right.complex?
    let equal := leftRe == rightRe && leftIm == rightIm
    match op with
    | .eq => return equal
    | .notEq => return !equal
    | _ => none
  | _, _ => return holds op (← compareReals? (← left.real?) (← right.real?))

def compare (op : Comparison) (left right : Constant) : Option Constant :=
  elementwise (fun left right => .logical <$> scalarCompare op left right) left right

def logical (op : LogicalOperator) (left right : Constant) : Option Constant :=
  elementwise
    (fun left right => do
      let left ← left.logical?
      let right ← right.logical?
      return .logical
        (match op with
        | .and => left && right
        | .or => left || right
        | .eqv => left == right
        | .neqv => left != right))
    left right

def concat : Constant → Constant → Option Constant
  | .text left, .text right => some (.text (left ++ right))
  | _, _ => none

mutual

/-- Folds a unary operation whose result has the given type. -/
def unary (op : UnaryOperator) (type : Ty) : Constant → Option Constant
  | .array items => .array <$> unaryItems op type items
  | .integer value =>
    match op with
    | .minus => some (.integer (wrapInteger (type.kind?.getD 4) (-value)))
    | .not => none
  | .real value =>
    match op with
    | .minus => some (.real (-value))
    | .not => none
  | .complex re im =>
    match op with
    | .minus => some (.complex (-re) (-im))
    | .not => none
  | .logical value =>
    match op with
    | .minus => none
    | .not => some (.logical !value)
  | .text _ => none

/-- Folds a unary operation over the items of an array. -/
def unaryItems (op : UnaryOperator) (type : Ty) : List Constant → Option (List Constant)
  | [] => some []
  | item :: rest => do
    let item ← unary op type item
    return item :: (← unaryItems op type rest)

end

/-- Converts a scalar to a value of the given kind. -/
def scalarCast (cast : CastKind) (kind : Nat) (value : Constant) : Option Constant := do
  match cast with
  | .integerToReal =>
    return .real (roundReal (realOfInteger (← value.integer?)) kind)
  | .realToInteger => .integer <$> truncateReal? (← value.real?) kind
  | .integerToInteger => return .integer (wrapInteger kind (← value.integer?))
  | .realToReal => return .real (roundReal (← value.real?) kind)
  | .integerToComplex | .realToComplex | .complexToComplex =>
    let (re, im) ← value.complex?
    return .complex (roundReal re kind) (roundReal im kind)
  | .complexToReal => return .real (roundReal (← value.complex?).1 kind)
  | .complexToInteger => .integer <$> truncateReal? (← value.complex?).1 kind
  | .logicalToInteger => return .integer (if ← value.logical? then 1 else 0)
  | .integerToLogical => return .logical ((← value.integer?) != 0)
  | .logicalToLogical => return .logical (← value.logical?)

mutual

/-- Converts a constant to a value of the given kind, every item of an array on its own. -/
def castTo (cast : CastKind) (kind : Nat) : Constant → Option Constant
  | .array items => .array <$> castItems cast kind items
  | .integer value => scalarCast cast kind (.integer value)
  | .real value => scalarCast cast kind (.real value)
  | .complex re im => scalarCast cast kind (.complex re im)
  | .logical value => scalarCast cast kind (.logical value)
  | .text value => scalarCast cast kind (.text value)

def castItems (cast : CastKind) (kind : Nat) : List Constant → Option (List Constant)
  | [] => some []
  | item :: rest => do
    let item ← castTo cast kind item
    return item :: (← castItems cast kind rest)

end

def convert (cast : CastKind) (value : Constant) (type : Ty) : Option Constant :=
  castTo cast (type.kind?.getD 4) value

end FortranSemantics.Folding
