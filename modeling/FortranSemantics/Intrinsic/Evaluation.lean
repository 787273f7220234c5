import FortranSemantics.Folding
import FortranSemantics.Intrinsic.Basic

/-!
# Intrinsics of constants

The compile-time values of calls whose arguments are all constant. A missing optional argument is
none.
-/

namespace FortranSemantics.Intrinsic

/-- The kind of the smallest integer type with the given number of decimal digits. -/
def selectedIntKind (digits : Int) : Int :=
  if digits ≤ 2 then 1
  else if digits ≤ 4 then 2
  else if digits ≤ 9 then 4
  else if digits ≤ 18 then 8
  else -1

/-- The kind of the smallest real type with the given precision and range. -/
def selectedRealKind (precision range : Int) : Int :=
  if precision ≤ 6 ∧ range ≤ 37 then 4
  else if precision ≤ 15 ∧ range ≤ 307 then 8
  else if 15 < precision ∧ 307 < range then -3
  else if 15 < precision then -1
  else -2

/-- The value of an optional integer argument, which is zero when it is missing. -/
def optionalInteger? : Option Constant → Option Int
  | none => some 0
  | some value => value.integer?

/-- Applies a function of one real, when the argument lies in its domain and the result is finite.
-/
def realFunction (function : Float → Float) (domain : Float → Bool) (kind : Nat) :
    Constant → Option Constant
  | .real value =>
    if domain value then
      (Folding.finite? (function value)).map fun result => .real (Number.roundReal result kind)
    else none
  | _ => none

def absolute (kind : Nat) : Constant → Option Constant
  | .integer value => some (.integer (Number.wrapInteger kind value.natAbs))
  | .real value => some (.real value.abs)
  | .complex re im => some (.real (Number.roundReal (Number.hypotenuse re im) kind))
  | _ => none

def imaginary : Constant → Option Constant
  | .complex _ im => some (.real im)
  | _ => none

/-- The remainder of a division, with the sign of the dividend. -/
def modulo (type : Ty) (dividend divisor : Constant) : Option Constant := do
  match type with
  | .integer _ =>
    let dividend ← dividend.integer?
    let divisor ← divisor.integer?
    if divisor = 0 then none else return .integer (dividend.tmod divisor)
  | _ =>
    let dividend ← dividend.real?
    let divisor ← divisor.real?
    if divisor == 0.0 then none
    else return .real (Number.roundReal (Number.remainder dividend divisor) (type.kind?.getD 4))

/-- The greatest or the least of some values. -/
def extreme (greatest : Bool) (type : Ty) (values : List Constant) : Option Constant := do
  match type with
  | .integer _ =>
    match ← values.mapM Constant.integer? with
    | [] => none
    | first :: rest => return .integer (rest.foldl (if greatest then max else min) first)
  | _ =>
    match ← values.mapM Constant.real? with
    | [] => none
    | first :: rest =>
      return .real (rest.foldl
        (fun held value => if decide (held < value) == greatest then value else held) first)

/-- The value of a call of a scalar intrinsic whose result has the given type. -/
def evaluate (intrinsic : ScalarIntrinsic) (args : List (Option Constant)) (type : Ty) :
    Option Constant := do
  let kind := type.kind?.getD 4
  match intrinsic, args with
  | .selectedIntKind, some value :: _ => return .integer (selectedIntKind (← value.integer?))
  | .selectedRealKind, precision :: range :: _ =>
    return .integer (selectedRealKind (← optionalInteger? precision) (← optionalInteger? range))
  | .abs, some value :: _ => absolute kind value
  | .sqrt, some value :: _ => realFunction Float.sqrt (0.0 ≤ ·) kind value
  | .exp, some value :: _ => realFunction Float.exp (fun _ => true) kind value
  | .log, some value :: _ => realFunction Float.log (0.0 < ·) kind value
  | .sin, some value :: _ => realFunction Float.sin (fun _ => true) kind value
  | .cos, some value :: _ => realFunction Float.cos (fun _ => true) kind value
  | .tan, some value :: _ => realFunction Float.tan (fun _ => true) kind value
  | .aimag, some value :: _ => imaginary value
  | .mod, some dividend :: some divisor :: _ => modulo type dividend divisor
  | .floor, some value :: _ => .integer <$> Number.floorReal? (← value.real?) kind
  | .min, values => extreme false type (← values.mapM fun value => value)
  | .max, values => extreme true type (← values.mapM fun value => value)
  | _, _ => none

/-- The place of the greatest or the least of some reals, counted from one; zero when there are
none. Of equal ones the first counts. -/
def location (greatest : Bool) (values : List Float) : Nat :=
  match values with
  | [] => 0
  | first :: rest =>
    let better (value held : Float) : Bool := if greatest then held < value else value < held
    let step (best : Nat × Float) (entry : Float × Nat) : Nat × Float :=
      if better entry.1 best.2 then (entry.2, entry.1) else best
    ((rest.zipIdx 2).foldl step (1, first)).1

/-- The value of a location intrinsic over a constant vector. -/
def evaluateLocation (intrinsic : ArrayIntrinsic) (vector : Constant) : Option Constant := do
  let greatest ←
    match intrinsic with
    | .maxLoc => some true
    | .minLoc => some false
    | _ => none
  match vector with
  | .array items =>
    let values ← items.mapM Constant.real?
    return .array [.integer (location greatest values)]
  | _ => none

end FortranSemantics.Intrinsic
