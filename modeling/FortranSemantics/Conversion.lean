import FortranSemantics.Arena.Edit
import FortranSemantics.Arena.TypeRelation
import FortranSemantics.Folding

/-!
# Conversions

Numeric operands are promoted by category (integer below real below complex) and then by kind. The
operand with the lower priority is wrapped in a conversion; the other one is left untouched.
-/

namespace FortranSemantics

/-- Families of binary operators with a common promotion rule. -/
inductive OperatorFamily where
  | arithmetic | comparison | logical | concatenation
deriving DecidableEq, Repr

/-- Which operand has to be converted. -/
inductive ConversionSide where
  | none | left | right
deriving DecidableEq, Repr

namespace Conversion

/-- The priority of a numeric type: its category, then its kind. -/
def priority? (type : Ty) : Option (Nat × Nat) :=
  match type.element with
  | .integer kind => some (4, kind)
  | .real kind => some (5, kind)
  | .complex kind => some (6, kind)
  | _ => none

/-- Whether a priority lies above another one. -/
def above (left right : Nat × Nat) : Bool :=
  right.1 < left.1 || (left.1 == right.1 && right.2 < left.2)

/-- The common element type of two operands and the side to be converted to it; none when the
operands cannot meet in this family. -/
def common? (family : OperatorFamily) (left right : Ty) : Option (Ty × ConversionSide) :=
  let left := left.element
  let right := right.element
  match family with
  | .arithmetic | .comparison =>
    match priority? left, priority? right with
    | some leftPriority, some rightPriority =>
      if leftPriority = rightPriority then some (left, .none)
      else if above leftPriority rightPriority then some (left, .right)
      else some (right, .left)
    | _, _ =>
      match left, right with
      | .character leftKind .., .character rightKind .. =>
        if family = .comparison ∧ leftKind = rightKind then some (left, .none) else none
      | _, _ => none
  | .logical =>
    match left, right with
    | .logical leftKind, .logical rightKind =>
      if leftKind = rightKind then some (left, .none)
      else if rightKind < leftKind then some (left, .right)
      else some (right, .left)
    | _, _ => none
  | .concatenation =>
    match left, right with
    | .character leftKind .., .character rightKind .. =>
      if leftKind = rightKind then some (left, .none) else none
    | _, _ => none

/-- The conversion between two element types. -/
def castKind? (source target : Ty) : Option CastKind :=
  match source.element, target.element with
  | .integer _, .real _ => some .integerToReal
  | .real _, .integer _ => some .realToInteger
  | .integer _, .integer _ => some .integerToInteger
  | .real _, .real _ => some .realToReal
  | .integer _, .complex _ => some .integerToComplex
  | .real _, .complex _ => some .realToComplex
  | .complex _, .real _ => some .complexToReal
  | .complex _, .integer _ => some .complexToInteger
  | .complex _, .complex _ => some .complexToComplex
  | .logical _, .integer _ => some .logicalToInteger
  | .integer _, .logical _ => some .integerToLogical
  | .logical _, .logical _ => some .logicalToLogical
  | _, _ => none

/-- Converts an expression to an element type, keeping its shape. An expression that already has the
type is left as it is. -/
def insertCast (expr : ExprId) (target : Ty) (span : Span) : Edit ExprId := do
  let source ← Edit.ask (·.exprType expr)
  if ← Edit.ask (·.elementsEqual source.element target.element) then return expr
  match castKind? source target with
  | none =>
    let sourceName ← Edit.ask (·.typeName source.element)
    let targetName ← Edit.ask (·.typeName target.element)
    reject (.conversion sourceName targetName) span
  | some cast =>
    let type := source.withElement target.element
    let constant ← Edit.ask (·.constant? expr)
    let folded := constant.bind fun value => Folding.convert cast value target.element
    let value ← Edit.addConstant? folded type span
    Edit.addExpr (.cast expr cast) type value span

/-- Converts a value for assignment to a target of the given type; also whether the conversion may
lose information. -/
def forAssignment (value : ExprId) (target : Ty) (span : Span) : Edit (ExprId × Bool) := do
  let type ← Edit.ask (·.exprType value)
  if type.rank ≠ 0 ∧ type.rank ≠ target.rank then
    reject (.assignmentRank type.rank target.rank) span
  let source := type.element
  let element := target.element
  match priority? source, priority? element with
  | some sourcePriority, some targetPriority =>
    return (← insertCast value element span, above sourcePriority targetPriority)
  | _, _ =>
    match source, element with
    | .logical _, .logical _ => return (← insertCast value element span, false)
    | _, _ =>
      let compatible ←
        match source, element with
        | .character sourceKind .., .character targetKind .. => pure (sourceKind == targetKind)
        | _, _ =>
          Edit.ask (·.argumentCompatible (target.withElement element) (target.withElement source))
      if !compatible then
        let sourceName ← Edit.ask (·.typeName source)
        let targetName ← Edit.ask (·.typeName element)
        reject (.assignmentType sourceName targetName) span
      return (value, false)

end Conversion

end FortranSemantics
