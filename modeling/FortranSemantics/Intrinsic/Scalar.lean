import FortranSemantics.Conversion
import FortranSemantics.Intrinsic.Arguments
import FortranSemantics.Intrinsic.Evaluation

/-!
# Calls of scalar intrinsics

Some calls become another expression: a conversion, a literal or an inquiry. The others stay calls
whose type is computed here and whose value is folded when all arguments are constant.
-/

namespace FortranSemantics.Intrinsic

open Edit Number

variable (slots : List (Option ExprId))

/-- The argument in a slot that must be filled. -/
def required (index : Nat) : Edit ExprId :=
  match slots[index]? with
  | some (some arg) => return arg
  | _ => broken (.missingScalarArgument index)

/-- The argument in a slot, when there is one. -/
def given (index : Nat) : Option ExprId :=
  (slots[index]?).join

/-- The argument in a slot that exists, filled or not. -/
def slotAt (index : Nat) : Edit (Option ExprId) :=
  match slots[index]? with
  | some slot => return slot
  | none => broken .dangling

/-- The value of an optional kind argument. -/
def kindArgument (index : Nat) (intrinsic : String) (span : Span) : Edit (Option Int) := do
  match given slots index with
  | none => return none
  | some arg =>
    if !(← ask (·.exprType arg)).isInteger then violated intrinsic .kindNotInteger span
    match ← ask (·.integer? arg) with
    | some kind => return some kind
    | none => violated intrinsic .kindNotConstant span

/-- The kind that a call asks for, or the default one. -/
def chosenKind (index : Nat) (intrinsic : String)
    (category : TypeCategory) (absent : Int) (span : Span) : Edit Nat := do
  let kind ← kindArgument slots index intrinsic span
  checkKind category (kind.getD absent) span

def addCall (callee : SymbolId) (slots : List (Option ExprId)) (type : Ty) (value : Option ExprId)
    (span : Span) : Edit ExprId :=
  addExpr (.call callee none slots none) type value span

def kindInquiry (span : Span) : Edit ExprId := do
  let arg ← required slots 0
  match (← ask (·.exprType arg)).kind? with
  | some kind => addInteger kind span
  | none => wrongArgument "kind" .intrinsicType arg

/-- The smallest positive real of an argument's kind. -/
def tinyInquiry (span : Span) : Edit ExprId := do
  let arg ← required slots 0
  let type := (← ask (·.exprType arg)).element
  demand type.isReal "tiny" .realValue arg
  let kind := type.kind?.getD 4
  addConstant (.real (realTiny kind)) (.real kind) span

/-- The largest number of an argument's type. -/
def hugeInquiry (span : Span) : Edit ExprId := do
  let arg ← required slots 0
  match (← ask (·.exprType arg)).element with
  | .integer kind => addConstant (.integer (integerMax kind)) (.integer kind) span
  | .real kind => addConstant (.real (realMax kind)) (.real kind) span
  | _ => wrongArgument "huge" .integerOrReal arg

/-- A conversion to real; the kind of a complex argument is kept. -/
def toReal (span : Span) : Edit ExprId := do
  let arg ← required slots 0
  let type ← ask (·.exprType arg)
  demand type.isNumeric "real" .numericA arg
  let absent : Nat := if type.isComplex then type.kind?.getD 4 else 4
  let kind ← chosenKind slots 1 "real" .real absent span
  Conversion.insertCast arg (.real kind) span

def toInteger (span : Span) : Edit ExprId := do
  let arg ← required slots 0
  demand (← ask (·.exprType arg)).isNumeric "int" .numericA arg
  let kind ← chosenKind slots 1 "int" .integer 4 span
  Conversion.insertCast arg (.integer kind) span

def toDouble (span : Span) : Edit ExprId := do
  let arg ← required slots 0
  demand (← ask (·.exprType arg)).isNumeric "dble" .numericA arg
  Conversion.insertCast arg (.real 8) span

def lengthInquiry (callee : SymbolId) (slots : List (Option ExprId)) (span : Span) :
    Edit ExprId := do
  let arg ← required slots 0
  let type ← ask (·.exprType arg)
  demand type.isCharacter "len" .characterString arg
  match type.element with
  | .character _ (some length) _ => addInteger length span
  | _ => addCall callee slots (.integer 4) none span

/-- Checks an optional dimension argument against the rank of an array. -/
def checkDim (intrinsic : String) (dim : Option ExprId) (rank : Nat) : Edit Unit := do
  match dim with
  | none => return
  | some dim =>
    let type ← ask (·.exprType dim)
    demand (type.isInteger && type.isScalar) intrinsic .integerScalarDim dim
    if let some value ← ask (·.integer? dim) then
      if value < 1 ∨ (rank : Int) < value then
        violated intrinsic (.dimOutOfRange value rank) (← ask (·.expr dim)).span

def arrayArgument (intrinsic : String) (slots : List (Option ExprId)) : Edit (ExprId × Ty) := do
  let array ← required slots 0
  let type ← ask (·.exprType array)
  demand type.isArray intrinsic .arrayArgument array
  return (array, type)

/-- The product of lengths, when all are known and it has 64 bits. -/
def totalLength? (lengths : List (Option Int)) : Option Int :=
  lengths.foldlM
    (fun total length => do
      let product := total * (← length)
      if fitsInteger 8 product then some product else none)
    1

/-- The number of elements of an array, or its extent in one dimension. -/
def sizeInquiry (span : Span) : Edit ExprId := do
  let (array, type) ← arrayArgument "size" slots
  let dim ← slotAt slots 1
  checkDim "size" dim type.rank
  let kind ← chosenKind slots 2 "size" .integer 4 span
  let lengths ← ask fun arena => type.dims.mapM fun dim => arena.optionalInteger? dim.length
  let known ←
    match dim with
    | some dim => do
      let chosen ← ask (·.integer? dim)
      pure (chosen.bind fun number => (lengths[number.toNat - 1]?).join)
    | none => pure (totalLength? lengths)
  let inRange := known.filter (fitsInteger kind)
  let value ← addConstant? (inRange.map .integer) (.integer kind) span
  addExpr (.arraySize array dim) (.integer kind) value span

def knownBound? (arena : Arena) (bound : BoundKind) (dim : Dimension) :
    Except Breach (Option Int) := do
  match ← arena.optionalInteger? dim.start with
  | none => return none
  | some start =>
    match bound with
    | .lower => return some start
    | .upper =>
      match ← arena.optionalInteger? dim.length with
      | none => return none
      | some length =>
        let last := start + wrapWord (length - 1)
        return if fitsInteger 8 last then some last else none

def boundInquiry (bound : BoundKind) (intrinsic : String) (slots : List (Option ExprId))
    (span : Span) : Edit ExprId := do
  let (array, type) ← arrayArgument intrinsic slots
  let slot ← slotAt slots 1
  checkDim intrinsic slot type.rank
  let dim ←
    match slot with
    | some dim => pure dim
    | none => if type.rank = 1 then addInteger 1 span else violated intrinsic .dimRequired span
  let known ← ask fun arena => do
    match ← arena.integer? dim with
    | none => return none
    | some number =>
      match type.dims[number.toNat - 1]? with
      | none => return none
      | some dimension => knownBound? arena bound dimension
  let inRange := known.filter (fitsInteger 4)
  let value ← addConstant? (inRange.map .integer) (.integer 4) span
  addExpr (.arrayBound array dim bound) (.integer 4) value span

/-- Converts all arguments to the numeric type of highest priority among them; they must be scalars
of one category. -/
def promoteAll (intrinsic : String) (slots : List (Option ExprId)) (span : Span) :
    Edit (Ty × List (Option ExprId)) := do
  let first ← required slots 0
  let start := (← ask (·.exprType first)).element
  let common ← (slots.filterMap fun slot => slot).foldlM (fun (common : Ty) arg => do
    let type ← ask (·.exprType arg)
    demand (type.isScalar && (type.isInteger || type.isReal)) intrinsic .orderedScalars arg
    let category : TypeCategory ← type.category
    if category ≠ (← common.category) then violated intrinsic .mixedCategories span
    return ((Conversion.common? .arithmetic common type).map (·.1)).getD common) start
  let promoted ← slots.mapM fun
    | none => pure none
    | some arg => some <$> Conversion.insertCast arg common span
  return (common, promoted)

variable (intrinsic : ScalarIntrinsic)

/-- The type of a call that stays a call, and its arguments after conversion. -/
def callType (slots : List (Option ExprId)) (span : Span) : Edit (Ty × List (Option ExprId)) := do
  match intrinsic with
  | .selectedIntKind =>
    let arg ← required slots 0
    let type ← ask (·.exprType arg)
    demand (type.isInteger && type.isScalar) intrinsic.name .integerScalarR arg
    return (.integer 4, slots)
  | .selectedRealKind =>
    if slots.all Option.isNone then violated intrinsic.name .precisionOrRangeRequired span
    for arg in slots.filterMap fun slot => slot do
      let type ← ask (·.exprType arg)
      demand (type.isInteger && type.isScalar) intrinsic.name .integerScalars arg
    return (.integer 4, slots)
  | .abs =>
    let arg ← required slots 0
    let type ← ask (·.exprType arg)
    demand type.isNumeric intrinsic.name .numericValue arg
    match type.element with
    | .complex kind => return (type.withElement (.real kind), slots)
    | _ => return (type, slots)
  | .aimag =>
    let arg ← required slots 0
    let type ← ask (·.exprType arg)
    demand type.isComplex intrinsic.name .complexValue arg
    return (type.withElement (.real (type.kind?.getD 4)), slots)
  | .mod | .min | .max => promoteAll intrinsic.name slots span
  | .floor =>
    let arg ← required slots 0
    let type ← ask (·.exprType arg)
    demand type.isReal intrinsic.name .realA arg
    let kind ← chosenKind slots 1 intrinsic.name .integer 4 span
    return (type.withElement (.integer kind), slots)
  | _ =>
    let arg ← required slots 0
    let type ← ask (·.exprType arg)
    demand (type.isReal || type.isComplex) intrinsic.name .realOrComplex arg
    return (type, slots)

/-- The constants in some slots: none when an argument that is given is not constant. -/
def slotConstants? (arena : Arena) : List (Option ExprId) →
    Except Breach (Option (List (Option Constant)))
  | [] => return some []
  | slot :: rest => do
    let value ←
      match slot with
      | none => pure (some none)
      | some arg => (·.map some) <$> arena.constant? arg
    match value with
    | none => return none
    | some value => return (← slotConstants? arena rest).map (value :: ·)

def keepCall (callee : SymbolId) (slots : List (Option ExprId)) (span : Span) : Edit ExprId := do
  let (type, slots) ← callType intrinsic slots span
  let constants ← ask fun arena => slotConstants? arena slots
  let folded := constants.bind fun args => evaluate intrinsic args type
  let value ← addConstant? folded type span
  addCall callee slots type value span

/-- The slots of a call of a scalar intrinsic. -/
def scalarSlots (args : List ActualArgument) (span : Span) : Edit (List (Option ExprId)) := do
  if intrinsic.isVariadic then
    if let some arg := args.find? fun arg => arg.keyword.isSome then
      violated intrinsic.name .keywordsRefused arg.span
    if args.length < intrinsic.leastArguments then
      violated intrinsic.name (.tooFewArguments intrinsic.leastArguments) span
    return args.map fun arg => some arg.value
  else
    placeAll intrinsic.name intrinsic.dummies intrinsic.leastArguments
      (fun ordinal _ => return ordinal) args span

/-- Resolves a call of the scalar intrinsic with the given name through the imported symbol
`callee`. -/
def resolveScalar (name : String) (callee : SymbolId) (args : List ActualArgument) (span : Span) :
    Edit ExprId := do
  match ScalarIntrinsic.ofName? name with
  | none => reject (.unsupportedIntrinsic name) span
  | some intrinsic =>
    let slots ← scalarSlots intrinsic args span
    match intrinsic with
    | .kind => kindInquiry slots span
    | .tiny => tinyInquiry slots span
    | .huge => hugeInquiry slots span
    | .real => toReal slots span
    | .int => toInteger slots span
    | .dble => toDouble slots span
    | .len => lengthInquiry callee slots span
    | .size => sizeInquiry slots span
    | .lbound => boundInquiry .lower "lbound" slots span
    | .ubound => boundInquiry .upper "ubound" slots span
    | _ => keepCall intrinsic callee slots span

end FortranSemantics.Intrinsic
