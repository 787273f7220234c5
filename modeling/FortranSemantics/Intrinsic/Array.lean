import FortranSemantics.Intrinsic.Arguments
import FortranSemantics.Intrinsic.Evaluation

/-!
# Calls of array intrinsics

A call is classified by the optional arguments it has, checked against the contract of its
intrinsic, and given the type of its result. The node that stands for it is replaced when array
intrinsics are lowered.
-/

namespace FortranSemantics.Intrinsic

open Edit

/-- The argument in a slot that must be filled after the arguments were placed. -/
def placed (slots : List (Option ExprId)) (index : Nat) : Edit ExprId :=
  match slots[index]? with
  | some (some arg) => return arg
  | _ => broken (.missingArrayArgument index)

variable (intrinsic : ArrayIntrinsic)

/-- The slots of a call. A second positional argument that is an array is the mask and not the
dimension. -/
def arraySlots (args : List ActualArgument) (span : Span) : Edit (List (Option ExprId)) :=
  let position (ordinal : Nat) (value : ExprId) : Edit Nat := do
    if ordinal = 1 ∧ intrinsic.takesMask ∧ (← ask (·.exprType value)).isArray then return 2
    return ordinal
  placeAll intrinsic.name intrinsic.dummies intrinsic.leastArguments position args span

def overloadOf (slots : List (Option ExprId)) : Overload :=
  if intrinsic = .merge ∨ intrinsic = .shape then .array
  else
    let dim := (slots[1]?).join.isSome
    let mask := intrinsic.takesMask && (slots[2]?).join.isSome
    match dim, mask with
    | false, false => .array
    | true, false => .arrayDim
    | false, true => .arrayMask
    | true, true => .arrayDimMask

/-- Whether lengths of dimensions agree wherever both are known. -/
def sameExtents (arena : Arena) : List Dimension → List Dimension → Except Breach Bool
  | left :: lefts, right :: rights => do
    let leftLength ← arena.optionalInteger? left.length
    let rightLength ← arena.optionalInteger? right.length
    match leftLength, rightLength with
    | some leftLength, some rightLength =>
      if leftLength = rightLength then sameExtents arena lefts rights else return false
    | _, _ => sameExtents arena lefts rights
  | _, _ => return true

/-- Checks the data argument of a reduction. -/
def checkData (array : ExprId) (type : Ty) : Edit Unit :=
  let (fits, requirement) : Bool × Requirement :=
    match intrinsic with
    | .sum | .product => (type.isNumeric, .numericArray)
    | .maxVal | .minVal | .maxLoc | .minLoc => (type.isInteger || type.isReal, .orderedArray)
    | _ => (type.isLogical, .logicalArray)
  demand (fits && !type.isScalar) intrinsic.name requirement array

/-- Checks the dimension argument of a reduction over an array of the given rank. -/
def checkReductionDim (dim : ExprId) (rank : Nat) : Edit Unit := do
  let span := (← ask (·.expr dim)).span
  if intrinsic = .maxLoc ∨ intrinsic = .minLoc then reject (.locationDim intrinsic.name) span
  let type ← ask (·.exprType dim)
  demand (type.isInteger && !type.isArray) intrinsic.name .integerScalarDim dim
  match ← ask (·.integer? dim) with
  | some value =>
    if value < 1 ∨ (rank : Int) < value then
      violated intrinsic.name (.dimOutOfRange value rank) span
  | none => if 1 < rank then violated intrinsic.name .dimNotConstant span

/-- Checks the mask of a reduction over an array of the given type. -/
def checkMask (mask : ExprId) (type : Ty) : Edit Unit := do
  let expr ← ask (·.expr mask)
  demand expr.type.isLogical intrinsic.name .logicalMask mask
  let sameShape ← ask fun arena =>
    if expr.type.rank = type.rank then sameExtents arena expr.type.dims type.dims else return false
  if !sameShape then
    let maskName ← ask (·.typeName expr.type)
    let arrayName ← ask (·.typeName type)
    violated intrinsic.name (.maskShape maskName arrayName) expr.span

def checkMerge (slots : List (Option ExprId)) (span : Span) : Edit Unit := do
  let tsource ← placed slots 0
  let fsource ← placed slots 1
  let mask ← placed slots 2
  let trueType ← ask (·.exprType tsource)
  let falseType ← ask (·.exprType fsource)
  let maskType ← ask (·.exprType mask)
  demand (!(trueType.isCharacter || trueType.isDerived)) "merge" .mergeSource tsource
  demand (!(falseType.isCharacter || falseType.isDerived)) "merge" .mergeSource fsource
  if !(← ask (·.elementsEqual trueType.element falseType.element)) then
    let trueName ← ask (·.typeName trueType)
    let falseName ← ask (·.typeName falseType)
    violated "merge" (.mergeTypes trueName falseName) span
  demand maskType.isLogical "merge" .logicalMask mask
  let ranks := [trueType.rank, falseType.rank, maskType.rank].filter (0 < ·)
  match ranks with
  | [] => return
  | first :: rest => if rest.any (· != first) then violated "merge" .mergeRanks span

def checkContract (slots : List (Option ExprId)) (span : Span) : Edit Unit := do
  if intrinsic = .merge then checkMerge slots span
  else
    let array ← placed slots 0
    let type ← ask (·.exprType array)
    checkData intrinsic array type
    if let some dim := (slots[1]?).join then checkReductionDim intrinsic dim type.rank
    if intrinsic.takesMask then
      if let some mask := (slots[2]?).join then checkMask intrinsic mask type

/-- The dimension of a result that follows the `number`-th dimension of an array: the dimension
itself when it starts at one and has a known length, otherwise one of the size that the array turns
out to have. -/
def resultDim (array : ExprId) (dim : Dimension) (number : Nat) (span : Span) : Edit Dimension := do
  let start ← ask (·.optionalInteger? dim.start)
  let length ← ask (·.optionalInteger? dim.length)
  if start = some 1 ∧ length.isSome then return dim
  let start ← addInteger 1 span
  let base ← copy array
  let index ← addInteger number span
  let length ← addExpr (.arraySize base (some index)) (.integer 4) none span
  return { start := some start, length := some length }

/-- The dimensions of a result that follow those of an array, except one. -/
def resultDims (array : ExprId) (skipped : Option Int) (span : Span) : Edit (List Dimension) := do
  let dims := (← ask (·.exprType array)).dims
  let kept := (dims.zipIdx 1).filter fun (_, number) => some (number : Int) != skipped
  kept.mapM fun (dim, number) => resultDim array dim number span

/-- A dimension from one to a literal length. -/
def literalDim (length : Nat) (span : Span) : Edit Dimension := do
  let start ← addInteger 1 span
  let length ← addInteger length span
  return { start := some start, length := some length }

/-- The first of some expressions that is an array. -/
def firstArray? (arena : Arena) : List ExprId → Except Breach (Option ExprId)
  | [] => return none
  | id :: rest => do
    if (← arena.exprType id).isArray then return some id else firstArray? arena rest

def resultType (slots : List (Option ExprId)) (span : Span) : Edit Ty := do
  let data ← placed slots 0
  let type ← ask (·.exprType data)
  match intrinsic with
  | .maxLoc | .minLoc => return .shaped (.integer 4) [← literalDim type.rank span]
  | .merge =>
    match ← ask fun arena => firstArray? arena (slots.filterMap fun slot => slot) with
    | some array => return .shaped type.element (← resultDims array none span)
    | none => return type.element
  | _ =>
    let element := if intrinsic = .count then .integer 4 else type.element
    match (slots[1]?).join with
    | some dim =>
      if 1 < type.rank then
        let number ← ask (·.integer? dim)
        return .shaped element (← resultDims data number span)
      else return element
    | none => return element

def arrayValue? (arena : Arena) (intrinsic : ArrayIntrinsic) (overload : Overload)
    (args : List ExprId) : Except Breach (Option Constant) := do
  match overload, args with
  | .array, [] => .error .dangling
  | .array, array :: _ =>
    if (← arena.exprType array).rank = 1 then
      return (← arena.constant? array).bind (evaluateLocation intrinsic)
    else return none
  | _, _ => return none

/-- The extents of an array as an array constructor. -/
def shapeInquiry (source : ExprId) (span : Span) : Edit ExprId := do
  let type ← ask (·.exprType source)
  demand (!type.isScalar) "shape" .arraySource source
  let items ← (type.dims.zipIdx 1).mapM fun (dim, number) => do
    let array ← if number = 1 then pure source else copy source
    let index ← addInteger number span
    let length ← ask (·.optionalInteger? dim.length)
    let value ← addConstant? (length.map .integer) (.integer 4) span
    let item ← addExpr (.arraySize array (some index)) (.integer 4) value span
    return (item, length)
  let resultType := Ty.shaped (.integer 4) [← literalDim items.length span]
  let known := (items.map (·.2)).mapM fun length => length
  let value ← addConstant? (known.map fun lengths => .array (lengths.map .integer)) resultType span
  addExpr (.arrayConstructor (items.map (·.1))) resultType value span

/-- Resolves a call of an array intrinsic. -/
def resolveArray (args : List ActualArgument) (span : Span) : Edit ExprId := do
  let slots ← arraySlots intrinsic args span
  if intrinsic = .shape then shapeInquiry (← placed slots 0) span
  else
    checkContract intrinsic slots span
    let overload := overloadOf intrinsic slots
    let type ← resultType intrinsic slots span
    let args := slots.filterMap fun slot => slot
    let folded ← ask fun arena => arrayValue? arena intrinsic overload args
    let value ← addConstant? folded type span
    addExpr (.arrayCall intrinsic overload args) type value span

end FortranSemantics.Intrinsic
