import FortranSemantics.Arena.TypeRelation
import FortranSemantics.Intrinsic.Basic
import FortranSemantics.Intrinsic.Loop

/-!
# Helpers of array intrinsics

A helper is a procedure with explicit loops that does what a call of an array intrinsic asks for. A
call with a scalar result becomes a function, one with an array result a subroutine with the result
as last argument. Helpers are shared by calls with the same key and argument types.
-/

namespace FortranSemantics.Intrinsic

open Edit

/-- The value that a reduction starts from. -/
def startValue (intrinsic : ArrayIntrinsic) (element : Ty) : Constant :=
  let kind := element.kind?.getD 4
  let number (whole : Int) (real : Float) : Constant :=
    match element with
    | .real _ => .real real
    | .complex _ => .complex real 0.0
    | _ => .integer whole
  match intrinsic with
  | .sum | .count => number 0 0.0
  | .product => number 1 1.0
  | .maxVal | .maxLoc => number (Number.integerMin kind) (-Number.realMax kind)
  | .minVal | .minLoc => number (Number.integerMax kind) (Number.realMax kind)
  | .all => .logical true
  | _ => .logical false

variable (frame : Frame)

/-- The step of a reduction that takes one item into the accumulator. -/
def accumulate (intrinsic : ArrayIntrinsic) (accumulator item : Place) : Edit Stmt := do
  let target ← frame.content accumulator
  let sumWith (op : ArithmeticOperator) : Edit Stmt := do
    let left ← frame.content accumulator
    let right ← frame.content item
    return .assignment target (← frame.arithmetic left op right)
  let replaceIf (op : Comparison) : Edit Stmt := do
    let left ← frame.content item
    let right ← frame.content accumulator
    let cond ← frame.compare left op right
    let value ← frame.content item
    return .branch cond [.assignment target value] []
  let combine (op : LogicalOperator) : Edit Stmt := do
    let left ← frame.content accumulator
    let right ← frame.content item
    return .assignment target (← frame.logical left op right)
  match intrinsic with
  | .sum => sumWith .add
  | .product => sumWith .mul
  | .maxVal => replaceIf .gt
  | .minVal => replaceIf .lt
  | .count =>
    let cond ← frame.content item
    let left ← frame.content accumulator
    let one ← frame.integer 1
    let value ← frame.arithmetic left .add one
    return .branch cond [.assignment target value] []
  | .any => combine .or
  | .all => combine .and
  | _ => combine .neqv

/-- The statement, done only where the mask holds. -/
def masked (mask : Option SymbolId) (indices : List SymbolId) (step : Stmt) : Edit Stmt := do
  match mask with
  | some mask => return .branch (← frame.item mask indices) [step] []
  | none => return step

/-- The accumulation of all items of an array. -/
def accumulation (intrinsic : ArrayIntrinsic) (accumulator : Place) (array : SymbolId)
    (mask : Option SymbolId) (indices : List SymbolId) : Edit (List Stmt) := do
  let step ← accumulate frame intrinsic accumulator (.item array indices)
  let step ← masked frame mask indices step
  frame.loops indices array [step]

/-- The statement that gives an accumulator its start value. -/
def startStmt (intrinsic : ArrayIntrinsic) (accumulator : Place) (element : Ty) : Edit Stmt := do
  let target ← frame.content accumulator
  let value ← frame.constant (startValue intrinsic element) element
  return .assignment target value

/-- The body of a reduction to a scalar. The accumulating step is built before the loops around it.
-/
def scalarReduction (intrinsic : ArrayIntrinsic) (array result : SymbolId)
    (mask : Option SymbolId) (indices : List SymbolId) (element : Ty) : Edit (List Stmt) := do
  let start ← startStmt frame intrinsic (.var result) element
  let loops ← accumulation frame intrinsic (.var result) array mask indices
  return start :: loops

/-- The reduction along one dimension, taken when the dimension argument says so; `otherwise` is
done when it does not. -/
def dimBranch (intrinsic : ArrayIntrinsic) (array dim result : SymbolId)
    (dimType element : Ty) (mask : Option SymbolId) (indices : List SymbolId) (number : Nat)
    (otherwise : List Stmt) : Edit (List Stmt) := do
  let kept := indices.eraseIdx (number - 1)
  let accumulator := Place.item result kept
  let start ← startStmt frame intrinsic accumulator element
  let starts ← frame.loops kept result [start]
  let loops ← accumulation frame intrinsic accumulator array mask indices
  let chosen ← frame.var dim
  let literal ← frame.constant (.integer number) dimType
  let cond ← frame.compare chosen .eq literal
  return [.branch cond (starts ++ loops) otherwise]

/-- The branches for the dimensions up to `number`, the last of them innermost. -/
def dimBranches (frame : Frame) (intrinsic : ArrayIntrinsic) (array dim result : SymbolId)
    (dimType element : Ty) (mask : Option SymbolId) (indices : List SymbolId) :
    Nat → List Stmt → Edit (List Stmt)
  | 0, chain => return chain
  | number + 1, chain => do
    let chain ←
      dimBranch frame intrinsic array dim result dimType element mask indices (number + 1) chain
    dimBranches frame intrinsic array dim result dimType element mask indices number chain

def dummyAt (dummies : List SymbolId) (index : Nat) : Edit SymbolId :=
  match dummies[index]? with
  | some dummy => return dummy
  | none => broken .dangling

def reductionBody (key : HelperKey) (dummies : List SymbolId) (result : SymbolId)
    (resultType : Ty) : Edit (List Stmt) := do
  let array ← dummyAt dummies 0
  let dim ← if key.overload.hasDim then some <$> dummyAt dummies 1 else pure none
  let mask ← if key.overload.hasMask then
    some <$> dummyAt dummies (dummies.length - 1) else pure none
  let element := resultType.element
  let indices ← frame.loopVariables key.rank
  if resultType.isScalar then
    scalarReduction frame key.intrinsic array result mask indices element
  else
    match dim with
    | none => broken .reductionWithoutDim
    | some dim =>
      match ← ask (·.variableType? dim) with
      | none => broken .untypedDim
      | some dimType =>
        dimBranches frame key.intrinsic array dim result dimType element mask indices key.rank []

/-- The step of a search that takes an item, and its place, when it is better than the best one so
far or when there is none so far. -/
def searchStep (intrinsic : ArrayIntrinsic) (array best result : SymbolId)
    (indices : List SymbolId) : Edit Stmt := do
  let value ← frame.item array indices
  let held ← frame.var best
  let better ← frame.compare value (if intrinsic = .maxLoc then .gt else .lt) held
  let first ← frame.literalItem result 1
  let zero ← frame.integer 0
  let unset ← frame.compare first .eq zero
  let cond ← frame.logical better .or unset
  let target ← frame.var best
  let value ← frame.item array indices
  let places ← (indices.zipIdx 1).mapM fun (index, number) => do
    let target ← frame.literalItem result number
    let value ← frame.var index
    return Stmt.assignment target value
  return .branch cond (.assignment target value :: places) []

/-- The body of a location intrinsic: the best value so far is kept beside its place, and the first
value is taken in any case. -/
def locationBody (key : HelperKey) (dummies : List SymbolId) (result : SymbolId) :
    Edit (List Stmt) := do
  let array ← dummyAt dummies 0
  let mask ← if key.overload.hasMask then some <$> dummyAt dummies 1 else pure none
  let element ←
    match ← ask (·.variableType? array) with
    | some type => pure type.element
    | none => broken .untypedArray
  let best ← frame.declare "best" element .localVar
  let indices ← frame.loopVariables key.rank
  let start ← startStmt frame key.intrinsic (.var best) element
  let zeros ← (List.range key.rank).mapM fun (index : Nat) => do
    let target ← frame.literalItem result (index + 1 : Nat)
    let zero ← frame.integer 0
    return Stmt.assignment target zero
  let step ← searchStep frame key.intrinsic array best result indices
  let step ← masked frame mask indices step
  let loops ← frame.loops indices array [step]
  return [start] ++ zeros ++ loops

/-- A dummy argument at the current element: itself when it is a scalar. -/
def operand (indices : List SymbolId) (dummy : SymbolId) : Edit ExprId := do
  let type ← ask (·.variableType? dummy)
  if type.any Ty.isArray then frame.item dummy indices else frame.var dummy

def mergeBody (dummies : List SymbolId) (result : SymbolId) (rank : Nat) : Edit (List Stmt) := do
  let indices ← frame.loopVariables rank
  let place : Place := if rank = 0 then .var result else .item result indices
  let cond ← operand frame indices (← dummyAt dummies 2)
  let trueTarget ← frame.content place
  let trueValue ← operand frame indices (← dummyAt dummies 0)
  let falseTarget ← frame.content place
  let falseValue ← operand frame indices (← dummyAt dummies 1)
  let step := Stmt.branch cond [.assignment trueTarget trueValue]
    [.assignment falseTarget falseValue]
  if rank = 0 then return [step] else frame.loops indices result [step]

/-- The names of a helper's dummy arguments. -/
def helperDummies (key : HelperKey) : List String :=
  key.intrinsic.dummies.take 1 ++
    if key.intrinsic = .merge then ["fsource", "mask"]
    else
    (if key.overload.hasDim then ["dim"] else []) ++ if key.overload.hasMask then ["mask"] else []

/-- Declares the dummy arguments of a helper. -/
def declareDummies (key : HelperKey) (argTypes : List Ty) : Edit (List SymbolId) :=
  ((helperDummies key).zip argTypes).mapM fun (name, type) =>
    frame.declare name (.assumedShape type.element type.rank) .into

/-- Declares the variable that takes the result of a helper. -/
def declareResult (type : Ty) : Edit SymbolId :=
  if type.isScalar then frame.declare "result" type .result
  else frame.declare "result" (.assumedShape type.element type.rank) .out

def helperBody (key : HelperKey) (dummies : List SymbolId) (result : SymbolId)
    (resultType : Ty) : Edit (List Stmt) :=
  match key.intrinsic with
  | .merge => mergeBody frame dummies result resultType.rank
  | .maxLoc | .minLoc => locationBody frame key dummies result
  | _ => reductionBody frame key dummies result resultType

/-- Generates the helper for a key and some argument types in a scope. -/
def generate (key : HelperKey) (argTypes : List Ty) (resultType : Ty) (parent : ScopeId)
    (span : Span) : Edit SymbolId := do
  let base := key.intrinsic.name ++ "_" ++ toString key.kind ++ "_" ++ toString key.rank ++ "_"
    ++ toString key.overload.number
  let name ← ask (·.uniqueName parent base)
  let scope ← addScope (some parent)
  let frame : Frame := { scope, span }
  let dummies ← declareDummies frame key argTypes
  let result ← declareResult frame resultType
  let body ← helperBody frame key dummies result resultType
  let scalar := resultType.isScalar
  let helper ← addSymbol name parent
    (.function
      { scope, args := if scalar then dummies else dummies ++ [result],
        result := if scalar then some result else none, body, abi := .source,
        deftype := .implementation, access := .privateAccess, dependencies := [] })
  modifyScope scope fun held => { held with owner := some helper }
  overwrite parent name helper
  return helper

/-- Whether dummy arguments accept arguments of the given types, one by one. -/
def dummiesAccept (arena : Arena) : List SymbolId → List Ty → Except Breach Bool
  | _, [] => return true
  | [], _ :: _ => return false
  | dummy :: dummies, actual :: actuals => do
    match ← arena.variableType? dummy with
    | none => return false
    | some formal =>
      if ← arena.argumentCompatible formal actual then dummiesAccept arena dummies actuals
      else return false

/-- The first of some helpers that accepts arguments of the given types. -/
def suitable? (arena : Arena) (argTypes : List Ty) : List SymbolId → Except Breach (Option SymbolId)
  | [] => return none
  | helper :: rest => do
    match ← arena.asFunction? helper with
    | none => suitable? arena argTypes rest
    | some info =>
      if info.args.length < argTypes.length then suitable? arena argTypes rest
      else if ← dummiesAccept arena info.args argTypes then return some helper
      else suitable? arena argTypes rest

/-- The helper for a call of an array intrinsic, generated in the scope when there is none yet. -/
def helperFor (call : ExprId) (scope : ScopeId) : Edit SymbolId := do
  let expr ← ask (·.expr call)
  match expr.kind with
  | .arrayCall intrinsic overload args =>
    let argTypes ← ask fun arena => args.mapM arena.exprType
    match argTypes with
    | [] => broken .dangling
    | data :: _ =>
      let rank := if intrinsic = .merge then expr.type.rank else data.rank
      let category : TypeCategory ← data.category
      let key : HelperKey := { intrinsic, category, kind := data.kind?.getD 0, rank, overload }
      let known := (← ask (·.scope scope)).helpersOf key
      match ← ask fun arena => suitable? arena argTypes known with
      | some helper => return helper
      | none =>
        let helper ← generate key argTypes expr.type scope expr.span
        modifyScope scope fun held =>
          { held with helpers := Scope.addHelper key helper held.helpers }
        return helper
  | _ => broken (.notArrayCall call.index)

end FortranSemantics.Intrinsic
