import FortranSemantics.Expression.Call

/-!
# Operators

An operator has its intrinsic meaning where the operand types allow it, with conversions of one
operand. Otherwise a generic for the operator is looked for, in scope and among the members of the
operands' types. Operations on constants are folded.
-/

namespace FortranSemantics.Expression

open Edit Conversion

/-! ## User-defined operators -/

/-- The candidates of a symbol that is a generic. -/
def genericCandidates? (arena : Arena) (id : SymbolId) : Except Breach
    (Option (List SymbolId)) := do
  match ← arena.target id with
  | .generic info => return some info.procs
  | _ => return none

/-- The symbols that an operator generic may be: the one in scope and the members of operand types.
-/
def operatorSymbols (arena : Arena) (generic : String) (operands : List ExprId) (scope : ScopeId) :
    Except Breach (List SymbolId) := do
  let inScope ← arena.lookup scope generic
  let members ← operands.mapM fun operand => do
    match (← arena.exprType operand).derivedSymbol? with
    | some type => arena.member? type generic
    | none => return none
  return inScope.toList ++ members.filterMap fun member => member

/-- The operator generics for some operands, each once, with their candidates. -/
def operatorGenerics (arena : Arena) (generic : String) (operands : List ExprId) (scope : ScopeId) :
    Except Breach (List (SymbolId × List SymbolId)) := do
  let symbols ← operatorSymbols arena generic operands scope
  let generics ← symbols.eraseDups.mapM fun symbol => do
    return (← genericCandidates? arena symbol).map (symbol, ·)
  return generics.filterMap fun generic => generic

/-- The first of some generics with a candidate for the operands, called with copies of them. -/
def callOperator (env : Environment) (operands : List ExprId) (types : List Ty) (span : Span)
    (scope : ScopeId) : List (SymbolId × List SymbolId) → Edit (Option ExprId)
  | [] => return none
  | (generic, candidates) :: rest => do
    match ← ask (·.select env.policy candidates types none) with
    | .noMatch => callOperator env operands types span scope rest
    | .ambiguous several => ambiguous generic several span
    | .found candidate =>
      let function ← ask (·.implementation candidate)
      match ← ask (·.returnType? function) with
      | none => reject (.operatorSubroutine (← ask (·.name function))) span
      | some type =>
        let name ← callableSymbol scope generic candidate span
        let args ← operands.mapM fun operand => some <$> copy operand
        some <$> addExpr (.call name (some generic) args none) type none span

/-- The call of a user-defined operator that accepts the operands. -/
def userOperator (env : Environment) (generic : String) (operands : List ExprId) (span : Span)
    (scope : ScopeId) : Edit (Option ExprId) := do
  let generics ← ask fun arena => operatorGenerics arena generic operands scope
  let types ← operands.mapM typeOf
  callOperator env operands types span scope generics

/-- An operation that a user-defined operator carries out. -/
def overloadedBy (call : ExprId) (kind : Option ExprId → ExprKind) (span : Span) : Edit ExprId := do
  let type ← typeOf call
  addExpr (kind (some call)) type none span

/-! ## Intrinsic operators -/

/-- The type of an operation on operands of the given types, whose elements have the type `element`.
-/
def resultShape (left right element : Ty) (span : Span) : Edit Ty :=
  if left.rank = 0 ∧ right.rank = 0 then return element
  else if right.rank = 0 then return left.withElement element
  else if left.rank = 0 then return right.withElement element
  else if left.rank = right.rank then return left.withElement element
  else reject (.operandRanks left.rank right.rank) span

variable (left right : ExprId)

def convertSide (element : Ty) (side : ConversionSide) (span : Span) : Edit (ExprId × ExprId) := do
  match side with
  | .none => return (left, right)
  | .left => return (← insertCast left element span, right)
  | .right => return (left, ← insertCast right element span)

/-- The folded value of an operation on constant operands, as a literal. -/
def foldBinary (fold : Constant → Constant → Option Constant) (type : Ty)
    (span : Span) : Edit (Option ExprId) := do
  let leftValue ← ask (·.constant? left)
  let rightValue ← ask (·.constant? right)
  let folded := do fold (← leftValue) (← rightValue)
  addConstant? folded type span

/-- An operation with its intrinsic meaning: the operands are converted to a common element type,
and the result has the shape of the operands and the given element type. -/
def intrinsicOperation (leftType rightType common element : Ty)
    (side : ConversionSide) (fold : Constant → Constant → Option Constant)
    (kind : ExprId → ExprId → ExprKind) (span : Span) : Edit ExprId := do
  let type ← resultShape leftType rightType element span
  let (left, right) ← convertSide left right common side span
  let value ← foldBinary left right fold type span
  addExpr (kind left right) type value span

/-- An arithmetic operation, intrinsic or user-defined. -/
def arithmetic (env : Environment) (op : ArithmeticOperator) (left right : ExprId) (span : Span)
    (scope : ScopeId) : Edit ExprId := do
  let leftType ← typeOf left
  let rightType ← typeOf right
  match common? .arithmetic leftType rightType with
  | some (common, side) =>
    intrinsicOperation left right leftType rightType common common side
      (Folding.arithmetic op common) (fun left right => .arithmetic left op right none) span
  | none =>
    match ← userOperator env op.genericName [left, right] span scope with
    | some call => overloadedBy call (.arithmetic left op right) span
    | none =>
      reject
        (.arithmeticOperands op.spelling (← typeName leftType) (← typeName rightType)) span

/-- A comparison. Complex numbers are only compared for equality, and logical values not at all. -/
def comparison (env : Environment) (op : Comparison) (left right : ExprId) (span : Span)
    (scope : ScopeId) : Edit ExprId := do
  let leftType ← typeOf left
  let rightType ← typeOf right
  match common? .comparison leftType rightType with
  | some (common, side) =>
    if common.isComplex ∧ op ≠ .eq ∧ op ≠ .notEq then reject (.complexOrder op.spelling) span
    intrinsicOperation left right leftType rightType common (.logical 4) side (Folding.compare op)
      (fun left right => .compare left op right none) span
  | none =>
    match ← userOperator env op.genericName [left, right] span scope with
    | some call => overloadedBy call (.compare left op right) span
    | none =>
      if leftType.isLogical && rightType.isLogical then reject (.logicalComparison op.spelling) span
      reject
        (.comparisonOperands (← typeName leftType) (← typeName rightType) op.spelling) span

/-- A logical operation, intrinsic or user-defined. -/
def logical (env : Environment) (op : LogicalOperator) (left right : ExprId) (span : Span)
    (scope : ScopeId) : Edit ExprId := do
  let leftType ← typeOf left
  let rightType ← typeOf right
  match common? .logical leftType rightType with
  | some (common, side) =>
    intrinsicOperation left right leftType rightType common common side (Folding.logical op)
      (fun left right => .logical left op right none) span
  | none =>
    match ← userOperator env op.genericName [left, right] span scope with
    | some call => overloadedBy call (.logical left op right) span
    | none =>
      reject
        (.logicalOperands op.spelling (← typeName leftType) (← typeName rightType)) span

/-- The length of a concatenation, when both lengths are known. -/
def concatLength? (left right : Ty) : Option Int :=
  match left.element, right.element with
  | .character _ (some leftLength) _, .character _ (some rightLength) _ =>
    some (Number.wrapWord (leftLength + rightLength))
  | _, _ => none

/-- A concatenation, intrinsic or user-defined. -/
def concatenation (env : Environment) (left right : ExprId) (span : Span) (scope : ScopeId) :
    Edit ExprId := do
  let leftType ← typeOf left
  let rightType ← typeOf right
  let common := common? .concatenation leftType rightType
  if common.isNone || leftType.isArray || rightType.isArray then
    match ← userOperator env concatGenericName [left, right] span scope with
    | some call => overloadedBy call (.concat left right) span
    | none =>
      reject (.concatOperands (← typeName leftType) (← typeName rightType)) span
  else
    let type := Ty.character (leftType.kind?.getD 1) (concatLength? leftType rightType) none
    let value ← foldBinary left right Folding.concat type span
    addExpr (.concat left right none) type value span

def unary (env : Environment) (op : UnaryOperator) (operand : ExprId) (span : Span)
    (scope : ScopeId) : Edit ExprId := do
  let type ← typeOf operand
  let (isIntrinsic, wanted) :=
    match op with
    | .minus => (type.isNumeric, "numeric")
    | .not => (type.isLogical, "logical")
  if isIntrinsic then
    let constant ← ask (·.constant? operand)
    let value ← addConstant? (constant.bind (Folding.unary op type)) type span
    addExpr (.unary op operand none) type value span
  else
    match ← userOperator env op.genericName [operand] span scope with
    | some call => overloadedBy call (.unary op operand) span
    | none => reject (.unaryOperand wanted (← typeName type)) span

/-- A call of an operator with a name of its own. -/
def definedOperator (env : Environment) (op : String) (operands : List ExprId) (span : Span)
    (scope : ScopeId) : Edit ExprId := do
  let name := Text.trimDots op
  match ← userOperator env (operatorGenericName ("." ++ name ++ ".")) operands span scope with
  | some call => return call
  | none =>
    let types ← operands.mapM fun operand => do typeName (← typeOf operand)
    reject (.noOperator name types) span

end FortranSemantics.Expression
