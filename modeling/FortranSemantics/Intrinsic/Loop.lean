import FortranSemantics.Arena.Edit

/-!
# Building generated procedures

Expressions and loops over the variables of a procedure that is being generated. All nodes carry the
span of the call that the procedure is generated for.
-/

namespace FortranSemantics.Intrinsic

open Edit

/-- Where a generated procedure is built. -/
structure Frame where
  scope : ScopeId
  span : Span

/-- A variable, or an element of an array selected by loop variables. -/
inductive Place where
  | var (symbol : SymbolId)
  | item (array : SymbolId) (indices : List SymbolId)

namespace Frame

variable (frame : Frame)

def declare (name : String) (type : Ty) (intent : Intent) : Edit SymbolId := do
  let symbol ← addSymbol name frame.scope (.variable { Variable.ofType type with intent })
  overwrite frame.scope name symbol
  return symbol

/-- A reference to a variable of the procedure. -/
def var (symbol : SymbolId) : Edit ExprId := do
  match ← ask (·.variableType? symbol) with
  | some type => addVar symbol type frame.span
  | none => broken (.untypedHelperVariable (← ask (·.name symbol)))

def constant (value : Constant) (type : Ty) : Edit ExprId :=
  addConstant value type frame.span

/-- A literal integer of the default kind. -/
def integer (value : Int) : Edit ExprId :=
  addInteger value frame.span

variable (array : SymbolId)

def itemAt (indices : Edit (List ExprId)) : Edit ExprId := do
  let base ← frame.var array
  let element := (← ask (·.exprType base)).element
  let indices ← indices
  addExpr (.arrayItem base indices) element none frame.span

/-- An element of an array selected by variables. -/
def item (indices : List SymbolId) : Edit ExprId :=
  frame.itemAt array (indices.mapM frame.var)

/-- An element of a vector selected by a literal. -/
def literalItem (index : Int) : Edit ExprId :=
  frame.itemAt array (do return [← frame.integer index])

def content : Place → Edit ExprId
  | .var symbol => frame.var symbol
  | .item array indices => frame.item array indices

/-- The extent of an array in one dimension. -/
def extent (dim : Nat) : Edit ExprId := do
  let base ← frame.var array
  let dim ← frame.integer dim
  addExpr (.arraySize base (some dim)) (.integer 4) none frame.span

/-- An arithmetic operation on operands of one type. -/
def arithmetic (frame : Frame) (left : ExprId) (op : ArithmeticOperator) (right : ExprId) :
    Edit ExprId := do
  let type ← ask (·.exprType left)
  addExpr (.arithmetic left op right none) type none frame.span

def compare (frame : Frame) (left : ExprId) (op : Comparison) (right : ExprId) : Edit ExprId :=
  addExpr (.compare left op right none) (.logical 4) none frame.span

/-- A logical operation on operands of one type. -/
def logical (frame : Frame) (left : ExprId) (op : LogicalOperator) (right : ExprId) :
    Edit ExprId := do
  let type ← ask (·.exprType left)
  addExpr (.logical left op right none) type none frame.span

/-- Loops over the extents of an array, one for each variable; the first variable belongs to the
innermost loop, so that elements are visited in array element order. The dimensions are counted from
`dim`. -/
def loopsFrom (frame : Frame) (array : SymbolId) : Nat → List SymbolId → List Stmt →
    Edit (List Stmt)
  | _, [], body => return body
  | dim, counter :: rest, body => do
    let var ← frame.var counter
    let start ← frame.integer 1
    let stop ← frame.extent array dim
    frame.loopsFrom array (dim + 1) rest [.loop var start stop none body]

def loops (counters : List SymbolId) (array : SymbolId) (body : List Stmt) : Edit (List Stmt) :=
  frame.loopsFrom array 1 counters body

/-- Declares the loop variables for an array of the given rank. -/
def loopVariables (rank : Nat) : Edit (List SymbolId) :=
  (List.range rank).mapM fun index =>
    frame.declare ("i" ++ toString (index + 1)) (.integer 4) .localVar

end Frame

end FortranSemantics.Intrinsic
