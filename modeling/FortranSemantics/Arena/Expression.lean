import FortranSemantics.Arena.Type
import FortranSemantics.Number.Decimal
import FortranSemantics.Span
import FortranSemantics.Text

/-!
# Expression nodes and statements

A resolved expression is a node of the arena whose operands are other nodes. Statements are trees
over such nodes.
-/

namespace FortranSemantics

/-! ## Constants

Compile-time values. Integers are mathematical integers kept within 64 bits by the operations on
them, reals are doubles, rounded to single precision when their type has kind 4. -/

/-- A compile-time value. -/
inductive Constant where
  | integer (value : Int)
  | real (value : Float)
  | complex (re im : Float)
  | logical (value : Bool)
  | text (value : String)
  | array (items : List Constant)

namespace Constant

def integer? : Constant → Option Int
  | .integer value => some value
  | _ => none

/-- The value of an integer or real constant as a real. -/
def real? : Constant → Option Float
  | .integer value => some (Number.realOfInteger value)
  | .real value => some value
  | _ => none

/-- The real and imaginary part of a numeric constant. -/
def complex? : Constant → Option (Float × Float)
  | .integer value => some (Number.realOfInteger value, 0.0)
  | .real value => some (value, 0.0)
  | .complex re im => some (re, im)
  | _ => none

def logical? : Constant → Option Bool
  | .logical value => some value
  | _ => none

/-- Reals are written positionally from a ten-thousandth up to ten to the sixteenth; of two equally
near shortest decimals the upper one is taken. -/
def realStyle : Number.DecimalStyle :=
  ⟨-4, 15, .up⟩

def realText (value : Float) : String :=
  Number.realText realStyle value

mutual

def toText : Constant → String
  | .integer value => toString value
  | .real value => realText value
  | .complex re im => "(" ++ realText re ++ ", " ++ realText im ++ ")"
  | .logical value => if value then ".true." else ".false."
  | .text value => "\"" ++ value ++ "\""
  | .array items => "[" ++ Text.joined ", " (toTexts items) ++ "]"

def toTexts : List Constant → List String
  | [] => []
  | item :: rest => item.toText :: toTexts rest

end

end Constant

/-! ## Expressions -/

/-- Arithmetic operators. -/
inductive ArithmeticOperator where
  | add | sub | mul | div | pow
deriving DecidableEq, Repr

/-- Relational operators. -/
inductive Comparison where
  | eq | notEq | lt | ltE | gt | gtE
deriving DecidableEq, Repr

/-- Logical operators. -/
inductive LogicalOperator where
  | and | or | eqv | neqv
deriving DecidableEq, Repr

/-- Unary operators. -/
inductive UnaryOperator where
  | minus | not
deriving DecidableEq, Repr

/-- Conversions between intrinsic types. -/
inductive CastKind where
  | integerToReal
  | realToInteger
  | integerToInteger
  | realToReal
  | integerToComplex
  | realToComplex
  | complexToReal
  | complexToInteger
  | complexToComplex
  | logicalToInteger
  | integerToLogical
  | logicalToLogical
deriving DecidableEq, Repr

/-- Which bound of a dimension is asked for. -/
inductive BoundKind where
  | lower | upper
deriving DecidableEq, Repr

/-- Intrinsics over whole arrays. -/
inductive ArrayIntrinsic where
  | sum | product | maxVal | minVal | any | all | parity | count | maxLoc | minLoc | merge | shape
deriving DecidableEq, Repr

/-- Which optional arguments an array reduction was called with. -/
inductive Overload where
  | array | arrayDim | arrayMask | arrayDimMask
deriving DecidableEq, Repr

/-- The forms of a resolved expression. -/
inductive ExprKind where
  | constant (value : Constant)
  | arrayConstructor (items : List ExprId)
  | complexConstructor (re im : ExprId)
  | var (symbol : SymbolId)
  /-- An arithmetic operation; a user operator puts its call in `overloaded`. -/
  | arithmetic (left : ExprId) (op : ArithmeticOperator) (right : ExprId)
      (overloaded : Option ExprId)
  | compare (left : ExprId) (op : Comparison) (right : ExprId) (overloaded : Option ExprId)
  | logical (left : ExprId) (op : LogicalOperator) (right : ExprId) (overloaded : Option ExprId)
  | concat (left right : ExprId) (overloaded : Option ExprId)
  | unary (op : UnaryOperator) (operand : ExprId) (overloaded : Option ExprId)
  | cast (arg : ExprId) (kind : CastKind)
  /-- A function call: `via` is the generic it was resolved through, `receiver` the object of a
  type-bound call. -/
  | call (name : SymbolId) (via : Option SymbolId) (args : List (Option ExprId))
      (receiver : Option ExprId)
  | arrayCall (intrinsic : ArrayIntrinsic) (overload : Overload) (args : List ExprId)
  | arrayItem (array : ExprId) (indices : List ExprId)
  | component (base : ExprId) (member : SymbolId)
  | structConstructor (type : SymbolId) (args : List ExprId)
  | arraySize (array : ExprId) (dim : Option ExprId)
  | arrayBound (array dim : ExprId) (bound : BoundKind)

/-- A resolved expression. -/
structure Expr where
  kind : ExprKind
  type : Ty
  /-- The literal node holding the compile-time value, when there is one. -/
  value : Option ExprId
  span : Span

/-- A resolved statement. -/
inductive Stmt where
  | assignment (target value : ExprId)
  | branch (cond : ExprId) (body orelse : List Stmt)
  | loop (var start stop : ExprId) (step : Option ExprId) (body : List Stmt)
  | loopWhile (cond : ExprId) (body : List Stmt)
  | call (name : SymbolId) (via : Option SymbolId) (args : List (Option ExprId))
      (receiver : Option ExprId)
  | print (items : List ExprId)
  | returnStmt
  | exit
  | cycle
  | stop (code : Option ExprId)
  | block (symbol : SymbolId)

/-- The spelling of an arithmetic operator. -/
def ArithmeticOperator.spelling : ArithmeticOperator → String
  | .add => "+"
  | .sub => "-"
  | .mul => "*"
  | .div => "/"
  | .pow => "**"

/-- The spelling of a relational operator. -/
def Comparison.spelling : Comparison → String
  | .eq => "=="
  | .notEq => "/="
  | .lt => "<"
  | .ltE => "<="
  | .gt => ">"
  | .gtE => ">="

def LogicalOperator.spelling : LogicalOperator → String
  | .and => ".and."
  | .or => ".or."
  | .eqv => ".eqv."
  | .neqv => ".neqv."

/-- The name under which a conversion is printed. -/
def CastKind.name : CastKind → String
  | .integerToReal => "IntegerToReal"
  | .realToInteger => "RealToInteger"
  | .integerToInteger => "IntegerToInteger"
  | .realToReal => "RealToReal"
  | .integerToComplex => "IntegerToComplex"
  | .realToComplex => "RealToComplex"
  | .complexToReal => "ComplexToReal"
  | .complexToInteger => "ComplexToInteger"
  | .complexToComplex => "ComplexToComplex"
  | .logicalToInteger => "LogicalToInteger"
  | .integerToLogical => "IntegerToLogical"
  | .logicalToLogical => "LogicalToLogical"

/-- The Fortran name of an array intrinsic. -/
def ArrayIntrinsic.name : ArrayIntrinsic → String
  | .sum => "sum"
  | .product => "product"
  | .maxVal => "maxval"
  | .minVal => "minval"
  | .any => "any"
  | .all => "all"
  | .parity => "parity"
  | .count => "count"
  | .maxLoc => "maxloc"
  | .minLoc => "minloc"
  | .merge => "merge"
  | .shape => "shape"

namespace Overload

/-- The number that identifies an overload in printed nodes and helper names. -/
def number : Overload → Nat
  | .array => 0
  | .arrayDim => 1
  | .arrayMask => 2
  | .arrayDimMask => 3

/-- Whether the call has a dimension argument. -/
def hasDim : Overload → Bool
  | .arrayDim | .arrayDimMask => true
  | _ => false

def hasMask : Overload → Bool
  | .arrayMask | .arrayDimMask => true
  | _ => false

end Overload

namespace ExprKind

/-- The operands of an expression, without its constant value and the bounds in its type. -/
def children : ExprKind → List ExprId
  | .constant _ | .var _ => []
  | .arrayConstructor items => items
  | .complexConstructor re im => [re, im]
  | .arithmetic left _ right overloaded
  | .compare left _ right overloaded
  | .logical left _ right overloaded
  | .concat left right overloaded => [left, right] ++ overloaded.toList
  | .unary _ operand overloaded => [operand] ++ overloaded.toList
  | .cast arg _ => [arg]
  | .call _ _ args receiver => args.filterMap id ++ receiver.toList
  | .arrayCall _ _ args => args
  | .arrayItem array indices => array :: indices
  | .component base _ => [base]
  | .structConstructor _ args => args
  | .arraySize array dim => array :: dim.toList
  | .arrayBound array dim _ => [array, dim]

end ExprKind

namespace Stmt

mutual

/-- The expressions of a statement and of the statements inside it, in source order. -/
def exprs : Stmt → List ExprId
  | .assignment target value => [target, value]
  | .branch cond body orelse => cond :: (exprsOf body ++ exprsOf orelse)
  | .loop var start last step body => [var, start, last] ++ step.toList ++ exprsOf body
  | .loopWhile cond body => cond :: exprsOf body
  | .call _ _ args receiver => args.filterMap id ++ receiver.toList
  | .print items => items
  | .stop code => code.toList
  | .returnStmt | .exit | .cycle | .block _ => []

def exprsOf : List Stmt → List ExprId
  | [] => []
  | first :: rest => exprs first ++ exprsOf rest

end

end Stmt

end FortranSemantics
