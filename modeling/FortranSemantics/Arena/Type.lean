/-!
# Identifiers and types

The nodes of an analysed program live in an arena and refer to each other by identifier. Types refer
to nodes too: array bounds and character lengths are expressions, derived types are symbols.
-/

namespace FortranSemantics

/-- Identifies a symbol of an arena. -/
structure SymbolId where
  index : Nat
deriving DecidableEq, Repr, Inhabited

/-- Identifies a scope of an arena. -/
structure ScopeId where
  index : Nat
deriving DecidableEq, Repr, Inhabited

/-- Identifies an expression of an arena. -/
structure ExprId where
  index : Nat
deriving DecidableEq, Repr, Inhabited

/-- One array dimension; both halves missing means assumed or deferred shape. -/
structure Dimension where
  /-- The lower bound. -/
  start : Option ExprId
  /-- The number of elements. -/
  length : Option ExprId
deriving DecidableEq, Repr, Inhabited

/-- A type. Kinds are numbers of bytes, of one part for complex types. -/
inductive Ty where
  | integer (kind : Nat)
  | real (kind : Nat)
  | complex (kind : Nat)
  | logical (kind : Nat)
  /-- The length is missing when it is assumed, deferred or only known when the program runs; in the
  last case the expression gives it. -/
  | character (kind : Nat) (length : Option Int) (lengthExpr : Option ExprId)
  | array (element : Ty) (dims : List Dimension)
  /-- A value of exactly this derived type. -/
  | derived (type : SymbolId)
  /-- A value of this derived type or an extension of it. -/
  | polymorphic (type : SymbolId)
  | pointer (target : Ty)
  | allocatable (target : Ty)
deriving DecidableEq, Repr, Inhabited

/-- What a type's elements are, apart from kind. -/
inductive TypeCategory where
  | integer | real | complex | logical | character | derived | polymorphic
deriving DecidableEq, Repr

def TypeCategory.label : TypeCategory → String
  | .integer => "integer"
  | .real => "real"
  | .complex => "complex"
  | .logical => "logical"
  | .character => "character"
  | .derived | .polymorphic => "derived types"

def TypeCategory.kinds : TypeCategory → List Nat
  | .integer | .logical => [1, 2, 4, 8]
  | .real | .complex => [4, 8]
  | .character => [1]
  | .derived | .polymorphic => []

namespace Ty

/-- A default character type of the given length. -/
def string (length : Option Int) : Ty :=
  .character 1 length none

/-- The array type over some dimensions; without dimensions it is the element type itself. -/
def shaped (element : Ty) (dims : List Dimension) : Ty :=
  if dims.isEmpty then element else .array element dims

/-- The type without pointer and allocatable wrappers. -/
def pastPointer : Ty → Ty
  | .pointer target | .allocatable target => target.pastPointer
  | type => type

/-- The element type of an array, or the type itself for scalars. -/
def element (type : Ty) : Ty :=
  match type.pastPointer with
  | .array element _ => element.pastPointer
  | scalar => scalar

/-- The dimensions of an array, none for scalars. -/
def dims (type : Ty) : List Dimension :=
  match type.pastPointer with
  | .array _ dims => dims
  | _ => []

variable (type : Ty)

def rank : Nat :=
  type.dims.length

/-- The kind of the elements; derived types have none. -/
def kind? : Option Nat :=
  match type.element with
  | .integer kind | .real kind | .complex kind | .logical kind | .character kind _ _ => some kind
  | _ => none

def isInteger : Bool :=
  match type.element with
  | .integer _ => true
  | _ => false

def isReal : Bool :=
  match type.element with
  | .real _ => true
  | _ => false

/-- Whether the elements are complex numbers. -/
def isComplex : Bool :=
  match type.element with
  | .complex _ => true
  | _ => false

/-- Whether the elements are logical values. -/
def isLogical : Bool :=
  match type.element with
  | .logical _ => true
  | _ => false

/-- Whether the elements are character strings. -/
def isCharacter : Bool :=
  match type.element with
  | .character .. => true
  | _ => false

def isNumeric : Bool :=
  type.isInteger || type.isReal || type.isComplex

/-- Whether the elements are of derived type. -/
def isDerived : Bool :=
  match type.element with
  | .derived _ | .polymorphic _ => true
  | _ => false

def isArray : Bool :=
  0 < type.rank

def isScalar : Bool :=
  type.rank == 0

/-- The same shape over other elements. Pointer and allocatable wrappers are not carried over: the
result is the type of a value. -/
def withElement (type element : Ty) : Ty :=
  shaped element type.dims

def derivedSymbol? : Option SymbolId :=
  match type.element with
  | .derived symbol | .polymorphic symbol => some symbol
  | _ => none

/-- An array of the given rank whose extents are unknown. -/
def assumedShape (element : Ty) (rank : Nat) : Ty :=
  shaped element (List.replicate rank default)

end Ty

end FortranSemantics
