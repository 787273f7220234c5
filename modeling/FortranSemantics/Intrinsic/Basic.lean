import FortranSemantics.Arena.Expression

/-!
# Intrinsic procedures

Every intrinsic belongs to one of four modules, which exist without being declared. Scalar
intrinsics become other expressions or calls with a computed type; array intrinsics become calls
over whole arrays.
-/

namespace FortranSemantics

/-- The scalar intrinsics; most of them also apply to arrays element by element. -/
inductive ScalarIntrinsic where
  | kind | tiny | huge | selectedIntKind | selectedRealKind
  | real | int | dble | abs | sqrt | exp | log | sin | cos | tan | aimag | mod | floor | min | max
  | len
  | size | lbound | ubound
deriving DecidableEq, Repr

namespace ScalarIntrinsic

def all : List ScalarIntrinsic :=
  [.kind, .tiny, .huge, .selectedIntKind, .selectedRealKind, .real, .int, .dble, .abs,
    .sqrt, .exp, .log,
    .sin, .cos, .tan, .aimag, .mod, .floor, .min, .max, .len, .size, .lbound, .ubound]

def name : ScalarIntrinsic → String
  | .kind => "kind"
  | .tiny => "tiny"
  | .huge => "huge"
  | .selectedIntKind => "selected_int_kind"
  | .selectedRealKind => "selected_real_kind"
  | .real => "real"
  | .int => "int"
  | .dble => "dble"
  | .abs => "abs"
  | .sqrt => "sqrt"
  | .exp => "exp"
  | .log => "log"
  | .sin => "sin"
  | .cos => "cos"
  | .tan => "tan"
  | .aimag => "aimag"
  | .mod => "mod"
  | .floor => "floor"
  | .min => "min"
  | .max => "max"
  | .len => "len"
  | .size => "size"
  | .lbound => "lbound"
  | .ubound => "ubound"

def ofName? (name : String) : Option ScalarIntrinsic :=
  all.find? fun intrinsic => intrinsic.name == name

/-- The names of the dummy arguments in order. -/
def dummies : ScalarIntrinsic → List String
  | .kind | .tiny | .huge | .sqrt | .exp | .log | .sin | .cos | .tan => ["x"]
  | .selectedIntKind => ["r"]
  | .selectedRealKind => ["p", "r"]
  | .real | .int | .floor => ["a", "kind"]
  | .dble | .abs => ["a"]
  | .aimag => ["z"]
  | .mod => ["a", "p"]
  | .min | .max => []
  | .len => ["string"]
  | .size => ["array", "dim", "kind"]
  | .lbound | .ubound => ["array", "dim"]

/-- How many leading arguments must be given. -/
def leastArguments : ScalarIntrinsic → Nat
  | .selectedRealKind => 0
  | .mod | .min | .max => 2
  | _ => 1

/-- Whether any number of positional arguments is accepted. -/
def isVariadic : ScalarIntrinsic → Bool
  | .min | .max => true
  | _ => false

end ScalarIntrinsic

namespace ArrayIntrinsic

def allOfThem : List ArrayIntrinsic :=
  [.sum, .product, .maxVal, .minVal, .any, .all, .parity, .count, .maxLoc, .minLoc, .merge, .shape]

/-- The array intrinsic with the given name. -/
def ofName? (name : String) : Option ArrayIntrinsic :=
  allOfThem.find? fun intrinsic => intrinsic.name == name

/-- The names of the dummy arguments in order. -/
def dummies : ArrayIntrinsic → List String
  | .sum | .product | .maxVal | .minVal | .maxLoc | .minLoc => ["array", "dim", "mask"]
  | .any | .all | .parity | .count => ["mask", "dim"]
  | .merge => ["tsource", "fsource", "mask"]
  | .shape => ["source"]

/-- Whether the intrinsic has an optional mask. -/
def takesMask (intrinsic : ArrayIntrinsic) : Bool :=
  intrinsic.dummies.length == 3 && intrinsic != .merge

/-- How many leading arguments must be given. -/
def leastArguments : ArrayIntrinsic → Nat
  | .merge => 3
  | _ => 1

end ArrayIntrinsic

namespace Intrinsic

def kindModule : String := "lfortran_intrinsic_kind"

def mathModule : String := "lfortran_intrinsic_math"

def arrayModule : String := "lfortran_intrinsic_array"

def stringModule : String := "lfortran_intrinsic_string"

/-- Whether a name is that of an intrinsic module. -/
def isModule (name : String) : Bool :=
  [kindModule, mathModule, arrayModule, stringModule].contains name

def scalarModule : ScalarIntrinsic → String
  | .kind | .tiny | .huge | .selectedIntKind | .selectedRealKind => kindModule
  | .len => stringModule
  | .size | .lbound | .ubound => arrayModule
  | _ => mathModule

/-- The module that provides the intrinsic with the given name. -/
def moduleFor? (name : String) : Option String :=
  match ScalarIntrinsic.ofName? name with
  | some intrinsic => some (scalarModule intrinsic)
  | none => (ArrayIntrinsic.ofName? name).map fun _ => arrayModule

end Intrinsic

end FortranSemantics
