import FortranSemantics.Arena.Basic

/-!
# Relations between types

Which types agree, which actual argument fits which dummy argument, and how a type is printed.
Derived types are compared by their definitions, so these questions are asked of an arena.
-/

namespace FortranSemantics

def Ty.category (type : Ty) : Except Breach TypeCategory :=
  match type.element with
  | .integer _ => .ok .integer
  | .real _ => .ok .real
  | .complex _ => .ok .complex
  | .logical _ => .ok .logical
  | .character .. => .ok .character
  | .derived _ => .ok .derived
  | .polymorphic _ => .ok .polymorphic
  | .array .. | .pointer _ | .allocatable _ => .error .aggregateElement

namespace Arena

variable (arena : Arena)

/-- Whether two derived types have the same definition. -/
def sameDefinition (left right : SymbolId) : Except Breach Bool := do
  return (← arena.pastImport left) = (← arena.pastImport right)

/-- Whether two element types agree. Character lengths are compared only when both are known. -/
def elementsEqual : Ty → Ty → Except Breach Bool
  | .integer left, .integer right
  | .real left, .real right
  | .complex left, .complex right
  | .logical left, .logical right => return left = right
  | .character left leftLength _, .character right rightLength _ =>
    return left = right &&
      match leftLength, rightLength with
      | some leftLength, some rightLength => leftLength = rightLength
      | _, _ => true
  | .derived left, .derived right
  | .derived left, .polymorphic right
  | .polymorphic left, .derived right
  | .polymorphic left, .polymorphic right => arena.sameDefinition left right
  | _, _ => return false

/-- Whether two types agree in rank and element type. -/
def typesEqual (left right : Ty) : Except Breach Bool :=
  if left.rank = right.rank then arena.elementsEqual left.element right.element else return false

/-- Whether a value of type `actual` may be passed where `formal` is expected: a polymorphic dummy
accepts every extension of its type. -/
def argumentCompatible (formal actual : Ty) : Except Breach Bool :=
  if formal.rank = actual.rank then
    match formal.element, actual.element with
    | .polymorphic formal, .derived actual
    | .polymorphic formal, .polymorphic actual => arena.isExtension actual formal
    | formal, actual => arena.elementsEqual formal actual
  else return false

def dimensionText (dim : Dimension) : Except Breach String := do
  let start ← arena.optionalInteger? dim.start
  let length ← arena.optionalInteger? dim.length
  match start, length with
  | some start, some length =>
    if start = 1 then return toString length
    else return toString start ++ ":" ++ toString (start + length - 1)
  | _, none => return if dim.length.isNone then ":" else "*"
  | _, _ => return "*"

def typeName (arena : Arena) : Ty → Except Breach String
  | .integer kind => return s!"integer({kind})"
  | .real kind => return s!"real({kind})"
  | .complex kind => return s!"complex({kind})"
  | .logical kind => return s!"logical({kind})"
  | .character _ (some length) _ => return s!"character(len={length})"
  | .character _ none _ => return "character(len=*)"
  | .array element dims => do
    let dims ← dims.mapM arena.dimensionText
    return (← arena.typeName element) ++ "(" ++ Text.joined "," dims ++ ")"
  | .derived type => return "type(" ++ (← arena.name type) ++ ")"
  | .polymorphic type => return "class(" ++ (← arena.name type) ++ ")"
  | .pointer target => return "pointer " ++ (← arena.typeName target)
  | .allocatable target => return "allocatable " ++ (← arena.typeName target)

end Arena

end FortranSemantics
