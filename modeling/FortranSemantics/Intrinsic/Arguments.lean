import FortranSemantics.Arena.Edit
import FortranSemantics.Arena.TypeRelation

/-!
# Arguments of intrinsics

Actual arguments are placed in the slots of the dummy arguments by position or keyword. Violations
of an intrinsic's contract are reported under its name.
-/

namespace FortranSemantics

/-! ## Actual arguments -/

/-- A resolved actual argument, with the keyword it was given under. -/
structure ActualArgument where
  keyword : Option String
  value : ExprId
  span : Span

def ActualArgument.positional (value : ExprId) (span : Span) : ActualArgument :=
  { keyword := none, value, span }

namespace Intrinsic

/-- Refuses a call for violating the contract of an intrinsic. -/
def violated {α : Type} (intrinsic : String) (violation : Violation) (span : Span) : Edit α :=
  reject (.contract intrinsic violation) span

/-- Refuses an argument of the wrong type. -/
def wrongArgument {α : Type} (intrinsic : String) (requirement : Requirement) (arg : ExprId) :
    Edit α := do
  let expr ← Edit.ask (·.expr arg)
  let got ← Edit.ask (·.typeName expr.type)
  violated intrinsic (.wrongArgument requirement got) expr.span

def demand (holds : Bool) (intrinsic : String) (requirement : Requirement) (arg : ExprId) :
    Edit Unit :=
  if holds then return else wrongArgument intrinsic requirement arg

/-- Slots of dummy arguments, partly filled. -/
structure Slots where
  filled : List (Option ExprId)
  /-- How many arguments were given by position. -/
  positional : Nat
  /-- Whether an argument was given by keyword. -/
  keyword : Bool

variable (intrinsic : String) (dummies : List String)

/-- The slot of an argument; `position` gives it for the `n`-th positional one, counted from zero.
-/
def slotOf (position : Nat → ExprId → Edit Nat)
    (slots : Slots) (arg : ActualArgument) : Edit (Nat × Slots) := do
  match arg.keyword with
  | some keyword =>
    match dummies.findIdx? (· == keyword) with
    | some index => return (index, { slots with keyword := true })
    | none => violated intrinsic (.unknownKeyword keyword) arg.span
  | none =>
    if slots.keyword then violated intrinsic .positionalAfterKeyword arg.span
    let index ← position slots.positional arg.value
    return (index, { slots with positional := slots.positional + 1 })

/-- Puts an argument into its slot, which must be free. -/
def place (position : Nat → ExprId → Edit Nat)
    (slots : Slots) (arg : ActualArgument) : Edit Slots := do
  let (index, slots) ← slotOf intrinsic dummies position slots arg
  match dummies[index]? with
  | none => violated intrinsic (.tooManyArguments dummies.length) arg.span
  | some dummy =>
    match slots.filled[index]? with
    | none => broken .dangling
    | some (some _) => violated intrinsic (.givenTwice dummy) arg.span
    | some none => return { slots with filled := slots.filled.set index (some arg.value) }

/-- Places all arguments; the first `least` slots must be filled. -/
def placeAll (least : Nat)
    (position : Nat → ExprId → Edit Nat) (args : List ActualArgument) (span : Span) :
    Edit (List (Option ExprId)) := do
  let empty : Slots :=
    { filled := List.replicate dummies.length none, positional := 0, keyword := false }
  let slots ← args.foldlM (place intrinsic dummies position) empty
  match ((dummies.zip slots.filled).take least).find? fun slot => slot.2.isNone with
  | some (dummy, _) => violated intrinsic (.missing dummy) span
  | none => return slots.filled

end Intrinsic

end FortranSemantics
