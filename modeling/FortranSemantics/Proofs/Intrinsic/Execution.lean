import FortranSemantics.Arena.Edit
import FortranSemantics.Folding
import Mathlib.Logic.Function.Basic

/-!
# Running generated procedures

What the bodies of generated procedures do to the variables of a call: assignments, branches and
counted loops over scalars and arrays whose lower bounds are one. Operators mean what they mean for
constants, so integer arithmetic is wrapped to its kind. A body that reads a variable without a
value, leaves the bounds of an array or has a statement of another form does not run.
-/

namespace FortranSemantics

/-- The content of an array whose lower bounds are one. -/
structure Grid where
  extents : List Nat
  item : List Int → Constant

namespace Grid

/-- Whether an index is one of an array with the given extents. -/
def inside : List Nat → List Int → Bool
  | [], [] => true
  | extent :: extents, position :: index =>
    decide (1 ≤ position ∧ position ≤ extent) && inside extents index
  | _, _ => false

/-- The element at an index. -/
def item? (grid : Grid) (index : List Int) : Option Constant :=
  if inside grid.extents index then some (grid.item index) else none

/-- The array with another element at an index. -/
def setItem? (grid : Grid) (index : List Int) (value : Constant) : Option Grid :=
  if inside grid.extents index then some { grid with item := Function.update grid.item index value }
  else none

/-- The extent in a dimension, counted from one. -/
def extent? (grid : Grid) (dim : Int) : Option Nat :=
  if 1 ≤ dim then grid.extents[(dim - 1).toNat]? else none

end Grid

/-- What the variables of a running procedure hold. -/
structure Memory where
  scalar : SymbolId → Option Constant
  array : SymbolId → Option Grid

namespace Memory

variable (mem : Memory)

/-- The memory in which a scalar has another value. -/
def setScalar (symbol : SymbolId) (value : Constant) : Memory :=
  { mem with scalar := Function.update mem.scalar symbol (some value) }

/-- The memory in which an element of an array has another value. -/
def setItem? (mem : Memory) (symbol : SymbolId) (index : List Int) (value : Constant) :
    Option Memory := do
  let grid ← (← mem.array symbol).setItem? index value
  return { mem with array := Function.update mem.array symbol (some grid) }

@[simp]
theorem setScalar_array (sym : SymbolId) (v : Constant) : (mem.setScalar sym v).array = mem.array :=
  rfl

@[simp]
theorem setScalar_self (sym : SymbolId) (v : Constant) :
    (mem.setScalar sym v).scalar sym = some v :=
  Function.update_self ..

/-- Writing to a scalar leaves the others as they are. -/
theorem setScalar_of_ne {sym o : SymbolId} (v : Constant)
    (different : o ≠ sym) : (mem.setScalar sym v).scalar o = mem.scalar o :=
  Function.update_of_ne different ..

/-- Runs a step for the given number of values of a counter, which ends with the value after the
last. -/
def iterate (counter : SymbolId) (stride : Int) (step : Memory → Option Memory) :
    Nat → Int → Memory → Option Memory
  | 0, next, mem => some (mem.setScalar counter (.integer next))
  | times + 1, next, mem => do
    iterate counter stride step times (next + stride)
      (← step (mem.setScalar counter (.integer next)))

end Memory

namespace Arena

variable (arena : Arena)

/-- The variable that an expression refers to. -/
def referent? (id : ExprId) : Option SymbolId := do
  match (← arena.exprs[id.index]?).kind with
  | .var symbol => some symbol
  | _ => none

/-- The value of an expression with operands nested at most `fuel` deep. -/
def valueWithin (arena : Arena) (mem : Memory) : Nat → ExprId → Option Constant
  | 0, _ => none
  | fuel + 1, id => do
    let expr ← arena.exprs[id.index]?
    match expr.kind with
    | .constant value => some value
    | .var symbol => mem.scalar symbol
    | .arithmetic left op right none =>
      Folding.arithmetic op expr.type (← arena.valueWithin mem fuel left)
        (← arena.valueWithin mem fuel right)
    | .compare left op right none =>
      Folding.compare op (← arena.valueWithin mem fuel left) (← arena.valueWithin mem fuel right)
    | .logical left op right none =>
      Folding.logical op (← arena.valueWithin mem fuel left) (← arena.valueWithin mem fuel right)
    | .arrayItem array indices =>
      let index ← indices.mapM fun id => (arena.valueWithin mem fuel id).bind Constant.integer?
      (← mem.array (← arena.referent? array)).item? index
    | .arraySize array (some dim) =>
      let dim ← (arena.valueWithin mem fuel dim).bind Constant.integer?
      return .integer (← (← mem.array (← arena.referent? array)).extent? dim)
    | _ => none

/-- The value of an expression. -/
def value (mem : Memory) (id : ExprId) : Option Constant :=
  arena.valueWithin mem (arena.exprs.size + 1) id

/-- The value of an integer expression. -/
def integerValue (mem : Memory) (id : ExprId) : Option Int :=
  (arena.value mem id).bind Constant.integer?

/-- The memory after a value was assigned to a variable or an element of an array. -/
def assign (target : ExprId) (value : Constant) (mem : Memory) : Option Memory := do
  match (← arena.exprs[target.index]?).kind with
  | .var symbol => some (mem.setScalar symbol value)
  | .arrayItem array indices =>
    let index ← indices.mapM (arena.integerValue mem)
    mem.setItem? (← arena.referent? array) index value
  | _ => none

mutual

/-- Runs a statement. -/
def run (arena : Arena) : Stmt → Memory → Option Memory
  | .assignment target value => fun mem => do
    arena.assign target (← arena.value mem value) mem
  | .branch cond body orelse => fun mem => do
    if ← (arena.value mem cond).bind Constant.logical? then arena.runAll body mem
    else arena.runAll orelse mem
  | .loop var start stop step body => fun mem => do
    let counter ← arena.referent? var
    let start ← arena.integerValue mem start
    let stop ← arena.integerValue mem stop
    let stride ←
      match step with
      | some step => arena.integerValue mem step
      | none => some 1
    if stride = 0 then none
    else
      Memory.iterate counter stride (arena.runAll body)
        ((stop - start + stride).tdiv stride).toNat start mem
  | _ => fun _ => none

/-- Runs some statements one after another. -/
def runAll (arena : Arena) : List Stmt → Memory → Option Memory
  | [] => some
  | first :: rest => fun mem => do arena.runAll rest (← arena.run first mem)

end

end Arena

end FortranSemantics
