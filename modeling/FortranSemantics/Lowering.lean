import FortranSemantics.Intrinsic.LoopProcedure

/-!
# Lowering of array intrinsics

Calls of array intrinsics in executable statements are replaced by calls of helpers. A call with a
scalar result becomes a function call in its place. A call with an array result becomes a subroutine
call that writes to the target of the assignment, or to a temporary in front of the statement that
uses it.
-/

namespace FortranSemantics.Lowering

open Edit

/-- Where lowered statements belong. -/
structure Site where
  /-- The scope of the program unit, which holds the helpers. -/
  unit : ScopeId
  /-- The scope of the statements, which holds the temporaries. -/
  body : ScopeId

/-- The arguments of a node that is a call of an array intrinsic. -/
def arrayCallArgs (id : ExprId) : Edit (List ExprId) := do
  match (← ask (·.expr id)).kind with
  | .arrayCall _ _ args => return args
  | _ => broken (.notArrayCall id.index)

/-- Turns a node into a reference to a fresh temporary; the reference by which it is written comes
back. -/
def introduceTemporary (site : Site) (id : ExprId) (intrinsic : ArrayIntrinsic) : Edit ExprId := do
  let expr ← ask (·.expr id)
  let name ← ask (·.uniqueName site.body ("__" ++ intrinsic.name ++ "_result"))
  let temporary ← addSymbol name site.body (.variable (.ofType expr.type))
  overwrite site.body name temporary
  let target ← addVar temporary expr.type expr.span
  setExprKind id (.var temporary)
  return target

/-- Lowers an expression with operands nested at most `fuel` deep; the statements to be put in front
of it come back. -/
def exprWithin (site : Site) : Nat → ExprId → Edit (List Stmt)
  | 0, _ => broken .endless
  | fuel + 1, id => do
    let expr ← ask (·.expr id)
    match expr.kind with
    | .arrayCall intrinsic _ args =>
      let hoisted ← args.mapM (exprWithin site fuel)
      let helper ← Intrinsic.helperFor id site.unit
      if expr.type.isArray then
        let target ← introduceTemporary site id intrinsic
        return hoisted.flatten ++ [.call helper none (args.map some ++ [some target]) none]
      else
        setExprKind id (.call helper none (args.map some) none)
        return hoisted.flatten
    | kind => return (← kind.children.mapM (exprWithin site fuel)).flatten

/-- Lowers expressions; gives the statements to run before them. -/
def exprs (site : Site) (ids : List ExprId) : Edit (List Stmt) := do
  let hoisted ← ids.mapM fun id => do exprWithin site ((← get).exprs.size + 1) id
  return hoisted.flatten

/-- Whether an expression is a call of an array intrinsic with an array result. -/
def returnsArray (arena : Arena) (id : ExprId) : Except Breach Bool := do
  let expr ← arena.expr id
  match expr.kind with
  | .arrayCall .. => return expr.type.isArray
  | _ => return false

/-- A copy of a hoisted call with fresh arguments. -/
def repeated : Stmt → Edit Stmt
  | .call name via args receiver => do
    let map : Renumbering Edit := { symbol := pure, scope := pure, expr := copy }
    let args ← args.mapM map.expr?
    return .call name via args (← map.expr? receiver)
  | other => return other

mutual

/-- Lowers a statement. -/
def stmt (site : Site) : Stmt → Edit (List Stmt)
  | .assignment target value => do
    if ← ask fun arena => returnsArray arena value then
      let hoisted ← exprs site [target]
      let args ← arrayCallArgs value
      let inner ← exprs site args
      let helper ← Intrinsic.helperFor value site.unit
      return hoisted ++ inner ++ [.call helper none (args.map some ++ [some target]) none]
    else
      let hoisted ← exprs site [target, value]
      return hoisted ++ [.assignment target value]
  | .branch cond body orelse => do
    let hoisted ← exprs site [cond]
    let body ← stmts site body
    let orelse ← stmts site orelse
    return hoisted ++ [.branch cond body orelse]
  | .loop var start stop step body => do
    let hoisted ← exprs site ([var, start, stop] ++ step.toList)
    let body ← stmts site body
    return hoisted ++ [.loop var start stop step body]
  | .loopWhile cond body => do
    let hoisted ← exprs site [cond]
    let body ← stmts site body
    -- the condition is evaluated again after every iteration
    let again ← hoisted.mapM repeated
    return hoisted ++ [.loopWhile cond (body ++ again)]
  | .call name via args receiver => do
    let hoisted ← exprs site (args.filterMap (fun arg => arg) ++ receiver.toList)
    return hoisted ++ [.call name via args receiver]
  | .print items => do
    let hoisted ← exprs site items
    return hoisted ++ [.print items]
  | .stop code => do
    let hoisted ← exprs site code.toList
    return hoisted ++ [.stop code]
  | .returnStmt => return [.returnStmt]
  | .exit => return [.exit]
  | .cycle => return [.cycle]
  | .block symbol => return [.block symbol]

def stmts (site : Site) : List Stmt → Edit (List Stmt)
  | [] => return []
  | first :: rest => do
    let lowered ← stmt site first
    return lowered ++ (← stmts site rest)

end

/-- Lowers a symbol and those inside it, with scopes nested at most `fuel` deep. -/
def symbolWithin (unit : ScopeId) : Nat → SymbolId → Edit Unit
  | 0, _ => broken .endless
  | fuel + 1, id => do
    let kind ← ask (·.kind id)
    match kind.scope? with
    | none => return
    | some scope =>
      if let some body := kind.body? then
        let lowered ← stmts { unit, body := scope } body
        modifyKind id (·.withBody lowered)
      let inner := (← ask (·.scope scope)).symbols
      for child in inner do
        symbolWithin unit fuel child

/-- Lowers a program unit; modules that were not analysed here are left as they are. -/
def unit (id : SymbolId) : Edit Unit := do
  if ← ask (·.isForeignModule id) then return
  match ← ask (·.symbolScope? id) with
  | none => return
  | some scope => symbolWithin scope ((← get).scopes.size + 2) id

/-- Lowers every program, procedure and block reachable from the root scope. -/
def arena : Edit Unit := do
  let root := (← get).root
  for id in (← ask (·.scope root)).symbols do
    unit id

end FortranSemantics.Lowering
