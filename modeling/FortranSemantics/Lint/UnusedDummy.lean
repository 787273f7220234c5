import FortranSemantics.Arena.Basic

/-!
# Unused dummy arguments

A dummy argument is used when a statement, a declaration or a contained procedure of its procedure
refers to it.
-/

namespace FortranSemantics.Arena

/-- The variables that an expression with operands nested at most `fuel` deep refers to. -/
def exprUsesWithin (arena : Arena) : Nat → ExprId → Except Breach (List SymbolId)
  | 0, _ => .error .endless
  | fuel + 1, id => do
    let kind := (← arena.expr id).kind
    let own :=
      match kind with
      | .var symbol => [symbol]
      | _ => []
    return own ++ (← kind.children.mapM (arena.exprUsesWithin fuel)).flatten

/-- The variables that some expressions refer to. -/
def exprUses (arena : Arena) (ids : List ExprId) : Except Breach (List SymbolId) := do
  return (← ids.mapM (arena.exprUsesWithin (arena.exprs.size + 1))).flatten

/-- The expressions in a type: the bounds of its dimensions and its character length. -/
def typeExprs (type : Ty) : List ExprId :=
  let bounds := type.dims.flatMap fun dim => dim.start.toList ++ dim.length.toList
  match type.element with
  | .character _ _ (some length) => bounds ++ [length]
  | _ => bounds

/-- The variables that the declarations and nested bodies of a scope refer to, with scopes nested at
most `fuel` deep. -/
def scopeUsesWithin (arena : Arena) : Nat → ScopeId → Except Breach (List SymbolId)
  | 0, _ => .error .endless
  | fuel + 1, id => do
    let scope ← arena.scope id
    let uses ← scope.symbols.mapM fun symbol => do
      match ← arena.kind symbol with
      | .variable info =>
        let values := [info.init, info.value, info.aliasOf].filterMap fun expr => expr
        arena.exprUses (values ++ (info.type.map typeExprs).getD [])
      | .function info | .block info =>
        let body ← arena.exprUses (Stmt.exprsOf info.body)
        return body ++ (← arena.scopeUsesWithin fuel info.scope)
      | _ => return []
    return uses.flatten

/-- The unused dummy arguments of a procedure. -/
def unusedArguments (arena : Arena) (info : Function) : Except Breach (List SymbolId) := do
  let body ← arena.exprUses (Stmt.exprsOf info.body)
  let scope ← arena.scopeUsesWithin (arena.scopes.size + 1) info.scope
  return info.args.filter fun arg => !body.contains arg && !scope.contains arg

/-- The unused dummy arguments of a symbol and of those inside it, with scopes nested at most `fuel`
deep; each with its procedure. -/
def unusedWithin (arena : Arena) : Nat → SymbolId → Except Breach (List (SymbolId × SymbolId))
  | 0, _ => .error .endless
  | fuel + 1, id => do
    let kind ← arena.kind id
    let own ←
      match kind with
      | .function info =>
        if info.abi = .source ∧ info.deftype = .implementation then
          pure ((← arena.unusedArguments info).map (id, ·))
        else pure []
      | _ => pure []
    match kind.scope? with
    | none => return own
    | some scope =>
      let inner ← (← arena.scope scope).symbols.mapM (arena.unusedWithin fuel)
      return own ++ inner.flatten

/-- Every procedure with an unused dummy argument, and the argument. -/
def unusedDummies (arena : Arena) : Except Breach (List (SymbolId × SymbolId)) := do
  let units ← (← arena.scope arena.root).symbols.mapM fun id => do
    if ← arena.isForeignModule id then return []
    arena.unusedWithin (arena.scopes.size + 2) id
  return units.flatten

end FortranSemantics.Arena
