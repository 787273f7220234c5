import FortranSemantics.Arena.Basic

/-!
# Renumbering

A renumbering says what becomes of the identifiers held by a node. It may act in a monad: taking a
module out of an arena numbers nodes in the order in which they are met, so the order of the visits
below counts.
-/

namespace FortranSemantics

/-- What becomes of each identifier. -/
structure Renumbering (m : Type → Type) where
  symbol : SymbolId → m SymbolId
  scope : ScopeId → m ScopeId
  expr : ExprId → m ExprId

namespace Renumbering

variable {m : Type → Type} [Monad m] (map : Renumbering m)

def expr? : Option ExprId → m (Option ExprId)
  | none => pure none
  | some id => some <$> map.expr id

def symbol? : Option SymbolId → m (Option SymbolId)
  | none => pure none
  | some id => some <$> map.symbol id

def dimension (dim : Dimension) : m Dimension := do
  let start ← map.expr? dim.start
  let length ← map.expr? dim.length
  return { start, length }

def type : Ty → m Ty
  | .character kind length lengthExpr => .character kind length <$> map.expr? lengthExpr
  | .array element dims => do
    let element ← type element
    return .array element (← dims.mapM map.dimension)
  | .derived symbol => .derived <$> map.symbol symbol
  | .polymorphic symbol => .polymorphic <$> map.symbol symbol
  | .pointer target => .pointer <$> type target
  | .allocatable target => .allocatable <$> type target
  | .integer kind => return .integer kind
  | .real kind => return .real kind
  | .complex kind => return .complex kind
  | .logical kind => return .logical kind

def type? : Option Ty → m (Option Ty)
  | none => pure none
  | some type => some <$> map.type type

def exprKind : ExprKind → m ExprKind
  | .constant value => return .constant value
  | .var symbol => .var <$> map.symbol symbol
  | .arrayConstructor items => .arrayConstructor <$> items.mapM map.expr
  | .complexConstructor re im => do
    let re ← map.expr re
    return .complexConstructor re (← map.expr im)
  | .arithmetic left op right overloaded => do
    let left ← map.expr left
    let right ← map.expr right
    return .arithmetic left op right (← map.expr? overloaded)
  | .compare left op right overloaded => do
    let left ← map.expr left
    let right ← map.expr right
    return .compare left op right (← map.expr? overloaded)
  | .logical left op right overloaded => do
    let left ← map.expr left
    let right ← map.expr right
    return .logical left op right (← map.expr? overloaded)
  | .concat left right overloaded => do
    let left ← map.expr left
    let right ← map.expr right
    return .concat left right (← map.expr? overloaded)
  | .unary op operand overloaded => do
    let operand ← map.expr operand
    return .unary op operand (← map.expr? overloaded)
  | .cast arg kind => do
    return .cast (← map.expr arg) kind
  | .call name via args receiver => do
    let name ← map.symbol name
    let via ← map.symbol? via
    let args ← args.mapM map.expr?
    return .call name via args (← map.expr? receiver)
  | .arrayCall intrinsic overload args => .arrayCall intrinsic overload <$> args.mapM map.expr
  | .arrayItem array indices => do
    let array ← map.expr array
    return .arrayItem array (← indices.mapM map.expr)
  | .component base member => do
    let base ← map.expr base
    return .component base (← map.symbol member)
  | .structConstructor type args => do
    let type ← map.symbol type
    return .structConstructor type (← args.mapM map.expr)
  | .arraySize array dim => do
    let array ← map.expr array
    return .arraySize array (← map.expr? dim)
  | .arrayBound array dim bound => do
    let array ← map.expr array
    return .arrayBound array (← map.expr dim) bound

/-- Renumbers an expression: its type, its value, then its operands. -/
def node (expr : Expr) : m Expr := do
  let type ← map.type expr.type
  let value ← map.expr? expr.value
  let kind ← map.exprKind expr.kind
  return { expr with kind, type, value }

mutual

def stmt : Stmt → m Stmt
  | .assignment target value => do
    let target ← map.expr target
    return .assignment target (← map.expr value)
  | .branch cond body orelse => do
    let cond ← map.expr cond
    let body ← stmts body
    return .branch cond body (← stmts orelse)
  | .loop var start stop step body => do
    let var ← map.expr var
    let start ← map.expr start
    let stop ← map.expr stop
    let step ← map.expr? step
    return .loop var start stop step (← stmts body)
  | .loopWhile cond body => do
    let cond ← map.expr cond
    return .loopWhile cond (← stmts body)
  | .call name via args receiver => do
    let name ← map.symbol name
    let via ← map.symbol? via
    let args ← args.mapM map.expr?
    return .call name via args (← map.expr? receiver)
  | .print items => .print <$> items.mapM map.expr
  | .stop code => .stop <$> map.expr? code
  | .returnStmt => return .returnStmt
  | .exit => return .exit
  | .cycle => return .cycle
  | .block symbol => .block <$> map.symbol symbol

def stmts : List Stmt → m (List Stmt)
  | [] => return []
  | first :: rest => do
    let first ← stmt first
    return first :: (← stmts rest)

end

def symbolKind : SymbolKind → m SymbolKind
  | .variable info => do
    let type ← map.type? info.type
    let init ← map.expr? info.init
    let value ← map.expr? info.value
    let aliasOf ← map.expr? info.aliasOf
    return .variable { info with type, init, value, aliasOf }
  | .function info => do
    let scope ← map.scope info.scope
    let args ← info.args.mapM map.symbol
    let result ← map.symbol? info.result
    let body ← map.stmts info.body
    return .function { info with scope, args, result, body }
  | .moduleUnit info => do
    return .moduleUnit { info with scope := ← map.scope info.scope }
  | .program info => do
    let scope ← map.scope info.scope
    let body ← map.stmts info.body
    return .program { info with scope, body }
  | .generic info => do
    return .generic { info with procs := ← info.procs.mapM map.symbol }
  | .binding info => do
    return .binding { info with proc := ← map.symbol info.proc }
  | .derivedType info => do
    let scope ← map.scope info.scope
    let parent ← map.symbol? info.parent
    return .derivedType { info with scope, parent }
  | .imported info => do
    return .imported { info with target := ← map.symbol info.target }
  | .block info => do
    let scope ← map.scope info.scope
    let body ← map.stmts info.body
    return .block { scope, body }

/-- Renumbers a symbol: its owner, then what it names. -/
def symbolNode (symbol : Symbol) : m Symbol := do
  let owner ← map.scope symbol.owner
  let kind ← map.symbolKind symbol.kind
  return { symbol with owner, kind }

/-- Renumbers a scope: its parent, its owner, then its entries. Helpers are not carried over. -/
def scopeNode (scope : Scope) : m Scope := do
  let parent ←
    match scope.parent with
    | none => pure none
    | some parent => some <$> map.scope parent
  let owner ← map.symbol? scope.owner
  let entries ← scope.entries.mapM fun (name, symbol) => do return (name, ← map.symbol symbol)
  return { parent, owner, entries, helpers := [] }

end Renumbering

end FortranSemantics
