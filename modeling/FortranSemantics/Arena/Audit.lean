import FortranSemantics.Arena.TypeRelation

/-!
# Audit of an arena

Checks everything reachable from the root scope: that symbols sit in the scope that owns them under
their own name, that scopes belong to the symbols that open them, that attached values are literals
and that operands of intrinsic operators agree in type.
-/

namespace FortranSemantics

/-- An invariant that an arena violates. -/
inductive Problem where
  | foreignOwner (name : String)
  | misnamed (symbol entry : String)
  | untypedVariable (name : String)
  | foreignArgument (procedure : String)
  | emptyGeneric (name : String)
  | candidateNotProcedure (generic : String)
  | unimplementedBinding (name : String)
  | importOutside (name : String)
  | importOfImport (name : String)
  | foreignScope (name : String)
  | valueNotLiteral (node : Nat)
  | operandTypes (node : Nat) (left right : String)
deriving DecidableEq, Repr

def Problem.message : Problem → String
  | .foreignOwner name => s!"symbol '{name}' is registered in a scope it does not own"
  | .misnamed symbol entry => s!"symbol '{symbol}' is registered as '{entry}'"
  | .untypedVariable name => s!"variable '{name}' has no type"
  | .foreignArgument procedure => s!"argument of '{procedure}' lives outside its scope"
  | .emptyGeneric name => s!"generic procedure '{name}' has no candidates"
  | .candidateNotProcedure generic => s!"candidate of '{generic}' is not a procedure"
  | .unimplementedBinding name => s!"type-bound procedure '{name}' has no implementation"
  | .importOutside name => s!"external '{name}' points outside the arena"
  | .importOfImport name => s!"external '{name}' points at another external"
  | .foreignScope name => s!"scope of '{name}' has the wrong owner"
  | .valueNotLiteral node => s!"value of expression #{node} is not a literal"
  | .operandTypes node left right =>
    s!"operands of expression #{node} have different types: {left} and {right}"

namespace Arena

/-- The problem, unless the condition holds. -/
def unlessSound (sound : Bool) (problem : Problem) : List Problem :=
  if sound then [] else [problem]

variable (arena : Arena)

def isLiteral (id : ExprId) : Except Breach Bool := do
  match (← arena.expr id).kind with
  | .constant _ => return true
  | _ => return false

def auditValue (id : ExprId) : Option ExprId → Except Breach (List Problem)
  | none => return []
  | some value => return unlessSound (← arena.isLiteral value) (.valueNotLiteral id.index)

/-- The problems of the operands of an intrinsic binary operator. -/
def auditOperands (id left right : ExprId) : Except Breach (List Problem) := do
  let leftType ← arena.exprType left
  let rightType ← arena.exprType right
  let bothStrings := leftType.isCharacter && rightType.isCharacter && leftType.kind? ==
    rightType.kind?
  if bothStrings then return []
  if ← arena.elementsEqual leftType.element rightType.element then return []
  return [.operandTypes id.index (← arena.typeName leftType) (← arena.typeName rightType)]

/-- The problems of an expression with operands nested at most `fuel` deep. -/
def auditExprWithin (arena : Arena) : Nat → ExprId → Except Breach (List Problem)
  | 0, _ => .error .endless
  | fuel + 1, id => do
    let expr ← arena.expr id
    let value ← arena.auditValue id expr.value
    let operands ←
      match expr.kind with
      | .arithmetic left _ right none | .compare left _ right none | .logical left _ right none =>
        arena.auditOperands id left right
      | _ => pure []
    let children ← expr.kind.children.mapM (arena.auditExprWithin fuel)
    return value ++ operands ++ children.flatten

def auditExprs (ids : List ExprId) : Except Breach (List Problem) := do
  return (← ids.mapM (arena.auditExprWithin (arena.exprs.size + 1))).flatten

/-- The problem of a scope that belongs to another symbol. -/
def auditOwner (scope : ScopeId) (owner : SymbolId) (name : String) :
    Except Breach (List Problem) := do
  return unlessSound ((← arena.scope scope).owner == some owner) (.foreignScope name)

/-- Whether a candidate of a generic is a procedure, itself or as the target of a binding. -/
def isProcedure (id : SymbolId) : Except Breach Bool := do
  match ← arena.target id with
  | .function _ => return true
  | .binding info => return (← arena.asFunction? info.proc).isSome
  | _ => return false

/-- The problems of what a symbol names, given those of scopes inside it. -/
def auditKind (inner : ScopeId → Except Breach (List Problem)) (name : String)
    (id : SymbolId) : SymbolKind → Except Breach (List Problem)
  | .variable info => do
    let exprs := [info.init, info.value, info.aliasOf].filterMap fun expr => expr
    return unlessSound (info.type.isSome || info.aliasOf.isSome) (.untypedVariable name)
      ++ (← arena.auditExprs exprs)
  | .function info => do
    let owner ← arena.auditOwner info.scope id name
    let args ← info.args.mapM fun arg => do
      return unlessSound ((← arena.symbol arg).owner == info.scope) (.foreignArgument name)
    let scope ← inner info.scope
    return owner ++ args.flatten ++ scope ++ (← arena.auditExprs (Stmt.exprsOf info.body))
  | .moduleUnit info => do
    let owner ← arena.auditOwner info.scope id name
    return owner ++ (← inner info.scope)
  | .program info | .block info => do
    let owner ← arena.auditOwner info.scope id name
    let scope ← inner info.scope
    return owner ++ scope ++ (← arena.auditExprs (Stmt.exprsOf info.body))
  | .derivedType info => do
    let owner ← arena.auditOwner info.scope id name
    return owner ++ (← inner info.scope)
  | .generic info => do
    let candidates ← info.procs.mapM fun proc => do
      return unlessSound (← arena.isProcedure proc) (.candidateNotProcedure name)
    return unlessSound (!info.procs.isEmpty) (.emptyGeneric name) ++ candidates.flatten
  | .binding info => do
    return unlessSound (← arena.asFunction? info.proc).isSome (.unimplementedBinding name)
  | .imported info =>
    match arena.symbols[info.target.index]? with
    | none => return [.importOutside name]
    | some { kind := .imported _, .. } => return [.importOfImport name]
    | some _ => return []

/-- The problems of an entry of a scope, given those of scopes inside it. -/
def auditEntry (inner : ScopeId → Except Breach (List Problem)) (scope : ScopeId)
    (name : String) (id : SymbolId) : Except Breach (List Problem) := do
  let symbol ← arena.symbol id
  return unlessSound (symbol.owner == scope) (.foreignOwner name)
    ++ unlessSound (symbol.name == name) (.misnamed symbol.name name)
    ++ (← arena.auditKind inner name id symbol.kind)

/-- The problems of a scope with scopes nested at most `fuel` deep. -/
def auditScopeWithin (arena : Arena) : Nat → ScopeId → Except Breach (List Problem)
  | 0, _ => .error .endless
  | fuel + 1, id => do
    let scope ← arena.scope id
    let problems ← scope.entries.mapM fun (name, symbol) =>
      arena.auditEntry (arena.auditScopeWithin fuel) id name symbol
    return problems.flatten

/-- Every invariant that the arena violates; a sound arena has none. -/
def audit : Except Breach (List Problem) :=
  arena.auditScopeWithin (arena.scopes.size + 1) arena.root

end Arena

end FortranSemantics
