import FortranSemantics.Arena.Renumbering

/-!
# Edits of an arena

An edit extends an arena or changes some of its nodes, and may fail. What was done before a failure
stays done, as a session that goes on after an error can tell.
-/

namespace FortranSemantics

/-- A question about an arena that was asked in the course of an edit. -/
instance {σ : Type} : MonadLift (Except Breach) (EStateM Failure σ) where
  monadLift
    | .ok value => pure value
    | .error breach => throw (.broken breach)

def reject {σ α : Type} (fault : Fault) (span : Span) : EStateM Failure σ α :=
  throw (.rejected { fault, span })

def broken {σ α : Type} (breach : Breach) : EStateM Failure σ α :=
  throw (.broken breach)

/-- A kind, provided that the category has it. -/
def checkKind {σ : Type} (category : TypeCategory) (kind : Int) (span : Span) :
    EStateM Failure σ Nat :=
  if 0 ≤ kind ∧ kind.toNat ∈ category.kinds then return kind.toNat
  else reject (.unsupportedKind kind category.label) span

namespace Arena

def addScope (arena : Arena) (parent : Option ScopeId) (owner : Option SymbolId) :
    ScopeId × Arena :=
  (⟨arena.scopes.size⟩,
    { arena with scopes := arena.scopes.push { parent, owner, entries := [], helpers := [] } })

/-- Adds a symbol without entering its name anywhere. -/
def addSymbol (arena : Arena) (symbol : Symbol) : SymbolId × Arena :=
  (⟨arena.symbols.size⟩, { arena with symbols := arena.symbols.push symbol })

def addExpr (arena : Arena) (expr : Expr) : ExprId × Arena :=
  (⟨arena.exprs.size⟩, { arena with exprs := arena.exprs.push expr })

end Arena

/-- A change of an arena with a result. -/
abbrev Edit := EStateM Failure Arena

namespace Edit

def ask {α : Type} (question : Arena → Except Breach α) : Edit α := do
  question (← get)

def addScope (parent : Option ScopeId) : Edit ScopeId :=
  modifyGet fun arena => arena.addScope parent none

/-- Adds a symbol without entering its name anywhere. -/
def addSymbol (name : String) (owner : ScopeId) (kind : SymbolKind) : Edit SymbolId :=
  modifyGet fun arena => arena.addSymbol { name, owner, kind }

def addExpr (kind : ExprKind) (type : Ty) (value : Option ExprId) (span : Span) : Edit ExprId :=
  modifyGet fun arena => arena.addExpr { kind, type, value, span }

def addConstant (value : Constant) (type : Ty) (span : Span) : Edit ExprId :=
  addExpr (.constant value) type none span

def addConstant? (value : Option Constant) (type : Ty) (span : Span) : Edit (Option ExprId) :=
  match value with
  | none => return none
  | some value => some <$> addConstant value type span

/-- Adds a literal integer of the default kind. -/
def addInteger (value : Int) (span : Span) : Edit ExprId :=
  addConstant (.integer value) (.integer 4) span

/-- Adds a reference to a variable of the given type. -/
def addVar (symbol : SymbolId) (type : Ty) (span : Span) : Edit ExprId :=
  addExpr (.var symbol) type none span

variable (id : SymbolId)

def modifySymbol (change : Symbol → Symbol) : Edit Unit := do
  if id.index < (← get).symbols.size then
    modify fun arena => { arena with symbols := arena.symbols.modify id.index change }
  else broken .dangling

def modifyKind (change : SymbolKind → SymbolKind) : Edit Unit :=
  modifySymbol id fun symbol => { symbol with kind := change symbol.kind }

/-- Changes the variable that a symbol names itself. -/
def modifyVariable (change : Variable → Variable) : Edit Unit :=
  modifyKind id fun
    | .variable info => .variable (change info)
    | kind => kind

/-- Changes the procedure that a symbol names itself. -/
def modifyFunction (change : Function → Function) : Edit Unit :=
  modifyKind id fun
    | .function info => .function (change info)
    | kind => kind

def modifyScope (id : ScopeId) (change : Scope → Scope) : Edit Unit := do
  if id.index < (← get).scopes.size then
    modify fun arena => { arena with scopes := arena.scopes.modify id.index change }
  else broken .dangling

def setExprKind (id : ExprId) (kind : ExprKind) : Edit Unit := do
  if id.index < (← get).exprs.size then
    modify fun arena =>
      { arena with exprs := arena.exprs.modify id.index fun expr => { expr with kind } }
  else broken .dangling

variable (scope : ScopeId) (name : String)

/-- Enters a name for a symbol, which the scope then owns under that name. -/
def declare (symbol : SymbolId) (span : Span) : Edit Unit := do
  if (← ask (·.find? scope name)).isSome then reject (.duplicate name) span
  modifyScope scope (·.put name symbol)
  modifySymbol symbol fun held => { held with owner := scope, name }

/-- Makes a name stand for a symbol, whatever it stood for. -/
def overwrite (symbol : SymbolId) : Edit Unit := do
  modifyScope scope (·.put name symbol)
  modifySymbol symbol fun held => { held with owner := scope }

/-- What a name stands for in a scope or an enclosing one; it must stand for something. -/
def resolve (span : Span) : Edit SymbolId := do
  match ← ask (·.lookup scope name) with
  | some symbol => return symbol
  | none => reject (.undeclaredSymbol name) span

/-- The member of a derived type; it must have it. -/
def resolveMember (type : SymbolId) (name : String) (span : Span) : Edit SymbolId := do
  match ← ask (·.member? type name) with
  | some member => return member
  | none =>
    let typeName ← ask fun arena => do arena.name (← arena.pastImport type)
    reject (.noSuchMember name typeName) span

def setAccess (access : Access) : Edit Unit :=
  modifyKind id (·.withAccess access)

/-- Adds a name to a list that holds each name once. -/
def withDependency (dependencies : List String) : List String :=
  if name ∈ dependencies then dependencies else dependencies ++ [name]

/-- Records that the unit around a scope depends on a module. -/
def addDependency (moduleName : String) : Edit Unit := do
  match ← ask (·.enclosingUnit? scope) with
  | none => return
  | some unit =>
    modifyKind unit fun
      | .moduleUnit info =>
        .moduleUnit { info with dependencies := withDependency moduleName info.dependencies }
      | .program info =>
        .program { info with dependencies := withDependency moduleName info.dependencies }
      | .function info =>
        .function { info with dependencies := withDependency moduleName info.dependencies }
      | kind => kind

/-- Copies an expression with operands nested at most `fuel` deep, operands first. -/
def copyWithin : Nat → ExprId → Edit ExprId
  | 0, _ => broken .endless
  | fuel + 1, id => do
    let expr ← ask (·.expr id)
    let map : Renumbering Edit := { symbol := pure, scope := pure, expr := copyWithin fuel }
    let kind ← map.exprKind expr.kind
    addExpr kind expr.type expr.value expr.span

/-- Copies an expression into fresh nodes. -/
def copy (id : ExprId) : Edit ExprId := do
  copyWithin ((← get).exprs.size + 1) id

end Edit

end FortranSemantics
