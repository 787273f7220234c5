import FortranSemantics.Arena.Expression
import FortranSemantics.Failure

/-!
# Arenas

An arena holds all symbols, scopes and expression nodes of an analysed program. Identifiers are
indices; following one that points outside is a `Breach`, so every question about an arena is
answered in `Except Breach`. Chains of references (parents of scopes, parents of types, values of
nodes) are followed for at most as many steps as there are nodes of the kind, which is enough for
every chain that ends.
-/

namespace FortranSemantics

/-! ## Symbols

A symbol is a named entity: a variable, a procedure, a program unit, a type, or an import of one of
them. -/

/-- Whether other modules see a symbol. -/
inductive Access where
  | publicAccess | privateAccess
deriving DecidableEq, Repr

/-- Whether a dummy argument must be given. -/
inductive Presence where
  | required | optional
deriving DecidableEq, Repr

/-- The role of a variable in its procedure. -/
inductive Intent where
  | localVar
  /-- A dummy argument declared without a direction. -/
  | unspecified
  | into
  | out
  | inout
  | result
deriving DecidableEq, Repr

/-- How long a variable lives. -/
inductive Storage where
  | default | save | parameter
deriving DecidableEq, Repr

/-- Where a procedure comes from. -/
inductive Abi where
  | source
  /-- Left behind by an interactive session; may be declared again. -/
  | interactive
  | intrinsic
deriving DecidableEq, Repr

/-- Whether a procedure has a body here. -/
inductive DefType where
  | implementation | interface
deriving DecidableEq, Repr

/-- Whether a type-bound procedure takes its object as first argument. -/
inductive Dispatch where
  | pass | noPass
deriving DecidableEq, Repr

/-- A variable, dummy argument, result or component. -/
structure Variable where
  /-- Missing only for associate aliases, whose type is that of their alias. -/
  type : Option Ty
  intent : Intent
  storage : Storage
  access : Access
  presence : Presence
  target : Bool
  init : Option ExprId
  /-- Compile-time value of a parameter. -/
  value : Option ExprId
  /-- The designator an associate name stands for. -/
  aliasOf : Option ExprId

/-- A function or subroutine. -/
structure Function where
  scope : ScopeId
  args : List SymbolId
  result : Option SymbolId
  body : List Stmt
  abi : Abi
  deftype : DefType
  access : Access
  dependencies : List String

/-- A module. -/
structure Module where
  scope : ScopeId
  dependencies : List String
  intrinsic : Bool
  /-- Whether it was loaded from an image. -/
  loaded : Bool

/-- A main program. -/
structure Program where
  scope : ScopeId
  dependencies : List String
  body : List Stmt

/-- A generic name for several procedures. -/
structure GenericProcedure where
  /-- The candidates in declaration order. -/
  procs : List SymbolId
  access : Access

/-- A type-bound procedure. -/
structure Binding where
  proc : SymbolId
  procName : String
  dispatch : Dispatch

/-- A derived type. -/
structure DerivedType where
  scope : ScopeId
  /-- Names of its own components in declaration order. -/
  members : List String
  parent : Option SymbolId
  access : Access

/-- A name for a symbol of another scope. -/
structure Import where
  target : SymbolId
  moduleName : String
  remoteName : String
  access : Access

/-- A block or associate construct. -/
structure Block where
  scope : ScopeId
  body : List Stmt

/-- What a symbol names. -/
inductive SymbolKind where
  | variable (info : Variable)
  | function (info : Function)
  | moduleUnit (info : Module)
  | program (info : Program)
  | generic (info : GenericProcedure)
  | binding (info : Binding)
  | derivedType (info : DerivedType)
  | imported (info : Import)
  | block (info : Block)

/-- A named entity owned by a scope. -/
structure Symbol where
  name : String
  owner : ScopeId
  kind : SymbolKind

/-- A plain local variable of the given type. -/
def Variable.ofType (type : Ty) : Variable where
  type := some type
  intent := .localVar
  storage := .default
  access := .publicAccess
  presence := .required
  target := false
  init := none
  value := none
  aliasOf := none

/-- Whether a variable is an associate alias. -/
def Variable.isAlias (info : Variable) : Bool :=
  info.type.isNone && info.aliasOf.isSome

/-- Whether a variable is a dummy argument. -/
def Variable.isDummy (info : Variable) : Bool :=
  match info.intent with
  | .into | .out | .inout | .unspecified => true
  | .localVar | .result => false

namespace SymbolKind

def scope? : SymbolKind → Option ScopeId
  | .function info | .moduleUnit info | .program info | .derivedType info
  | .block info => some info.scope
  | .variable _ | .generic _ | .binding _ | .imported _ => none

/-- The accessibility of a symbol; kinds without one are public. -/
def access : SymbolKind → Access
  | .variable info | .function info | .generic info | .derivedType info
  | .imported info => info.access
  | .moduleUnit _ | .program _ | .binding _ | .block _ => .publicAccess

/-- The symbol with another accessibility, where it has one. -/
def withAccess (access : Access) : SymbolKind → SymbolKind
  | .variable info => .variable { info with access }
  | .function info => .function { info with access }
  | .generic info => .generic { info with access }
  | .derivedType info => .derivedType { info with access }
  | .imported info => .imported { info with access }
  | kind => kind

/-- The statements of a program, procedure or block. -/
def body? : SymbolKind → Option (List Stmt)
  | .program info | .function info | .block info => some info.body
  | _ => none

/-- The symbol with another body, where it has one. -/
def withBody (body : List Stmt) : SymbolKind → SymbolKind
  | .program info => .program { info with body }
  | .function info => .function { info with body }
  | .block info => .block { info with body }
  | kind => kind

end SymbolKind

/-! ## Arenas -/

/-- What identifies the helpers generated for an array intrinsic, up to the types of further
arguments. -/
structure HelperKey where
  intrinsic : ArrayIntrinsic
  category : TypeCategory
  kind : Nat
  rank : Nat
  overload : Overload
deriving DecidableEq, Repr

/-- A table of names, in the order in which they were first entered. -/
structure Scope where
  parent : Option ScopeId
  /-- The symbol whose scope this is; none for the root. -/
  owner : Option SymbolId
  entries : List (String × SymbolId)
  /-- Helpers generated into this scope. -/
  helpers : List (HelperKey × List SymbolId)
deriving Inhabited

namespace Scope

variable (scope : Scope)

def find? (name : String) : Option SymbolId :=
  scope.entries.lookup name

/-- Enters a name at the end of a table, or replaces what it stands for in its place. -/
def putEntry (name : String) (symbol : SymbolId) :
    List (String × SymbolId) → List (String × SymbolId)
  | [] => [(name, symbol)]
  | (key, held) :: rest =>
    if key = name then (key, symbol) :: rest else (key, held) :: putEntry name symbol rest

/-- The scope in which a name stands for the given symbol. -/
def put (name : String) (symbol : SymbolId) : Scope :=
  { scope with entries := putEntry name symbol scope.entries }

/-- The symbols of a scope in table order. -/
def symbols : List SymbolId :=
  scope.entries.map (·.2)

def helpersOf (key : HelperKey) : List SymbolId :=
  (scope.helpers.lookup key).getD []

/-- Adds a helper to those known under a key. -/
def addHelper (key : HelperKey) (helper : SymbolId) :
    List (HelperKey × List SymbolId) → List (HelperKey × List SymbolId)
  | [] => [(key, [helper])]
  | (held, helpers) :: rest =>
    if held = key then (held, helpers ++ [helper]) :: rest
    else (held, helpers) :: addHelper key helper rest

/-- The first of `base`, `base_1`, `base_2`, … that is free in this scope. -/
def uniqueName (base : String) : String :=
  if (scope.find? base).isNone then base
  else
    let candidates := (List.range (scope.entries.length + 1)).map fun step =>
      base ++ "_" ++ toString (step + 1)
    (candidates.find? fun name => (scope.find? name).isNone).getD base

end Scope

/-- An analysed program. -/
structure Arena where
  symbols : Array Symbol
  scopes : Array Scope
  exprs : Array Expr
  root : ScopeId

namespace Arena

def empty : Arena where
  symbols := #[]
  scopes := #[default]
  exprs := #[]
  root := ⟨0⟩

instance : Inhabited Arena := ⟨empty⟩

def symbol (arena : Arena) (id : SymbolId) : Except Breach Symbol :=
  match arena.symbols[id.index]? with
  | some symbol => .ok symbol
  | none => .error .dangling

def scope (arena : Arena) (id : ScopeId) : Except Breach Scope :=
  match arena.scopes[id.index]? with
  | some scope => .ok scope
  | none => .error .dangling

/-- The expression with the given identifier. -/
def expr (arena : Arena) (id : ExprId) : Except Breach Expr :=
  match arena.exprs[id.index]? with
  | some expr => .ok expr
  | none => .error .dangling

variable (arena : Arena)

def exprType (id : ExprId) : Except Breach Ty := do
  return (← arena.expr id).type

def name (arena : Arena) (id : SymbolId) : Except Breach String := do
  return (← arena.symbol id).name

def kind (arena : Arena) (id : SymbolId) : Except Breach SymbolKind := do
  return (← arena.symbol id).kind

/-- Follows attached values for at most `fuel` steps to a literal. -/
def constantWithin (arena : Arena) : Nat → ExprId → Except Breach (Option Constant)
  | 0, _ => .error .endless
  | fuel + 1, id => do
    let expr ← arena.expr id
    match expr.kind, expr.value with
    | .constant value, _ => return some value
    | _, some value => arena.constantWithin fuel value
    | _, none => return none

/-- The compile-time value of an expression: the literal itself, or the attached value. -/
def constant? (id : ExprId) : Except Breach (Option Constant) :=
  arena.constantWithin (arena.exprs.size + 1) id

/-- The compile-time value of an integer expression. -/
def integer? (arena : Arena) (id : ExprId) : Except Breach (Option Int) := do
  return (← arena.constant? id).bind Constant.integer?

/-- The compile-time value of an optional integer expression. -/
def optionalInteger? : Option ExprId → Except Breach (Option Int)
  | none => return none
  | some id => arena.integer? id

variable (id : SymbolId)

/-- The symbol an import stands for, and any other symbol itself. -/
def pastImport : Except Breach SymbolId := do
  match ← arena.kind id with
  | .imported info => return info.target
  | _ => return id

/-- What a symbol names, seen through an import. -/
def target : Except Breach SymbolKind := do
  arena.kind (← arena.pastImport id)

/-- The variable that a symbol names, directly or through an import. -/
def asVariable? : Except Breach (Option Variable) := do
  match ← arena.target id with
  | .variable info => return some info
  | _ => return none

/-- The declared type of the variable that a symbol names. -/
def variableType? : Except Breach (Option Ty) := do
  return (← arena.asVariable? id).bind (·.type)

/-- The procedure that a symbol names, directly or through an import. -/
def asFunction? : Except Breach (Option Function) := do
  match ← arena.target id with
  | .function info => return some info
  | _ => return none

/-- Whether a symbol is a procedure left by an interactive session. -/
def isInteractiveStub : Except Breach Bool := do
  return (← arena.asFunction? id).any fun info => info.abi = .interactive

/-- Whether a symbol is an intrinsic procedure. -/
def isIntrinsic : Except Breach Bool := do
  return (← arena.asFunction? id).any fun info => info.abi = .intrinsic

/-- Whether a symbol is a module that was not analysed here. -/
def isForeignModule : Except Breach Bool := do
  match ← arena.kind id with
  | .moduleUnit info => return info.intrinsic || info.loaded
  | _ => return false

def symbolScope? : Except Breach (Option ScopeId) := do
  return (← arena.kind id).scope?

/-- The type of a function's result; subroutines have none. -/
def returnType? : Except Breach (Option Ty) := do
  match (← arena.asFunction? id).bind (·.result) with
  | none => return none
  | some result => arena.variableType? result

def access (arena : Arena) (id : SymbolId) : Except Breach Access := do
  return (← arena.kind id).access

/-- Looks for a name in at most `fuel` enclosing scopes. -/
def lookupWithin (arena : Arena) (name : String) : Nat → ScopeId → Except Breach (Option SymbolId)
  | 0, _ => .error .endless
  | fuel + 1, id => do
    let scope ← arena.scope id
    match scope.find? name, scope.parent with
    | some symbol, _ => return some symbol
    | none, some parent => arena.lookupWithin name fuel parent
    | none, none => return none

/-- What a name stands for in a scope or the nearest enclosing one. -/
def lookup (scope : ScopeId) (name : String) : Except Breach (Option SymbolId) :=
  arena.lookupWithin name (arena.scopes.size + 1) scope

/-- What a name stands for in exactly this scope. -/
def find? (arena : Arena) (scope : ScopeId) (name : String) : Except Breach (Option SymbolId) := do
  return (← arena.scope scope).find? name

/-- The parent of a derived type, seen through an import. -/
def parentType? (info : DerivedType) : Except Breach (Option SymbolId) :=
  match info.parent with
  | none => return none
  | some parent => some <$> arena.pastImport parent

/-- Looks for a member in at most `fuel` types of a chain of extensions. -/
def memberWithin (arena : Arena) (name : String) : Nat → SymbolId → Except Breach (Option SymbolId)
  | 0, _ => .error .endless
  | fuel + 1, type => do
    match ← arena.kind type with
    | .derivedType info =>
      match ← arena.find? info.scope name with
      | some member => return some member
      | none =>
        match ← arena.parentType? info with
        | some parent => arena.memberWithin name fuel parent
        | none => return none
    | _ => return none

/-- The component or binding of a derived type, its own or an inherited one. -/
def member? (type : SymbolId) (name : String) : Except Breach (Option SymbolId) := do
  arena.memberWithin name (arena.symbols.size + 1) (← arena.pastImport type)

/-- The components of a type after those of at most `fuel` ancestors. -/
def componentsWithin (arena : Arena) : Nat → SymbolId → Except Breach (List SymbolId)
  | 0, _ => .error .endless
  | fuel + 1, type => do
    match ← arena.target type with
    | .derivedType info =>
      let inherited ←
        match info.parent with
        | some parent => arena.componentsWithin fuel parent
        | none => pure []
      let scope ← arena.scope info.scope
      return inherited ++ info.members.filterMap scope.find?
    | _ => return []

/-- All components of a derived type, inherited ones first. -/
def components (type : SymbolId) : Except Breach (List SymbolId) :=
  arena.componentsWithin (arena.symbols.size + 1) type

/-- Whether an ancestor is found in at most `fuel` types of a chain of extensions. -/
def extendsWithin (arena : Arena) (ancestor : SymbolId) : Nat → SymbolId → Except Breach Bool
  | 0, _ => .error .endless
  | fuel + 1, type =>
    if type = ancestor then return true
    else do
      match ← arena.kind type with
      | .derivedType info =>
        match ← arena.parentType? info with
        | some parent => arena.extendsWithin ancestor fuel parent
        | none => return false
      | _ => return false

/-- Whether a derived type is another one or extends it. -/
def isExtension (child ancestor : SymbolId) : Except Breach Bool := do
  let ancestor ← arena.pastImport ancestor
  arena.extendsWithin ancestor (arena.symbols.size + 1) (← arena.pastImport child)

/-- A free name in a scope: `base`, or `base` with the first number that makes it free. -/
def uniqueName (arena : Arena) (scope : ScopeId) (base : String) : Except Breach String := do
  return (← arena.scope scope).uniqueName base

/-- The names of at most `fuel` owners around a scope, outermost first. -/
def ownersWithin (arena : Arena) : Nat → ScopeId → Except Breach (List String)
  | 0, _ => .error .endless
  | fuel + 1, id => do
    match (← arena.scope id).owner with
    | none => return []
    | some owner =>
      let symbol ← arena.symbol owner
      return (← arena.ownersWithin fuel symbol.owner) ++ [symbol.name]

/-- The names from the root down to a symbol. -/
def path : Except Breach (List String) := do
  let symbol ← arena.symbol id
  return (← arena.ownersWithin (arena.scopes.size + arena.symbols.size + 1) symbol.owner)
    ++ [symbol.name]

/-- Follows names from a symbol into the scopes that symbols open. -/
def descend (arena : Arena) : SymbolId → List String → Except Breach (Option SymbolId)
  | id, [] => return some id
  | id, name :: rest => do
    match ← arena.symbolScope? id with
    | none => return none
    | some scope =>
      match ← arena.find? scope name with
      | none => return none
      | some inner => arena.descend inner rest

def findPath : List String → Except Breach (Option SymbolId)
  | [] => return none
  | first :: rest => do
    match ← arena.find? arena.root first with
    | none => return none
    | some symbol => arena.descend symbol rest

/-- Climbs at most `fuel` scopes to the one directly below the root. -/
def unitWithin (arena : Arena) : Nat → ScopeId → Except Breach (Option SymbolId)
  | 0, _ => .error .endless
  | fuel + 1, id => do
    let scope ← arena.scope id
    match scope.parent with
    | none => return none
    | some parent =>
      if parent = arena.root then return scope.owner else arena.unitWithin fuel parent

/-- The module, program or top-level procedure around a scope. -/
def enclosingUnit? (scope : ScopeId) : Except Breach (Option SymbolId) :=
  arena.unitWithin (arena.scopes.size + 1) scope

/-- The function implementing a procedure: itself, or the target of a type-bound procedure. -/
def implementation : Except Breach SymbolId := do
  let target ← arena.pastImport id
  match ← arena.kind target with
  | .binding info => arena.pastImport info.proc
  | _ => return target

end Arena

end FortranSemantics
