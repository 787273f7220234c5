import FortranSemantics.Analysis.Entity
import FortranSemantics.Analysis.Use

/-!
# Declarations

The first pass over a compilation unit: it declares every unit, procedure, dummy argument, variable,
derived type and interface. Executable statements are left to the second pass.
-/

namespace FortranSemantics

/-! ## What is done at the end of a scope

Type-bound procedures, generics and access statements refer to procedures that may be declared
later, so they are carried out when everything of their scope is declared. -/

/-- A type-bound procedure of a derived type. -/
structure DeferredBinding where
  type : SymbolId
  name : String
  implementation : String
  nopass : Bool
  span : Span

/-- A generic interface, or a type-bound generic of a derived type. -/
structure DeferredGeneric where
  name : String
  procs : List String
  type : Option SymbolId
  span : Span

/-- The work left for the end of a scope. -/
structure Deferred where
  bindings : List DeferredBinding := []
  generics : List DeferredGeneric := []
  defaultAccess : Option Access := none
  access : List AccessRequest := []

namespace Deferred

def append (first second : Deferred) : Deferred where
  bindings := first.bindings ++ second.bindings
  generics := first.generics ++ second.generics
  defaultAccess := second.defaultAccess <|> first.defaultAccess
  access := first.access ++ second.access

instance : Append Deferred := ⟨append⟩

/-- The work that an access statement leaves; without names it sets the default. -/
def ofAccess (access : Access) (names : List String) (span : Span) : Deferred :=
  if names.isEmpty then { defaultAccess := some access }
  else { access := names.map fun name => { name := genericSpelling name, access, span } }

end Deferred

namespace Edit

def typeScope (type : SymbolId) : Edit ScopeId := do
  match ← ask (·.symbolScope? type) with
  | some scope => return scope
  | none => broken (.scopelessType (← ask (·.name type)))

variable (scope : ScopeId)

def attachBinding (binding : DeferredBinding) : Edit Unit := do
  let typeName ← ask (·.name binding.type)
  match ← ask (·.lookup scope binding.implementation) with
  | none => reject (.undeclaredBinding binding.implementation typeName) binding.span
  | some proc =>
    if (← ask (·.asFunction? proc)).isNone then
      reject (.bindingNotProcedure binding.implementation typeName) binding.span
    let inner ← typeScope binding.type
    let dispatch : Dispatch := if binding.nopass then .noPass else .pass
    let symbol ← addSymbol binding.name inner
      (.binding { proc, procName := binding.implementation, dispatch })
    declare inner binding.name symbol binding.span

/-- The symbol of a candidate of a generic. -/
def candidate? (arena : Arena) (scope : ScopeId) (type : Option SymbolId) (name : String) :
    Except Breach (Option SymbolId) := do
  match type with
  | some type =>
    match ← arena.member? type name with
    | none => return none
    | some member =>
      match ← arena.kind member with
      | .binding _ => return some member
      | _ => return none
  | none =>
    match ← arena.lookup scope name with
    | none => return none
    | some symbol => return if (← arena.asFunction? symbol).isSome then some symbol else none

/-- The candidate of a generic with the given name; there must be one. -/
def resolveCandidate (generic : DeferredGeneric) (name : String) : Edit SymbolId := do
  match ← ask fun arena => candidate? arena scope generic.type name with
  | some symbol => return symbol
  | none => reject (.undeclaredCandidate name generic.name) generic.span

def genericHome : Option SymbolId → Edit ScopeId
  | some type => typeScope type
  | none => return scope

/-- Attaches a generic, or adds to one of the same name. -/
def attachGeneric (generic : DeferredGeneric) : Edit Unit := do
  let procs ← generic.procs.mapM (resolveCandidate scope generic)
  let home ← genericHome scope generic.type
  match ← ask (·.find? home generic.name) with
  | some existing => extendGeneric home generic.name existing procs generic.span
  | none =>
    let symbol ← addSymbol generic.name home (.generic { procs, access := .publicAccess })
    declare home generic.name symbol generic.span

/-- Carries out an access statement for a name. -/
def applyAccess (request : AccessRequest) : Edit Unit := do
  match ← ask (·.find? scope request.name) with
  | some symbol => setAccess symbol request.access
  | none => reject (.undeclaredAccess request.name) request.span

/-- Carries out the work left for the end of a scope: type-bound procedures, generics, then access.
-/
def finishScope (deferred : Deferred) : Edit Unit := do
  deferred.bindings.forM (attachBinding scope)
  deferred.generics.forM (attachGeneric scope)
  if deferred.defaultAccess = some .privateAccess then
    (← ask (·.scope scope)).symbols.forM fun symbol => setAccess symbol .privateAccess
  deferred.access.forM (applyAccess scope)

end Edit

namespace Analysis

open Edit Text

/-! ## Implicit typing -/

variable (setup : Setup)

/-- Adds an implicit statement to a typing. -/
def addImplicit (scope : ScopeId) (typing : ImplicitTyping) :
    Tree.ImplicitStmt → Analysis ImplicitTyping
  | .none => return typing.disable
  | .rule spec ranges span => do
    return typing.addRule (← declaredType setup spec span scope) ranges

/-- The implicit typing of a unit without implicit statements. -/
def defaultTyping (settings : Settings) : ImplicitTyping :=
  if settings.implicitTyping then {} else ImplicitTyping.disable {}

/-- Sets up the implicit typing of a scope. Without implicit statements a top-level unit gets the
default, and a scope inside another follows its host. -/
def declareImplicits (scope : ScopeId) (topLevel : Bool)
    (statements : List Tree.ImplicitStmt) : Analysis Unit := do
  if statements.isEmpty && !topLevel then return
  let typing ←
    if statements.isEmpty then pure (defaultTyping setup.settings)
    else statements.foldlM (addImplicit setup scope) {}
  note fun journal => { journal with typings := (scope, typing) :: journal.typings }

/-! ## Derived types -/

variable (scope : ScopeId)

def parentOf (type : String) (span : Span) (parent : String) : Edit SymbolId := do
  let found ← ask fun arena => do
    match ← arena.lookup scope parent with
    | none => return none
    | some symbol =>
      let symbol ← arena.pastImport symbol
      match ← arena.kind symbol with
      | .derivedType _ => return some symbol
      | _ => return none
  match found with
  | some symbol => return symbol
  | none => reject (.undeclaredParent parent type) span

/-- The type that a derived type extends, when it extends one. -/
def parentOf? (type : String) (span : Span) : Option String → Edit (Option SymbolId)
  | none => return none
  | some parent => some <$> parentOf scope type span (lowercase parent)

/-- The access request that the definition of a derived type makes. -/
def typeAccess (name : String) (decl : Tree.DerivedTypeDecl) : List AccessRequest :=
  match decl.access with
  | some .privateAccess => [{ name, access := .privateAccess, span := decl.span }]
  | some .publicAccess => [{ name, access := .publicAccess, span := decl.span }]
  | _ => []

/-- The type-bound procedure that a derived type declares. -/
def deferBinding (type : SymbolId) (procedure : Tree.TypeBoundProcedure) : DeferredBinding :=
  let name := lowercase procedure.name
  { type, name, nopass := procedure.nopass, span := procedure.span
    implementation := (procedure.implementation.map lowercase).getD name }

/-- The type-bound generic that a derived type declares. -/
def deferGeneric (type : SymbolId) (generic : Tree.TypeBoundGeneric) : DeferredGeneric where
  name := genericSpelling generic.name
  procs := generic.procedures.map lowercase
  type := some type
  span := generic.span

/-- Declares a derived type with its components. -/
def declareType (scope : ScopeId) (decl : Tree.DerivedTypeDecl) : Analysis Deferred := do
  let name := lowercase decl.name
  let parent ← parentOf? scope name decl.span decl.parent
  let (symbol, inner) ← addScoped name scope fun inner =>
    .derivedType { scope := inner, members := [], parent, access := .publicAccess }
  declare scope name symbol decl.span
  let members ← decl.components.mapM (declareEntities setup inner true)
  modifyKind symbol fun
    | .derivedType info => .derivedType { info with members := members.flatten }
    | kind => kind
  return {
    bindings := decl.procedures.map (deferBinding symbol)
    generics := decl.generics.map (deferGeneric symbol)
    access := typeAccess name decl }

/-! ## Dummy arguments and results -/

/-- The symbol of a dummy argument; an undeclared one is declared by implicit typing. -/
def dummySymbol (scope : ScopeId) (procedure : String) (span : Span)
    (name : String) : Analysis SymbolId := do
  match ← ask (·.find? scope name) with
  | some symbol => return symbol
  | none =>
    match ← implicitType? setup scope name with
    | none => reject (.undeclaredDummy name procedure) span
    | some type => declareVariable scope name (.ofType type) span

def dummyArgument (scope : ScopeId) (procedure : String) (span : Span)
    (name : String) : Analysis SymbolId := do
  let name := lowercase name
  let symbol ← dummySymbol setup scope procedure span name
  match ← ask (·.kind symbol) with
  | .variable info =>
    if info.intent = .localVar then
      modifyVariable symbol fun info => { info with intent := .unspecified }
    return symbol
  | _ => reject (.dummyNotVariable name) span

def resultSymbol (scope : ScopeId) (function result : String)
    (spec : Option Tree.TypeSpec) (span : Span) : Analysis SymbolId := do
  match spec, ← ask (·.find? scope result) with
  | some _, some _ => reject (.returnTypeTwice function) span
  | some spec, none =>
    let type ← declaredType setup spec span scope
    declareVariable scope result (.ofType type) span
  | none, some symbol => return symbol
  | none, none =>
    match ← implicitType? setup scope result with
    | some type => declareVariable scope result (.ofType type) span
    | none => reject (.missingReturnType function) span

def resultVariable (scope : ScopeId) (function result : String)
    (spec : Option Tree.TypeSpec) (span : Span) : Analysis SymbolId := do
  let symbol ← resultSymbol setup scope function result spec span
  match ← ask (·.kind symbol) with
  | .variable info =>
    if info.intent ≠ .localVar then reject (.resultNotLocal result function) span
    modifyVariable symbol fun info => { info with intent := .result }
    return symbol
  | _ => reject (.resultNotLocal result function) span

/-- The result variable of a procedure, when it is a function. -/
def procedureResult (scope : ScopeId) (name : String) (kind : Tree.SubprogramKind)
    (result : Option String) (spec : Option Tree.TypeSpec) (span : Span) :
    Analysis (Option SymbolId) := do
  match kind with
  | .subroutine => return none
  | .function =>
    let result := (result.map lowercase).getD name
    some <$> resultVariable setup scope name result spec span

/-- Declares the dummy arguments and the result of a procedure. -/
def declareSignature (symbol : SymbolId) (scope : ScopeId) (name : String)
    (kind : Tree.SubprogramKind) (args : List String) (result : Option String)
    (spec : Option Tree.TypeSpec) (span : Span) : Analysis Unit := do
  let args ← args.mapM (dummyArgument setup scope name span)
  let result ← procedureResult setup scope name kind result spec span
  modifyFunction symbol fun info => { info with args, result }

/-! ## Procedures and interfaces -/

/-- Enters a procedure under its name; one that an interactive session left behind is replaced. -/
def enterProcedure (name : String) (symbol : SymbolId) (span : Span) : Edit Unit := do
  let replaces ← ask fun arena => do
    match ← arena.find? scope name with
    | some existing => arena.isInteractiveStub existing
    | none => return false
  if replaces then overwrite scope name symbol
  else declare scope name symbol span

/-- The generic that an interface block declares. -/
def interfaceName? : Tree.InterfaceHeader → Option String
  | .plain => none
  | .generic name => some (lowercase name)
  | .operator token => some (operatorGenericName token)

/-- Applies the attribute statements of a specification part, other than those about access. -/
def applyAttributes (scope : ScopeId) (decls : List Tree.Decl) : Analysis Unit :=
  decls.forM fun
    | .attributeStmt .publicAccess _ _ | .attributeStmt .privateAccess _ _ => return
    | .attributeStmt attrSpec names span =>
      names.forM fun name => applyAttribute setup scope attrSpec span (lowercase name)
    | _ => return

mutual

/-- Declares a procedure with its dummy arguments, its result and everything it contains. -/
def declareProcedure (setup : Setup) (parent : ScopeId) (deftype : DefType) :
    Tree.Subprogram → Analysis Unit
  | ⟨kind, name, args, resultType, resultName, uses, implicits, decls, _, contained, span⟩ => do
    let name := lowercase name
    let (symbol, scope) ← addScoped name parent fun scope =>
      .function
        { scope, args := [], result := none, body := [], abi := .source, deftype,
          access := .publicAccess, dependencies := [] }
    enterProcedure parent name symbol span
    uses.forM (useModule setup scope)
    declareImplicits setup scope (parent = (← root)) implicits
    let deferred ← declareEach setup scope decls
    applyAttributes setup scope decls
    declareSignature setup symbol scope name kind args resultName resultType span
    declareContained setup scope contained
    finishScope scope deferred

def declareContained (setup : Setup) (parent : ScopeId) : List Tree.Subprogram → Analysis Unit
  | [] => return
  | first :: rest => do
    declareProcedure setup parent .implementation first
    declareContained setup parent rest

/-- Carries out the declarations of a specification part but for attribute statements. -/
def declareEach (setup : Setup) (scope : ScopeId) : List Tree.Decl → Analysis Deferred
  | [] => return {}
  | first :: rest => do
    let deferred ← declareOne setup scope first
    return deferred ++ (← declareEach setup scope rest)

/-- Carries out a declaration; an attribute statement only when it is about access. -/
def declareOne (setup : Setup) (scope : ScopeId) : Tree.Decl → Analysis Deferred
  | .var decl => do
    discard <| declareEntities setup scope false decl
    return { access := accessRequests decl }
  | .attributeStmt .publicAccess names span => return .ofAccess .publicAccess names span
  | .attributeStmt .privateAccess names span => return .ofAccess .privateAccess names span
  | .attributeStmt .. => return {}
  | .derivedType decl => declareType setup scope decl
  | .interface header items span => do
    let name := interfaceName? header
    let procs ← declareItems setup scope name.isSome span items
    match name with
    | none => return {}
    | some name => return { generics := [{ name, procs, type := none, span }] }

/-- Declares the procedures of an interface block and gives the names of all its procedures. -/
def declareItems (setup : Setup) (scope : ScopeId) (generic : Bool) (span : Span) :
    List Tree.InterfaceItem → Analysis (List String)
  | [] => return []
  | .body procedure :: rest => do
    declareProcedure setup scope .interface procedure
    return lowercase procedure.name :: (← declareItems setup scope generic span rest)
  | .moduleProcedure names :: rest => do
    if !generic then reject .moduleProcedureOutsideGeneric span
    return names.map lowercase ++ (← declareItems setup scope generic span rest)

end

def declareAll (scope : ScopeId) (decls : List Tree.Decl) : Analysis Deferred := do
  let deferred ← declareEach setup scope decls
  applyAttributes setup scope decls
  return deferred

/-- Carries out the specification part of a block construct. -/
def declareBlock (scope : ScopeId) (decls : List Tree.Decl) : Analysis Unit := do
  finishScope scope (← declareAll setup scope decls)

/-! ## Program units -/

/-- Declares everything in a module or main program. -/
def declareParts (scope : ScopeId) (uses : List Tree.Use)
    (implicits : List Tree.ImplicitStmt) (decls : List Tree.Decl)
    (contained : List Tree.Subprogram) : Analysis Unit := do
  uses.forM (useModule setup scope)
  declareImplicits setup scope true implicits
  let deferred ← declareAll setup scope decls
  declareContained setup scope contained
  finishScope scope deferred

def declareModule (unit : Tree.Module) : Analysis Unit := do
  let name := lowercase unit.name
  let root ← root
  let (symbol, scope) ← addScoped name root fun scope =>
    .moduleUnit { scope, dependencies := [], intrinsic := false, loaded := false }
  declare root name symbol unit.span
  declareParts setup scope unit.uses unit.implicits unit.decls unit.contained

def declareProgram (unit : Tree.Program) : Analysis Unit := do
  let name := lowercase unit.name
  let root ← root
  let (symbol, scope) ← addScoped name root fun scope =>
    .program { scope, dependencies := [], body := [] }
  declare root name symbol unit.span
  declareParts setup scope unit.uses unit.implicits unit.decls unit.contained

/-- Declares everything in a compilation unit. -/
def declareUnit (unit : Tree.CompilationUnit) : Analysis Unit :=
  unit.items.forM fun
    | .moduleUnit unit => declareModule setup unit
    | .programUnit unit => declareProgram setup unit
    | .subprogramUnit unit => do declareProcedure setup (← root) .implementation unit

end Analysis

end FortranSemantics
