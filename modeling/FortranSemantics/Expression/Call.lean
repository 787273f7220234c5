import FortranSemantics.Expression.Environment
import FortranSemantics.Generic
import FortranSemantics.Intrinsic.Array
import FortranSemantics.Intrinsic.Import
import FortranSemantics.Intrinsic.Scalar

/-!
# Calls

A name followed by arguments is a procedure call, an array element, a structure constructor or a
call of an intrinsic. Actual arguments are bound to dummy arguments by position or keyword.
-/

namespace FortranSemantics.Expression

open Edit

/-- A procedure reference with its arguments in the slots of the dummy arguments. -/
structure BoundCall where
  /-- The symbol that the call names, possibly an import. -/
  name : SymbolId
  /-- The generic that the call was resolved through. -/
  via : Option SymbolId
  /-- The implementing procedure. -/
  function : SymbolId
  args : List (Option ExprId)
  /-- The object of a type-bound call. -/
  receiver : Option ExprId

/-! ## Binding of arguments -/

/-- The dummy arguments of a procedure while arguments are bound. -/
structure Binding where
  procedure : String
  dummies : List SymbolId
  filled : List (Option ExprId)
  positional : Nat
  keyword : Bool

/-- The position of the first symbol with the given name. -/
def positionOf? (arena : Arena) (name : String) : List SymbolId → Except Breach (Option Nat)
  | [] => return none
  | symbol :: rest => do
    if (← arena.name symbol) = name then return some 0
    return (← positionOf? arena name rest).map (· + 1)

def Binding.slotOf (binding : Binding) (arg : ActualArgument) : Edit (Nat × Binding) := do
  match arg.keyword with
  | some keyword =>
    match ← ask fun arena => positionOf? arena keyword binding.dummies with
    | some index => return (index, { binding with keyword := true })
    | none => reject (.noSuchDummy binding.procedure keyword) arg.span
  | none =>
    if binding.keyword then reject (.positionalAfterKeyword binding.procedure) arg.span
    return (binding.positional, { binding with positional := binding.positional + 1 })

/-- Checks an argument against the type of its dummy argument. -/
def checkArgument (procedure : String) (dummy : SymbolId) (arg : ActualArgument) : Edit Unit := do
  match ← ask (·.variableType? dummy) with
  | none => return
  | some formal =>
    let actual ← typeOf arg.value
    if ← ask (·.argumentCompatible formal actual) then return
    let dummyName ← ask (·.name dummy)
    reject
      (.argumentType dummyName procedure (← typeName formal) (← typeName actual)) arg.span

def Binding.bind (binding : Binding) (arg : ActualArgument) : Edit Binding := do
  let (index, binding) ← binding.slotOf arg
  match binding.dummies[index]? with
  | none => reject (.tooManyArguments binding.procedure) arg.span
  | some dummy =>
    match binding.filled[index]? with
    | none => broken .dangling
    | some (some _) =>
      reject (.argumentTwice (← ask (·.name dummy)) binding.procedure) arg.span
    | some none =>
      checkArgument binding.procedure dummy arg
      return { binding with filled := binding.filled.set index (some arg.value) }

/-- Demands an argument for every dummy argument that is not optional. -/
def checkPresence (procedure : String) (span : Span) :
    List SymbolId → List (Option ExprId) → Edit Unit
  | dummy :: dummies, slot :: slots => do
    let info ← ask (·.asVariable? dummy)
    let optional := info.any fun info => info.presence = .optional
    if slot.isNone && !optional then
      reject (.missingArgument (← ask (·.name dummy)) procedure) span
    checkPresence procedure span dummies slots
  | _, _ => return

/-- Binds all arguments of a call; when the object is passed, the first dummy argument takes it. -/
def bindArguments (function : SymbolId) (passed : Bool) (args : List ActualArgument) (span : Span) :
    Edit (List (Option ExprId)) := do
  let procedure ← ask (·.name function)
  match ← ask (·.asFunction? function) with
  | none => broken (.boundNonFunction procedure)
  | some info =>
    let dummies := if passed then info.args.drop 1 else info.args
    let empty : Binding :=
      { procedure, dummies, filled := List.replicate dummies.length none, positional := 0,
        keyword := false }
    let bound ← args.foldlM Binding.bind empty
    checkPresence procedure span dummies bound.filled
    return bound.filled

/-! ## Choice among the candidates of a generic -/

/-- Refuses a call that several candidates match. -/
def ambiguous {α : Type} (generic : SymbolId) (candidates : List SymbolId)
    (span : Span) : Edit α := do
  let names ← ask fun arena => candidates.mapM fun candidate => do
    arena.name (← arena.pastImport candidate)
  reject (.ambiguous (← ask (·.name generic)) names) span

variable (env : Environment)

/-- The candidate of a generic that a call means. -/
def chooseCandidate (generic : SymbolId) (candidates : List SymbolId)
    (args : List ActualArgument) (receiver : Option Ty) (span : Span) : Edit SymbolId := do
  let types ← args.mapM fun arg => typeOf arg.value
  match ← ask (·.select env.policy candidates types receiver) with
  | .found candidate => return candidate
  | .ambiguous several => ambiguous generic several span
  | .noMatch =>
    let names ← types.mapM typeName
    reject (.noCandidate (← ask (·.name generic)) names) span

/-- Whether a symbol is entered in a scope or one of at most `fuel` around it. -/
def visibleWithin (arena : Arena) (symbol : SymbolId) (owner : ScopeId) (name : String) :
    Nat → ScopeId → Except Breach Bool
  | 0, _ => .error .endless
  | fuel + 1, id => do
    let scope ← arena.scope id
    if id = owner then return scope.find? name = some symbol
    match scope.parent with
    | some parent => visibleWithin arena symbol owner name fuel parent
    | none => return false

/-- Whether a symbol is entered in a scope or one around it. -/
def isVisible (arena : Arena) (scope : ScopeId) (id : SymbolId) : Except Breach Bool := do
  let symbol ← arena.symbol id
  visibleWithin arena id symbol.owner symbol.name (arena.scopes.size + 1) scope

/-- Imports a procedure that is not visible in a scope under the name `generic@specific`. -/
def importSpecific (scope : ScopeId) (generic target : SymbolId) (span : Span) : Edit SymbolId := do
  let symbol ← ask (·.symbol target)
  let genericName ← ask fun arena => do arena.name (← arena.pastImport generic)
  let wanted := genericName ++ "@" ++ symbol.name
  let present ← ask fun arena => do
    match ← arena.find? scope wanted with
    | some existing => return if (← arena.pastImport existing) = target then some existing else none
    | none => return none
  if let some existing := present then return existing
  let name ← ask (·.uniqueName scope wanted)
  let moduleName ← ask fun arena => do
    match ← arena.enclosingUnit? symbol.owner with
    | some unit => arena.name unit
    | none => return ""
  let imported ← addSymbol name scope
    (.imported { target, moduleName, remoteName := symbol.name, access := .privateAccess })
  declare scope name imported span
  addDependency scope moduleName
  return imported

/-- The symbol by which a scope calls a candidate of a generic. -/
def callableSymbol (scope : ScopeId) (generic candidate : SymbolId) (span : Span) :
    Edit SymbolId := do
  let target ← ask (·.pastImport candidate)
  match ← ask (·.kind target) with
  | .function _ =>
    if ← ask fun arena => isVisible arena scope candidate then return candidate
    importSpecific scope generic target span
  | _ => return candidate

/-! ## Procedure calls -/

def functionCall (call : BoundCall) (span : Span) : Edit ExprId := do
  match ← ask (·.returnType? call.function) with
  | none => reject (.subroutineAsValue (← ask (·.name call.function))) span
  | some type =>
    addExpr (.call call.name call.via call.args call.receiver) type none span

variable (symbol : SymbolId)

/-- Binds a call of a procedure or generic. -/
def bindProcedureCall (args : List ActualArgument)
    (span : Span) (scope : ScopeId) : Edit BoundCall := do
  let target ← ask (·.pastImport symbol)
  match ← ask (·.kind target) with
  | .function _ =>
    let bound ← bindArguments target false args span
    return { name := symbol, via := none, function := target, args := bound, receiver := none }
  | .generic info =>
    let candidate ← chooseCandidate env symbol info.procs args none span
    let function ← ask (·.implementation candidate)
    let name ← callableSymbol scope symbol candidate span
    let bound ← bindArguments function false args span
    return { name, via := some symbol, function, args := bound, receiver := none }
  | _ => reject (.notProcedure (← ask (·.name symbol))) span

/-- Binds a call of a type-bound procedure or generic. -/
def bindTypeBoundCall (base : ExprId) (name : String)
    (args : List ActualArgument) (span : Span) : Edit BoundCall := do
  let name := Text.lowercase name
  let type ← typeOf base
  match type.derivedSymbol? with
  | none => reject (.boundCallOnType name (← typeName type)) span
  | some derived =>
    let member ← resolveMember derived name span
    let (binding, via) ←
      match ← ask (·.kind member) with
      | .binding _ => pure (member, none)
      | .generic info =>
        let chosen ← chooseCandidate env member info.procs args (some type) span
        pure (chosen, some member)
      | _ => reject (.componentNotProcedure name) span
    match ← ask (·.kind binding) with
    | .binding info =>
      let function ← ask (·.pastImport info.proc)
      let bound ← bindArguments function (info.dispatch = .pass) args span
      return { name := binding, via, function, args := bound, receiver := some base }
    | _ => reject (.notBinding (← ask (·.name binding))) span

/-! ## Array elements and structure constructors -/

def checkSubscript (array : String) (arg : ActualArgument) : Edit ExprId := do
  let type ← typeOf arg.value
  if arg.keyword.isSome || !type.isInteger then reject (.subscriptType array) arg.span
  if type.isArray then reject (.vectorSubscript array) arg.span
  return arg.value

/-- The value of an element of a constant vector at a constant subscript. -/
def constantElement? (arena : Arena) (symbol : SymbolId) (type : Ty) (indices : List ExprId) :
    Except Breach (Option Constant) := do
  match indices, ← arena.asVariable? symbol with
  | [index], some info =>
    if info.storage ≠ .parameter then return none
    match info.value with
    | none => return none
    | some value =>
      match ← arena.constant? value with
      | some (.array items) =>
        match type.dims with
        | [] => .error .dangling
        | dim :: _ =>
          let lower ← arena.optionalInteger? dim.start
          match ← arena.integer? index with
          | none => return none
          | some number =>
            let position := Number.wrapWord (number - lower.getD 1)
            return if position < 0 then none else items[position.toNat]?
      | _ => return none
  | _, _ => return none

def arrayElement (type : Ty) (args : List ActualArgument) (span : Span) : Edit ExprId := do
  let name ← ask (·.name symbol)
  if args.length ≠ type.rank then reject (.subscriptCount name type.rank args.length) span
  let indices ← args.mapM (checkSubscript name)
  let known ← ask fun arena => constantElement? arena symbol type indices
  let value ← addConstant? known type.element span
  let array ← addVar symbol type span
  addExpr (.arrayItem array indices) type.element value span

/-- The slots of components while a constructor is resolved. -/
structure Components where
  type : String
  members : List SymbolId
  filled : List (Option ExprId)
  positional : Nat

def Components.slotOf (components : Components) (arg : ActualArgument) :
    Edit (Nat × Components) := do
  match arg.keyword with
  | some keyword =>
    match ← ask fun arena => positionOf? arena keyword components.members with
    | some index => return (index, components)
    | none => reject (.noSuchMember keyword components.type) arg.span
  | none =>
    return (components.positional, { components with positional := components.positional + 1 })

/-- Gives a value to a component; a later value replaces an earlier one. -/
def Components.bind (components : Components) (arg : ActualArgument) : Edit Components := do
  let (index, components) ← components.slotOf arg
  match components.members[index]? with
  | none => reject (.tooManyValues components.type) arg.span
  | some member =>
    match ← ask (·.variableType? member) with
    | none => broken (.untypedComponent components.type)
    | some type =>
      let (value, _) ← Conversion.forAssignment arg.value type arg.span
      if components.filled.length ≤ index then broken .dangling
      return { components with filled := components.filled.set index (some value) }

/-- The value of a component: the given one, or a copy of its initial value. -/
def componentValue (type : String) (span : Span) (member : SymbolId) : Option ExprId → Edit ExprId
  | some value => return value
  | none => do
    match (← ask (·.asVariable? member)).bind (·.init) with
    | some init => copy init
    | none => reject (.missingComponent (← ask (·.name member)) type) span

/-- A structure constructor; inherited components come first. -/
def structConstructor (symbol : SymbolId) (args : List ActualArgument) (span : Span) :
    Edit ExprId := do
  let members ← ask (·.components symbol)
  let type ← ask fun arena => do arena.name (← arena.pastImport symbol)
  let empty : Components :=
    { type, members, filled := List.replicate members.length none, positional := 0 }
  let components ← args.foldlM Components.bind empty
  let values ← (members.zip components.filled).mapM fun (member, slot) =>
    componentValue type span member slot
  addExpr (.structConstructor symbol values) (.derived symbol) none span

/-! ## Calls by name -/

def applySymbol (args : List ActualArgument) (span : Span) (scope : ScopeId) : Edit ExprId := do
  let target ← ask (·.pastImport symbol)
  if ← ask (·.isIntrinsic symbol) then
    let name ←
      match ← ask (·.kind symbol) with
      | .imported info => pure info.remoteName
      | _ => ask (·.name target)
    match ArrayIntrinsic.ofName? name with
    | some intrinsic => Intrinsic.resolveArray intrinsic args span
    | none => Intrinsic.resolveScalar name symbol args span
  else
    match ← ask (·.kind target) with
    | .function _ | .generic _ =>
      let call ← bindProcedureCall env symbol args span scope
      functionCall call span
    | .variable info =>
      match info.type with
      | some type =>
        if type.isArray then arrayElement symbol type args span
        else reject (.notArrayOrFunction (← ask (·.name symbol))) span
      | none => reject (.notArrayOrFunction (← ask (·.name symbol))) span
    | .derivedType _ => structConstructor symbol args span
    | _ => reject (.notCallable (← ask (·.name symbol))) span

/-- Calls an intrinsic, which is imported into the scope on first use. -/
def callIntrinsic (name : String) (args : List ActualArgument) (span : Span)
    (scope : ScopeId) : Edit ExprId := do
  let visible ← ask fun arena => do
    match ← arena.lookup scope name with
    | some symbol => return if ← arena.isIntrinsic symbol then some symbol else none
    | none => return none
  match visible with
  | some symbol => applySymbol env symbol args span scope
  | none =>
    match ← Intrinsic.importInto scope name with
    | some symbol => applySymbol env symbol args span scope
    | none => reject (.undeclaredSymbol name) span

def callName (name : String) (args : List ActualArgument) (span : Span)
    (scope : ScopeId) : Edit ExprId := do
  match ← ask (·.lookup scope name) with
  | some symbol => applySymbol env symbol args span scope
  | none =>
    if (Intrinsic.moduleFor? name).isSome then callIntrinsic env name args span scope
    else reject (.undeclaredSymbol name) span

end FortranSemantics.Expression
