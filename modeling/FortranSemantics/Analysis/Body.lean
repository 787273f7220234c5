import FortranSemantics.Analysis.Declaration

/-!
# Executable statements

The second pass over a compilation unit: it resolves the statements of every program and procedure
that the first pass declared.
-/

namespace FortranSemantics

/-! ## Assignments -/

namespace Arena

/-- The innermost part of a designator nested at most `fuel` deep: what remains without subscripts
and components. -/
def designatorBaseWithin (arena : Arena) : Nat → ExprId → Except Breach ExprKind
  | 0, _ => .error .endless
  | fuel + 1, id => do
    match (← arena.expr id).kind with
    | .arrayItem array _ => arena.designatorBaseWithin fuel array
    | .component base _ => arena.designatorBaseWithin fuel base
    | kind => return kind

/-- What remains of a designator without subscripts and components. -/
def designatorBase (arena : Arena) (id : ExprId) : Except Breach ExprKind :=
  arena.designatorBaseWithin (arena.exprs.size + 1) id

end Arena

namespace Analysis

/-- Refuses targets that are not variables, and parameters and read-only arguments. -/
def checkAssignable (target : ExprId) (span : Span) : Analysis Unit := do
  match ← Edit.ask (·.designatorBase target) with
  | .var symbol =>
    let name ← Edit.ask (·.name symbol)
    match ← Edit.ask (·.asVariable? symbol) with
    | none => reject (.assignNonVariable name) span
    | some info =>
      if info.storage = .parameter then reject (.assignParameter name) span
      if info.intent = .into then reject (.assignIntentIn name) span
  | _ => reject .assignTarget span

/-- Records that an assignment may lose information. -/
def lintNarrowing (source target : Ty) (span : Span) : Analysis Unit := do
  let source ← Edit.typeName source.element
  let target ← Edit.typeName target.element
  addLint "implicit_narrowing"
    s!"Assignment converts {source} to {target} and may lose information" span

def assignment (setup : Setup) (scope : ScopeId) (target value : Tree.Expr) (span : Span) :
    Analysis Stmt := do
  let target ← expression setup scope target
  checkAssignable target span
  let value ← expression setup scope value
  let targetType ← Edit.typeOf target
  let valueType ← Edit.typeOf value
  let (value, narrowing) ← Conversion.forAssignment value targetType span
  if narrowing then lintNarrowing valueType targetType span
  return .assignment target value

end Analysis

/-! ## Associate constructs

An associate name stands for its selector when that is a designator, whose subscripts are evaluated
once on entry; otherwise it is a variable that is assigned on entry. -/

namespace Edit

/-- A subscript that does not change any more: a constant, or a new variable with the assignment
that sets it. -/
def freezeIndex (name : String) (scope : ScopeId) (index : ExprId) : Edit (ExprId × List Stmt) := do
  if (← ask (·.constant? index)).isSome then return (index, [])
  let expr ← ask (·.expr index)
  let name ← ask (·.uniqueName scope ("__" ++ name ++ "_index"))
  let symbol ← addSymbol name scope (.variable (.ofType expr.type))
  overwrite scope name symbol
  let target ← addVar symbol expr.type expr.span
  let frozen ← addVar symbol expr.type expr.span
  return (frozen, [.assignment target index])

/-- Freezes the subscripts of a designator nested at most `fuel` deep; gives the assignments to be
done on entry. -/
def freezeWithin (name : String) (scope : ScopeId) : Nat → ExprId → Edit (List Stmt)
  | 0, _ => broken .endless
  | fuel + 1, id => do
    match (← ask (·.expr id)).kind with
    | .arrayItem array indices =>
      let inner ← freezeWithin name scope fuel array
      let frozen ← indices.mapM (freezeIndex name scope)
      setExprKind id (.arrayItem array (frozen.map (·.1)))
      return inner ++ frozen.flatMap (·.2)
    | .component base _ => freezeWithin name scope fuel base
    | _ => return []

/-- Freezes the subscripts of a designator; gives the assignments to be done on entry. -/
def freezeSubscripts (name : String) (scope : ScopeId) (id : ExprId) : Edit (List Stmt) := do
  freezeWithin name scope ((← get).exprs.size + 1) id

end Edit

/-- Whether an expression designates a variable or a part of one. -/
def ExprKind.isDesignator : ExprKind → Bool
  | .var _ | .arrayItem .. | .component .. => true
  | _ => false

namespace Analysis

variable (scope : ScopeId)

/-- Binds an associate name to its selector; gives the assignments to be done on entry. -/
def associateName (name : String) (selector : ExprId) (span : Span) : Analysis (List Stmt) := do
  let expr ← Edit.ask (·.expr selector)
  let base := Variable.ofType expr.type
  if expr.kind.isDesignator then
    discard <| declareVariable scope name { base with type := none, aliasOf := some selector } span
    Edit.freezeSubscripts name scope selector
  else
    let symbol ← declareVariable scope name base span
    let target ← Edit.addVar symbol expr.type span
    return [.assignment target selector]

/-- Binds the names of an associate construct; gives the assignments to be done on entry. -/
def associateNames (associations : List Tree.Association)
    (selectors : List ExprId) : Analysis (List Stmt) := do
  let entries ← (associations.zip selectors).mapM fun (association, selector) =>
    associateName scope (Text.lowercase association.name) selector association.expr.span
  return entries.flatten

def openBlock (wanted : String) (scope : ScopeId) (span : Span) : Analysis
    (SymbolId × ScopeId) := do
  let name ← Edit.ask (·.uniqueName scope wanted)
  let (symbol, inner) ← addScoped name scope fun inner => .block { scope := inner, body := [] }
  Edit.declare scope name symbol span
  return (symbol, inner)

def openBlockConstruct (span : Span) : Analysis (SymbolId × ScopeId) := do
  note fun journal => { journal with blocks := journal.blocks + 1 }
  openBlock ("block_" ++ toString (← journal).blocks) scope span

def openAssociateConstruct (span : Span) : Analysis (SymbolId × ScopeId) := do
  note fun journal => { journal with associates := journal.associates + 1 }
  openBlock ("associate_block_" ++ toString (← journal).associates) scope span

end Analysis

namespace Analysis

/-! ## Statements -/

open Edit

def condition (setup : Setup) (scope : ScopeId) (tree : Tree.Expr) : Analysis ExprId := do
  let id ← expression setup scope tree
  let type ← typeOf id
  if !type.isLogical || !type.isScalar then
    reject (.condition (← typeName type)) tree.span
  return id

/-- A bound or the step of a counting loop, converted to the type of the counter. -/
def loopBound (setup : Setup) (scope : ScopeId) (counterType : Ty) (tree : Tree.Expr) :
    Analysis ExprId := do
  let id ← expression setup scope tree
  let type ← typeOf id
  if !type.isInteger || !type.isScalar then reject .loopBound tree.span
  Conversion.insertCast id counterType tree.span

variable (setup : Setup) (scope : ScopeId)

def loopCounter (name : String) (span : Span) : Analysis (ExprId × Ty) := do
  let id ← Expression.nameValue (← environment setup) name span scope
  let expr ← ask (·.expr id)
  match expr.kind with
  | .var _ =>
    if !expr.type.isInteger || !expr.type.isScalar then reject .loopVariableNotInteger span
    return (id, expr.type)
  | _ => reject .loopVariableNotInteger span

def stopCode (setup : Setup) (scope : ScopeId) (span : Span) (tree : Tree.Expr) :
    Analysis ExprId := do
  let id ← expression setup scope tree
  let type ← typeOf id
  if !type.isScalar || !(type.isInteger || type.isCharacter) then reject .stopCode span
  return id

/-- Binds the procedure that a call statement names. -/
def bindCall (receiver : List String) (name : String)
    (args : List Tree.Arg) (span : Span) : Analysis Expression.BoundCall := do
  let env ← environment setup
  if receiver.isEmpty then
    match ← ask (·.lookup scope name) with
    | none => reject (.undeclaredSymbol name) span
    | some symbol =>
      let args ← Expression.resolveArgs env scope args
      Expression.bindProcedureCall env symbol args span scope
  else
    let base ← Expression.designator env receiver span scope
    let args ← Expression.resolveArgs env scope args
    Expression.bindTypeBoundCall env base name args span

def callStmt (receiver : List String) (name : String)
    (args : List Tree.Arg) (span : Span) : Analysis Stmt := do
  let call ← bindCall setup scope receiver (Text.lowercase name) args span
  if (← ask (·.returnType? call.function)).isSome then
    reject (.functionAsSubroutine (← ask (·.name call.function))) span
  return .call call.name call.via call.args call.receiver

mutual

/-- Resolves a statement, which stands in a loop or not. -/
def statement (setup : Setup) (inLoop : Bool) (scope : ScopeId) : Tree.Stmt → Analysis Stmt
  | .assign target value span => assignment setup scope target value span
  | .branch cond thenBody none => do
    let cond ← condition setup scope cond
    let body ← statements setup inLoop scope thenBody
    return .branch cond body []
  | .branch cond thenBody (some elseBody) => do
    let cond ← condition setup scope cond
    let body ← statements setup inLoop scope thenBody
    let orelse ← statements setup inLoop scope elseBody
    return .branch cond body orelse
  | .loop counter start final step body span => do
    let (counter, type) ← loopCounter setup scope counter span
    let start ← loopBound setup scope type start
    let final ← loopBound setup scope type final
    let step ← step.mapM (loopBound setup scope type)
    let body ← statements setup true scope body
    return .loop counter start final step body
  | .loopWhile cond body => do
    let cond ← condition setup scope cond
    let body ← statements setup true scope body
    return .loopWhile cond body
  | .call receiver name args span => callStmt setup scope receiver name args span
  | .print items => do
    let items ← items.mapM (expression setup scope)
    return .print items
  | .returnStmt => return .returnStmt
  | .exit span => do
    if !inLoop then reject (.outsideLoop "EXIT") span
    return .exit
  | .cycle span => do
    if !inLoop then reject (.outsideLoop "CYCLE") span
    return .cycle
  | .stop code span => do
    let code ← code.mapM (stopCode setup scope span)
    return .stop code
  | .block decls body span => do
    let (symbol, inner) ← openBlockConstruct scope span
    declareBlock setup inner decls
    let body ← statements setup inLoop inner body
    modifyKind symbol (·.withBody body)
    return .block symbol
  | .associate associations body span => do
    let selectors ← associations.mapM fun association => expression setup scope association.expr
    let (symbol, inner) ← openAssociateConstruct scope span
    let entry ← associateNames inner associations selectors
    let body ← statements setup inLoop inner body
    modifyKind symbol (·.withBody (entry ++ body))
    return .block symbol

def statements (setup : Setup) (inLoop : Bool) (scope : ScopeId) :
    List Tree.Stmt → Analysis (List Stmt)
  | [] => return []
  | first :: rest => do
    let first ← statement setup inLoop scope first
    return first :: (← statements setup inLoop scope rest)

end

/-! ## Program units -/

/-- The scope of a declared unit or procedure. -/
def unitScope (parent : ScopeId) (name : String) : Edit ScopeId := do
  let scope ← ask fun arena => do
    match ← arena.find? parent name with
    | some symbol => arena.symbolScope? symbol
    | none => return none
  match scope with
  | some scope => return scope
  | none => broken (.unitNotDeclared name)

mutual

/-- Resolves the body of a procedure and those of the procedures in it. -/
def procedureBody (setup : Setup) (parent : ScopeId) : Tree.Subprogram → Analysis Unit
  | ⟨_, name, _, _, _, _, _, _, body, contained, _⟩ => do
    let name := Text.lowercase name
    match ← ask (·.find? parent name) with
    | none => broken (.procedureNotDeclared name)
    | some symbol =>
      let scope ← unitScope parent name
      let body ← statements setup false scope body
      modifyFunction symbol fun info => { info with body }
      containedBodies setup scope contained

/-- Resolves the bodies of contained procedures. -/
def containedBodies (setup : Setup) (parent : ScopeId) : List Tree.Subprogram → Analysis Unit
  | [] => return
  | first :: rest => do
    procedureBody setup parent first
    containedBodies setup parent rest

end

/-- Resolves the bodies of a main program. -/
def programBody (unit : Tree.Program) : Analysis Unit := do
  let name := Text.lowercase unit.name
  let root ← root
  match ← ask (·.find? root name) with
  | none => broken (.programNotDeclared name)
  | some symbol =>
    let scope ← unitScope root name
    let body ← statements setup false scope unit.body
    modifyKind symbol fun
      | .program info => .program { info with body }
      | kind => kind
    containedBodies setup scope unit.contained

/-- Resolves the bodies of a program unit. -/
def unitBody : Tree.ProgramUnit → Analysis Unit
  | .moduleUnit unit => do
    let scope ← unitScope (← root) (Text.lowercase unit.name)
    containedBodies setup scope unit.contained
  | .programUnit unit => programBody setup unit
  | .subprogramUnit unit => do procedureBody setup (← root) unit

end Analysis

end FortranSemantics
