import FortranSemantics.Arena.Renumbering

/-!
# References and relocations

The identifiers of symbols and expressions that a node holds are its references, listed here in the
order in which a renumbering meets them. A relocation replaces identifiers and does nothing else. A
renumbering that finds a new identifier for every reference of a relocated node relocates the node
once more.
-/

namespace FortranSemantics

open List Stmt

/-- A symbol or an expression that a node refers to. -/
inductive Reference where
  | symbol (id : SymbolId)
  | expr (id : ExprId)
deriving DecidableEq

/-- A replacement for every identifier. -/
structure Relocation where
  symbol : SymbolId → SymbolId
  scope : ScopeId → ScopeId
  expr : ExprId → ExprId

/-- The references of a dimension. -/
def Dimension.references : Dimension → List Reference
  | ⟨start, length⟩ => start.toList.map .expr ++ length.toList.map .expr

/-- The references of a type. -/
def Ty.references : Ty → List Reference
  | .integer _ | .real _ | .complex _ | .logical _ => []
  | .character _ _ lengthExpr => lengthExpr.toList.map .expr
  | .array element dims => element.references ++ dims.flatMap Dimension.references
  | .derived type | .polymorphic type => [.symbol type]
  | .pointer target | .allocatable target => target.references

/-- The references of the arguments of a call, some of which may be left out. -/
def argumentReferences (args : List (Option ExprId)) : List Reference :=
  args.flatMap fun arg => arg.toList.map .expr

/-- The references of the form of an expression. -/
def ExprKind.references : ExprKind → List Reference
  | .constant _ => []
  | .arrayConstructor items => items.map .expr
  | .complexConstructor re im => [.expr re, .expr im]
  | .var symbol => [.symbol symbol]
  | .arithmetic left _ right overloaded
  | .compare left _ right overloaded
  | .logical left _ right overloaded
  | .concat left right overloaded => [.expr left, .expr right] ++ overloaded.toList.map .expr
  | .unary _ operand overloaded => .expr operand :: overloaded.toList.map .expr
  | .cast arg _ => [.expr arg]
  | .call name via args receiver =>
    .symbol name :: via.toList.map .symbol ++ argumentReferences args ++ receiver.toList.map .expr
  | .arrayCall _ _ args => args.map .expr
  | .arrayItem array indices => .expr array :: indices.map .expr
  | .component base member => [.expr base, .symbol member]
  | .structConstructor type args => .symbol type :: args.map .expr
  | .arraySize array dim => .expr array :: dim.toList.map .expr
  | .arrayBound array dim _ => [.expr array, .expr dim]

/-- The references of an expression: of its type, its value, then its form. -/
def Expr.references : Expr → List Reference
  | ⟨kind, type, value, _⟩ => type.references ++ value.toList.map .expr ++ kind.references

mutual

/-- The references of a statement and of the statements inside it. -/
def Stmt.references : Stmt → List Reference
  | .assignment target value => [.expr target, .expr value]
  | .branch cond body orelse =>
    .expr cond :: (referencesOf body ++ referencesOf orelse)
  | .loop var start last step body =>
    [.expr var, .expr start, .expr last] ++ step.toList.map .expr ++ referencesOf body
  | .loopWhile cond body => .expr cond :: referencesOf body
  | .call name via args receiver =>
    .symbol name :: via.toList.map .symbol ++ argumentReferences args ++ receiver.toList.map .expr
  | .print items => items.map .expr
  | .returnStmt | .exit | .cycle => []
  | .stop code => code.toList.map .expr
  | .block symbol => [.symbol symbol]

/-- The references of some statements. -/
def Stmt.referencesOf : List Stmt → List Reference
  | [] => []
  | first :: rest => first.references ++ referencesOf rest

end

/-- The references of what a symbol names. -/
def SymbolKind.references : SymbolKind → List Reference
  | .variable ⟨type, _, _, _, _, _, init, value, aliasOf⟩ =>
    type.toList.flatMap Ty.references ++ init.toList.map .expr ++ value.toList.map .expr
      ++ aliasOf.toList.map .expr
  | .function ⟨_, args, result, body, _, _, _, _⟩ =>
    args.map .symbol ++ result.toList.map .symbol ++ referencesOf body
  | .moduleUnit ⟨_, _, _, _⟩ => []
  | .program ⟨_, _, body⟩ => referencesOf body
  | .generic ⟨procs, _⟩ => procs.map .symbol
  | .binding ⟨proc, _, _⟩ => [.symbol proc]
  | .derivedType ⟨_, _, parent, _⟩ => parent.toList.map .symbol
  | .imported ⟨target, _, _, _⟩ => [.symbol target]
  | .block ⟨_, body⟩ => referencesOf body

/-- The references of a scope: its owner and its entries. -/
def Scope.references (scope : Scope) : List Reference :=
  scope.owner.toList.map .symbol ++ scope.entries.map fun entry => .symbol entry.2

namespace Relocation

variable (move : Relocation)

/-- The dimension with other identifiers. -/
def dimension : Dimension → Dimension
  | ⟨start, length⟩ => ⟨start.map move.expr, length.map move.expr⟩

/-- The type with other identifiers. -/
def type : Ty → Ty
  | .integer kind => .integer kind
  | .real kind => .real kind
  | .complex kind => .complex kind
  | .logical kind => .logical kind
  | .character kind length lengthExpr => .character kind length (lengthExpr.map move.expr)
  | .array element dims => .array (type element) (dims.map move.dimension)
  | .derived symbol => .derived (move.symbol symbol)
  | .polymorphic symbol => .polymorphic (move.symbol symbol)
  | .pointer target => .pointer (type target)
  | .allocatable target => .allocatable (type target)

/-- The form of an expression with other identifiers. -/
def exprKind : ExprKind → ExprKind
  | .constant value => .constant value
  | .arrayConstructor items => .arrayConstructor (items.map move.expr)
  | .complexConstructor re im => .complexConstructor (move.expr re) (move.expr im)
  | .var symbol => .var (move.symbol symbol)
  | .arithmetic left op right overloaded =>
    .arithmetic (move.expr left) op (move.expr right) (overloaded.map move.expr)
  | .compare left op right overloaded =>
    .compare (move.expr left) op (move.expr right) (overloaded.map move.expr)
  | .logical left op right overloaded =>
    .logical (move.expr left) op (move.expr right) (overloaded.map move.expr)
  | .concat left right overloaded =>
    .concat (move.expr left) (move.expr right) (overloaded.map move.expr)
  | .unary op operand overloaded =>
    .unary op (move.expr operand) (overloaded.map move.expr)
  | .cast arg kind => .cast (move.expr arg) kind
  | .call name via args receiver =>
    .call (move.symbol name) (via.map move.symbol)
      (args.map (Option.map move.expr)) (receiver.map move.expr)
  | .arrayCall intrinsic overload args =>
    .arrayCall intrinsic overload (args.map move.expr)
  | .arrayItem array indices => .arrayItem (move.expr array) (indices.map move.expr)
  | .component base member => .component (move.expr base) (move.symbol member)
  | .structConstructor type args =>
    .structConstructor (move.symbol type) (args.map move.expr)
  | .arraySize array dim => .arraySize (move.expr array) (dim.map move.expr)
  | .arrayBound array dim bound =>
    .arrayBound (move.expr array) (move.expr dim) bound

/-- The expression with other identifiers. -/
def node : Expr → Expr
  | ⟨kind, type, value, span⟩ =>
    ⟨move.exprKind kind, move.type type, value.map move.expr, span⟩

mutual

/-- The statement with other identifiers. -/
def stmt : Stmt → Stmt
  | .assignment target value => .assignment (move.expr target) (move.expr value)
  | .branch cond body orelse => .branch (move.expr cond) (stmts body) (stmts orelse)
  | .loop var start last step body =>
    .loop (move.expr var) (move.expr start) (move.expr last)
      (step.map move.expr) (stmts body)
  | .loopWhile cond body => .loopWhile (move.expr cond) (stmts body)
  | .call name via args receiver =>
    .call (move.symbol name) (via.map move.symbol)
      (args.map (Option.map move.expr)) (receiver.map move.expr)
  | .print items => .print (items.map move.expr)
  | .returnStmt => .returnStmt
  | .exit => .exit
  | .cycle => .cycle
  | .stop code => .stop (code.map move.expr)
  | .block symbol => .block (move.symbol symbol)

/-- The statements with other identifiers. -/
def stmts : List Stmt → List Stmt
  | [] => []
  | first :: rest => stmt first :: stmts rest

end

/-- What a symbol names, with other identifiers. -/
def symbolKind : SymbolKind → SymbolKind
  | .variable ⟨type, intent, storage, access, presence, target, init, value, aliasOf⟩ =>
    .variable ⟨type.map move.type, intent, storage, access, presence, target,
      init.map move.expr, value.map move.expr, aliasOf.map move.expr⟩
  | .function ⟨scope, args, result, body, abi, deftype, access, dependencies⟩ =>
    .function ⟨move.scope scope, args.map move.symbol, result.map move.symbol,
      move.stmts body, abi, deftype, access, dependencies⟩
  | .moduleUnit ⟨scope, dependencies, intrinsic, loaded⟩ =>
    .moduleUnit ⟨move.scope scope, dependencies, intrinsic, loaded⟩
  | .program ⟨scope, dependencies, body⟩ =>
    .program ⟨move.scope scope, dependencies, move.stmts body⟩
  | .generic ⟨procs, access⟩ => .generic ⟨procs.map move.symbol, access⟩
  | .binding ⟨proc, procName, dispatch⟩ => .binding ⟨move.symbol proc, procName, dispatch⟩
  | .derivedType ⟨scope, members, parent, access⟩ =>
    .derivedType ⟨move.scope scope, members, parent.map move.symbol, access⟩
  | .imported ⟨target, moduleName, remoteName, access⟩ =>
    .imported ⟨move.symbol target, moduleName, remoteName, access⟩
  | .block ⟨scope, body⟩ => .block ⟨move.scope scope, move.stmts body⟩

/-- The symbol with other identifiers; it keeps its name. -/
def symbolNode : Symbol → Symbol
  | ⟨name, owner, kind⟩ => ⟨name, move.scope owner, move.symbolKind kind⟩

/-- The scope with other identifiers: the same names in the same order, and no helpers. -/
def scopeNode : Scope → Scope
  | ⟨parent, owner, entries, _⟩ =>
    { parent := parent.map move.scope
      owner := owner.map move.symbol
      entries := entries.map fun entry => (entry.1, move.symbol entry.2)
      helpers := [] }

/-- The reference with another identifier. -/
def reference : Reference → Reference
  | .symbol id => .symbol (move.symbol id)
  | .expr id => .expr (move.expr id)

/-! ## References of relocated nodes -/

theorem map_reference_expr? (id : Option ExprId) : (id.map move.expr).toList.map Reference.expr =
      (id.toList.map Reference.expr).map move.reference := by
  cases id <;> rfl

theorem map_reference_symbol? (id : Option SymbolId) :
    (id.map move.symbol).toList.map Reference.symbol =
      (id.toList.map Reference.symbol).map move.reference := by
  cases id <;> rfl

theorem map_reference_exprs (ids : List ExprId) :
    (ids.map move.expr).map Reference.expr = (ids.map Reference.expr).map move.reference := by
  rw [map_map, map_map]
  rfl

theorem map_reference_symbols (ids : List SymbolId) : (ids.map move.symbol).map Reference.symbol =
      (ids.map Reference.symbol).map move.reference := by
  rw [map_map, map_map]
  rfl

theorem flatMap_references {α : Type} {f : α → α} {refs : α → List Reference}
    (each : ∀ item, refs (f item) = (refs item).map move.reference) (items : List α) :
    (items.map f).flatMap refs = (items.flatMap refs).map move.reference := by
  rw [flatMap_map, map_flatMap]
  exact congrArg items.flatMap (funext each)

theorem references_arguments (args : List (Option ExprId)) :
    argumentReferences (args.map (Option.map move.expr)) =
      (argumentReferences args).map move.reference :=
  move.flatMap_references move.map_reference_expr? args

theorem references_dimension (dim : Dimension) :
    (move.dimension dim).references = dim.references.map move.reference := by
  simp only [dimension, Dimension.references, map_reference_expr?, map_append]

theorem references_type (ty : Ty) :
    (move.type ty).references = ty.references.map move.reference := by
  induction ty with
  | integer | real | complex | logical | derived | polymorphic => rfl
  | character k length lengthExpr => exact move.map_reference_expr? lengthExpr
  | array el dims ih =>
    simp only [Relocation.type, Ty.references, ih, map_append,
      move.flatMap_references move.references_dimension]
  | pointer tgt ih | allocatable tgt ih => exact ih

theorem references_exprKind (k : ExprKind) :
    (move.exprKind k).references = k.references.map move.reference := by
  cases k <;>
    simp only [exprKind, ExprKind.references, map_reference_expr?, map_reference_symbol?,
      map_reference_exprs, references_arguments, map_append, map_cons, map_nil, reference]

theorem references_node (expr : Expr) :
    (move.node expr).references = expr.references.map move.reference := by
  simp only [node, Expr.references, references_type, map_reference_expr?,
    references_exprKind, map_append]

mutual

theorem references_stmt (statement : Stmt) :
    (move.stmt statement).references = statement.references.map move.reference := by
  cases statement <;>
    simp only [stmt, references, map_reference_expr?, map_reference_symbol?, map_reference_exprs,
      references_arguments, references_stmts, map_append, map_cons, map_nil, reference]

theorem references_stmts (statements : List Stmt) : referencesOf (move.stmts statements) =
      (referencesOf statements).map move.reference := by
  cases statements with
  | nil => rfl
  | cons first rest =>
    simp only [stmts, referencesOf, references_stmt first, references_stmts rest, map_append]

end

/-- What a relocated symbol refers to is what the symbol refers to, relocated. -/
theorem references_symbolKind (k : SymbolKind) :
    (move.symbolKind k).references = k.references.map move.reference := by
  cases k with
  | «variable» info =>
    have ofType : (info.type.map move.type).toList.flatMap Ty.references =
        (info.type.toList.flatMap Ty.references).map move.reference := by
      rw [Option.toList_map]
      exact move.flatMap_references move.references_type _
    simp only [symbolKind, SymbolKind.references, ofType, map_reference_expr?, map_append]
  | function | moduleUnit | program | generic | binding | derivedType | imported | block =>
    simp only [symbolKind, SymbolKind.references, map_reference_symbol?, map_reference_symbols,
      references_stmts, map_append, map_cons, map_nil, reference]

theorem references_scopeNode (s : Scope) :
    (move.scopeNode s).references = s.references.map move.reference := by
  simp only [scopeNode, Scope.references, map_reference_symbol?, map_append, map_map]
  rfl

/-! ## The relocation that changes nothing -/

/-- The relocation that changes nothing. -/
def identity : Relocation where
  symbol id := id
  scope id := id
  expr id := id

theorem identity_dimension (dim : Dimension) : identity.dimension dim = dim := by
  simp only [dimension, identity, Option.map_id']

theorem identity_type (ty : Ty) : identity.type ty = ty := by
  induction ty with
  | integer | real | complex | logical | derived | polymorphic => rfl
  | character k length lengthExpr => simp only [Relocation.type, identity, Option.map_id']
  | array el dims ih =>
    simp only [Relocation.type, ih, funext identity_dimension, map_id']
  | pointer tgt ih | allocatable tgt ih => simp only [Relocation.type, ih]

theorem identity_exprKind (k : ExprKind) : identity.exprKind k = k := by
  cases k <;>
    simp only [exprKind, identity, Option.map_id', map_id', Option.map_id_fun', map_id]

theorem identity_node (expr : Expr) : identity.node expr = expr := by
  obtain ⟨k, ty, v, span⟩ := expr
  simp only [node, identity_exprKind, identity_type]
  simp only [identity, Option.map_id']

mutual

theorem identity_stmt (statement : Stmt) : identity.stmt statement = statement := by
  cases statement <;>
    simp only [stmt, identity_stmts] <;>
    simp only [identity, Option.map_id', map_id', Option.map_id_fun', map_id]

theorem identity_stmts (statements : List Stmt) : identity.stmts statements = statements := by
  cases statements with
  | nil => rfl
  | cons first rest => rw [stmts, identity_stmt first, identity_stmts rest]

end

theorem identity_symbolNode (sym : Symbol) : identity.symbolNode sym = sym := by
  obtain ⟨n, owner, k⟩ := sym
  have same : identity.symbolKind k = k := by
    cases k <;>
      simp only [symbolKind, identity_stmts, funext identity_type, Option.map_id'] <;>
      simp only [identity, Option.map_id', map_id']
  rw [symbolNode, same]
  rfl

theorem identity_scopeNode (s : Scope) : identity.scopeNode s = { s with helpers := [] } := by
  simp only [scopeNode, identity, Option.map_id', map_id']

end Relocation

namespace Renumbering

variable {m : Type → Type} [Monad m] {map : Renumbering m} {first second : Relocation}

/-- What holds of the renumbering of a part of a node, with the references it meets and what comes
out of it, when it holds of the parts of the part and of its references. -/
structure Meets (map : Renumbering m) (first : Relocation)
    (holds : (α : Type) → m α → List Reference → (Relocation → α) → Prop) : Prop where
  pure : ∀ {α : Type} (value : α), holds α (pure value) [] fun _ => value
  bind :
    ∀ {α β : Type} {part : m α} {next : α → m β} {front back : List Reference}
      {value : Relocation → α}
    {result : α → Relocation → β}, holds α part front value →
    (∀ a, holds β (next a) back (result a)) →
      holds β (part >>= next) (front ++ back) fun move => result (value move) move
  symbol : ∀ id, holds SymbolId (map.symbol (first.symbol id)) [.symbol id] fun move =>
    move.symbol id
  expr : ∀ id, holds ExprId (map.expr (first.expr id)) [.expr id] fun move => move.expr id

namespace Meets

variable [LawfulMonad m] {holds : (α : Type) → m α → List Reference → (Relocation → α) → Prop}
  (meets : Meets map first holds) {α β γ : Type}

include meets

theorem mapped (visited : holds α part refs v) (change : α → β) :
    holds β (change <$> part) refs fun move => change (v move) := by
  have both := meets.bind visited fun a => meets.pure (change a)
  rwa [append_nil, bind_pure_comp] at both

theorem last (visited : holds α part refs v) (change : α → β) :
    holds β (part >>= fun a => Pure.pure (change a)) refs fun move => change (v move) := by
  rw [bind_pure_comp]
  exact meets.mapped visited change

theorem mapM {f : α → γ} {step : γ → m β} {refs : α → List Reference} {v : α → Relocation → β}
    (items : List α) (each : ∀ item, holds β (step (f item)) (refs item) (v item)) :
    holds (List β) ((items.map f).mapM step) (items.flatMap refs) fun move => items.map fun item =>
    v item move := by
  induction items with
  | nil => exact meets.pure []
  | cons item rest ih =>
    rw [map_cons, mapM_cons]
    exact meets.bind (each item) fun head => meets.last ih fun tail => head :: tail

theorem expr? (id : Option ExprId) : holds _ (map.expr? (id.map first.expr)) (id.toList.map .expr)
    fun move => id.map move.expr := by
  cases id with
  | none => exact meets.pure none
  | some id => exact meets.mapped (meets.expr id) some

theorem symbol? (id : Option SymbolId) :
    holds _ (map.symbol? (id.map first.symbol)) (id.toList.map .symbol) fun move =>
      id.map move.symbol := by
  cases id with
  | none => exact meets.pure none
  | some id => exact meets.mapped (meets.symbol id) some

theorem exprs (ids : List ExprId) : holds _ ((ids.map first.expr).mapM map.expr) (ids.map .expr)
    fun move => ids.map move.expr := by
  have each := meets.mapM ids meets.expr
  rwa [← map_eq_flatMap] at each

theorem symbols (ids : List SymbolId) :
    holds _ ((ids.map first.symbol).mapM map.symbol) (ids.map .symbol) fun move =>
      ids.map move.symbol := by
  have each := meets.mapM ids meets.symbol
  rwa [← map_eq_flatMap] at each

theorem dimension (dim : Dimension) : holds _ (map.dimension (first.dimension dim)) dim.references
    fun move => move.dimension dim := by
  obtain ⟨start, length⟩ := dim
  exact meets.bind (meets.expr? start) fun start => meets.last (meets.expr? length)
    (Dimension.mk start)

theorem type (ty : Ty) : holds _ (map.type (first.type ty)) ty.references fun move =>
    move.type ty := by
  induction ty with
  | integer k => exact meets.pure (Ty.integer k)
  | real k => exact meets.pure (Ty.real k)
  | complex k => exact meets.pure (Ty.complex k)
  | logical k => exact meets.pure (Ty.logical k)
  | character k length lengthExpr =>
    exact meets.mapped (meets.expr? lengthExpr) (Ty.character k length)
  | array el dims ih =>
    exact meets.bind ih fun el => meets.last (meets.mapM dims meets.dimension) (Ty.array el)
  | derived sym => exact meets.mapped (meets.symbol sym) Ty.derived
  | polymorphic sym => exact meets.mapped (meets.symbol sym) Ty.polymorphic
  | pointer tgt ih => exact meets.mapped ih Ty.pointer
  | allocatable tgt ih => exact meets.mapped ih Ty.allocatable

theorem type? (ty : Option Ty) :
    holds _ (map.type? (ty.map first.type)) (ty.toList.flatMap Ty.references) fun move =>
      ty.map move.type := by
  cases ty with
  | none => exact meets.pure none
  | some ty =>
    have inner := meets.mapped (meets.type ty) some
    rw [← flatMap_singleton Ty.references ty] at inner
    exact inner

theorem binary (left right : ExprId) (overloaded : Option ExprId)
    (build : ExprId → ExprId → Option ExprId → α) : holds _ (do
        let left ← map.expr (first.expr left)
        let right ← map.expr (first.expr right)
        return build left right (← map.expr? (overloaded.map first.expr)))
      ([.expr left, .expr right] ++ overloaded.toList.map .expr)
      fun move => build (move.expr left) (move.expr right) (overloaded.map move.expr) :=
  meets.bind (meets.expr left) fun left => meets.bind (meets.expr right) fun right =>
    meets.last (meets.expr? overloaded) (build left right)

/-- Calls are met in the order procedure, generic, arguments, receiver. -/
theorem call (n : SymbolId) (via : Option SymbolId) (args : List (Option ExprId))
    (receiver : Option ExprId)
    (build : SymbolId → Option SymbolId → List (Option ExprId) → Option ExprId → α) : holds _ (do
        let n ← map.symbol (first.symbol n)
        let via ← map.symbol? (via.map first.symbol)
        let args ← (args.map (Option.map first.expr)).mapM map.expr?
        return build n via args (← map.expr? (receiver.map first.expr)))
      (.symbol n :: via.toList.map .symbol ++ argumentReferences args ++ receiver.toList.map .expr)
      fun move => build (move.symbol n) (via.map move.symbol)
        (args.map (Option.map move.expr)) (receiver.map move.expr) := by
  have visited := meets.bind (meets.symbol n) fun n => meets.bind (meets.symbol? via) fun via =>
    meets.bind (meets.mapM args meets.expr?) fun args =>
      meets.last (meets.expr? receiver) (build n via args)
  simpa only [argumentReferences, append_assoc, cons_append, nil_append] using visited

/-- The forms of expressions are met in the order of their references. -/
theorem exprKind (k : ExprKind) : holds _ (map.exprKind (first.exprKind k)) k.references
    fun move => move.exprKind k := by
  cases k with
  | constant v => exact meets.pure (ExprKind.constant v)
  | arrayConstructor items => exact meets.mapped (meets.exprs items) ExprKind.arrayConstructor
  | complexConstructor re im =>
    exact meets.bind (meets.expr re) fun re => meets.last (meets.expr im)
      (ExprKind.complexConstructor re)
  | var sym => exact meets.mapped (meets.symbol sym) ExprKind.var
  | arithmetic left op right overloaded =>
    exact meets.binary left right overloaded fun left right => ExprKind.arithmetic left op right
  | compare left op right overloaded =>
    exact meets.binary left right overloaded fun left right => ExprKind.compare left op right
  | logical left op right overloaded =>
    exact meets.binary left right overloaded fun left right => ExprKind.logical left op right
  | concat left right overloaded => exact meets.binary left right overloaded ExprKind.concat
  | unary op operand overloaded =>
    exact meets.bind (meets.expr operand) fun operand =>
      meets.last (meets.expr? overloaded) (ExprKind.unary op operand)
  | cast arg k => exact meets.last (meets.expr arg) fun arg => ExprKind.cast arg k
  | call n via args receiver => exact meets.call n via args receiver ExprKind.call
  | arrayCall intrinsic overload args =>
    exact meets.mapped (meets.exprs args) (ExprKind.arrayCall intrinsic overload)
  | arrayItem array indices =>
    exact meets.bind (meets.expr array) fun array =>
      meets.last (meets.exprs indices) (ExprKind.arrayItem array)
  | component base mem =>
    exact meets.bind (meets.expr base) fun base =>
      meets.last (meets.symbol mem) (ExprKind.component base)
  | structConstructor ty args =>
    exact meets.bind (meets.symbol ty) fun ty =>
      meets.last (meets.exprs args) (ExprKind.structConstructor ty)
  | arraySize array dim =>
    exact meets.bind (meets.expr array) fun array =>
      meets.last (meets.expr? dim) (ExprKind.arraySize array)
  | arrayBound array dim bound =>
    exact meets.bind (meets.expr array) fun array =>
      meets.last (meets.expr dim) fun dim => ExprKind.arrayBound array dim bound

theorem node (node : Expr) : holds _ (map.node (first.node node)) node.references fun move =>
    move.node node := by
  obtain ⟨kind, type, value, span⟩ := node
  have visited := meets.bind (meets.type type) fun type =>
    meets.bind (meets.expr? value) fun value =>
    meets.last (meets.exprKind kind) fun kind => ({ kind, type, value, span } : Expr)
  rw [← append_assoc] at visited
  exact visited

mutual

/-- Statements are met in the order of their references. -/
theorem stmt (statement : Stmt) : holds _ (map.stmt (first.stmt statement)) statement.references
    fun move => move.stmt statement := by
  cases statement with
  | assignment tgt v =>
    exact meets.bind (meets.expr tgt) fun tgt => meets.last (meets.expr v) (assignment tgt)
  | branch cond body orelse =>
    exact meets.bind (meets.expr cond) fun cond => meets.bind (stmts body) fun body =>
      meets.last (stmts orelse) (branch cond body)
  | loop var start last step body =>
    exact meets.bind (meets.expr var) fun var => meets.bind (meets.expr start) fun start =>
      meets.bind (meets.expr last) fun last => meets.bind (meets.expr? step) fun step =>
        meets.last (stmts body) (loop var start last step)
  | loopWhile cond body =>
    exact meets.bind (meets.expr cond) fun cond => meets.last (stmts body) (Stmt.loopWhile cond)
  | call n via args receiver => exact meets.call n via args receiver Stmt.call
  | print items => exact meets.mapped (meets.exprs items) Stmt.print
  | returnStmt => exact meets.pure returnStmt
  | exit => exact meets.pure exit
  | cycle => exact meets.pure cycle
  | stop code => exact meets.mapped (meets.expr? code) stop
  | block sym => exact meets.mapped (meets.symbol sym) block

theorem stmts (statements : List Stmt) :
    holds _ (map.stmts (first.stmts statements)) (referencesOf statements) fun move =>
      move.stmts statements := by
  cases statements with
  | nil => exact meets.pure []
  | cons head rest => exact meets.bind (stmt head) fun head => meets.last (stmts rest) (cons head)

end

theorem entries (entries : List (String × SymbolId)) :
    holds _ ((entries.map fun e => (e.1, first.symbol e.2)).mapM
      fun (n, sym) => do return (n, ← map.symbol sym)) (entries.flatMap fun e => [.symbol e.2])
        fun move => entries.map fun e => (e.1, move.symbol e.2) :=
  meets.mapM entries fun e => meets.last (meets.symbol e.2) (Prod.mk e.1)

variable (scopes : ∀ id, holds ScopeId (map.scope (first.scope id)) [] fun move => move.scope id)

include scopes

/-- What symbols name is met in the order of its references. -/
theorem symbolKind (k : SymbolKind) : holds _ (map.symbolKind (first.symbolKind k)) k.references
    fun move => move.symbolKind k := by
  cases k with
  | «variable» info =>
    obtain ⟨type, intent, storage, access, presence, target, init, value, aliasOf⟩ := info
    have visited := meets.bind (meets.type? type) fun type =>
      meets.bind (meets.expr? init) fun init =>
      meets.bind (meets.expr? value) fun value => meets.last (meets.expr? aliasOf) fun aliasOf =>
        SymbolKind.variable
          { type, intent, storage, access, presence, target, init, value, aliasOf }
    rw [← append_assoc, ← append_assoc] at visited
    exact visited
  | function info =>
    obtain ⟨scope, args, result, body, abi, deftype, access, dependencies⟩ := info
    have visited := meets.bind (scopes scope) fun scope =>
      meets.bind (meets.symbols args) fun args =>
      meets.bind (meets.symbol? result) fun result => meets.last (meets.stmts body) fun body =>
        SymbolKind.function { scope, args, result, body, abi, deftype, access, dependencies }
    rw [nil_append, ← append_assoc] at visited
    exact visited
  | moduleUnit info => exact meets.last (scopes info.scope) fun scope =>
    SymbolKind.moduleUnit { info with scope }
  | program info =>
    exact meets.bind (scopes info.scope) fun scope =>
      meets.last (meets.stmts info.body) fun body => SymbolKind.program { info with scope, body }
  | generic info => exact meets.last (meets.symbols info.procs) fun procs =>
    SymbolKind.generic { info with procs }
  | binding info => exact meets.last (meets.symbol info.proc) fun proc =>
    SymbolKind.binding { info with proc }
  | derivedType info =>
    exact meets.bind (scopes info.scope) fun scope =>
      meets.last (meets.symbol? info.parent) fun parent => SymbolKind.derivedType
        { info with scope, parent }
  | imported info =>
    exact meets.last (meets.symbol info.target) fun target => SymbolKind.imported
      { info with target }
  | block info =>
    exact meets.bind (scopes info.scope) fun scope =>
      meets.last (meets.stmts info.body) fun body => SymbolKind.block { scope, body }

theorem symbolNode (sym : Symbol) :
    holds _ (map.symbolNode (first.symbolNode sym)) sym.kind.references fun move =>
      move.symbolNode sym :=
  meets.bind (scopes sym.owner) fun owner =>
    meets.last (meets.symbolKind scopes sym.kind) fun kind => ({ sym with owner, kind } : Symbol)

/-- Scopes are met in the order of their references. -/
theorem scopeNode (s : Scope) : holds _ (map.scopeNode (first.scopeNode s)) s.references
    fun move => move.scopeNode s := by
  obtain ⟨parent, owner, entries, helpers⟩ := s
  have tb := meets.entries entries
  rw [← map_eq_flatMap] at tb
  have below (parent : Option ScopeId) := meets.bind (meets.symbol? owner) fun owner =>
    meets.last tb fun entries => ({ parent, owner, entries, helpers := [] } : Scope)
  cases parent with
  | none => exact meets.bind (meets.pure none) below
  | some parent => exact meets.bind (meets.mapped (scopes parent) some) below

end Meets

/-- Whether a renumbering takes a reference from where one relocation puts it to where another does.
-/
def Carries (map : Renumbering (Except Breach)) (first second : Relocation) : Reference → Prop
  | .symbol id => map.symbol (first.symbol id) = .ok (second.symbol id)
  | .expr id => map.expr (first.expr id) = .ok (second.expr id)

/-- Whether a part of a node is carried over when its references are. -/
def Carried (map : Renumbering (Except Breach)) (first second : Relocation) (α : Type)
    (part : Except Breach α) (references : List Reference) (value : Relocation → α) : Prop :=
  (∀ r ∈ references, map.Carries first second r) → part = .ok (value second)

theorem meets_carried (map : Renumbering (Except Breach)) (first second : Relocation) :
    map.Meets first (map.Carried first second) where
  pure _ _ := rfl
  bind pre after carried := by
    obtain ⟨front, back⟩ := forall_mem_append.1 carried
    rw [pre front]
    exact after _ back
  symbol id carried := carried (.symbol id) (.head _)
  expr id carried := carried (.expr id) (.head _)

end Renumbering

end FortranSemantics
