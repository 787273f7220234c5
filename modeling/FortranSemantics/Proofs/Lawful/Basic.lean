import FortranSemantics.Intrinsic.LoopProcedure
import FortranSemantics.Proofs.Arena.Entry
import FortranSemantics.Proofs.Arena.Outcome
import FortranSemantics.Proofs.Arena.Reference

/-!
# Lawful arenas

In a lawful arena every identifier refers to something that is there, operands are not nested in
themselves, types are flat, operations have operands that go together, and calls of array intrinsics
have the arguments that their helpers need. The statements of a unit that is analysed share no
operands with those of modules that were loaded. A lawful arena gives rise to no breach, unless
type-bound procedures and candidates need not be procedures.
-/

namespace FortranSemantics

open List

variable {kind : SymbolKind} {id : SymbolId} {type : Ty} {scope : ScopeId} {form : SymbolForm}

/-- The terms of an analysis: whether type-bound procedures and candidates need not be procedures,
as in loaded modules, whether breaches are tolerated, and how many scopes are fixed: names stand
there for what they stood for. -/
structure Terms where
  lenient : Prop
  breach : Prop
  fixed : Nat

/-- The failures of an analysis. -/
abbrev Terms.tolerated (terms : Terms) : Tolerance :=
  ⟨True, fun _ => terms.breach⟩

/-- Terms on which a name that should stand for a procedure may give rise to a breach. -/
class Terms.Wary (terms : Terms) : Prop where
  covered : terms.lenient → terms.breach

/-- Whether an expression is a call of an array intrinsic. -/
def ExprKind.isArrayCall : ExprKind → Bool
  | .arrayCall .. => true
  | _ => false

/-- What a statement asks of its expressions: a value for a target, a condition, a counter, or a
bound or step for one. -/
inductive Demand where
  | assigned (target value : ExprId)
  | condition (id : ExprId)
  | counter (id : ExprId)
  | bound (counter id : ExprId)

namespace Stmt

mutual

/-- What a statement and those inside it ask of their expressions. -/
def demands : Stmt → List Demand
  | .assignment target value => [.assigned target value]
  | .branch cond body orelse => .condition cond :: (demandsOf body ++ demandsOf orelse)
  | .loop var start last step body =>
    .counter var :: ([start, last] ++ step.toList).map (.bound var) ++ demandsOf body
  | .loopWhile cond body => .condition cond :: demandsOf body
  | .call .. | .print _ | .returnStmt | .exit | .cycle | .stop _ | .block _ => []

/-- What some statements ask of their expressions. -/
def demandsOf : List Stmt → List Demand
  | [] => []
  | first :: rest => demands first ++ demandsOf rest

end

mutual

/-- The blocks that a statement enters. -/
def blocks : Stmt → List SymbolId
  | .block symbol => [symbol]
  | .branch _ body orelse => blocksOf body ++ blocksOf orelse
  | .loop _ _ _ _ body | .loopWhile _ body => blocksOf body
  | .assignment .. | .call .. | .print _ | .returnStmt | .exit | .cycle | .stop _ => []

/-- The blocks that some statements enter. -/
def blocksOf : List Stmt → List SymbolId
  | [] => []
  | first :: rest => blocks first ++ blocksOf rest

end

variable (first second : List Stmt)

@[simp]
theorem exprsOf_append : exprsOf (first ++ second) = exprsOf first ++ exprsOf second := by
  induction first with
  | nil => rfl
  | cons stmt rest ih => simp [exprsOf, ih]

@[simp]
theorem blocksOf_append : blocksOf (first ++ second) = blocksOf first ++ blocksOf second := by
  induction first with
  | nil => rfl
  | cons stmt rest ih => simp [blocksOf, ih]

@[simp]
theorem demandsOf_append : demandsOf (first ++ second) = demandsOf first ++ demandsOf second := by
  induction first with
  | nil => rfl
  | cons stmt rest ih => simp [demandsOf, ih]

end Stmt

namespace SymbolKind

/-- Whether a symbol is neither an alias nor a stub. -/
def isOrdinary : SymbolKind → Bool
  | .variable info => info.type.isSome
  | kind => !kind.isStub

/-- Whether a symbol is a module that was not analysed here. -/
def isForeign : SymbolKind → Bool
  | .moduleUnit info => info.intrinsic || info.loaded
  | _ => false

/-- The statements of a symbol, if it has any. -/
def body (kind : SymbolKind) : List Stmt :=
  kind.body?.getD []

theorem isOrdinary_iff : kind.isOrdinary = true ↔
    kind.isStub = false ∧ ∀ info, kind = .variable info → info.type ≠ none := by
  cases kind <;> simp [isOrdinary, isStub, Option.isSome_iff_ne_none]

end SymbolKind

/-! ## Types that go together -/

namespace Ty

/-- Whether two types have the same plain elements, or strings of one kind. -/
def Agree (left right : Ty) : Prop :=
  (left.element.IsPlain ∧ right.element = left.element) ∨
    ∃ kind leftLength leftExpr rightLength rightExpr,
      left.element = .character kind leftLength leftExpr ∧
        right.element = .character kind rightLength rightExpr

/-- Whether a type has the shape of an operation on operands of these types: arrays have the rank of
the result. -/
structure Conforms (left right result : Ty) : Prop where
  ranks : left.rank ≠ 0 → right.rank ≠ 0 → left.rank = right.rank
  rank : result.rank = max left.rank right.rank

end Ty

namespace ArrayIntrinsic

variable (intrinsic : ArrayIntrinsic)

/-- The number of arguments of a call of an array intrinsic. -/
def arity (overload : Overload) : Nat :=
  if intrinsic = .merge then 3
  else 1 + (if overload.hasDim then 1 else 0) + if overload.hasMask then 1 else 0

/-- Whether an array intrinsic gives the place of an element. -/
def IsLocation : Prop :=
  intrinsic = .maxLoc ∨ intrinsic = .minLoc

/-- The element type of a call's result, over data with the given elements. -/
def resultElement (data : Ty) : Ty :=
  match intrinsic with
  | .count | .maxLoc | .minLoc => .integer 4
  | _ => data.element

/-- The rank of a call's result, over arguments of the given ranks. A merge has that of its first
array. -/
def resultRank (overload : Overload) (ranks : List Nat) : Nat :=
  match intrinsic with
  | .maxLoc | .minLoc => 1
  | .merge => (ranks.find? (0 < ·)).getD 0
  | _ => if overload.hasDim then ranks.headD 0 - 1 else 0

/-- Whether a call of an array intrinsic has arguments and a result of types for which its helper
can be made. -/
structure Fits (intrinsic : ArrayIntrinsic) (overload : Overload) (args : List Ty) (result : Ty) :
    Prop where
  arity : args.length = intrinsic.arity overload
  plain : ∀ type ∈ args, type.element.IsPlain
  data : ∀ type ∈ args.head?, result.element = intrinsic.resultElement type
  dim : overload.hasDim = true → ∀ type ∈ args[1]?, type.rank = 0
  rank : result.rank = intrinsic.resultRank overload (args.map Ty.rank)
  location : intrinsic.IsLocation → overload.hasDim = false
  notShape : intrinsic ≠ .shape
  mask : overload.hasMask = true ∨ intrinsic = .merge → ∀ type ∈ args.getLast?,
    type.isLogical = true
  count : intrinsic = .count → ∀ type ∈ args.head?, type.isLogical = true
  sources : intrinsic = .merge → ∀ type ∈ args.head?, ∀ other ∈ args[1]?,
    other.element = type.element

/-- Only merges, places and reductions along a dimension give arrays. -/
theorem Fits.shape {intrinsic : ArrayIntrinsic} {overload : Overload} {res : Ty}
    (fits : intrinsic.Fits overload args res) (notZero : res.rank ≠ 0) :
    intrinsic = .merge ∨ intrinsic.IsLocation ∨ overload.hasDim = true := by
  rw [fits.rank] at notZero
  by_cases hasDim : overload.hasDim = true
  · exact .inr (.inr hasDim)
  · cases intrinsic <;> first
      | exact .inl rfl
      | exact .inr (.inl (.inl rfl))
      | exact .inr (.inl (.inr rfl))
      | exact absurd (if_neg hasDim) notZero

end ArrayIntrinsic

/-- The symbol that a symbol of this form stands for: the target of an import, and any other symbol
itself. -/
def SymbolForm.past (form : SymbolForm) (id : SymbolId) : SymbolId :=
  match form with
  | .imported target => target
  | _ => id

namespace Arena

/-! ## Laws -/

variable (arena : Arena)

/-- Whether an expression is there and has a type. -/
def HasType (id : ExprId) (type : Ty) : Prop :=
  ∃ expr, arena.expr id = .ok expr ∧ expr.type = type

/-- Whether an expression is a literal. -/
def IsConstant (id : ExprId) : Prop :=
  ∃ expr value, arena.expr id = .ok expr ∧ expr.kind = .constant value

/-- Whether an expression is a reference to a variable. -/
def IsVar (id : ExprId) : Prop :=
  ∃ expr symbol, arena.expr id = .ok expr ∧ expr.kind = .var symbol

/-- Whether an expression is an operand of another one. -/
def Child (id child : ExprId) : Prop :=
  ∃ expr, arena.expr id = .ok expr ∧ child ∈ expr.kind.children

/-- Whether an expression is another one or is nested in it as an operand. -/
def Reaches : ExprId → ExprId → Prop :=
  Relation.ReflTransGen arena.Child

/-- Whether operands are there and are nested less than `depth` deep. -/
def Within (arena : Arena) : Nat → ExprId → Prop
  | 0, _ => False
  | depth + 1, id =>
    ∃ expr, arena.expr id = .ok expr ∧ ∀ child ∈ expr.kind.children, arena.Within depth child

/-- Whether a symbol is there and has a form. -/
def HasForm (id : SymbolId) (form : SymbolForm) : Prop :=
  ∃ symbol, arena.symbol id = .ok symbol ∧ symbol.kind.form = form

/-- Whether a symbol is a procedure, directly or through an import. -/
def IsProcedure (id : SymbolId) : Prop :=
  ∃ past scope, arena.pastImport id = .ok past ∧ arena.HasForm past (.function scope)

/-- Whether a symbol is a procedure or bound to one, directly or through an import. -/
def IsCallable (id : SymbolId) : Prop :=
  ∃ function scope, arena.implementation id = .ok function ∧ arena.HasForm function
    (.function scope)

/-- Whether a symbol is a derived type. -/
def IsType (id : SymbolId) : Prop :=
  ∃ scope parent, arena.HasForm id (.derivedType scope parent)

/-- Whether a symbol is a derived type, directly or through an import. -/
def NamesType (id : SymbolId) : Prop :=
  ∃ past, arena.pastImport id = .ok past ∧ arena.IsType past

/-- Whether a symbol is a variable with a type. -/
def IsTyped (id : SymbolId) : Prop :=
  ∃ symbol info, arena.symbol id = .ok symbol ∧ symbol.kind = .variable info ∧
    info.type.isSome = true

/-! ### What was analysed here -/

/-- Whether a scope is that of a unit that is foreign, or of one that is not, or lies inside such a
unit. -/
inductive Belongs (arena : Arena) (foreign : Bool) : ScopeId → Prop
  | unit {scope : ScopeId} {table : Scope} {id : SymbolId} {symbol : Symbol}
      (found : arena.scope scope = .ok table) (owned : table.owner = some id)
      (held : arena.symbol id = .ok symbol) (top : symbol.owner = arena.root)
      (same : symbol.kind.isForeign = foreign) : Belongs arena foreign scope
  | inner {scope : ScopeId} {table : Scope} {id : SymbolId} {symbol : Symbol}
      (found : arena.scope scope = .ok table) (owned : table.owner = some id)
      (held : arena.symbol id = .ok symbol) (belongs : Belongs arena foreign symbol.owner) :
      Belongs arena foreign scope

/-- Whether a scope is the root or belongs to a unit that was analysed here. -/
def Own (scope : ScopeId) : Prop :=
  scope = arena.root ∨ arena.Belongs false scope

/-- Whether a scope belongs to an intrinsic module or one that was loaded. -/
def Alien (scope : ScopeId) : Prop :=
  arena.Belongs true scope

/-- Whether an expression belongs to what was not analysed here: a symbol or an expression of it
refers to it. -/
inductive Borrowed (arena : Arena) : ExprId → Prop
  | ofSymbol {id : SymbolId} {symbol : Symbol} {node : ExprId}
    (found : arena.symbol id = .ok symbol)
      (foreign : ¬ arena.Own symbol.owner) (occurs : .expr node ∈ symbol.kind.references) :
      Borrowed arena node
  | ofExpr {id node : ExprId} {expr : Expr} (borrowed : Borrowed arena id)
      (found : arena.expr id = .ok expr) (occurs : .expr node ∈ expr.references) :
      Borrowed arena node

/-- Whether an expression has no operands that belong to what was not analysed here. -/
def Native (id : ExprId) : Prop :=
  ∀ node, arena.Reaches id node → ¬ arena.Borrowed node

/-! ### Expressions and symbols -/

/-- Whether a type is flat, has a kind of its category and refers to what is there, a derived type
unless it was loaded. -/
structure LawfulType (terms : Terms) (arena : Arena) (type : Ty) : Prop where
  flat : type.Flat
  exprs : ∀ id ∈ type.exprs, id.index < arena.exprs.size
  symbols : ∀ id ∈ type.symbols, id.index < arena.symbols.size ∧
    (terms.lenient ∨ arena.NamesType id)
  supported : type.Supported

/-- Whether the form of an expression goes with its type. -/
def LawfulForm (type : Ty) : ExprKind → Prop
  | .var symbol => symbol.index < arena.symbols.size
  | .arithmetic left _ right none | .logical left _ right none =>
    ∃ leftType rightType, arena.HasType left leftType ∧ arena.HasType right rightType ∧
      leftType.element.IsPlain ∧ rightType.element = leftType.element ∧
      type.element = leftType.element ∧ leftType.Conforms rightType type
  | .compare left _ right none =>
    ∃ leftType rightType, arena.HasType left leftType ∧ arena.HasType right rightType ∧
      leftType.Agree rightType ∧ type.element = .logical 4 ∧ leftType.Conforms rightType type
  | .cast arg kind =>
    ∃ source, arena.HasType arg source ∧ Conversion.castKind? source type = some kind ∧
      type.rank = source.rank
  | .arrayCall intrinsic overload args =>
    ∃ types, List.Forall₂ arena.HasType args types ∧ intrinsic.Fits overload types type
  | _ => True

/-- Whether an expression has operands that are there, a proper type, and a literal as its value. -/
structure LawfulExpr (terms : Terms) (arena : Arena) (expr : Expr) : Prop where
  children : ∀ child ∈ expr.kind.children, child.index < arena.exprs.size
  type : arena.LawfulType terms expr.type
  value : ∀ id ∈ expr.value, arena.IsConstant id
  form : arena.LawfulForm expr.type expr.kind

/-- Whether the value of an assignment is not nested in its target, should it be lowered on its own.
-/
def Separate (target value : ExprId) : Prop :=
  ∀ expr, arena.expr value = .ok expr → expr.kind.isArrayCall = true → ¬ arena.Reaches target value

/-- Whether elements of a type may be assigned to those of another: the same, strings of one kind,
or accepted for them. -/
def Takes (target value : Ty) : Prop :=
  value = target ∨
    (∃ kind length lengthExpr other otherExpr, target = .character kind length lengthExpr ∧
      value = .character kind other otherExpr) ∨
    arena.argumentCompatible target value = .ok true

/-- Whether the types of expressions go with what a statement asks of them. -/
def Typed : Demand → Prop
  | .assigned target value =>
    ∃ targetType type, arena.HasType target targetType ∧ arena.HasType value type ∧
      (type.rank = 0 ∨ type.rank = targetType.rank) ∧ arena.Takes targetType.element type.element
  | .condition id => ∃ type, arena.HasType id type ∧ type.isLogical = true ∧ type.rank = 0
  | .counter id =>
    arena.IsVar id ∧ ∃ type, arena.HasType id type ∧ type.isInteger = true ∧ type.rank = 0
  | .bound counter id =>
    ∃ counterType type, arena.HasType counter counterType ∧ arena.HasType id type ∧
      type.element = counterType.element ∧ type.rank = 0

/-- Whether the statements of a symbol refer to what is there, with separate targets and values and
proper types, unless it was loaded, and blocks in its scope. What was analysed here has operands of
its own. -/
structure LawfulBody (terms : Terms) (arena : Arena) (owner scope : ScopeId)
    (body : List Stmt) : Prop where
  exprs : ∀ id ∈ Stmt.exprsOf body, id.index < arena.exprs.size
  separate : ∀ target value, .assigned target value ∈ Stmt.demandsOf body →
    arena.Separate target value
  typed : ∀ demand ∈ Stmt.demandsOf body, terms.lenient ∨ arena.Typed demand
  blocks : ∀ block ∈ Stmt.blocksOf body, ∃ inner, arena.Has block scope (.block inner)
  side : Stmt.exprsOf body = [] ∨ arena.Alien owner ∨
    (arena.Own owner ∧ ∀ expr ∈ Stmt.exprsOf body, arena.Native expr)

/-- Whether a variable has a type or stands for something, and refers to what is there. -/
structure LawfulVariable (terms : Terms) (arena : Arena) (info : Variable) : Prop where
  type : ∀ type ∈ info.type, arena.LawfulType terms type
  typed : info.type = none → info.aliasOf.isSome = true
  init : ∀ id ∈ info.init, id.index < arena.exprs.size
  value : ∀ id ∈ info.value, arena.IsConstant id
  aliased : ∀ id ∈ info.aliasOf, id.index < arena.exprs.size

/-- Whether what a symbol names refers to what is there. -/
def LawfulKind (terms : Terms) (arena : Arena) (owner : ScopeId) : SymbolKind → Prop
  | .variable info => arena.LawfulVariable terms info
  | .function info | .program info
  | .block info => arena.LawfulBody terms owner info.scope info.body
  | .generic info => ∀ proc ∈ info.procs,
      proc.index < arena.symbols.size ∧ (terms.lenient ∨ arena.IsCallable proc)
  | .binding info =>
    info.proc.index < arena.symbols.size ∧ (terms.lenient ∨ arena.IsProcedure info.proc)
  | .derivedType info => ∀ name ∈ info.members, ∃ table member,
      arena.scope info.scope = .ok table ∧ table.owner ≠ none ∧ table.find? name = some member ∧
        arena.IsTyped member
  | .moduleUnit _ => owner = arena.root
  | .imported _ => True

/-- What holds of an arena between any two steps of an analysis. -/
structure Lawful (terms : Terms) (arena : Arena) : Prop where
  sound : arena.Sound
  expr : ∀ {id expr}, arena.expr id = .ok expr → arena.LawfulExpr terms expr
  depth : ∀ {id : ExprId}, id.index < arena.exprs.size → arena.Within arena.exprs.size id
  kind : ∀ {id symbol}, arena.symbol id = .ok symbol → arena.LawfulKind terms
    symbol.owner symbol.kind
  helpers : ∀ {scope table}, arena.scope scope = .ok table → ∀ entry ∈ table.helpers,
    ∀ helper ∈ entry.2, helper.index < arena.symbols.size
  /-- The name of a symbol that opens a scope and is no stub stands for it, in the root too. -/
  registered : ∀ {id symbol inner}, arena.symbol id = .ok symbol →
    symbol.kind.scope? = some inner → symbol.kind.isStub = false →
      ∃ table, arena.scope symbol.owner = .ok table ∧ table.find? symbol.name = some id
  /-- The entries of the root open scopes. -/
  units : ∀ {id symbol}, arena.symbol id = .ok symbol → symbol.owner = arena.root →
    symbol.kind.scope?.isSome = true

end Arena

/-! ## Later arenas -/

/-- What stays of an expression: all but its form, and of the form that it is a literal, a
reference, or no call of an array intrinsic. -/
structure Expr.Continues (expr later : Expr) : Prop where
  type : later.type = expr.type
  value : later.value = expr.value
  span : later.span = expr.span
  constant : ∀ value, expr.kind = .constant value → later.kind = expr.kind
  var : ∀ symbol, expr.kind = .var symbol → later.kind = expr.kind
  arrayCall : later.kind.isArrayCall = true → later.kind = expr.kind

theorem Expr.Continues.refl (expr : Expr) : expr.Continues expr :=
  ⟨rfl, rfl, rfl, fun _ _ => rfl, fun _ _ => rfl, fun _ => rfl⟩

/-- What stays of a symbol: its name, its owner, its form, that it has a type and is no stub,
whether it is foreign, and what it is bound to. -/
structure Symbol.Continues (symbol later : Symbol) : Prop where
  name : later.name = symbol.name
  owner : later.owner = symbol.owner
  form : later.kind.form = symbol.kind.form
  ordinary : symbol.kind.isOrdinary = true → later.kind.isOrdinary = true
  foreign : later.kind.isForeign = symbol.kind.isForeign
  binding : ∀ info, symbol.kind = .binding info → later.kind = .binding info

theorem Symbol.Continues.refl (sym : Symbol) : sym.Continues sym :=
  ⟨rfl, rfl, rfl, id, rfl, fun _ => id⟩

namespace Arena

/-- Whether an arena comes before another one: what it holds stays, no operands are nested anew but
references, none are nested deeper, and none come to belong to what was not analysed here. In owned
scopes, names of variables with types stand for the same ones. -/
structure Precedes (arena later : Arena) : Prop where
  root : later.root = arena.root
  expr : ∀ {id expr}, arena.expr id = .ok expr → ∃ held, later.expr id = .ok held ∧
    expr.Continues held
  reaches : ∀ {first last : ExprId}, first.index < arena.exprs.size → later.Reaches first last →
    arena.Reaches first last ∨ later.IsVar last
  within : ∀ {depth id}, arena.Within depth id → later.Within depth id
  native : ∀ {id : ExprId}, id.index < arena.exprs.size → arena.Native id → later.Native id
  symbol : ∀ {id symbol}, arena.symbol id = .ok symbol →
    ∃ held, later.symbol id = .ok held ∧ symbol.Continues held
  scope : ∀ {id table}, arena.scope id = .ok table → ∃ held, later.scope id = .ok held ∧
    held.parent = table.parent ∧ (table.owner ≠ none → held.owner = table.owner ∧
      ∀ name member, table.find? name = some member → arena.IsTyped member →
      held.find? name = some member)

/-- Whether an arena comes before another one without new aliases and stubs in its scopes. -/
structure Grown (arena later : Arena) : Prop extends arena.Precedes later where
  ordinary : ∀ {id symbol}, later.symbol id = .ok symbol → symbol.kind.isOrdinary = false →
    arena.scopes.size ≤ symbol.owner.index ∨
      ∃ old, arena.symbol id = .ok old ∧ old.kind.isOrdinary = false

/-- Whether a symbol of this form is only ever entered in a scope under a free name: a block, an
import, or a variable of a block. -/
def Guarded (arena : Arena) (scope : ScopeId) : SymbolForm → Prop
  | .block _ | .imported _ => True
  | .variable => ∃ block, arena.HasForm block (.block scope)
  | _ => False

/-- Whether no name was in use when a block, an import or a variable of a block was entered under
it: the symbols of the same name and scope, where it was not loaded, are later ones. -/
def Fresh (arena : Arena) : Prop :=
  ∀ ⦃id symbol other held⦄, arena.symbol id = .ok symbol → ¬ arena.Alien symbol.owner →
    arena.Guarded symbol.owner symbol.kind.form → arena.symbol other = .ok held →
    held.owner = symbol.owner →
      held.name = symbol.name → id.index ≤ other.index

/-- Whether the names of the first scopes stand for what they stood for, new symbols there have
names that stand for them, and names were free when blocks, imports and variables of blocks were
entered under them. -/
structure Keeps (arena : Arena) (fixed : Nat) (later : Arena) : Prop where
  name : ∀ {id name member}, id.index < fixed → arena.find? id name = .ok (some member) →
    later.find? id name = .ok (some member)
  new : ∀ {id symbol}, later.symbol id = .ok symbol → arena.symbols.size ≤ id.index →
    symbol.owner.index < fixed → symbol.owner.index < arena.scopes.size →
      later.find? symbol.owner symbol.name = .ok (some id)
  fresh : arena.Fresh → later.Fresh

/-- Whether a step leads from an arena to a lawful one, without new aliases and stubs. -/
structure Leads (terms : Terms) (arena later : Arena) : Prop where
  lawful : later.Lawful terms
  grown : arena.Grown later
  keeps : arena.Keeps terms.fixed later

variable {t : Terms} {a b latest : Arena}

/-! ## What is found again in later arenas -/

/-- A block owns its scope. -/
theorem Sound.block_owns {block : SymbolId} {s : ScopeId} (sound : a.Sound)
    (has : a.HasForm block (.block s)) : ∃ tb, a.scope s = .ok tb ∧ tb.owner = some block := by
  obtain ⟨sym, h, isBlock⟩ := has
  have opens : sym.kind.scope? = some s := by rw [← SymbolKind.scope?_form, isBlock]; rfl
  obtain ⟨tb, ht, owner, -⟩ := sound.opened h opens
  exact ⟨tb, ht, owner⟩

theorem Sound.root_inRange (sound : a.Sound) : a.root.index < a.scopes.size := by
  obtain ⟨tb, h, -⟩ := sound.root
  exact scope_inRange h

theorem exprType_eq_ok {id : ExprId} : a.exprType id = .ok type ↔ a.HasType id type := by
  unfold exprType HasType
  rw [bind_eq_ok]
  exact exists_congr fun expr => and_congr_right fun _ => ⟨Except.ok.inj, congrArg _⟩

theorem HasType.inRange {id : ExprId} (has : a.HasType id type) : id.index < a.exprs.size := by
  obtain ⟨expr, h, -⟩ := has
  exact expr_inRange h

theorem IsConstant.inRange {id : ExprId} (constant : a.IsConstant id) :
    id.index < a.exprs.size := by
  obtain ⟨expr, v, h, -⟩ := constant
  exact expr_inRange h

/-- An expression has one type. -/
theorem HasType.unique {id : ExprId} (one : a.HasType id first) (o : a.HasType id second) :
    first = second := by
  obtain ⟨expr, h, rfl⟩ := one
  obtain ⟨again, refound, rfl⟩ := o
  cases h.symm.trans refound
  rfl

theorem pastImport_eq_ok : a.pastImport id = .ok past ↔
    ∃ sym, a.symbol id = .ok sym ∧ past = sym.kind.form.past id := by
  unfold pastImport
  rw [bind_eq_ok]
  constructor
  · rintro ⟨kind, h, chosen⟩
    obtain ⟨sym, symbolFound, rfl⟩ := kind_eq_ok.1 h
    refine ⟨sym, symbolFound, ?_⟩
    cases named : sym.kind <;> rw [named] at chosen <;> exact (Except.ok.inj chosen).symm
  · rintro ⟨sym, h, rfl⟩
    refine ⟨sym.kind, kind_eq_ok.2 ⟨sym, h, rfl⟩, ?_⟩
    cases sym.kind <;> rfl

/-- A scope stays in its unit, as long as units stay what they are and scopes keep their owners. -/
theorem Belongs.kept (belongs : a.Belongs foreign scope) (root : b.root = a.root)
    (sym : ∀ {id sym}, a.symbol id = .ok sym → ∃ held, b.symbol id = .ok held ∧ sym.Continues held)
    (owner : ∀ {id tb outer}, a.scope id = .ok tb → tb.owner = some outer →
      ∃ held, b.scope id = .ok held ∧ held.owner = some outer) : b.Belongs foreign scope := by
  induction belongs with
  | unit h own held top same =>
    obtain ⟨tb, ht, stillOwned⟩ := owner h own
    obtain ⟨unit, unitFound, kept⟩ := sym held
    exact .unit ht stillOwned unitFound (kept.owner.trans (top.trans root.symm))
      (kept.foreign.trans same)
  | inner h own held _ ih =>
    obtain ⟨tb, ht, stillOwned⟩ := owner h own
    obtain ⟨unit, unitFound, kept⟩ := sym held
    exact .inner ht stillOwned unitFound (kept.owner ▸ ih)

theorem Own.kept (own : a.Own scope) (root : b.root = a.root)
    (sym : ∀ {id sym}, a.symbol id = .ok sym → ∃ held, b.symbol id = .ok held ∧ sym.Continues held)
    (owner : ∀ {id tb outer}, a.scope id = .ok tb → tb.owner = some outer →
      ∃ held, b.scope id = .ok held ∧ held.owner = some outer) : b.Own scope :=
  own.imp (·.trans root.symm) fun belongs => belongs.kept root sym owner

/-- What is nested in a native expression is native. -/
theorem Native.reached (native : a.Native first) (nested : a.Reaches first last) : a.Native last :=
  fun node more => native node (nested.trans more)

namespace Precedes

theorem refl (a : Arena) : a.Precedes a where
  root := rfl
  expr {_ expr} h := ⟨expr, h, .refl expr⟩
  reaches _ nested := .inl nested
  within nested := nested
  native _ native := native
  symbol {_ sym} h := ⟨sym, h, .refl sym⟩
  scope {_ tb} h := ⟨tb, h, rfl, fun _ => ⟨rfl, fun _ _ st _ => st⟩⟩

variable (pre : a.Precedes b)

include pre

theorem exprs_le : a.exprs.size ≤ b.exprs.size := by
  by_contra fewer
  have lt : b.exprs.size < a.exprs.size := by omega
  obtain ⟨expr, h⟩ := @exists_expr a ⟨b.exprs.size⟩ lt
  obtain ⟨held, foundLater, -⟩ := pre.expr h
  exact absurd (expr_inRange foundLater) (Nat.lt_irrefl _)

theorem symbols_le : a.symbols.size ≤ b.symbols.size := by
  by_contra fewer
  have lt : b.symbols.size < a.symbols.size := by omega
  obtain ⟨sym, h⟩ := @exists_symbol a ⟨b.symbols.size⟩ lt
  obtain ⟨held, foundLater, -⟩ := pre.symbol h
  exact absurd (symbol_inRange foundLater) (Nat.lt_irrefl _)

theorem scopes_le : a.scopes.size ≤ b.scopes.size := by
  by_contra fewer
  have lt : b.scopes.size < a.scopes.size := by omega
  obtain ⟨tb, h⟩ := @exists_scope a ⟨b.scopes.size⟩ lt
  obtain ⟨held, foundLater, -⟩ := pre.scope h
  exact absurd (scope_inRange foundLater) (Nat.lt_irrefl _)

/-- Expressions keep their types. -/
theorem hasType {id : ExprId} (has : a.HasType id type) : b.HasType id type := by
  obtain ⟨expr, h, rfl⟩ := has
  obtain ⟨held, foundLater, kept⟩ := pre.expr h
  exact ⟨held, foundLater, kept.type⟩

theorem isConstant {id : ExprId} (constant : a.IsConstant id) : b.IsConstant id := by
  obtain ⟨expr, v, h, literal⟩ := constant
  obtain ⟨held, foundLater, kept⟩ := pre.expr h
  exact ⟨held, v, foundLater, (kept.constant v literal).trans literal⟩

theorem isVar {id : ExprId} (reference : a.IsVar id) : b.IsVar id := by
  obtain ⟨expr, sym, h, refers⟩ := reference
  obtain ⟨held, foundLater, kept⟩ := pre.expr h
  exact ⟨held, sym, foundLater, (kept.var sym refers).trans refers⟩

/-- Symbols keep their forms. -/
theorem hasForm (has : a.HasForm id form) : b.HasForm id form := by
  obtain ⟨sym, h, formed⟩ := has
  obtain ⟨held, foundLater, kept⟩ := pre.symbol h
  exact ⟨held, foundLater, kept.form.trans formed⟩

theorem isTyped (typed : a.IsTyped id) : b.IsTyped id := by
  obtain ⟨sym, info, h, named, some⟩ := typed
  obtain ⟨held, foundLater, kept⟩ := pre.symbol h
  obtain ⟨new, stays⟩ := SymbolKind.form_eq_variable
    (kept.form.trans (congrArg SymbolKind.form named))
  have ordinary := kept.ordinary (by rw [named]; exact some)
  rw [stays] at ordinary
  exact ⟨held, new, foundLater, stays, ordinary⟩

theorem pastImport (st : a.pastImport id = .ok past) : b.pastImport id = .ok past := by
  obtain ⟨sym, h, rfl⟩ := pastImport_eq_ok.1 st
  obtain ⟨held, foundLater, kept⟩ := pre.symbol h
  exact pastImport_eq_ok.2 ⟨held, foundLater, by rw [kept.form]⟩

theorem has (has : a.Has id owner form) : b.Has id owner form := by
  obtain ⟨sym, h, own, formed⟩ := has
  obtain ⟨held, foundLater, kept⟩ := pre.symbol h
  exact ⟨held, foundLater, kept.owner.trans own, kept.form.trans formed⟩

theorem owner {id : ScopeId} (h : a.scope id = .ok tb) (own : tb.owner = some outer) :
    ∃ held, b.scope id = .ok held ∧ held.owner = some outer := by
  obtain ⟨held, hh, -, kept⟩ := pre.scope h
  exact ⟨held, hh, (kept (by rw [own]; exact nofun)).1.trans own⟩

theorem own (own : a.Own scope) : b.Own scope :=
  own.kept pre.root pre.symbol pre.owner

theorem alien (alien : a.Alien scope) : b.Alien scope :=
  Belongs.kept alien pre.root pre.symbol pre.owner

theorem isProcedure (procedure : a.IsProcedure id) : b.IsProcedure id := by
  obtain ⟨past, scope, st, has⟩ := procedure
  exact ⟨past, scope, pre.pastImport st, pre.hasForm has⟩

/-- What can be called stays callable. -/
theorem isCallable (callable : a.IsCallable id) : b.IsCallable id := by
  obtain ⟨function, scope, implemented, has⟩ := callable
  refine ⟨function, scope, ?_, pre.hasForm has⟩
  obtain ⟨past, st, rest⟩ := bind_eq_ok.1 implemented
  obtain ⟨kind, named, chosen⟩ := bind_eq_ok.1 rest
  obtain ⟨sym, h, rfl⟩ := kind_eq_ok.1 named
  obtain ⟨held, foundLater, kept⟩ := pre.symbol h
  refine bind_eq_ok.2 ⟨past, pre.pastImport st, bind_eq_ok.2
    ⟨held.kind, kind_eq_ok.2 ⟨held, foundLater, rfl⟩, ?_⟩⟩
  by_cases bound : ∃ info, sym.kind = .binding info
  · obtain ⟨info, isBinding⟩ := bound
    rw [kept.binding info isBinding]
    rw [isBinding] at chosen
    exact pre.pastImport chosen
  · -- what is not bound implements itself, before and after
    have same : function = past := by
      cases named : sym.kind with
      | binding info => exact absurd ⟨info, named⟩ bound
      | _ => rw [named] at chosen; exact (Except.ok.inj chosen).symm
    rw [same]
    cases renamed : held.kind with
    | binding info =>
      have form := kept.form
      rw [renamed] at form
      cases named : sym.kind with
      | binding info => exact absurd ⟨info, named⟩ bound
      | _ => rw [named] at form; cases form
    | _ => rfl

theorem isType (isType : a.IsType id) : b.IsType id := by
  obtain ⟨scope, parent, has⟩ := isType
  exact ⟨scope, parent, pre.hasForm has⟩

theorem namesType (names : a.NamesType id) : b.NamesType id := by
  obtain ⟨past, st, isType⟩ := names
  exact ⟨past, pre.pastImport st, pre.isType isType⟩

theorem lawfulType (ok : a.LawfulType t type) : b.LawfulType t type where
  flat := ok.flat
  exprs id mem := (ok.exprs id mem).trans_le pre.exprs_le
  symbols id mem := (ok.symbols id mem).imp (Nat.lt_of_lt_of_le · pre.symbols_le)
    (Or.imp_right pre.namesType)
  supported := ok.supported

theorem lawfulForm {kind : ExprKind} (ok : a.LawfulForm type kind) : b.LawfulForm type kind := by
  revert ok
  unfold LawfulForm
  split
  · exact fun lt => lt.trans_le pre.symbols_le
  iterate 3
    · rintro ⟨leftType, rightType, left, right, rest⟩
      exact ⟨leftType, rightType, pre.hasType left, pre.hasType right, rest⟩
  · rintro ⟨source, arg, rest⟩
    exact ⟨source, pre.hasType arg, rest⟩
  · rintro ⟨types, args, fits⟩
    exact ⟨types, args.imp fun _ _ => pre.hasType, fits⟩
  · exact id

theorem lawfulExpr {expr : Expr} (ok : a.LawfulExpr t expr) : b.LawfulExpr t expr where
  children child mem := (ok.children child mem).trans_le pre.exprs_le
  type := pre.lawfulType ok.type
  value id mem := pre.isConstant (ok.value id mem)
  form := pre.lawfulForm ok.form

theorem elementsEqual (equal : a.elementsEqual left right = .ok ans) :
    b.elementsEqual left right = .ok ans := by
  have same {first second : SymbolId} (same : a.sameDefinition first second = .ok ans) :
      b.sameDefinition first second = .ok ans := by
    obtain ⟨past, st, rest⟩ := bind_eq_ok.1 same
    obtain ⟨o, standsToo, rest⟩ := bind_eq_ok.1 rest
    exact bind_eq_ok.2 ⟨past, pre.pastImport st, bind_eq_ok.2 ⟨o, pre.pastImport standsToo, rest⟩⟩
  revert equal
  unfold Arena.elementsEqual
  split <;> first | exact id | exact same

theorem parentType? (same : again.parent = info.parent) (q : a.parentType? info = .ok ans) :
    b.parentType? again = .ok ans := by
  unfold Arena.parentType? at q ⊢
  rw [same]
  cases extended : info.parent with
  | none => rwa [extended] at q
  | some outer =>
    rw [extended] at q
    change some <$> a.pastImport outer = _ at q
    change some <$> b.pastImport outer = _
    cases st : a.pastImport outer with
    | error breach => rw [st] at q; cases q
    | ok past => rwa [pre.pastImport st, ← st]

/-- A derived type keeps its ancestors. -/
theorem extendsWithin {ancestor type : SymbolId} {fuel more : Nat} (enough : fuel ≤ more)
    (h : a.extendsWithin ancestor fuel type = .ok true) :
    b.extendsWithin ancestor more type = .ok true := by
  induction fuel generalizing more type with
  | zero => cases h
  | succ fuel ih =>
    obtain ⟨more, rfl⟩ := Nat.exists_eq_add_of_le' enough
    change b.extendsWithin ancestor (more + fuel + 1) type = _
    unfold Arena.extendsWithin at h ⊢
    split at h
    · rw [if_pos ‹_›]
      rfl
    · rw [if_neg ‹_›]
      obtain ⟨kind, known, chosen⟩ := bind_eq_ok.1 h
      obtain ⟨sym, symbolFound, rfl⟩ := kind_eq_ok.1 known
      obtain ⟨held, hh, kept⟩ := pre.symbol symbolFound
      refine bind_eq_ok.2 ⟨_, kind_eq_ok.2 ⟨held, hh, rfl⟩, ?_⟩
      have form := kept.form
      cases named : sym.kind with
      | derivedType info =>
        rw [named] at chosen form
        obtain ⟨again, isAgain, parent⟩ : ∃ again, held.kind = .derivedType again ∧
          again.parent = info.parent := by
          cases isAgain : held.kind with
          | derivedType again =>
            rw [isAgain] at form
            exact ⟨again, rfl, (SymbolForm.derivedType.inj form).2⟩
          | _ => rw [isAgain] at form; cases form
        obtain ⟨ans, q, chosen⟩ := bind_eq_ok.1 chosen
        rw [isAgain]
        refine bind_eq_ok.2 ⟨ans, pre.parentType? parent q, ?_⟩
        cases ans with
        | none => cases chosen
        | some outer => exact ih (Nat.le_add_left fuel more) chosen
      | _ =>
        rw [named] at chosen
        cases chosen

/-- What may be passed to a dummy argument still may. -/
theorem argumentCompatible (accepted : a.argumentCompatible formal actual = .ok true) :
    b.argumentCompatible formal actual = .ok true := by
  have isExtension {child ancestor : SymbolId}
      (extended : a.isExtension child ancestor = .ok true) :
      b.isExtension child ancestor = .ok true := by
    obtain ⟨last, st, rest⟩ := bind_eq_ok.1 extended
    obtain ⟨first, standsToo, searched⟩ := bind_eq_ok.1 rest
    exact bind_eq_ok.2 ⟨last, pre.pastImport st, bind_eq_ok.2 ⟨first, pre.pastImport standsToo,
      pre.extendsWithin (Nat.succ_le_succ pre.symbols_le) searched⟩⟩
  revert accepted
  unfold Arena.argumentCompatible
  split
  · split
    · exact isExtension
    · exact isExtension
    · exact pre.elementsEqual
  · exact id

theorem typed (typed : a.Typed demand) : b.Typed demand := by
  cases demand with
  | assigned target v =>
    obtain ⟨targetType, type, hasTarget, has, rank, takes⟩ := typed
    exact ⟨targetType, type, pre.hasType hasTarget, pre.hasType has, rank,
      takes.imp_right (Or.imp_right pre.argumentCompatible)⟩
  | condition id =>
    obtain ⟨type, has, rest⟩ := typed
    exact ⟨type, pre.hasType has, rest⟩
  | counter id =>
    obtain ⟨isVar, type, has, rest⟩ := typed
    exact ⟨pre.isVar isVar, type, pre.hasType has, rest⟩
  | bound counter id =>
    obtain ⟨counterType, type, hasCounter, has, rest⟩ := typed
    exact ⟨counterType, type, pre.hasType hasCounter, pre.hasType has, rest⟩

/-- Targets and values stay apart, as no operands are nested anew. -/
theorem separate {target v : ExprId} (targetInRange : target.index < a.exprs.size)
    (valueInRange : v.index < a.exprs.size) (apart : a.Separate target v) :
    b.Separate target v := by
  intro expr h isCall nested
  obtain ⟨old, oldFound⟩ := exists_expr valueInRange
  obtain ⟨held, hh, kept⟩ := pre.expr oldFound
  cases h.symm.trans hh
  have same := kept.arrayCall isCall
  rcases pre.reaches targetInRange nested with earlier | ⟨again, sym, refound, refers⟩
  · exact apart old oldFound (same ▸ isCall) earlier
  · cases h.symm.trans refound
    rw [refers] at isCall
    cases isCall

end Precedes

end Arena

namespace Stmt

mutual

/-- The target and the value of an assignment are expressions of the statement. -/
theorem mem_exprs_of_assigned : ∀ (stmt : Stmt) {target v : ExprId},
    .assigned target v ∈ demands stmt → target ∈ exprs stmt ∧ v ∈ exprs stmt
  | .assignment _ _, _, _, mem => by
    cases mem_singleton.1 mem
    exact ⟨.head _, .tail _ (.head _)⟩
  | .branch cond body orelse, _, _, mem => by
    simp only [demands, mem_cons, reduceCtorEq, mem_append, false_or] at mem
    rcases mem with inBody | inOrelse
    · have h := mem_exprsOf_of_assigned body inBody
      exact ⟨.tail _ (mem_append_left _ h.1), .tail _ (mem_append_left _ h.2)⟩
    · have h := mem_exprsOf_of_assigned orelse inOrelse
      exact ⟨.tail _ (mem_append_right _ h.1), .tail _ (mem_append_right _ h.2)⟩
  | .loop var start last step body, _, _, mem => by
    have h := mem_exprsOf_of_assigned body (by simpa [demands] using mem)
    exact ⟨mem_append_right _ h.1, mem_append_right _ h.2⟩
  | .loopWhile cond body, _, _, mem => by
    have h := mem_exprsOf_of_assigned body (by simpa [demands] using mem)
    exact ⟨.tail _ h.1, .tail _ h.2⟩

theorem mem_exprsOf_of_assigned : ∀ (body : List Stmt) {target v : ExprId},
    .assigned target v ∈ demandsOf body → target ∈ exprsOf body ∧ v ∈ exprsOf body
  | first :: rest, _, _, mem => by
    rcases mem_append.1 mem with here | b
    · have h := mem_exprs_of_assigned first here
      exact ⟨mem_append_left _ h.1, mem_append_left _ h.2⟩
    · have h := mem_exprsOf_of_assigned rest b
      exact ⟨mem_append_right _ h.1, mem_append_right _ h.2⟩

end

end Stmt

namespace Arena

variable {t : Terms} {a b latest : Arena}

namespace Precedes

variable (pre : a.Precedes b)

include pre

/-- What statements refer to stays there. -/
theorem lawfulBody {owner : ScopeId} {body : List Stmt} (ok : a.LawfulBody t owner scope body) :
    b.LawfulBody t owner scope body where
  exprs id mem := (ok.exprs id mem).trans_le pre.exprs_le
  separate target v mem := by
    have members := Stmt.mem_exprsOf_of_assigned body mem
    exact pre.separate (ok.exprs _ members.1) (ok.exprs _ members.2) (ok.separate target v mem)
  typed demand mem := (ok.typed demand mem).imp_right pre.typed
  blocks block mem := (ok.blocks block mem).imp fun _ => pre.has
  side := by
    refine ok.side.imp_right (Or.imp pre.alien fun ⟨own, native⟩ => ⟨pre.own own, ?_⟩)
    exact fun expr mem => pre.native (ok.exprs expr mem) (native expr mem)

theorem lawfulVariable (ok : a.LawfulVariable t info) : b.LawfulVariable t info where
  type type mem := pre.lawfulType (ok.type type mem)
  typed := ok.typed
  init id mem := (ok.init id mem).trans_le pre.exprs_le
  value id mem := pre.isConstant (ok.value id mem)
  aliased id mem := (ok.aliased id mem).trans_le pre.exprs_le

/-- What a symbol refers to stays there. -/
theorem lawfulKind {owner : ScopeId} (ok : a.LawfulKind t owner kind) :
    b.LawfulKind t owner kind := by
  cases kind with
  | «variable» info => exact pre.lawfulVariable ok
  | function info | program info | block info => exact pre.lawfulBody ok
  | generic info =>
    intro proc mem
    have known := ok proc mem
    exact ⟨known.1.trans_le pre.symbols_le, known.2.imp_right pre.isCallable⟩
  | binding info =>
    exact ⟨ok.1.trans_le pre.symbols_le, ok.2.imp_right pre.isProcedure⟩
  | derivedType info =>
    intro n mem
    obtain ⟨tb, member, h, own, st, typed⟩ := ok n mem
    obtain ⟨held, foundLater, -, kept⟩ := pre.scope h
    obtain ⟨owner, kept⟩ := kept own
    exact ⟨held, member, foundLater, owner ▸ own, kept n member st typed, pre.isTyped typed⟩
  | moduleUnit info => exact ok.trans pre.root.symm
  | imported info => trivial

/-- What comes before an arena comes before those that it comes before. -/
theorem trans (more : b.Precedes latest) : a.Precedes latest where
  root := more.root.trans pre.root
  expr h := by
    obtain ⟨mid, foundMiddle, first⟩ := pre.expr h
    obtain ⟨held, foundLast, second⟩ := more.expr foundMiddle
    refine ⟨held, foundLast, second.type.trans first.type, second.value.trans first.value,
      second.span.trans first.span, fun v literal => ?_, fun sym refers => ?_, fun isCall => ?_⟩
    · have same := first.constant v literal
      exact (second.constant v (same.trans literal)).trans same
    · have same := first.var sym refers
      exact (second.var sym (same.trans refers)).trans same
    · have same := second.arrayCall isCall
      exact same.trans (first.arrayCall (same ▸ isCall))
  reaches lt nested := by
    rcases more.reaches (lt.trans_le pre.exprs_le) nested with earlier | reference
    · exact (pre.reaches lt earlier).imp_right more.isVar
    · exact .inr reference
  within nested := more.within (pre.within nested)
  native lt native :=
    more.native (lt.trans_le pre.exprs_le) (pre.native lt native)
  symbol h := by
    obtain ⟨mid, foundMiddle, first⟩ := pre.symbol h
    obtain ⟨held, foundLast, second⟩ := more.symbol foundMiddle
    exact ⟨held, foundLast, second.name.trans first.name, second.owner.trans first.owner,
      second.form.trans first.form, fun ordinary => second.ordinary (first.ordinary ordinary),
      second.foreign.trans first.foreign, fun info bound => second.binding info
      (first.binding info bound)⟩
  scope h := by
    obtain ⟨mid, foundMiddle, parent, first⟩ := pre.scope h
    obtain ⟨held, foundLast, parentLast, second⟩ := more.scope foundMiddle
    refine ⟨held, foundLast, parentLast.trans parent, fun own => ?_⟩
    obtain ⟨owner, first⟩ := first own
    obtain ⟨ownerLast, second⟩ := second (owner ▸ own)
    refine ⟨ownerLast.trans owner, fun n mem st typed => ?_⟩
    exact second n mem (first n mem st typed) (pre.isTyped typed)

end Precedes

theorem Precedes.grown (pre : a.Precedes b) (same : b.symbols = a.symbols) : a.Grown b where
  toPrecedes := pre
  ordinary {_ sym} h special := by
    unfold Arena.symbol at h
    rw [same] at h
    exact .inr ⟨sym, h, special⟩

theorem Grown.refl (a : Arena) : a.Grown a :=
  (Precedes.refl a).grown rfl

theorem Grown.trans (grown : a.Grown b) (more : b.Grown latest) : a.Grown latest where
  toPrecedes := grown.toPrecedes.trans more.toPrecedes
  ordinary h special := by
    rcases more.ordinary h special with new | ⟨old, oldFound, oldSpecial⟩
    · exact .inl (grown.toPrecedes.scopes_le.trans new)
    · obtain ⟨held, hh, kept⟩ := more.symbol oldFound
      cases h.symm.trans hh
      rw [kept.owner]
      exact grown.ordinary oldFound oldSpecial

/-- Old names stay fresh; those of new symbols have to be, and new blocks have to open scopes
without symbols. -/
theorem Precedes.fresh (pre : a.Precedes b)
    (vacant : ∀ {block scope id sym}, b.HasForm block (.block scope) →
      a.symbols.size ≤ block.index → a.symbol id = .ok sym → sym.owner ≠ scope)
    (new : ∀ {id sym other held}, b.symbol id = .ok sym → a.symbols.size ≤ id.index →
      ¬ b.Alien sym.owner →
      b.Guarded sym.owner sym.kind.form → b.symbol other = .ok held → other.index < id.index →
        held.owner = sym.owner → held.name ≠ sym.name)
    (fresh : a.Fresh) : b.Fresh := by
  intro id sym other held h native guarded hh sameOwner sameName
  by_contra lt
  have lt := Nat.lt_of_not_le lt
  by_cases isNew : a.symbols.size ≤ id.index
  · exact new h isNew native guarded hh lt sameOwner sameName
  · have isOld := Nat.lt_of_not_le isNew
    obtain ⟨old, oldFound⟩ := exists_symbol isOld
    obtain ⟨_, refound, kept⟩ := pre.symbol oldFound
    cases h.symm.trans refound
    obtain ⟨first, firstFound⟩ := exists_symbol (lt.trans isOld)
    obtain ⟨_, refound, firstKept⟩ := pre.symbol firstFound
    cases hh.symm.trans refound
    rw [kept.owner] at native guarded sameOwner
    refine absurd (fresh oldFound (mt pre.alien native) ?_ firstFound
      (firstKept.owner.symm.trans sameOwner)
      (firstKept.name.symm.trans (sameName.trans kept.name))) (Nat.not_le.2 lt)
    rw [kept.form] at guarded
    cases form : old.kind.form with
    | «variable» =>
      rw [form] at guarded
      obtain ⟨block, has⟩ := guarded
      by_cases isNew : a.symbols.size ≤ block.index
      · exact absurd rfl (vacant has isNew oldFound)
      · obtain ⟨opener, found⟩ := exists_symbol (Nat.lt_of_not_le isNew)
        obtain ⟨_, refound, opens⟩ := pre.symbol found
        obtain ⟨_, again, isBlock⟩ := has
        cases again.symm.trans refound
        exact ⟨block, opener, found, opens.form.symm.trans isBlock⟩
    | _ => rwa [form] at guarded

theorem Keeps.ofSymbols (pre : a.Precedes b)
    (name : ∀ {id name member}, id.index < fixed → a.find? id name = .ok (some member) →
      b.find? id name = .ok (some member))
    (same : b.symbols.size = a.symbols.size) : a.Keeps fixed b where
  name := name
  new h isNew := absurd (same ▸ symbol_inRange h) isNew.not_gt
  fresh := pre.fresh (fun ⟨_, h, _⟩ isNew => absurd (same ▸ symbol_inRange h) isNew.not_gt)
    fun h isNew => absurd (same ▸ symbol_inRange h) isNew.not_gt

theorem Lawful.leads (ok : a.Lawful t) : a.Leads t a :=
  ⟨ok, .refl a, .ofSymbols (.refl a) (fun _ st => st) rfl⟩

/-- Names stay what they are over any number of steps. -/
theorem Keeps.trans (kept : a.Keeps fixed b) (size : a.scopes.size ≤ b.scopes.size)
    (pre : b.Precedes latest) (more : b.Keeps fixed latest) : a.Keeps fixed latest where
  name lt st := more.name lt (kept.name lt st)
  new {id _} h isNew lt old := by
    by_cases newer : b.symbols.size ≤ id.index
    · exact more.new h newer lt (old.trans_le size)
    · obtain ⟨sym, first⟩ := exists_symbol (Nat.lt_of_not_le newer)
      obtain ⟨held, hh, same⟩ := pre.symbol first
      cases h.symm.trans hh
      rw [same.owner] at lt old ⊢
      rw [same.name]
      exact more.name lt (kept.new first isNew lt old)
  fresh := more.fresh ∘ kept.fresh

instance : Progress (Arena.Leads t) where
  trans first second := ⟨second.lawful, first.grown.trans second.grown,
    first.keeps.trans first.grown.scopes_le second.grown.toPrecedes second.keeps⟩
  arrive led := led.lawful.leads

end Arena

end FortranSemantics
