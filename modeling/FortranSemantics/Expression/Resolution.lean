import FortranSemantics.Expression.Literal
import FortranSemantics.Expression.Operator

/-!
# Resolution of expressions

Turns an expression of the syntax tree into nodes of the arena, operands first.
-/

namespace FortranSemantics.Expression

/-! ## Names and components -/

open Edit

variable (env : Environment)

/-- Declares an undeclared name with its implicit type. -/
def implicitVariable (name : String) (span : Span) (scope : ScopeId) : Edit ExprId := do
  match ← ask fun arena => env.implicitType? arena scope name with
  | none => reject (.undeclaredVariable name) span
  | some type =>
    let symbol ← addSymbol name scope (.variable (.ofType type))
    declare scope name symbol span
    addVar symbol type span

/-- A name as a value. An associate name stands for a fresh copy of its designator, and a parameter
carries its value. -/
def nameValue (name : String) (span : Span) (scope : ScopeId) : Edit ExprId := do
  let name := Text.lowercase name
  match ← ask (·.lookup scope name) with
  | none => implicitVariable env name span scope
  | some symbol =>
    match ← ask (·.target symbol) with
    | .variable info =>
      match info.type, info.aliasOf with
      | none, some designator => copy designator
      | none, none => broken (.untypedVariable name)
      | some type, _ =>
        let value := if info.storage = .parameter then info.value else none
        addExpr (.var symbol) type value span
    | .function _ | .generic _ => reject (.procedureAsValue name) span
    | _ => reject (.undeclaredVariable name) span

/-- A component of a value of a derived type. -/
def component (base : ExprId) (type : Ty) (member : String) (span : Span) : Edit ExprId := do
  match type.derivedSymbol? with
  | none => reject (.memberOfType member (← typeName type)) span
  | some derived =>
    let symbol ← resolveMember derived member span
    match ← ask (·.variableType? symbol) with
    | none => reject (.bindingAsComponent member) span
    | some memberType =>
      let resultType :=
        if type.isArray && memberType.isScalar then type.withElement memberType else memberType
      addExpr (.component base symbol) resultType none span

/-- A member of a value: a component, or the real or imaginary part of a complex number. -/
def memberValue (span : Span) (scope : ScopeId) (base : ExprId)
    (member : String) : Edit ExprId := do
  let member := Text.lowercase member
  let type ← typeOf base
  if type.isComplex && member == "re" then
    Conversion.insertCast base (.real (type.kind?.getD 4)) span
  else if type.isComplex && member == "im" then
    callIntrinsic env "aimag" [.positional base span] span scope
  else component base type member span

def memberChain (base : String) (members : List String) (span : Span)
    (scope : ScopeId) : Edit ExprId := do
  let start ← nameValue env base span scope
  members.foldlM (memberValue env span scope) start

/-- A name with the components that follow it. -/
def designator (parts : List String) (span : Span) (scope : ScopeId) : Edit ExprId :=
  match parts with
  | [] => broken .emptyDesignator
  | base :: members => memberChain env base members span scope

/-! ## Expressions -/

open Edit

def binary (env : Environment) (op : Tree.BinaryOperator) (left right : ExprId) (span : Span)
    (scope : ScopeId) : Edit ExprId :=
  match op with
  | .add => arithmetic env .add left right span scope
  | .sub => arithmetic env .sub left right span scope
  | .mul => arithmetic env .mul left right span scope
  | .div => arithmetic env .div left right span scope
  | .pow => arithmetic env .pow left right span scope
  | .eq => comparison env .eq left right span scope
  | .ne => comparison env .notEq left right span scope
  | .lt => comparison env .lt left right span scope
  | .le => comparison env .ltE left right span scope
  | .gt => comparison env .gt left right span scope
  | .ge => comparison env .gtE left right span scope
  | .and => logical env .and left right span scope
  | .or => logical env .or left right span scope
  | .eqv => logical env .eqv left right span scope
  | .neqv => logical env .neqv left right span scope
  | .concat => concatenation env left right span scope

/-- The common element type of the items of an array constructor. -/
def commonItemType (span : Span) (element : Ty) (item : ExprId) : Edit Ty := do
  let type ← typeOf item
  match Conversion.common? .arithmetic element type with
  | some (common, _) => return common
  | none =>
    if ← ask (·.elementsEqual element type) then return element
    if element.isCharacter && type.isCharacter then return element
    reject (.mixedArray (← typeName element) (← typeName type)) span

/-- An array constructor over resolved items. -/
def arrayConstructor (items : List ExprId) (span : Span) : Edit ExprId := do
  match items with
  | [] => reject .emptyArray span
  | first :: rest =>
    let element ← rest.foldlM (commonItemType span) (← typeOf first)
    let values ←
      if element.isCharacter then pure items
      else items.mapM fun item => Conversion.insertCast item element span
    let start ← addInteger 1 span
    let length ← addInteger values.length span
    let type := Ty.shaped element [{ start := some start, length := some length }]
    let constants ← ask fun arena => values.mapM arena.constant?
    let folded := (constants.mapM fun constant => constant).map Constant.array
    let value ← addConstant? folded type span
    addExpr (.arrayConstructor values) type value span

mutual

/-- Resolves an expression in a scope. -/
def resolve (env : Environment) (scope : ScopeId) : Tree.Expr → Edit ExprId
  | ⟨kind, span⟩ => resolveKind env scope span kind

def resolveKind (env : Environment) (scope : ScopeId) (span : Span) : Tree.ExprKind → Edit ExprId
  | .int text => integerLiteral text scope span
  | .real text => realLiteral text scope span
  | .complex re im => do
    let re ← resolve env scope re
    let im ← resolve env scope im
    complexConstant re im span
  | .text value => addConstant (.text value) (.string (some value.length)) span
  | .logical value => addConstant (.logical value) (.logical 4) span
  | .name name => nameValue env name span scope
  | .member base members => memberChain env base members span scope
  | .call [] name args => do
    let args ← resolveArgs env scope args
    callName env (Text.lowercase name) args span scope
  | .call receiver name args => do
    let base ← designator env receiver span scope
    let args ← resolveArgs env scope args
    let call ← bindTypeBoundCall env base name args span
    functionCall call span
  | .binary op left right => do
    let left ← resolve env scope left
    let right ← resolve env scope right
    binary env op left right span scope
  | .unary op operand => do
    let operand ← resolve env scope operand
    match op with
    | .plus => return operand
    | .neg => unary env .minus operand span scope
    | .not => unary env .not operand span scope
  | .definedBinary op left right => do
    let left ← resolve env scope left
    let right ← resolve env scope right
    definedOperator env op [left, right] span scope
  | .definedUnary op operand => do
    let operand ← resolve env scope operand
    definedOperator env op [operand] span scope
  | .paren inner => resolve env scope inner
  | .array items => do
    let items ← resolveItems env scope items
    arrayConstructor items span

/-- Resolves the items of an array constructor, which are scalars. -/
def resolveItems (env : Environment) (scope : ScopeId) : List Tree.Expr → Edit (List ExprId)
  | [] => return []
  | item :: rest => do
    let id ← resolve env scope item
    if (← typeOf id).isArray then reject .nestedArray item.span
    return id :: (← resolveItems env scope rest)

def resolveArgs (env : Environment) (scope : ScopeId) : List Tree.Arg → Edit (List ActualArgument)
  | [] => return []
  | arg :: rest => do
    let first ← resolveArg env scope arg
    return first :: (← resolveArgs env scope rest)

def resolveArg (env : Environment) (scope : ScopeId) : Tree.Arg → Edit ActualArgument
  | ⟨keyword, value⟩ => do
    let id ← resolve env scope value
    return { keyword := keyword.map Text.lowercase, value := id, span := value.span }

end

/-! ## Declared types -/

variable (env : Environment)

/-- The value of an expression that must be a constant integer. -/
def constantInteger (tree : Tree.Expr) (what : String) (scope : ScopeId) : Edit Int := do
  let id ← resolve env scope tree
  match ← Edit.ask (·.integer? id) with
  | some value => return value
  | none => reject (.notConstantInteger what) tree.span

def selectedKind (selector : Option Tree.Expr) (category : TypeCategory)
    (absent : Int) (span : Span) (scope : ScopeId) : Edit Nat := do
  let kind ←
    match selector with
    | some tree => constantInteger env tree "Kind selector" scope
    | none => pure absent
  checkKind category kind span

/-- A character length: its value when it is known, otherwise the expression that gives it. -/
def declaredLength (length : Option Tree.CharLength) (span : Span)
    (scope : ScopeId) : Edit (Option Int × Option ExprId) := do
  match length with
  | none => return (some 1, none)
  | some .assumed | some .deferred => return (none, none)
  | some (.expr tree) =>
    let id ← resolve env scope tree
    if !(← Edit.typeOf id).isInteger then reject .characterLength span
    match ← Edit.ask (·.integer? id) with
    | some value => return (some (max value 0), none)
    | none => return (none, some id)

def derivedType (name : String) (span : Span) (scope : ScopeId) : Edit SymbolId := do
  let name := Text.lowercase name
  match ← Edit.ask (·.lookup scope name) with
  | none => reject (.undeclaredType name) span
  | some symbol =>
    match ← Edit.ask (·.target symbol) with
    | .derivedType _ => return symbol
    | _ => reject (.notDerivedType name) span

/-- The type that a declaration gives, without dimensions. -/
def declaredType (spec : Tree.TypeSpec) (span : Span) (scope : ScopeId) : Edit Ty := do
  match spec with
  | .integer kind => .integer <$> selectedKind env kind .integer 4 span scope
  | .real kind => .real <$> selectedKind env kind .real 4 span scope
  | .doublePrecision => return .real 8
  | .complex kind => .complex <$> selectedKind env kind .complex 4 span scope
  | .logical kind => .logical <$> selectedKind env kind .logical 4 span scope
  | .character length kind =>
    let kind ← selectedKind env kind .character 1 span scope
    let (length, lengthExpr) ← declaredLength env length span scope
    return .character kind length lengthExpr
  | .derived name => .derived <$> derivedType name span scope
  | .polymorphic name =>
    if name = "*" then reject .unlimitedPolymorphism span
    .polymorphic <$> derivedType name span scope

end FortranSemantics.Expression
