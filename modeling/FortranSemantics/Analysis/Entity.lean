import FortranSemantics.Analysis.Basic

/-!
# Declarations of variables

Type declarations and attribute statements. A declaration collects its attributes first; each of its
entities then becomes a variable.
-/

namespace FortranSemantics

/-- An access statement, which is carried out when everything of its scope is declared. -/
structure AccessRequest where
  name : String
  access : Access
  span : Span

/-- The attributes of a type declaration; of several of one sort the last counts. -/
structure DeclAttributes where
  parameter : Bool := false
  allocatable : Bool := false
  pointer : Bool := false
  target : Bool := false
  optional : Bool := false
  save : Bool := false
  access : Option Access := none
  intent : Option Tree.Intent := none
  dims : Option (List Tree.DimSpec) := none

namespace DeclAttributes

def add (attributes : DeclAttributes) : Tree.Attribute → DeclAttributes
  | .parameter => { attributes with parameter := true }
  | .allocatable => { attributes with allocatable := true }
  | .pointer => { attributes with pointer := true }
  | .target => { attributes with target := true }
  | .optional => { attributes with optional := true }
  | .save => { attributes with save := true }
  | .publicAccess => { attributes with access := some .publicAccess }
  | .privateAccess => { attributes with access := some .privateAccess }
  | .intent direction => { attributes with intent := some direction }
  | .dimension dims => { attributes with dims := some dims }

def ofList (attributes : List Tree.Attribute) : DeclAttributes :=
  attributes.foldl add {}

/-- The type of an entity with the given shape. -/
def wrap (attributes : DeclAttributes) (type : Ty) : Ty :=
  if attributes.allocatable then .allocatable type
  else if attributes.pointer then .pointer type
  else type

end DeclAttributes

/-- The intent that a declared direction gives. -/
def Intent.ofDirection : Tree.Intent → Intent
  | .into => .into
  | .out => .out
  | .inout => .inout

/-- The variable of the given type and attributes, before its initializer. -/
def Variable.ofAttributes (attributes : DeclAttributes) (type : Ty) : Variable :=
  let base := Variable.ofType type
  { base with
    target := attributes.target
    presence := if attributes.optional then .optional else base.presence
    storage := if attributes.save && !attributes.parameter then .save else base.storage
    intent := (attributes.intent.map Intent.ofDirection).getD base.intent
    access := attributes.access.getD base.access }

namespace Analysis

/-! ## Bounds -/

variable (setup : Setup) (scope : ScopeId)

def bound (tree : Tree.Expr) : Analysis ExprId := do
  let id ← expression setup scope tree
  let type ← Edit.typeOf id
  if !type.isInteger || !type.isScalar then reject .boundNotInteger tree.span
  return id

/-- The number of elements between two bounds. -/
def extent (start upper : ExprId) (span : Span) : Analysis ExprId := do
  if (← Edit.ask (·.integer? start)) = some 1 then return upper
  let env ← environment setup
  let start ← Edit.copy start
  let difference ← Expression.arithmetic env .sub upper start span scope
  let one ← Edit.addInteger 1 span
  Expression.arithmetic env .add difference one span scope

/-- One dimension. A missing lower bound is 1 when there is an upper bound. -/
def dimension (spec : Tree.DimSpec) : Analysis Dimension := do
  let span := ((spec.upper <|> spec.lower).map (·.span)).getD ⟨0, 0⟩
  match spec.lower, spec.upper with
  | none, none => return { start := none, length := none }
  | some lower, none => return { start := some (← bound setup scope lower), length := none }
  | none, some upper =>
    let start ← Edit.addInteger 1 span
    let upper ← bound setup scope upper
    return { start := some start, length := some (← extent setup scope start upper span) }
  | some lower, some upper =>
    let start ← bound setup scope lower
    let upper ← bound setup scope upper
    return { start := some start, length := some (← extent setup scope start upper span) }

def dimensions (specs : List Tree.DimSpec) : Analysis (List Dimension) :=
  specs.mapM (dimension setup scope)

/-! ## Type declarations -/

/-- The bounds of an entity: its own or those of the declaration. -/
def entityDims (attributes : DeclAttributes) (entity : Tree.Entity) :
    Analysis (List Tree.DimSpec) := do
  match attributes.dims with
  | none => return entity.dims
  | some dims =>
    if !entity.dims.isEmpty then
      reject (.dimensionsTwice (Text.lowercase entity.name)) entity.span
    return dims

/-- The type of a character parameter of assumed length, which takes its length from the value. -/
def assumedLength (type value : Ty) : Ty :=
  match type, value with
  | .character kind none none, .character _ (some length) _ => .character kind (some length) none
  | _, _ => type

def initParameter (name : String) (info : Variable) (type : Ty)
    (init : Tree.Expr) : Analysis Variable := do
  let value ← expression setup scope init
  let type := assumedLength type (← Edit.typeOf value)
  let (value, _) ← Conversion.forAssignment value type init.span
  match ← Edit.ask (·.constant? value) with
  | none => reject (.parameterNotConstant name) init.span
  | some constant =>
    let folded ← Edit.addConstant constant type init.span
    return {
      info with type := some type, storage := .parameter, value := some folded, init := some value }

/-- A variable with its initial value; outside derived types that makes it last. -/
def initVariable (component : Bool) (name : String)
    (info : Variable) (type : Ty) (init : Tree.Expr) : Analysis Variable := do
  let value ← expression setup scope init
  let (value, _) ← Conversion.forAssignment value type init.span
  if (← Edit.ask (·.constant? value)).isNone then
    reject (.initializerNotConstant name) init.span
  return {
    info with storage := if component then info.storage else .save, init := some value }

/-- Declares an entity and gives its name. -/
def declareEntity (component : Bool) (attributes : DeclAttributes)
    (base : Ty) (entity : Tree.Entity) : Analysis String := do
  let name := Text.lowercase entity.name
  let specs ← entityDims attributes entity
  let dims ← dimensions setup scope specs
  let type := attributes.wrap (.shaped base dims)
  let info := Variable.ofAttributes attributes type
  let info ←
    match entity.init, attributes.parameter with
    | some init, true => initParameter setup scope name info type init
    | some init, false => initVariable setup scope component name info type init
    | none, true => reject (.parameterWithoutValue name) entity.span
    | none, false => pure info
  discard <| declareVariable scope name info entity.span
  return name

/-- The access requests that a type declaration makes for its entities. -/
def accessRequests (decl : Tree.VarDecl) : List AccessRequest :=
  match (DeclAttributes.ofList decl.attributes).access with
  | none => []
  | some access =>
    decl.entities.map fun entity =>
      { name := Text.lowercase entity.name, access, span := entity.span }

/-- Declares the entities of a type declaration and gives their names. -/
def declareEntities (component : Bool) (decl : Tree.VarDecl) : Analysis (List String) := do
  let base ← declaredType setup decl.typeSpec decl.span scope
  let attributes := DeclAttributes.ofList decl.attributes
  if attributes.allocatable && attributes.pointer then reject .allocatablePointer decl.span
  decl.entities.mapM (declareEntity setup scope component attributes base)

/-! ## Attribute statements -/

/-- The symbol that an attribute statement is about; an undeclared one is declared by implicit
typing. -/
def attributeSubject (name : String) (span : Span) : Analysis SymbolId := do
  match ← Edit.ask (·.find? scope name) with
  | some symbol => return symbol
  | none =>
    match ← implicitType? setup scope name with
    | none => reject (.undeclaredVariable name) span
    | some type => declareVariable scope name (.ofType type) span

/-- The declared type of a variable that is not an alias. -/
def typeOfDeclared (name : String) (info : Variable) : Analysis Ty :=
  match info.type with
  | some type => return type
  | none => broken (.untypedDeclaration name)

/-- The variable with an attribute; dimensions are already resolved. -/
def withAttribute (name : String) (info : Variable) (attrSpec : Tree.Attribute)
    (dims : List Dimension) (span : Span) : Analysis Variable := do
  match attrSpec with
  | .optional => return { info with presence := .optional }
  | .target => return { info with target := true }
  | .save => return { info with storage := .save }
  | .intent direction => return { info with intent := .ofDirection direction }
  | .allocatable => return { info with type := some (.allocatable (← typeOfDeclared name info)) }
  | .pointer => return { info with type := some (.pointer (← typeOfDeclared name info)) }
  | .dimension _ =>
    let type ← typeOfDeclared name info
    if type.isArray then reject (.dimensionsTwice name) span
    return { info with type := some (.shaped type dims) }
  | .parameter => reject .parameterStatement span
  | .publicAccess | .privateAccess => return info

/-- The dimensions that an attribute gives. -/
def attributeDims : Tree.Attribute → Analysis (List Dimension)
  | .dimension specs => dimensions setup scope specs
  | _ => return []

/-- Applies an attribute statement to a name. -/
def applyAttribute (attrSpec : Tree.Attribute) (span : Span) (name : String) : Analysis Unit := do
  let symbol ← attributeSubject setup scope name span
  let dims ← attributeDims setup scope attrSpec
  match ← Edit.ask (·.kind symbol) with
  | .variable info =>
    let info ← withAttribute name info attrSpec dims span
    Edit.modifyKind symbol fun _ => .variable info
  | _ => reject (.attributeNotVariable name) span

end Analysis

end FortranSemantics
