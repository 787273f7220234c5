import FortranSemantics.Image.Basic
import FortranSemantics.Image.Dialect
import FortranSemantics.Tree.Decoder

/-!
# Reading images

Decoders of nested parts are bounded by the depth of the value they read.
-/

namespace FortranSemantics.Image.Decode

open FortranSemantics.Decoder Variant Record
open FortranSemantics.Image.Dialect (symbolId)

variable (json : Json)

def scopeId : Option ScopeId :=
  ScopeId.mk <$> index json

def exprId : Option ExprId :=
  ExprId.mk <$> index json

def kind : FortranSemantics.Decoder Nat :=
  natural 255

def dimension : Option Dimension := do
  let record ← ofJson? ["start", "length"] json
  let start ← record.nullable 0 "start" exprId
  return { start, length := ← record.nullable 1 "length" exprId }

def typeWithin (form : FieldForm) : Nat → FortranSemantics.Decoder Ty
  | 0, _ => none
  | fuel + 1, json => do
    let variant ← ofJson? json
    match variant.name with
    | "Integer" => .integer <$> variant.single kind
    | "Real" => .real <$> variant.single kind
    | "Complex" => .complex <$> variant.single kind
    | "Logical" => .logical <$> variant.single kind
    | "Character" =>
      let record ← variant.record form ["kind", "len", "len_expr"]
      let kind ← record.required 0 "kind" kind
      let length ← record.nullable 1 "len" word
      return .character kind length (← record.nullable 2 "len_expr" exprId)
    | "Array" =>
      let record ← variant.record form ["elem", "dims"]
      let element ← record.required 0 "elem" (typeWithin form fuel)
      return .array element (← record.required 1 "dims" (list dimension))
    | "Derived" => .derived <$> variant.single symbolId
    | "Class" => .polymorphic <$> variant.single symbolId
    | "Pointer" => .pointer <$> variant.single (typeWithin form fuel)
    | "Allocatable" => .allocatable <$> variant.single (typeWithin form fuel)
    | _ => none

variable (form : FieldForm)

def type (json : Json) : Option Ty :=
  typeWithin form (json.depth + 1) json

def constantWithin (dialect : Dialect) : Nat → FortranSemantics.Decoder Constant
  | 0, _ => none
  | fuel + 1, json => do
    let variant ← ofJson? json
    match variant.name with
    | "Integer" => .integer <$> variant.single word
    | "Real" => .real <$> variant.single dialect.readReal
    | "Complex" =>
      let (re, im) ← variant.pair dialect.readReal dialect.readReal
      return .complex re im
    | "Logical" => .logical <$> variant.single bool
    | "Str" => .text <$> variant.single text
    | "Array" => .array <$> variant.single (list (constantWithin dialect fuel))
    | _ => none

variable (dialect : Dialect)

def constant (json : Json) : Option Constant :=
  constantWithin dialect (json.depth + 1) json

def arithmeticOperator : FortranSemantics.Decoder ArithmeticOperator :=
  choice [("Add", .add), ("Sub", .sub), ("Mul", .mul), ("Div", .div), ("Pow", .pow)]

def comparison : FortranSemantics.Decoder Comparison :=
  choice
    [("Eq", .eq), ("NotEq", .notEq), ("Lt", .lt), ("LtE", .ltE), ("Gt", .gt), ("GtE", .gtE)]

def logicalOperator : FortranSemantics.Decoder LogicalOperator :=
  choice [("And", .and), ("Or", .or), ("Eqv", .eqv), ("NEqv", .neqv)]

def unaryOperator : FortranSemantics.Decoder UnaryOperator :=
  choice [("Minus", .minus), ("Not", .not)]

def castKind : FortranSemantics.Decoder CastKind :=
  choice
    ([.integerToReal, .realToInteger, .integerToInteger, .realToReal, .integerToComplex,
      .realToComplex, .complexToReal, .complexToInteger, .complexToComplex, .logicalToInteger,
      .integerToLogical, .logicalToLogical].map fun cast : CastKind => (cast.name, cast))

def boundKind : FortranSemantics.Decoder BoundKind :=
  choice [("Lower", .lower), ("Upper", .upper)]

def arrayIntrinsic : FortranSemantics.Decoder ArrayIntrinsic :=
  choice
    [("Sum", .sum), ("Product", .product), ("MaxVal", .maxVal), ("MinVal", .minVal), ("Any", .any),
      ("All", .all), ("Parity", .parity), ("Count", .count), ("MaxLoc", .maxLoc),
      ("MinLoc", .minLoc), ("Merge", .merge), ("Shape", .shape)]

/-- Which optional arguments a reduction has. -/
def overload : FortranSemantics.Decoder Overload :=
  choice
    [("Array", .array), ("ArrayDim", .arrayDim), ("ArrayMask", .arrayMask),
      ("ArrayDimMask", .arrayDimMask)]

/-- The operands and the operator of a binary operation. -/
def operation {α : Type} (form : FieldForm) (variant : Variant)
    (operator : FortranSemantics.Decoder α) : Option (ExprId × α × ExprId × Option ExprId) := do
  let record ← variant.record form ["left", "op", "right", "overloaded"]
  let left ← record.required 0 "left" exprId
  let op ← record.required 1 "op" operator
  let right ← record.required 2 "right" exprId
  return (left, op, right, ← record.nullable 3 "overloaded" exprId)

def callParts (variant : Variant) :
    Option (SymbolId × Option SymbolId × List (Option ExprId) × Option ExprId) := do
  let record ← variant.record form ["name", "original", "args", "dt"]
  let name ← record.required 0 "name" symbolId
  let via ← record.nullable 1 "original" symbolId
  let args ← record.required 2 "args" (list (nullable exprId))
  return (name, via, args, ← record.nullable 3 "dt" exprId)

def exprKind (json : Json) : Option ExprKind := do
  let form := dialect.form
  let variant ← ofJson? json
  match variant.name with
  | "Constant" => .constant <$> variant.single (constant dialect)
  | "ArrayConstructor" => .arrayConstructor <$> variant.single (list exprId)
  | "ComplexConstructor" =>
    let record ← variant.record form ["re", "im"]
    let re ← record.required 0 "re" exprId
    return .complexConstructor re (← record.required 1 "im" exprId)
  | "Var" => .var <$> variant.single symbolId
  | "BinOp" =>
    let (left, op, right, overloaded) ← operation form variant arithmeticOperator
    return .arithmetic left op right overloaded
  | "Compare" =>
    let (left, op, right, overloaded) ← operation form variant comparison
    return .compare left op right overloaded
  | "BoolOp" =>
    let (left, op, right, overloaded) ← operation form variant logicalOperator
    return .logical left op right overloaded
  | "StrConcat" =>
    let record ← variant.record form ["left", "right", "overloaded"]
    let left ← record.required 0 "left" exprId
    let right ← record.required 1 "right" exprId
    return .concat left right (← record.nullable 2 "overloaded" exprId)
  | "UnaryOp" =>
    let record ← variant.record form ["op", "operand", "overloaded"]
    let op ← record.required 0 "op" unaryOperator
    let operand ← record.required 1 "operand" exprId
    return .unary op operand (← record.nullable 2 "overloaded" exprId)
  | "Cast" =>
    let record ← variant.record form ["arg", "kind"]
    let arg ← record.required 0 "arg" exprId
    return .cast arg (← record.required 1 "kind" castKind)
  | "FunctionCall" =>
    let (name, via, args, receiver) ← callParts form variant
    return .call name via args receiver
  | "IntrinsicArrayFunction" =>
    let record ← variant.record form ["intrinsic", "overload", "args"]
    let intrinsic ← record.required 0 "intrinsic" arrayIntrinsic
    let overload ← record.required 1 "overload" overload
    return .arrayCall intrinsic overload (← record.required 2 "args" (list exprId))
  | "ArrayItem" =>
    let record ← variant.record form ["array", "indices"]
    let array ← record.required 0 "array" exprId
    return .arrayItem array (← record.required 1 "indices" (list exprId))
  | "DerivedRef" =>
    let record ← variant.record form ["base", "member"]
    let base ← record.required 0 "base" exprId
    return .component base (← record.required 1 "member" symbolId)
  | "StructConstructor" =>
    let record ← variant.record form ["dt", "args"]
    let type ← record.required 0 "dt" symbolId
    return .structConstructor type (← record.required 1 "args" (list exprId))
  | "ArraySize" =>
    let record ← variant.record form ["array", "dim"]
    let array ← record.required 0 "array" exprId
    return .arraySize array (← record.nullable 1 "dim" exprId)
  | "ArrayBound" =>
    let record ← variant.record form ["array", "dim", "bound"]
    let array ← record.required 0 "array" exprId
    let dim ← record.required 1 "dim" exprId
    return .arrayBound array dim (← record.required 2 "bound" boundKind)
  | _ => none

def expr (json : Json) : Option Expr := do
  let record ← ofJson? ["kind", "ty", "value", "span"] json
  let kind ← record.required 0 "kind" (exprKind dialect)
  let type ← record.required 1 "ty" (type dialect.form)
  let value ← record.nullable 2 "value" exprId
  return { kind, type, value, span := ← record.required 3 "span" Tree.Decoder.span }

def stmtWithin (form : FieldForm) : Nat → FortranSemantics.Decoder Stmt
  | 0, _ => none
  | fuel + 1, json => do
    let variant ← ofJson? json
    match variant.name with
    | "Assignment" =>
      let record ← variant.record form ["target", "value"]
      let target ← record.required 0 "target" exprId
      return .assignment target (← record.required 1 "value" exprId)
    | "If" =>
      let record ← variant.record form ["cond", "body", "orelse"]
      let cond ← record.required 0 "cond" exprId
      let body ← record.required 1 "body" (list (stmtWithin form fuel))
      return .branch cond body (← record.required 2 "orelse" (list (stmtWithin form fuel)))
    | "DoLoop" =>
      let record ← variant.record form ["var", "start", "end", "step", "body"]
      let var ← record.required 0 "var" exprId
      let start ← record.required 1 "start" exprId
      let stop ← record.required 2 "end" exprId
      let step ← record.nullable 3 "step" exprId
      return .loop var start stop step (← record.required 4 "body" (list (stmtWithin form fuel)))
    | "WhileLoop" =>
      let record ← variant.record form ["cond", "body"]
      let cond ← record.required 0 "cond" exprId
      return .loopWhile cond (← record.required 1 "body" (list (stmtWithin form fuel)))
    | "SubroutineCall" =>
      let (name, via, args, receiver) ← callParts form variant
      return .call name via args receiver
    | "Print" => .print <$> variant.single (list exprId)
    | "Return" => variant.plain .returnStmt
    | "Exit" => variant.plain .exit
    | "Cycle" => variant.plain .cycle
    | "Stop" => .stop <$> variant.single (nullable exprId)
    | "BlockCall" => .block <$> variant.single symbolId
    | _ => none

def body (json : Json) : Option (List Stmt) :=
  list (stmtWithin form json.depth) json

def access : FortranSemantics.Decoder Access :=
  choice [("Public", .publicAccess), ("Private", .privateAccess)]

def presence : FortranSemantics.Decoder Presence :=
  choice [("Required", .required), ("Optional", .optional)]

def intent : FortranSemantics.Decoder Intent :=
  choice
    [("Local", .localVar), ("Unspecified", .unspecified), ("In", .into), ("Out", .out),
      ("InOut", .inout), ("ReturnVar", .result)]

def storage : FortranSemantics.Decoder Storage :=
  choice [("Default", .default), ("Save", .save), ("Parameter", .parameter)]

def abi : FortranSemantics.Decoder Abi :=
  choice [("Source", .source), ("Interactive", .interactive), ("Intrinsic", .intrinsic)]

def defType : FortranSemantics.Decoder DefType :=
  choice [("Implementation", .implementation), ("Interface", .interface)]

/-- Whether a binding is passed its object. -/
def dispatch : FortranSemantics.Decoder Dispatch :=
  choice [("Pass", .pass), ("NoPass", .noPass)]

def variableInfo (json : Json) : Option Variable := do
  let record ← ofJson?
    ["ty", "intent", "storage", "access", "presence", "target", "init", "value", "symbolic_value"]
    json
  let type ← record.nullable 0 "ty" (type form)
  let intent ← record.required 1 "intent" intent
  let storage ← record.required 2 "storage" storage
  let access ← record.required 3 "access" access
  let presence ← record.required 4 "presence" presence
  let target ← record.required 5 "target" bool
  let init ← record.nullable 6 "init" exprId
  let value ← record.nullable 7 "value" exprId
  let aliasOf ← record.nullable 8 "symbolic_value" exprId
  return { type, intent, storage, access, presence, target, init, value, aliasOf }

def functionInfo (json : Json) : Option Function := do
  let record ← ofJson?
    ["scope", "args", "return_var", "body", "abi", "deftype", "access", "dependencies"] json
  let scope ← record.required 0 "scope" scopeId
  let args ← record.required 1 "args" (list symbolId)
  let result ← record.nullable 2 "return_var" symbolId
  let body ← record.required 3 "body" (body form)
  let abi ← record.required 4 "abi" abi
  let deftype ← record.required 5 "deftype" defType
  let access ← record.required 6 "access" access
  let dependencies ← record.required 7 "dependencies" (list text)
  return { scope, args, result, body, abi, deftype, access, dependencies }

def moduleInfo : Option Module := do
  let record ← ofJson? ["scope", "dependencies", "intrinsic", "loaded_from_mod"] json
  let scope ← record.required 0 "scope" scopeId
  let dependencies ← record.required 1 "dependencies" (list text)
  let intrinsic ← record.required 2 "intrinsic" bool
  return { scope, dependencies, intrinsic, loaded := ← record.required 3 "loaded_from_mod" bool }

def programInfo (json : Json) : Option Program := do
  let record ← ofJson? ["scope", "dependencies", "body"] json
  let scope ← record.required 0 "scope" scopeId
  let dependencies ← record.required 1 "dependencies" (list text)
  return { scope, dependencies, body := ← record.required 2 "body" (body form) }

def genericInfo : Option GenericProcedure := do
  let record ← ofJson? ["procs", "access"] json
  let procs ← record.required 0 "procs" (list symbolId)
  return { procs, access := ← record.required 1 "access" access }

def bindingInfo : Option Binding := do
  let record ← ofJson? ["proc", "proc_name", "dispatch"] json
  let proc ← record.required 0 "proc" symbolId
  let procName ← record.required 1 "proc_name" text
  return { proc, procName, dispatch := ← record.required 2 "dispatch" dispatch }

def derivedTypeInfo : Option DerivedType := do
  let record ← ofJson? ["scope", "members", "parent", "access"] json
  let scope ← record.required 0 "scope" scopeId
  let members ← record.required 1 "members" (list text)
  let parent ← record.nullable 2 "parent" symbolId
  return { scope, members, parent, access := ← record.required 3 "access" access }

def importInfo : Option Import := do
  let record ← ofJson? ["target", "module_name", "original_name", "access"] json
  let target ← record.required 0 "target" symbolId
  let moduleName ← record.required 1 "module_name" text
  let remoteName ← record.required 2 "original_name" text
  return { target, moduleName, remoteName, access := ← record.required 3 "access" access }

def blockInfo (json : Json) : Option Block := do
  let record ← ofJson? ["scope", "body"] json
  let scope ← record.required 0 "scope" scopeId
  return { scope, body := ← record.required 1 "body" (body form) }

def symbolKind (json : Json) : Option SymbolKind := do
  let variant ← ofJson? json
  match variant.name with
  | "Variable" => .variable <$> variant.single (variableInfo form)
  | "Function" => .function <$> variant.single (functionInfo form)
  | "Module" => .moduleUnit <$> variant.single moduleInfo
  | "Program" => .program <$> variant.single (programInfo form)
  | "GenericProcedure" => .generic <$> variant.single genericInfo
  | "ClassProcedure" => .binding <$> variant.single bindingInfo
  | "DerivedType" => .derivedType <$> variant.single derivedTypeInfo
  | "ExternalSymbol" => .imported <$> variant.single importInfo
  | "Block" => .block <$> variant.single (blockInfo form)
  | _ => none

def symbol (json : Json) : Option Symbol := do
  let record ← ofJson? ["name", "owner", "kind"] json
  let name ← record.required 0 "name" text
  let owner ← record.required 1 "owner" scopeId
  return { name, owner, kind := ← record.required 2 "kind" (symbolKind form) }

def scope (json : Json) : Option Scope := do
  let record ← ofJson? ["parent", "owner", "symbols"] json
  let parent ← record.nullable 0 "parent" scopeId
  let owner ← record.nullable 1 "owner" symbolId
  let entries ← record.required 2 "symbols" dialect.readEntries
  return { parent, owner, entries, helpers := [] }

def arena (json : Json) : Option Arena := do
  let record ← ofJson? ["symbols", "scopes", "exprs", "root"] json
  let symbols ← record.required 0 "symbols" (list (symbol dialect.form))
  let scopes ← record.required 1 "scopes" (list (scope dialect))
  let exprs ← record.required 2 "exprs" (list (expr dialect))
  let root ← record.required 3 "root" scopeId
  return { symbols := symbols.toArray, scopes := scopes.toArray, exprs := exprs.toArray, root }

end Decode

def ofJson? (dialect : Dialect) (json : Json) : Option Image := do
  let record ← Record.ofJson? ["name", "asr", "module", "imports"] json
  let name ← record.required 0 "name" Decoder.text
  let arena ← record.required 1 "asr" (Decode.arena dialect)
  let root ← record.required 2 "module" Dialect.symbolId
  let imports ← record.required 3 "imports" (Decoder.list (Decoder.list Decoder.text))
  return { name, arena, root, imports }

end FortranSemantics.Image
