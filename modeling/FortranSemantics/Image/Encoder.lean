import FortranSemantics.Image.Basic
import FortranSemantics.Image.Dialect

/-!
# Writing images
-/

namespace FortranSemantics.Image.Encode

/-- An optional value; a missing one is null. -/
def optional {α : Type} (encode : α → Json) : Option α → Json
  | none => .null
  | some value => encode value

def list {α : Type} (encode : α → Json) (items : List α) : Json :=
  .array (items.map encode)

def variant (name : String) (contents : Json) : Json :=
  .object [(name, contents)]

def fields (name : String) (entries : List (String × Json)) : Json :=
  variant name (.object entries)

def natural (value : Nat) : Json :=
  .integer value

def symbolId (id : SymbolId) : Json :=
  natural id.index

def scopeId (id : ScopeId) : Json :=
  natural id.index

def exprId (id : ExprId) : Json :=
  natural id.index

def span (value : Span) : Json :=
  .object [("start", natural value.start), ("end", natural value.stop)]

def dimension (dim : Dimension) : Json :=
  .object [("start", optional exprId dim.start), ("length", optional exprId dim.length)]

def type : Ty → Json
  | .integer kind => variant "Integer" (natural kind)
  | .real kind => variant "Real" (natural kind)
  | .complex kind => variant "Complex" (natural kind)
  | .logical kind => variant "Logical" (natural kind)
  | .character kind length lengthExpr =>
    fields "Character"
      [("kind", natural kind), ("len", optional .integer length),
        ("len_expr", optional exprId lengthExpr)]
  | .array element dims => fields "Array" [("elem", type element), ("dims", list dimension dims)]
  | .derived symbol => variant "Derived" (symbolId symbol)
  | .polymorphic symbol => variant "Class" (symbolId symbol)
  | .pointer target => variant "Pointer" (type target)
  | .allocatable target => variant "Allocatable" (type target)

mutual

def constant (dialect : Dialect) : Constant → Json
  | .integer value => variant "Integer" (.integer value)
  | .real value => variant "Real" (dialect.writeReal value)
  | .complex re im => variant "Complex" (.array [dialect.writeReal re, dialect.writeReal im])
  | .logical value => variant "Logical" (.bool value)
  | .text value => variant "Str" (.text value)
  | .array items => variant "Array" (.array (constants dialect items))

def constants (dialect : Dialect) : List Constant → List Json
  | [] => []
  | item :: rest => constant dialect item :: constants dialect rest

end

def arithmeticOperator : ArithmeticOperator → String
  | .add => "Add"
  | .sub => "Sub"
  | .mul => "Mul"
  | .div => "Div"
  | .pow => "Pow"

def comparison : Comparison → String
  | .eq => "Eq"
  | .notEq => "NotEq"
  | .lt => "Lt"
  | .ltE => "LtE"
  | .gt => "Gt"
  | .gtE => "GtE"

def logicalOperator : LogicalOperator → String
  | .and => "And"
  | .or => "Or"
  | .eqv => "Eqv"
  | .neqv => "NEqv"

def unaryOperator : UnaryOperator → String
  | .minus => "Minus"
  | .not => "Not"

def boundKind : BoundKind → String
  | .lower => "Lower"
  | .upper => "Upper"

def arrayIntrinsic : ArrayIntrinsic → String
  | .sum => "Sum"
  | .product => "Product"
  | .maxVal => "MaxVal"
  | .minVal => "MinVal"
  | .any => "Any"
  | .all => "All"
  | .parity => "Parity"
  | .count => "Count"
  | .maxLoc => "MaxLoc"
  | .minLoc => "MinLoc"
  | .merge => "Merge"
  | .shape => "Shape"

/-- Which optional arguments a reduction has. -/
def overload : Overload → String
  | .array => "Array"
  | .arrayDim => "ArrayDim"
  | .arrayMask => "ArrayMask"
  | .arrayDimMask => "ArrayDimMask"

def operation (name : String) (left : ExprId) (op : String) (right : ExprId)
    (overloaded : Option ExprId) : Json :=
  fields name
    [("left", exprId left), ("op", .text op), ("right", exprId right),
      ("overloaded", optional exprId overloaded)]

def call (kind : String) (name : SymbolId) (via : Option SymbolId) (args : List (Option ExprId))
    (receiver : Option ExprId) : Json :=
  fields kind
    [("name", symbolId name), ("original", optional symbolId via),
      ("args", list (optional exprId) args), ("dt", optional exprId receiver)]

def exprKind (dialect : Dialect) : ExprKind → Json
  | .constant value => variant "Constant" (constant dialect value)
  | .arrayConstructor items => variant "ArrayConstructor" (list exprId items)
  | .complexConstructor re im => fields "ComplexConstructor" [("re", exprId re), ("im", exprId im)]
  | .var symbol => variant "Var" (symbolId symbol)
  | .arithmetic left op right overloaded =>
    operation "BinOp" left (arithmeticOperator op) right overloaded
  | .compare left op right overloaded => operation "Compare" left (comparison op) right overloaded
  | .logical left op right overloaded =>
    operation "BoolOp" left (logicalOperator op) right overloaded
  | .concat left right overloaded =>
    fields "StrConcat"
      [("left", exprId left), ("right", exprId right), ("overloaded", optional exprId overloaded)]
  | .unary op operand overloaded =>
    fields "UnaryOp"
      [("op", .text (unaryOperator op)), ("operand", exprId operand),
        ("overloaded", optional exprId overloaded)]
  | .cast arg kind => fields "Cast" [("arg", exprId arg), ("kind", .text kind.name)]
  | .call name via args receiver => call "FunctionCall" name via args receiver
  | .arrayCall intrinsic kind args =>
    fields "IntrinsicArrayFunction"
      [("intrinsic", .text (arrayIntrinsic intrinsic)), ("overload", .text (overload kind)),
        ("args", list exprId args)]
  | .arrayItem array indices =>
    fields "ArrayItem" [("array", exprId array), ("indices", list exprId indices)]
  | .component base member =>
    fields "DerivedRef" [("base", exprId base), ("member", symbolId member)]
  | .structConstructor type args =>
    fields "StructConstructor" [("dt", symbolId type), ("args", list exprId args)]
  | .arraySize array dim =>
    fields "ArraySize" [("array", exprId array), ("dim", optional exprId dim)]
  | .arrayBound array dim bound =>
    fields "ArrayBound"
      [("array", exprId array), ("dim", exprId dim), ("bound", .text (boundKind bound))]

def expr (dialect : Dialect) (expr : Expr) : Json :=
  .object
    [("kind", exprKind dialect expr.kind), ("ty", type expr.type),
      ("value", optional exprId expr.value), ("span", span expr.span)]

mutual

def stmt : Stmt → Json
  | .assignment target value =>
    fields "Assignment" [("target", exprId target), ("value", exprId value)]
  | .branch cond body orelse =>
    fields "If"
      [("cond", exprId cond), ("body", .array (stmts body)), ("orelse", .array (stmts orelse))]
  | .loop var start stop step body =>
    fields "DoLoop"
      [("var", exprId var), ("start", exprId start), ("end", exprId stop),
        ("step", optional exprId step), ("body", .array (stmts body))]
  | .loopWhile cond body =>
    fields "WhileLoop" [("cond", exprId cond), ("body", .array (stmts body))]
  | .call name via args receiver => call "SubroutineCall" name via args receiver
  | .print items => variant "Print" (list exprId items)
  | .returnStmt => .text "Return"
  | .exit => .text "Exit"
  | .cycle => .text "Cycle"
  | .stop code => variant "Stop" (optional exprId code)
  | .block symbol => variant "BlockCall" (symbolId symbol)

def stmts : List Stmt → List Json
  | [] => []
  | first :: rest => stmt first :: stmts rest

end

def access : Access → String
  | .publicAccess => "Public"
  | .privateAccess => "Private"

def presence : Presence → String
  | .required => "Required"
  | .optional => "Optional"

def intent : Intent → String
  | .localVar => "Local"
  | .unspecified => "Unspecified"
  | .into => "In"
  | .out => "Out"
  | .inout => "InOut"
  | .result => "ReturnVar"

def storage : Storage → String
  | .default => "Default"
  | .save => "Save"
  | .parameter => "Parameter"

def abi : Abi → String
  | .source => "Source"
  | .interactive => "Interactive"
  | .intrinsic => "Intrinsic"

def defType : DefType → String
  | .implementation => "Implementation"
  | .interface => "Interface"

/-- Whether a binding is passed its object. -/
def dispatch : Dispatch → String
  | .pass => "Pass"
  | .noPass => "NoPass"

def kindName : SymbolKind → String
  | .variable _ => "Variable"
  | .function _ => "Function"
  | .moduleUnit _ => "Module"
  | .program _ => "Program"
  | .generic _ => "GenericProcedure"
  | .binding _ => "ClassProcedure"
  | .derivedType _ => "DerivedType"
  | .imported _ => "ExternalSymbol"
  | .block _ => "Block"

def kindFields : SymbolKind → List (String × Json)
  | .variable info =>
    [("ty", optional type info.type), ("intent", .text (intent info.intent)),
      ("storage", .text (storage info.storage)), ("access", .text (access info.access)),
      ("presence", .text (presence info.presence)), ("target", .bool info.target),
      ("init", optional exprId info.init), ("value", optional exprId info.value),
      ("symbolic_value", optional exprId info.aliasOf)]
  | .function info =>
    [("scope", scopeId info.scope), ("args", list symbolId info.args),
      ("return_var", optional symbolId info.result), ("body", .array (stmts info.body)),
      ("abi", .text (abi info.abi)), ("deftype", .text (defType info.deftype)),
      ("access", .text (access info.access)), ("dependencies", list .text info.dependencies)]
  | .moduleUnit info =>
    [("scope", scopeId info.scope), ("dependencies", list .text info.dependencies),
      ("intrinsic", .bool info.intrinsic), ("loaded_from_mod", .bool info.loaded)]
  | .program info =>
    [("scope", scopeId info.scope), ("dependencies", list .text info.dependencies),
      ("body", .array (stmts info.body))]
  | .generic info => [("procs", list symbolId info.procs), ("access", .text (access info.access))]
  | .binding info =>
    [("proc", symbolId info.proc), ("proc_name", .text info.procName),
      ("dispatch", .text (dispatch info.dispatch))]
  | .derivedType info =>
    [("scope", scopeId info.scope), ("members", list .text info.members),
      ("parent", optional symbolId info.parent), ("access", .text (access info.access))]
  | .imported info =>
    [("target", symbolId info.target), ("module_name", .text info.moduleName),
      ("original_name", .text info.remoteName), ("access", .text (access info.access))]
  | .block info => [("scope", scopeId info.scope), ("body", .array (stmts info.body))]

def symbol (symbol : Symbol) : Json :=
  .object
    [("name", .text symbol.name), ("owner", scopeId symbol.owner),
      ("kind", fields (kindName symbol.kind) (kindFields symbol.kind))]

def scope (dialect : Dialect) (scope : Scope) : Json :=
  .object
    [("parent", optional scopeId scope.parent), ("owner", optional symbolId scope.owner),
      ("symbols", dialect.writeEntries scope.entries)]

def arena (dialect : Dialect) (arena : Arena) : Json :=
  .object
    [("symbols", list symbol arena.symbols.toList),
      ("scopes", list (scope dialect) arena.scopes.toList),
      ("exprs", list (expr dialect) arena.exprs.toList), ("root", scopeId arena.root)]

end Encode

def toJson (dialect : Dialect) (image : Image) : Json :=
  .object
    [("name", .text image.name), ("asr", Encode.arena dialect image.arena),
      ("module", Encode.symbolId image.root),
      ("imports", Encode.list (Encode.list .text) image.imports)]

end FortranSemantics.Image
