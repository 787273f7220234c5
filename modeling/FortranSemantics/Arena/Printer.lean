import FortranSemantics.Arena.TypeRelation

/-!
# Printed form of an arena

Every symbol is a line, followed by the lines of the scope and the statements it holds, two blanks
further in. Expressions are fully parenthesised.
-/

namespace FortranSemantics

/-- The printed note of a variable's role. -/
def Intent.note : Intent → String
  | .localVar => ""
  | .result => ", result"
  | .unspecified => ", dummy"
  | .into => ", intent(in)"
  | .out => ", intent(out)"
  | .inout => ", intent(inout)"

/-- The printed note of a variable's storage. -/
def Storage.note : Storage → String
  | .default => ""
  | .save => ", save"
  | .parameter => ", parameter"

/-- The printed note of a procedure's origin. -/
def Abi.note : Abi → String
  | .source => ""
  | .interactive => " [interactive]"
  | .intrinsic => " [intrinsic]"

def BoundKind.name : BoundKind → String
  | .lower => "lbound"
  | .upper => "ubound"

namespace Arena

/-- The text of an expression with operands nested at most `fuel` deep. -/
def exprTextWithin (arena : Arena) : Nat → ExprId → Except Breach String
  | 0, _ => .error .endless
  | fuel + 1, id => do
    let sub := arena.exprTextWithin fuel
    let list (items : List ExprId) : Except Breach String :=
      Text.joined ", " <$> items.mapM sub
    let operation (left : ExprId) (spelling : String) (right : ExprId) : Except Breach String := do
      return "(" ++ (← sub left) ++ " " ++ spelling ++ " " ++ (← sub right) ++ ")"
    match (← arena.expr id).kind with
    | .constant value => return value.toText
    | .arrayConstructor items => return "[" ++ (← list items) ++ "]"
    | .complexConstructor re im => return "cmplx(" ++ (← sub re) ++ ", " ++ (← sub im) ++ ")"
    | .var symbol => arena.name symbol
    | .arithmetic _ _ _ (some call) | .compare _ _ _ (some call) | .logical _ _ _ (some call)
    | .concat _ _ (some call) | .unary _ _ (some call) => sub call
    | .arithmetic left op right none | .compare left op right none
    | .logical left op right none => operation left op.spelling right
    | .concat left right none => operation left "//" right
    | .unary .minus operand none => return "(-" ++ (← sub operand) ++ ")"
    | .unary .not operand none => return "(.not. " ++ (← sub operand) ++ ")"
    | .cast arg kind => return kind.name ++ "(" ++ (← sub arg) ++ ")"
    | .call name _ args receiver =>
      let receiver ←
        match receiver with
        | none => pure ""
        | some receiver => do pure ((← sub receiver) ++ "%")
      return receiver ++ (← arena.name name) ++ "(" ++
        (← list (args.filterMap fun arg => arg)) ++ ")"
    | .arrayCall intrinsic overload args =>
      return intrinsic.name ++ "<" ++ toString overload.number ++ ">(" ++ (← list args) ++ ")"
    | .arrayItem array indices => return (← sub array) ++ "(" ++ (← list indices) ++ ")"
    | .component base member => return (← sub base) ++ "%" ++ (← arena.name member)
    | .structConstructor type args => return (← arena.name type) ++ "(" ++ (← list args) ++ ")"
    | .arraySize array none => return "size(" ++ (← sub array) ++ ")"
    | .arraySize array (some dim) => return "size(" ++ (← sub array) ++ ", " ++ (← sub dim) ++ ")"
    | .arrayBound array dim bound =>
      return bound.name ++ "(" ++ (← sub array) ++ ", " ++ (← sub dim) ++ ")"

variable (arena : Arena)

def exprText (id : ExprId) : Except Breach String :=
  arena.exprTextWithin (arena.exprs.size + 1) id

/-- The texts of some expressions, separated by commas. -/
def exprTexts (ids : List ExprId) : Except Breach String :=
  Text.joined ", " <$> ids.mapM arena.exprText

/-- A line with a number of blanks before it. -/
def indented (indent : Nat) (line : String) : String :=
  String.ofList (List.replicate indent ' ') ++ line

mutual

def stmtLines (arena : Arena) (indent : Nat) : Stmt → Except Breach (List String)
  | .assignment target value => do
    return [indented indent ((← arena.exprText target) ++ " = " ++ (← arena.exprText value))]
  | .branch cond body orelse => do
    let head := indented indent ("if " ++ (← arena.exprText cond) ++ " then")
    let body ← stmtsLines arena (indent + 2) body
    let otherwise ← stmtsLines arena (indent + 2) orelse
    let otherwise := if otherwise.isEmpty then [] else indented indent "else" :: otherwise
    return [head] ++ body ++ otherwise ++ [indented indent "end if"]
  | .loop var start stop step body => do
    let var ← arena.exprText var
    let start ← arena.exprText start
    let stop ← arena.exprText stop
    let step ←
      match step with
      | none => pure ""
      | some step => do pure (", " ++ (← arena.exprText step))
    let body ← stmtsLines arena (indent + 2) body
    return [indented indent ("do " ++ var ++ " = " ++ start ++ ", " ++ stop ++ step)] ++ body
      ++ [indented indent "end do"]
  | .loopWhile cond body => do
    let head := indented indent ("do while " ++ (← arena.exprText cond))
    let body ← stmtsLines arena (indent + 2) body
    return [head] ++ body ++ [indented indent "end do"]
  | .call name _ args receiver => do
    let receiver ←
      match receiver with
      | none => pure ""
      | some receiver => do pure ((← arena.exprText receiver) ++ "%")
    let args ← arena.exprTexts (args.filterMap fun arg => arg)
    return [indented indent ("call " ++ receiver ++ (← arena.name name) ++ "(" ++ args ++ ")")]
  | .print items => do
    return [indented indent ("print *, " ++ (← arena.exprTexts items))]
  | .returnStmt => return [indented indent "return"]
  | .exit => return [indented indent "exit"]
  | .cycle => return [indented indent "cycle"]
  | .stop none => return [indented indent "stop"]
  | .stop (some code) => do
    return [indented indent ("stop " ++ (← arena.exprText code))]
  | .block symbol => do
    return [indented indent ("block " ++ (← arena.name symbol))]

def stmtsLines (arena : Arena) (indent : Nat) : List Stmt → Except Breach (List String)
  | [] => return []
  | first :: rest => do
    let lines ← stmtLines arena indent first
    return lines ++ (← stmtsLines arena indent rest)

end

/-- The lines of a body; an empty one has none. -/
def bodyLines (indent : Nat) (body : List Stmt) : Except Breach (List String) := do
  if body.isEmpty then return []
  return indented indent "body:" :: (← arena.stmtsLines (indent + 2) body)

def variableLine (name : String) (info : Variable) : Except Breach String := do
  let type ←
    match info.type with
    | none => pure ""
    | some type => do pure (": " ++ (← arena.typeName type))
  let value ←
    match info.aliasOf, info.value, info.init with
    | some designator, _, _ => do pure (" => " ++ (← arena.exprText designator))
    | none, some value, _ => do pure (" = " ++ (← arena.exprText value))
    | none, none, some init => do pure (" = " ++ (← arena.exprText init))
    | none, none, none => pure ""
  return "variable " ++ name ++ type ++ info.intent.note ++ info.storage.note
    ++ (if info.presence = .optional then ", optional" else "")
    ++ (if info.access = .privateAccess then ", private" else "") ++ value

def functionLine (name : String) (info : Function) : Except Breach String := do
  let args ← info.args.mapM arena.name
  let result ←
    match info.result with
    | none => pure ""
    | some result => do pure (" result(" ++ (← arena.name result) ++ ")")
  return "function " ++ name ++ "(" ++ Text.joined ", " args ++ ")" ++ result ++ info.abi.note
    ++ (if info.deftype = .interface then " [interface]" else "")
    ++ (if info.access = .privateAccess then " [private]" else "")

/-- The line that lists the modules a unit depends on. -/
def dependencyLines (indent : Nat) (dependencies : List String) : List String :=
  if dependencies.isEmpty then []
  else [indented indent ("dependencies: " ++ Text.joined ", " dependencies)]

/-- The lines of a symbol, given the lines of scopes inside it. -/
def symbolLines (inner : ScopeId → Except Breach (List String)) (indent : Nat)
    (id : SymbolId) : Except Breach (List String) := do
  let symbol ← arena.symbol id
  let name := symbol.name
  match symbol.kind with
  | .variable info => return [indented indent (← arena.variableLine name info)]
  | .function info =>
    let head := indented indent (← arena.functionLine name info)
    let scope ← inner info.scope
    let body ← arena.bodyLines (indent + 2) info.body
    return [head] ++ scope ++ body ++ [indented indent ("end function " ++ name)]
  | .moduleUnit info =>
    let head := "module " ++ name ++ (if info.intrinsic then " [intrinsic]" else "")
      ++ (if info.loaded then " [loaded]" else "")
    let scope ← inner info.scope
    return [indented indent head] ++ dependencyLines (indent + 2) info.dependencies ++ scope
      ++ [indented indent ("end module " ++ name)]
  | .program info =>
    let scope ← inner info.scope
    let body ← arena.bodyLines (indent + 2) info.body
    return [indented indent ("program " ++ name)]
      ++ dependencyLines (indent + 2) info.dependencies ++ scope ++ body
      ++ [indented indent ("end program " ++ name)]
  | .generic info =>
    let procs ← info.procs.mapM arena.name
    return [indented indent ("generic " ++ name ++ " => " ++ Text.joined ", " procs)]
  | .binding info =>
    return [indented indent ("procedure " ++ name ++ " => " ++ info.procName
      ++ (if info.dispatch = .noPass then ", nopass" else ""))]
  | .derivedType info =>
    let parent ←
      match info.parent with
      | none => pure ""
      | some parent => do pure (" extends(" ++ (← arena.name parent) ++ ")")
    let scope ← inner info.scope
    return [indented indent ("type " ++ name ++ parent)] ++ scope
      ++ [indented indent ("end type " ++ name)]
  | .imported info =>
    return [indented indent ("external " ++ name ++ " => " ++ info.moduleName ++ "::"
      ++ info.remoteName ++ (if info.access = .privateAccess then ", private" else ""))]
  | .block info =>
    let scope ← inner info.scope
    let body ← arena.bodyLines (indent + 2) info.body
    return [indented indent ("block " ++ name)] ++ scope ++ body
      ++ [indented indent ("end block " ++ name)]

/-- The lines of a scope with scopes nested at most `fuel` deep. -/
def scopeLinesWithin (arena : Arena) : Nat → Nat → ScopeId → Except Breach (List String)
  | 0, _, _ => .error .endless
  | fuel + 1, indent, id => do
    let scope ← arena.scope id
    let lines ← scope.symbols.mapM
      (arena.symbolLines (arena.scopeLinesWithin fuel (indent + 2)) indent)
    return lines.flatten

def toText : Except Breach String := do
  let lines ← arena.scopeLinesWithin (arena.scopes.size + 1) 2 arena.root
  return String.join (("translation unit" :: lines).map (· ++ "\n"))

end Arena

end FortranSemantics
