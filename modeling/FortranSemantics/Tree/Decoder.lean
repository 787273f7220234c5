import FortranSemantics.Json.Record
import FortranSemantics.Tree.Basic

/-!
# Reading syntax trees

Decodes the JSON form of a syntax tree, with the fields of variants in the form that the exchange
takes. Decoders of nested parts are bounded by the depth of the value they read, of which every part
takes at least one level.
-/

namespace FortranSemantics.Tree

open Variant Record

namespace Decoder

open FortranSemantics.Decoder

/-- A span; it has no other fields than its two ends. -/
def span : Decoder Span
  | .object entries => do
    let record ← ofJson? ["start", "end"] (.object entries)
    if entries.all fun entry => entry.1 == "start" || entry.1 == "end" then
      return { start := ← record.required 0 "start" index, stop := ← record.required 1 "end" index }
    else none
  | .array [start, stop] => return { start := ← index start, stop := ← index stop }
  | _ => none

/-- The span field of a record; a missing one is the empty span at the start. -/
def spanField (record : Record) (position : Nat) : Option Span :=
  record.defaulted position "span" span { start := 0, stop := 0 }

def listField {α : Type} (record : Record) (position : Nat) (name : String) (item : Decoder α) :
    Option (List α) :=
  record.defaulted position name (list item) []

/-- An optional field that may be left out. -/
def optionField {α : Type} (record : Record) (position : Nat) (name : String) (item : Decoder α) :
    Option (Option α) :=
  record.defaulted position name (nullable item) none

def binaryOperator : Decoder BinaryOperator :=
  choice
    [("Add", .add), ("Sub", .sub), ("Mul", .mul), ("Div", .div), ("Pow", .pow), ("Eq", .eq),
      ("Ne", .ne), ("Lt", .lt), ("Gt", .gt), ("Le", .le), ("Ge", .ge), ("And", .and), ("Or", .or),
      ("Eqv", .eqv), ("Neqv", .neqv), ("Concat", .concat)]

def unaryOperator : Decoder UnaryOperator :=
  choice [("Neg", .neg), ("Plus", .plus), ("Not", .not)]

mutual

def exprWithin (form : FieldForm) : Nat → Decoder Expr
  | 0, _ => none
  | fuel + 1, json => do
    let record ← ofJson? ["kind", "span"] json
    let kind ← record.required 0 "kind" (exprKindWithin form fuel)
    return { kind, span := ← spanField record 1 }

def exprKindWithin (form : FieldForm) : Nat → Decoder ExprKind
  | 0, _ => none
  | fuel + 1, json => do
    let variant ← ofJson? json
    match variant.name with
    | "Int" => .int <$> variant.single text
    | "Real" => .real <$> variant.single text
    | "Complex" =>
      let (re, im) ← variant.pair (exprWithin form fuel) (exprWithin form fuel)
      return .complex re im
    | "Str" => .text <$> variant.single text
    | "Logical" => .logical <$> variant.single bool
    | "Name" => .name <$> variant.single text
    | "Member" =>
      let record ← variant.record form ["base", "members"]
      let base ← record.required 0 "base" text
      return .member base (← record.required 1 "members" (list text))
    | "Call" =>
      let record ← variant.record form ["receiver", "name", "args"]
      let receiver ← listField record 0 "receiver" text
      let name ← record.required 1 "name" text
      return .call receiver name (← listField record 2 "args" (argWithin form fuel))
    | "Bin" =>
      let (op, left, right) ← variant.triple binaryOperator (exprWithin form fuel)
        (exprWithin form fuel)
      return .binary op left right
    | "Un" =>
      let (op, operand) ← variant.pair unaryOperator (exprWithin form fuel)
      return .unary op operand
    | "DefinedBin" =>
      let (op, left, right) ← variant.triple text (exprWithin form fuel) (exprWithin form fuel)
      return .definedBinary op left right
    | "DefinedUn" =>
      let (op, operand) ← variant.pair text (exprWithin form fuel)
      return .definedUnary op operand
    | "Paren" => .paren <$> variant.single (exprWithin form fuel)
    | "Array" => .array <$> variant.single (list (exprWithin form fuel))
    | _ => none

def argWithin (form : FieldForm) : Nat → Decoder Arg
  | 0, _ => none
  | fuel + 1, json => do
    let record ← ofJson? ["keyword", "value"] json
    let keyword ← optionField record 0 "keyword" text
    return { keyword, value := ← record.required 1 "value" (exprWithin form fuel) }

end

variable (form : FieldForm) (depth : Nat)

def charLength (json : Json) : Option CharLength := do
  let variant ← ofJson? json
  match variant.name with
  | "Expr" => .expr <$> variant.single (exprWithin form depth)
  | "Assumed" => variant.plain .assumed
  | "Deferred" => variant.plain .deferred
  | _ => none

def typeSpec (json : Json) : Option TypeSpec := do
  let variant ← ofJson? json
  let kind := nullable (exprWithin form depth)
  match variant.name with
  | "Integer" => .integer <$> variant.single kind
  | "Real" => .real <$> variant.single kind
  | "DoublePrecision" => variant.plain .doublePrecision
  | "Complex" => .complex <$> variant.single kind
  | "Logical" => .logical <$> variant.single kind
  | "Character" =>
    let record ← variant.record form ["len", "kind"]
    let length ← optionField record 0 "len" (charLength form depth)
    return .character length (← optionField record 1 "kind" (exprWithin form depth))
  | "Type" => .derived <$> variant.single text
  | "Class" => .polymorphic <$> variant.single text
  | _ => none

def dimSpec (json : Json) : Option DimSpec := do
  let record ← ofJson? ["start", "end"] json
  let lower ← optionField record 0 "start" (exprWithin form depth)
  return { lower, upper := ← optionField record 1 "end" (exprWithin form depth) }

def intent : Decoder Intent :=
  choice [("In", .into), ("Out", .out), ("InOut", .inout)]

def attrSpec (json : Json) : Option Attribute := do
  let variant ← ofJson? json
  match variant.name with
  | "Parameter" => variant.plain .parameter
  | "Allocatable" => variant.plain .allocatable
  | "Pointer" => variant.plain .pointer
  | "Target" => variant.plain .target
  | "Optional" => variant.plain .optional
  | "Save" => variant.plain .save
  | "Public" => variant.plain .publicAccess
  | "Private" => variant.plain .privateAccess
  | "Intent" => .intent <$> variant.single intent
  | "Dimension" => .dimension <$> variant.single (list (dimSpec form depth))
  | _ => none

def entity (json : Json) : Option Entity := do
  let record ← ofJson? ["name", "dims", "init", "span"] json
  let name ← record.required 0 "name" text
  let dims ← listField record 1 "dims" (dimSpec form depth)
  let init ← optionField record 2 "init" (exprWithin form depth)
  return { name, dims, init, span := ← spanField record 3 }

def varDecl (json : Json) : Option VarDecl := do
  let record ← ofJson? ["type_spec", "attributes", "entities", "span"] json
  let typeSpec ← record.required 0 "type_spec" (typeSpec form depth)
  let attributes ← listField record 1 "attributes" (attrSpec form depth)
  let entities ← record.required 2 "entities" (list (entity form depth))
  return { typeSpec, attributes, entities, span := ← spanField record 3 }

variable (json : Json)

def typeBoundProcedure : Option TypeBoundProcedure := do
  let record ← ofJson? ["name", "implementation", "nopass", "span"] json
  let name ← record.required 0 "name" text
  let implementation ← optionField record 1 "implementation" text
  let nopass ← record.defaulted 2 "nopass" bool false
  return { name, implementation, nopass, span := ← spanField record 3 }

def typeBoundGeneric : Option TypeBoundGeneric := do
  let record ← ofJson? ["name", "procedures", "span"] json
  let name ← record.required 0 "name" text
  let procedures ← record.required 1 "procedures" (list text)
  return { name, procedures, span := ← spanField record 2 }

def derivedTypeDecl (json : Json) : Option DerivedTypeDecl := do
  let record ← ofJson?
    ["name", "extends", "access", "components", "procedures", "generics", "span"] json
  let name ← record.required 0 "name" text
  let parent ← optionField record 1 "extends" text
  let access ← optionField record 2 "access" (attrSpec form depth)
  let components ← listField record 3 "components" (varDecl form depth)
  let procedures ← listField record 4 "procedures" typeBoundProcedure
  let generics ← listField record 5 "generics" typeBoundGeneric
  return { name, parent, access, components, procedures, generics, span := ← spanField record 6 }

def interfaceHeader : Option InterfaceHeader := do
  let variant ← ofJson? json
  match variant.name with
  | "Plain" => variant.plain .plain
  | "Generic" => .generic <$> variant.single text
  | "Operator" => .operator <$> variant.single text
  | _ => none

def useSymbol : Option UseSymbol := do
  let record ← ofJson? ["remote", "local"] json
  let remote ← record.required 0 "remote" text
  return { remote, localName := ← optionField record 1 "local" text }

def useStmt : Option Use := do
  let record ← ofJson? ["module", "only", "span"] json
  let moduleName ← record.required 0 "module" text
  let only ← optionField record 1 "only" (list useSymbol)
  return { moduleName, only, span := ← spanField record 2 }

def letterRange : Option LetterRange := do
  let record ← ofJson? ["start", "end"] json
  let first ← record.required 0 "start" char
  return { first, last := ← optionField record 1 "end" char }

def implicitStmt (json : Json) : Option ImplicitStmt := do
  let variant ← ofJson? json
  match variant.name with
  | "None" => variant.plain .none
  | "Rule" =>
    let record ← variant.record form ["type_spec", "ranges", "span"]
    let spec ← record.required 0 "type_spec" (typeSpec form depth)
    let ranges ← record.required 1 "ranges" (list letterRange)
    return .rule spec ranges (← spanField record 2)
  | _ => none

def association (json : Json) : Option Association := do
  let record ← ofJson? ["name", "expr"] json
  let name ← record.required 0 "name" text
  return { name, expr := ← record.required 1 "expr" (exprWithin form depth) }

def subprogramKind : Decoder SubprogramKind :=
  choice [("Function", .function), ("Subroutine", .subroutine)]

mutual

def subprogramWithin (form : FieldForm) : Nat → Decoder Subprogram
  | 0, _ => none
  | fuel + 1, json => do
    let record ← ofJson?
      ["kind", "name", "args", "prefix_type", "result", "uses", "implicit", "decls", "body",
        "contains", "span"] json
    let kind ← record.required 0 "kind" subprogramKind
    let name ← record.required 1 "name" text
    let args ← listField record 2 "args" text
    let resultType ← optionField record 3 "prefix_type" (typeSpec form fuel)
    let resultName ← optionField record 4 "result" text
    let uses ← listField record 5 "uses" useStmt
    let implicits ← listField record 6 "implicit" (implicitStmt form fuel)
    let decls ← listField record 7 "decls" (declWithin form fuel)
    let body ← listField record 8 "body" (stmtWithin form fuel)
    let contained ← listField record 9 "contains" (subprogramWithin form fuel)
    let span ← spanField record 10
    return {
      kind, name, args, resultType, resultName, uses, implicits, decls, body, contained, span }

def declWithin (form : FieldForm) : Nat → Decoder Decl
  | 0, _ => none
  | fuel + 1, json => do
    let variant ← ofJson? json
    match variant.name with
    | "Var" => .var <$> variant.single (varDecl form fuel)
    | "Attribute" =>
      let record ← variant.record form ["attr", "names", "span"]
      let attr ← record.required 0 "attr" (attrSpec form fuel)
      let names ← listField record 1 "names" text
      return .attributeStmt attr names (← spanField record 2)
    | "DerivedType" => .derivedType <$> variant.single (derivedTypeDecl form fuel)
    | "Interface" =>
      let record ← variant.single (ofJson? ["header", "items", "span"])
      let header ← record.defaulted 0 "header" interfaceHeader .plain
      let items ← record.required 1 "items" (list (interfaceItemWithin form fuel))
      return .interface header items (← spanField record 2)
    | _ => none

def interfaceItemWithin (form : FieldForm) : Nat → Decoder InterfaceItem
  | 0, _ => none
  | fuel + 1, json => do
    let variant ← ofJson? json
    match variant.name with
    | "ModuleProcedure" => .moduleProcedure <$> variant.single (list text)
    | "Body" => .body <$> variant.single (subprogramWithin form fuel)
    | _ => none

def stmtWithin (form : FieldForm) : Nat → Decoder Stmt
  | 0, _ => none
  | fuel + 1, json => do
    let variant ← ofJson? json
    match variant.name with
    | "Assign" =>
      let record ← variant.record form ["target", "value", "span"]
      let target ← record.required 0 "target" (exprWithin form fuel)
      let value ← record.required 1 "value" (exprWithin form fuel)
      return .assign target value (← spanField record 2)
    | "If" =>
      let record ← variant.record form ["cond", "then_body", "else_body", "span"]
      let cond ← record.required 0 "cond" (exprWithin form fuel)
      let thenBody ← record.required 1 "then_body" (list (stmtWithin form fuel))
      let elseBody ← optionField record 2 "else_body" (list (stmtWithin form fuel))
      let _ ← spanField record 3
      return .branch cond thenBody elseBody
    | "Do" =>
      let record ← variant.record form ["var", "start", "end", "step", "body", "span"]
      let var ← record.required 0 "var" text
      let start ← record.required 1 "start" (exprWithin form fuel)
      let stop ← record.required 2 "end" (exprWithin form fuel)
      let step ← optionField record 3 "step" (exprWithin form fuel)
      let body ← record.required 4 "body" (list (stmtWithin form fuel))
      return .loop var start stop step body (← spanField record 5)
    | "DoWhile" =>
      let record ← variant.record form ["cond", "body", "span"]
      let cond ← record.required 0 "cond" (exprWithin form fuel)
      let body ← record.required 1 "body" (list (stmtWithin form fuel))
      let _ ← spanField record 2
      return .loopWhile cond body
    | "Call" =>
      let record ← variant.record form ["receiver", "name", "args", "span"]
      let receiver ← listField record 0 "receiver" text
      let name ← record.required 1 "name" text
      let args ← listField record 2 "args" (argWithin form fuel)
      return .call receiver name args (← spanField record 3)
    | "Print" =>
      let record ← variant.record form ["items", "span"]
      let items ← record.required 0 "items" (list (exprWithin form fuel))
      let _ ← spanField record 1
      return .print items
    | "Return" =>
      let record ← variant.record form ["span"]
      let _ ← spanField record 0
      return .returnStmt
    | "Exit" =>
      let record ← variant.record form ["span"]
      return .exit (← spanField record 0)
    | "Cycle" =>
      let record ← variant.record form ["span"]
      return .cycle (← spanField record 0)
    | "Stop" =>
      let record ← variant.record form ["code", "span"]
      let code ← optionField record 0 "code" (exprWithin form fuel)
      return .stop code (← spanField record 1)
    | "Block" =>
      let record ← variant.record form ["decls", "body", "span"]
      let decls ← listField record 0 "decls" (declWithin form fuel)
      let body ← record.required 1 "body" (list (stmtWithin form fuel))
      return .block decls body (← spanField record 2)
    | "Associate" =>
      let record ← variant.record form ["associations", "body", "span"]
      let associations ← record.required 0 "associations" (list (association form fuel))
      let body ← record.required 1 "body" (list (stmtWithin form fuel))
      return .associate associations body (← spanField record 2)
    | _ => none

end

def moduleUnit (json : Json) : Option Module := do
  let record ← ofJson? ["name", "uses", "implicit", "decls", "contains", "span"] json
  let name ← record.required 0 "name" text
  let uses ← listField record 1 "uses" useStmt
  let implicits ← listField record 2 "implicit" (implicitStmt form depth)
  let decls ← listField record 3 "decls" (declWithin form depth)
  let contained ← listField record 4 "contains" (subprogramWithin form depth)
  return { name, uses, implicits, decls, contained, span := ← spanField record 5 }

def programUnit (json : Json) : Option Program := do
  let record ← ofJson? ["name", "uses", "implicit", "decls", "body", "contains", "span"] json
  let name ← record.required 0 "name" text
  let uses ← listField record 1 "uses" useStmt
  let implicits ← listField record 2 "implicit" (implicitStmt form depth)
  let decls ← listField record 3 "decls" (declWithin form depth)
  let body ← listField record 4 "body" (stmtWithin form depth)
  let contained ← listField record 5 "contains" (subprogramWithin form depth)
  return { name, uses, implicits, decls, body, contained, span := ← spanField record 6 }

def unit (json : Json) : Option ProgramUnit := do
  let variant ← ofJson? json
  match variant.name with
  | "Module" => .moduleUnit <$> variant.single (moduleUnit form depth)
  | "Program" => .programUnit <$> variant.single (programUnit form depth)
  | "Subprogram" => .subprogramUnit <$> variant.single (subprogramWithin form depth)
  | _ => none

end Decoder

def CompilationUnit.ofJson? (form : FieldForm) (json : Json) : Option CompilationUnit := do
  let record ← Record.ofJson? ["items"] json
  let unit := Decoder.unit form json.depth
  return { items := ← record.required 0 "items" (FortranSemantics.Decoder.list unit) }

def Expr.ofJson? (form : FieldForm) (json : Json) : Option Expr :=
  Decoder.exprWithin form (json.depth + 1) json

def TypeSpec.ofJson? (form : FieldForm) (json : Json) : Option TypeSpec :=
  Decoder.typeSpec form (json.depth + 1) json

/-- Reads the letters of an implicit rule. -/
def LetterRange.ofJson? (json : Json) : Option LetterRange :=
  Decoder.letterRange json

end FortranSemantics.Tree
